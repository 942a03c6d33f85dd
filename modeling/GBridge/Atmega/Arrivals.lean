/-
# However the bytes arrive

`gbridge_loop` returns wherever a byte is missing and comes back to the same place on a later call.
What it makes of a number of bytes should therefore not depend on when they arrive: all in one go,
one by one between the calls, or while a call runs.  `visits_confluent` says so of any two schedules
of the same bytes on which no timeout passes.

A call is a number of steps of `Line.next` (`Turns`), and three facts about one step carry the
argument:

* `Line.next_more`: a step that can be taken can still be taken, with the same effect, when more
  bytes are waiting behind; so all of them might as well have been there from the start;
* `Line.next_timeless`: no step looks at `processing_cmd_time` or `waiting_cmd_time`, which serve
  the timeouts alone;
* `Line.next_measure`: every step takes a byte or ends the command that is under way, so that there
  is an end to it.

Then there is nothing left to choose: the two schedules have both run one deterministic machine,
`Line.step`, until it stopped (`Turns.confluent`).  That it has stopped is not assumed of the
variables but of one further call, which changes nothing (`Live.Settled`).
-/
import GBridge.Atmega.Turns
import Mathlib.Computability.StateTransition

namespace GBridge.Atmega

open Prog Bytes

/-! ## 1. More bytes, and no times -/

namespace Line

/-- More bytes are waiting. -/
def more (l : Line) (bs : List UInt8) : Line := { l with rx := l.rx ++ bs }

@[simp] theorem more_g (l : Line) (bs : List UInt8) : (l.more bs).g = l.g := rfl

end Line

/-- The variables without the two timestamps. -/
def State.timeless (g : State) : State := { g with processingCmdTime := 0, waitingCmdTime := 0 }

namespace Line

/-- The line without the two timestamps. -/
def timeless (l : Line) : Line := { l with g := l.g.timeless }

variable {l l' : Line} {bs : List UInt8}

/-! ## 2. A step does not depend on what arrives later -/

theorem nextHandshake_more (h : l.nextHandshake = some l') :
    (l.more bs).nextHandshake = some (l'.more bs) := by
  unfold nextHandshake at h ⊢
  unfold more
  cases hrx : l.rx with
  | nil =>
    rw [hrx] at h
    cases h
  | cons c rx =>
    rw [hrx] at h
    simp only [List.cons_append] at h ⊢
    split at h
    · rename_i hc
      rw [if_pos hc]
      cases h
      rfl
    rename_i hc
    rw [if_neg hc]
    split at h
    · rename_i hp
      rw [if_pos hp]
      cases h
      rfl
    · rename_i hp
      rw [if_neg hp]
      cases h
      rfl

theorem nextCommand_more {now : UInt32} (h : l.nextCommand now = some l') :
    (l.more bs).nextCommand now = some (l'.more bs) := by
  unfold nextCommand at h ⊢
  unfold more
  cases hrx : l.rx with
  | nil =>
    rw [hrx] at h
    cases h
  | cons c rx =>
    rw [hrx] at h
    simp only [List.cons_append] at h ⊢
    split at h
    · rename_i hc
      rw [if_pos hc]
      cases h
      rfl
    rename_i hc
    rw [if_neg hc]
    split at h
    · rename_i hw
      rw [if_pos hw]
      split at h
      · rename_i hack
        rw [if_pos hack]
        cases h
        rfl
      · rename_i hack
        rw [if_neg hack]
        cases h
        rfl
    · rename_i hw
      rw [if_neg hw]
      cases h
      rfl

theorem nextChecksum_more {data : GbridgeData} {accepted : State}
    (h : l.nextChecksum data accepted = some l') :
    (l.more bs).nextChecksum data accepted = some (l'.more bs) := by
  unfold nextChecksum at h ⊢
  unfold more
  split at h
  · rename_i hi lo rx hrx
    simp only [hrx, List.cons_append]
    split at h
    · rename_i hsum
      rw [if_pos hsum]
      cases h
      rfl
    · rename_i hsum
      rw [if_neg hsum]
      cases h
      rfl
  · cases h

theorem nextByte_more {put : UInt8 → State} {full : State → Bool} {finish : State → State}
    (h : l.nextByte put full finish = some l') :
    (l.more bs).nextByte put full finish = some (l'.more bs) := by
  unfold nextByte at h ⊢
  unfold more
  cases hrx : l.rx with
  | nil =>
    rw [hrx] at h
    cases h
  | cons c rx =>
    rw [hrx] at h
    cases h
    rfl

theorem nextDataPc_more (h : l.nextDataPc = some l') :
    (l.more bs).nextDataPc = some (l'.more bs) := by
  unfold nextDataPc at h ⊢
  rw [more_g]
  split at h
  · rename_i hready
    rw [if_pos hready]
    cases h
    rfl
  rename_i hready
  rw [if_neg hready]
  split at h
  · rename_i h0
    rw [if_pos h0]
    unfold nextDataLen at h ⊢
    unfold more
    cases hrx : l.rx with
    | nil =>
      rw [hrx] at h
      cases h
    | cons c rx =>
      rw [hrx] at h
      simp only [List.cons_append] at h ⊢
      split at h
      · rename_i hbig
        rw [if_pos hbig]
        cases h
        rfl
      · rename_i hfits
        rw [if_neg hfits]
        cases h
        rfl
  rename_i h0
  rw [if_neg h0]
  split at h
  · rename_i h1
    rw [if_pos h1]
    exact nextByte_more h
  rename_i h1
  rw [if_neg h1]
  split at h
  · rename_i h2
    rw [if_pos h2]
    exact nextChecksum_more h
  · cases h

theorem nextStreamPc_more (h : l.nextStreamPc = some l') :
    (l.more bs).nextStreamPc = some (l'.more bs) := by
  unfold nextStreamPc at h ⊢
  rw [more_g]
  split at h
  · rename_i hmax
    rw [if_pos hmax]
    cases h
    rfl
  rename_i hmax
  rw [if_neg hmax]
  split at h
  · rename_i h0
    rw [if_pos h0]
    unfold nextStreamLen at h ⊢
    unfold more
    split at h
    · rename_i hi lo rx hrx
      simp only [hrx, List.cons_append] at h ⊢
      split at h
      · rename_i hbig
        rw [if_pos hbig]
        cases h
        rfl
      · rename_i hfits
        rw [if_neg hfits]
        cases h
        rfl
    · cases h
  rename_i h0
  rw [if_neg h0]
  split at h
  · rename_i h1
    rw [if_pos h1]
    exact nextByte_more h
  rename_i h1
  rw [if_neg h1]
  split at h
  · rename_i h2
    rw [if_pos h2]
    exact nextChecksum_more h
  · cases h

/-- **A step that can be taken is the same with more bytes behind it.** -/
theorem next_more {now : UInt32} (h : l.next now = some l') :
    (l.more bs).next now = some (l'.more bs) := by
  unfold next at h ⊢
  rw [more_g]
  split at h
  · rename_i hdown
    rw [if_pos hdown]
    exact nextHandshake_more h
  rename_i hup
  rw [if_neg hup]
  split at h
  · rename_i hnone
    rw [if_pos hnone]
    exact nextCommand_more h
  rename_i hnone
  rw [if_neg hnone]
  split at h
  · rename_i hreset
    rw [if_pos hreset]
    cases h
    rfl
  rename_i hreset
  rw [if_neg hreset]
  split at h
  · rename_i hdata
    rw [if_pos hdata]
    exact nextDataPc_more h
  rename_i hdata
  rw [if_neg hdata]
  split at h
  · rename_i hstream
    rw [if_pos hstream]
    exact nextStreamPc_more h
  · rename_i hstream
    rw [if_neg hstream]
    cases h
    rfl

/-! ## 3. No step looks at the times -/

theorem nextHandshake_timeless (l : Line) :
    l.timeless.nextHandshake = l.nextHandshake.map timeless := by
  unfold nextHandshake
  cases hrx : l.rx with
  | nil => simp only [timeless, hrx, Option.map_none]
  | cons c rx =>
    simp only [timeless, hrx, apply_ite (Option.map timeless), Option.map_some]
    rfl

theorem nextCommand_timeless (l : Line) (now : UInt32) :
    (l.timeless.nextCommand 0).map timeless = (l.nextCommand now).map timeless := by
  unfold nextCommand
  cases hrx : l.rx with
  | nil => simp only [timeless, hrx, Option.map_none]
  | cons c rx =>
    simp only [timeless, hrx, apply_ite (Option.map timeless), Option.map_some]
    rfl

theorem nextChecksum_timeless (l : Line) (data : GbridgeData) (accepted : State) :
    l.timeless.nextChecksum data accepted.timeless =
      (l.nextChecksum data accepted).map timeless := by
  unfold nextChecksum
  rcases hrx : l.rx with _ | ⟨hi, _ | ⟨lo, rx⟩⟩
  · simp only [timeless, hrx, Option.map_none]
  · simp only [timeless, hrx, Option.map_none]
  · simp only [timeless, hrx, apply_ite (Option.map timeless), Option.map_some]
    rfl

theorem nextByte_timeless (l : Line) {put put' : UInt8 → State} {full : State → Bool}
    {finish : State → State} (hput : ∀ c, put' c = (put c).timeless)
    (hfull : ∀ g : State, full g.timeless = full g)
    (hfinish : ∀ g : State, finish g.timeless = (finish g).timeless) :
    l.timeless.nextByte put' full finish = (l.nextByte put full finish).map timeless := by
  unfold nextByte
  cases hrx : l.rx with
  | nil => simp only [timeless, hrx, Option.map_none]
  | cons c rx =>
    simp only [timeless, hrx, Option.map_some, hput, hfull, hfinish, apply_ite State.timeless]

theorem nextDataPc_timeless (l : Line) : l.timeless.nextDataPc = l.nextDataPc.map timeless := by
  unfold nextDataPc
  simp only [apply_ite (Option.map timeless), Option.map_some, Option.map_none]
  refine ite_congr rfl (fun _ => rfl) fun _ => ite_congr rfl (fun _ => ?_) fun _ =>
    ite_congr rfl (fun _ => ?_) fun _ => ite_congr rfl (fun _ => ?_) fun _ => rfl
  · unfold nextDataLen
    cases hrx : l.rx with
    | nil => simp only [timeless, hrx, Option.map_none]
    | cons c rx =>
      simp only [timeless, hrx, apply_ite (Option.map timeless), Option.map_some]
      rfl
  · exact nextByte_timeless l (fun _ => rfl) (fun _ => rfl) fun _ => rfl
  · exact nextChecksum_timeless l l.g.data { l.g with dataReady := true }

theorem nextStreamPc_timeless (l : Line) :
    l.timeless.nextStreamPc = l.nextStreamPc.map timeless := by
  unfold nextStreamPc
  simp only [apply_ite (Option.map timeless), Option.map_some, Option.map_none]
  refine ite_congr rfl (fun _ => rfl) fun _ => ite_congr rfl (fun _ => ?_) fun _ =>
    ite_congr rfl (fun _ => ?_) fun _ => ite_congr rfl (fun _ => ?_) fun _ => rfl
  · unfold nextStreamLen
    rcases hrx : l.rx with _ | ⟨hi, _ | ⟨lo, rx⟩⟩
    · simp only [timeless, hrx, Option.map_none]
    · simp only [timeless, hrx, Option.map_none]
    · simp only [timeless, hrx, apply_ite (Option.map timeless), Option.map_some]
      rfl
  · exact nextByte_timeless l (fun _ => rfl) (fun _ => rfl) fun _ => rfl
  · exact nextChecksum_timeless l l.g.streamRecv { l.g with streamMaxSize := 0 }

/-- **A step does not depend on the times, nor on what the timer says.** -/
theorem next_timeless (l : Line) (now : UInt32) :
    (l.timeless.next 0).map timeless = (l.next now).map timeless := by
  unfold next
  simp only [apply_ite (Option.map timeless)]
  refine ite_congr rfl (fun _ => ?_) fun _ => ite_congr rfl (fun _ => ?_) fun _ =>
    ite_congr rfl (fun _ => rfl) fun _ => ite_congr rfl (fun _ => ?_) fun _ =>
      ite_congr rfl (fun _ => ?_) fun _ => rfl
  · rw [nextHandshake_timeless, Option.map_map]
    rfl
  · exact nextCommand_timeless l now
  · rw [nextDataPc_timeless, Option.map_map]
    rfl
  · rw [nextStreamPc_timeless, Option.map_map]
    rfl

/-! ## 4. The machine -/

/-- A step of the receiver, as a machine that knows no time. -/
def step (l : Line) : Option Line := (l.next 0).map timeless

theorem step_timeless (l : Line) (now : UInt32) :
    l.timeless.step = (l.next now).map timeless := next_timeless l now

/-- A step takes bytes, or is done with the command. -/
def Spends (l l' : Line) : Prop :=
  l'.rx.length < l.rx.length ∨
    l'.rx = l.rx ∧ l.g.processingCmd ≠ Cmd.none ∧ l'.g.processingCmd = Cmd.none

theorem nextHandshake_spends (h : l.nextHandshake = some l') : l.Spends l' := by
  left
  unfold nextHandshake at h
  split at h
  · cases h
  rename_i hrx
  rw [hrx]
  split at h
  · cases h
    exact Nat.lt_succ_self _
  · split at h <;> cases h <;> exact Nat.lt_succ_self _

theorem nextCommand_spends {now : UInt32} (h : l.nextCommand now = some l') : l.Spends l' := by
  left
  unfold nextCommand at h
  split at h
  · cases h
  rename_i hrx
  rw [hrx]
  split at h
  · cases h
    exact Nat.lt_succ_self _
  split at h
  · split at h <;> cases h <;> exact Nat.lt_succ_self _
  · cases h
    exact Nat.lt_succ_self _

theorem nextChecksum_spends {data : GbridgeData} {accepted : State}
    (h : l.nextChecksum data accepted = some l') : l.Spends l' := by
  left
  unfold nextChecksum at h
  split at h
  · rename_i hrx
    rw [hrx]
    split at h <;> cases h <;> simp only [List.length_cons] <;> omega
  · cases h

theorem nextByte_spends {put : UInt8 → State} {full : State → Bool} {finish : State → State}
    (h : l.nextByte put full finish = some l') : l.Spends l' := by
  left
  unfold nextByte at h
  split at h
  · cases h
  · rename_i hrx
    rw [hrx]
    cases h
    exact Nat.lt_succ_self _

theorem nextDataPc_spends (hsome : l.g.processingCmd ≠ Cmd.none) (h : l.nextDataPc = some l') :
    l.Spends l' := by
  unfold nextDataPc at h
  split at h
  · cases h
    exact .inr ⟨rfl, hsome, rfl⟩
  split at h
  · left
    unfold nextDataLen at h
    split at h
    · cases h
    · rename_i hrx
      rw [hrx]
      split at h <;> cases h <;> exact Nat.lt_succ_self _
  split at h
  · exact nextByte_spends h
  split at h
  · exact nextChecksum_spends h
  · cases h

theorem nextStreamPc_spends (hsome : l.g.processingCmd ≠ Cmd.none)
    (h : l.nextStreamPc = some l') : l.Spends l' := by
  unfold nextStreamPc at h
  split at h
  · cases h
    exact .inr ⟨rfl, hsome, rfl⟩
  split at h
  · left
    unfold nextStreamLen at h
    split at h
    · rename_i hrx
      rw [hrx]
      simp only at h
      split at h <;> cases h <;> simp only [List.length_cons] <;> omega
    · cases h
  split at h
  · exact nextByte_spends h
  split at h
  · exact nextChecksum_spends h
  · cases h

theorem next_spends {now : UInt32} (h : l.next now = some l') : l.Spends l' := by
  unfold next at h
  split at h
  · exact nextHandshake_spends h
  split at h
  · exact nextCommand_spends h
  rename_i hsome
  split at h
  · cases h
    exact .inr ⟨rfl, hsome, rfl⟩
  split at h
  · exact nextDataPc_spends hsome h
  split at h
  · exact nextStreamPc_spends hsome h
  · cases h
    exact .inr ⟨rfl, hsome, rfl⟩

/-- How much there is left to do: a byte may start a command, and a command has an end. -/
def measure (l : Line) : Nat := 2 * l.rx.length + if l.g.processingCmd = Cmd.none then 0 else 1

/-- **Every step leaves less to do.** -/
theorem next_measure {now : UInt32} (h : l.next now = some l') : l'.measure < l.measure := by
  unfold measure
  rcases next_spends h with hlt | ⟨hrx, hsome, hnone⟩
  · split <;> split <;> omega
  · rw [hrx, if_neg hsome, if_pos hnone]
    omega

end Line

/-- Steps with nothing arriving leave less and less to do. -/
theorem Turns.measure {n : Nat} {bs : List UInt8} {l l' : Line} (h : Turns l n bs l')
    (hbs : bs = []) : l'.measure + n ≤ l.measure := by
  induction h with
  | refl => exact Nat.le_refl _
  | next now _ hnext ih =>
    have := ih hbs
    have := Line.next_measure hnext
    omega
  | @hear n bs l₁ more _ ih =>
    obtain ⟨rfl, rfl⟩ := List.append_eq_nil_iff.mp hbs
    simpa [Line.measure] using ih rfl

/-- No step has been taken: bytes have arrived. -/
theorem Turns.no_step {n : Nat} {bs : List UInt8} {l l' : Line} (h : Turns l n bs l')
    (h0 : n = 0) : l' = l.more bs := by
  induction h with
  | refl => exact (congrArg (Line.mk l.g · l.tx) (List.append_nil l.rx)).symm
  | next => exact absurd h0 (Nat.succ_ne_zero _)
  | @hear n bs l₁ more _ ih =>
    rw [ih h0]
    unfold Line.more
    rw [List.append_assoc]

/-- **Steps taken while the bytes arrive are steps of the machine that has had them all from the
start.** -/
theorem Turns.reaches {n : Nat} {bs : List UInt8} {l l' : Line} (h : Turns l n bs l') :
    ∀ rest, StateTransition.Reaches Line.step (l.more (bs ++ rest)).timeless
      (l'.more rest).timeless := by
  induction h with
  | refl => exact fun rest => .refl
  | @next n bs l₁ l₂ now _ hnext ih =>
    intro rest
    have hstep : (l₁.more rest).timeless.step = some (l₂.more rest).timeless := by
      rw [Line.step_timeless _ now, Line.next_more hnext]
      rfl
    exact .tail (ih rest) hstep
  | @hear n bs l₁ more _ ih =>
    intro rest
    have hmore : Line.more { l₁ with rx := l₁.rx ++ more } rest = l₁.more (more ++ rest) := by
      unfold Line.more
      rw [List.append_assoc]
    rw [List.append_assoc, hmore]
    exact ih (more ++ rest)

/-- **The same bytes, taken until nothing is left to do, leave the same.** -/
theorem Turns.confluent {n₁ n₂ : Nat} {bs : List UInt8} {l l₁ l₂ : Line}
    (h₁ : Turns l n₁ bs l₁) (h₂ : Turns l n₂ bs l₂) (hend₁ : l₁.next 0 = none)
    (hend₂ : l₂.next 0 = none) : l₁.timeless = l₂.timeless := by
  have hhalt : ∀ {n : Nat} {l' : Line}, Turns l n bs l' → l'.next 0 = none →
      l'.timeless ∈ StateTransition.eval Line.step (l.more bs).timeless := by
    intro n l' h hend
    refine StateTransition.mem_eval.mpr ⟨?_, ?_⟩
    · have hreach := h.reaches []
      rw [List.append_nil] at hreach
      simpa [Line.more] using hreach
    · rw [Line.step_timeless l' 0, hend]
      rfl
  exact Part.mem_unique (hhalt h₁ hend₁) (hhalt h₂ hend₂)

/-! ## 5. Schedules -/

/-- A call of `gbridge_loop`: what has arrived when it begins, and what arrives while it runs. -/
structure Visit where
  arrived : List UInt8
  surroundings : Surroundings

/-- Call `gbridge_loop` again and again. -/
def Visits : List Visit → Live → Live → Prop
  | [], w, w' => w = w'
  | v :: vs, w, w' => ∃ w₁, Eval (live v.surroundings) gbridgeLoop (w.hear v.arrived) () w₁ ∧
      Visits vs w₁ w'

/-- A further call in which nothing arrives and no timeout passes changes nothing but times. -/
def Live.Settled (w : Live) : Prop :=
  ∃ env w', Eval (live env) gbridgeLoop w () w' ∧ w'.heard = w.heard ∧ w'.late = false ∧
    w'.line.timeless = w.line.timeless

theorem eval_gbridgeLoop {env : Surroundings} {w w' : Live}
    (h : Eval (live env) gbridgeLoop w () w') : Looped False w w' :=
  wpre_eval (Q := fun _ w' => Looped False w w') (Spec.guarded_sound _ _)
    (wpL_gbridgeLoop env.enough_false False.elim) h

/-- What has not been late has moved on. -/
theorem Looped.on_time {safe : Prop} {w w' : Live} (h : Looped safe w w')
    (hlate : w'.late = false) : Moved safe w w' := by
  cases h with
  | moved hm => exact hm
  | timeout _ _ _ _ _ _ hl => exact absurd (hlate.symm.trans hl) (by decide)

theorem Visits.went : ∀ {vs : List Visit} {w w' : Live}, Visits vs w w' → w'.late = false →
    ∃ n, Went False w n w'
  | [], w, _, rfl, _ => ⟨0, .refl w⟩
  | v :: vs, w, w', ⟨w₁, hloop, hrest⟩, hlate => by
    obtain ⟨m, hwent'⟩ := Visits.went hrest hlate
    obtain ⟨n, hwent, -⟩ := (eval_gbridgeLoop hloop).on_time (hwent'.late.symm.trans hlate)
    exact ⟨_, ((Went.hear w v.arrived w.looks).trans hwent).trans hwent'⟩

theorem Went.heard {n : Nat} {w w' : Live} (h : Went False w n w') {bs : List UInt8}
    (hheard : w'.heard = w.heard ++ bs) : Turns w.line n bs w'.line := by
  obtain ⟨bs', hheard', hturns⟩ := h.turns
  obtain rfl : bs' = bs := List.append_cancel_left (hheard'.symm.trans hheard)
  exact hturns

/-- In a settled world there is nothing to do: any step would have left less to do. -/
theorem Live.Settled.stuck {w : Live} (h : w.Settled) : w.line.next 0 = none := by
  obtain ⟨env, w', hloop, hheard, hlate, hsame⟩ := h
  obtain ⟨n, hwent, hstuck⟩ := (eval_gbridgeLoop hloop).on_time hlate
  have hturns := hwent.heard (hheard.trans (List.append_nil _).symm)
  have hmeasure : w'.line.timeless.measure = w.line.timeless.measure := by rw [hsame]
  obtain rfl : n = 0 := by
    have hspent : w'.line.timeless.measure + n ≤ w.line.timeless.measure := hturns.measure rfl
    omega
  have hnone : w'.line.timeless.step = none := by
    rw [Line.step_timeless _ 0, hstuck rfl 0]
    rfl
  rw [hsame, Line.step_timeless _ 0] at hnone
  exact Option.map_eq_none_iff.mp hnone

/-- **Two schedules of the same bytes leave the same**: the variables, the timestamps aside, the
bytes unread and the bytes sent.

A schedule says how the bytes arrive, between the calls of `gbridge_loop` or while one runs.  No
timeout passes in either, and when both are over there is nothing left to do. -/
theorem visits_confluent (w : Live) (bytes : List UInt8) (vs₁ vs₂ : List Visit) (w₁ w₂ : Live)
    (h₁ : Visits vs₁ w w₁) (h₂ : Visits vs₂ w w₂) (heard₁ : w₁.heard = w.heard ++ bytes)
    (heard₂ : w₂.heard = w.heard ++ bytes) (late₁ : w₁.late = false) (late₂ : w₂.late = false)
    (settled₁ : w₁.Settled) (settled₂ : w₂.Settled) :
    w₁.g.timeless = w₂.g.timeless ∧ w₁.rx = w₂.rx ∧ w₁.tx = w₂.tx := by
  obtain ⟨n₁, hwent₁⟩ := h₁.went late₁
  obtain ⟨n₂, hwent₂⟩ := h₂.went late₂
  have hsame := Turns.confluent (hwent₁.heard heard₁) (hwent₂.heard heard₂)
    settled₁.stuck settled₂.stuck
  exact ⟨congrArg Line.g hsame, congrArg Line.rx hsame, congrArg Line.tx hsame⟩

/-- The visits of a list, if each comes to its end. -/
def visitAll (fuel : Nat) : List Visit → Live → Option Live
  | [], w => some w
  | v :: vs, w =>
    (run (fun _ e w => some (liveAnswer v.surroundings e w)) fuel gbridgeLoop
      (w.hear v.arrived)).bind fun r => visitAll fuel vs r.2

theorem Visits.of_visitAll {fuel : Nat} : ∀ {vs : List Visit} {w w' : Live},
    visitAll fuel vs w = some w' → Visits vs w w'
  | [], _, _, h => Option.some.inj h
  | v :: vs, w, w', h => by
    obtain ⟨⟨⟨⟩, w₁⟩, h₁, h₂⟩ := Option.bind_eq_some_iff.mp h
    exact ⟨w₁, live_eval h₁, Visits.of_visitAll h₂⟩

/-- Nothing arrives, and time stands still. -/
def Surroundings.still : Surroundings := ⟨fun _ => [], fun _ => 0⟩

/-- The handshake, and a DATA_PC packet with one byte. -/
def linkAndPacket : List UInt8 := handshake ++ [Cmd.dataPc, 1, 7, 0, 7]

/-- All at once, and then a call for each byte. -/
def atOnce : List Visit := ⟨linkAndPacket, .still⟩ :: List.replicate 4 ⟨[], .still⟩

/-- A byte with each call. -/
def byteByByte : List Visit := linkAndPacket.map fun c => ⟨[c], .still⟩

/-- Whether the visits come to their end with these bytes heard, a packet ready, and nothing that a
further call would do. -/
def endsWith (bytes : List UInt8) (vs : List Visit) : Bool :=
  ((visitAll 20 vs { g := {} }).bind fun w => (visitAll 20 [⟨[], .still⟩] w).map fun w' =>
    decide (w.heard = bytes ∧ w.late = false ∧ w.g.dataReady = true ∧ w'.heard = w.heard ∧
      w'.late = false ∧ w'.g.timeless = w.g.timeless ∧ w'.rx = w.rx ∧ w'.tx = w.tx)) = some true

theorem endsWith_visits (bytes : List UInt8) (vs : List Visit) (h : endsWith bytes vs = true) :
    ∃ w, Visits vs { g := {} } w ∧ w.heard = bytes ∧ w.late = false ∧ w.g.dataReady = true ∧
      w.Settled := by
  obtain ⟨w, hw, hrest⟩ := Option.bind_eq_some_iff.mp (of_decide_eq_true h)
  obtain ⟨w', hw', hsame⟩ := Option.map_eq_some_iff.mp hrest
  obtain ⟨hheard, hlate, hready, hheard', hlate', hg, hrx, htx⟩ := of_decide_eq_true hsame
  obtain ⟨w₁, hloop, rfl⟩ := Visits.of_visitAll hw'
  refine ⟨w, Visits.of_visitAll hw, hheard, hlate, hready, .still, w₁, ?_, hheard', hlate', ?_⟩
  · simpa [Live.hear] using hloop
  · unfold Line.timeless Live.line
    rw [hg, hrx, htx]

theorem visits_confluent_packet : ∃ w₁ w₂, Visits atOnce { g := {} } w₁ ∧
    Visits byteByByte { g := {} } w₂ ∧ w₁.g.dataReady = true ∧
      w₁.g.timeless = w₂.g.timeless ∧ w₁.rx = w₂.rx ∧ w₁.tx = w₂.tx := by
  obtain ⟨w₁, h₁, heard₁, late₁, hready, settled₁⟩ :=
    endsWith_visits linkAndPacket atOnce (by decide +kernel)
  obtain ⟨w₂, h₂, heard₂, late₂, -, settled₂⟩ :=
    endsWith_visits linkAndPacket byteByByte (by decide +kernel)
  exact ⟨w₁, w₂, h₁, h₂, hready, visits_confluent { g := {} } linkAndPacket atOnce byteByByte w₁ w₂
    h₁ h₂ heard₁ heard₂ late₁ late₂ settled₁ settled₂⟩

end GBridge.Atmega

/-
# Every call of `gbridge_loop` is a number of turns

The receiver is a coroutine written by hand: it leaves wherever a byte is missing and comes back to
the same place, with `processing_cmd_state` for its program counter.  Whatever it does in one call,
cut off wherever the bytes ran out, it has taken a number of the steps of `Line.next`; and if it has
taken none, there is none to take.  Only a timeout is not one of them.

`wpL_gbridgeLoop` says so, one lemma for each function of the source.  Each of them says where the
call leaves off (`Outcome`): the receiver wants more (0), has accepted the frame (1), or has refused
it (-1), and the callers make of it what the source does.

On the way it is seen that no store leaves its buffer and that nothing is read that is not there.
`State.Sound` is what holds between two steps: the index of the next byte is below the length, and
the length at most the size of the buffer.  `Live.Inside` is what then holds after every single
operation, in the middle of a call too.
-/
import GBridge.Atmega.Live

namespace GBridge.Atmega

open Prog Bytes

/-! ## 1. In bounds -/

/-- What holds of the variables between two steps; `limit` is the size given to the latest
`gbridge_recv_stream`. -/
structure State.Sound (limit : Nat) (g : State) : Prop where
  dataSize : g.dataSize.toNat ≤ maxDataSize
  armed : g.streamMaxSize ≠ 0 → g.streamMaxSize = limit
  /-- Both receivers store before they test, so an empty payload has room for a byte. -/
  dataCur : g.processingCmd = Cmd.dataPc → g.processingCmdState = 1 →
    g.dataLen ≤ maxDataSize ∧ g.dataCur < max g.dataLen 1
  streamSize : g.processingCmd = Cmd.streamPc → g.processingCmdState ≠ 0 →
    g.streamSize.toNat ≤ limit
  streamCur : g.processingCmd = Cmd.streamPc → g.processingCmdState = 1 →
    g.streamMaxSize ≠ 0 → g.streamCur < max g.streamSize.toNat 1

/-- A state with no command under way owes only what is said of every state. -/
theorem State.Sound.quiet {limit : Nat} {g : State} (hnone : g.processingCmd = Cmd.none)
    (hsize : g.dataSize.toNat ≤ maxDataSize)
    (harmed : g.streamMaxSize ≠ 0 → g.streamMaxSize = limit) : g.Sound limit where
  dataSize := hsize
  armed := harmed
  dataCur := fun h => absurd (hnone.symm.trans h) (by decide)
  streamSize := fun h => absurd (hnone.symm.trans h) (by decide)
  streamCur := fun h => absurd (hnone.symm.trans h) (by decide)

theorem State.init_sound (limit : Nat) (g : State) : g.init.Sound limit :=
  .quiet rfl (Nat.zero_le _) fun h => absurd rfl h

section Next

variable {limit : Nat} {l l' : Line}

theorem Line.nextHandshake_sound (h : l.g.Sound limit) (hnext : l.nextHandshake = some l') :
    l'.g.Sound limit := by
  unfold nextHandshake at hnext
  split at hnext
  · cases hnext
  · split at hnext
    · cases hnext
      exact ⟨h.dataSize, h.armed, h.dataCur, h.streamSize, h.streamCur⟩
    · split at hnext <;> cases hnext <;>
        exact ⟨h.dataSize, h.armed, h.dataCur, h.streamSize, h.streamCur⟩

theorem Line.nextCommand_sound {now : UInt32} (h : l.g.Sound limit)
    (hnext : l.nextCommand now = some l') : l'.g.Sound limit := by
  unfold nextCommand at hnext
  split at hnext
  · cases hnext
  · split at hnext
    · cases hnext
      exact h
    · split at hnext
      · split at hnext
        · cases hnext
          exact ⟨h.dataSize, h.armed, h.dataCur, h.streamSize, h.streamCur⟩
        · cases hnext
          exact h
      · cases hnext
        exact ⟨h.dataSize, h.armed, fun _ h1 => absurd h1 (by simp), fun _ h0 => absurd rfl h0,
          fun _ h1 => absurd h1 (by simp)⟩

theorem Line.nextChecksum_sound {data : GbridgeData} {accepted : State}
    (hsize : accepted.dataSize.toNat ≤ maxDataSize)
    (harmed : accepted.streamMaxSize ≠ 0 → accepted.streamMaxSize = limit)
    (hnext : l.nextChecksum data accepted = some l') : l'.g.Sound limit := by
  unfold nextChecksum at hnext
  split at hnext
  · split at hnext <;> cases hnext
    · exact l.g.init_sound limit
    · exact .quiet rfl hsize harmed
  · cases hnext

theorem Line.nextByte_sound {put : UInt8 → State} {full : State → Bool} {finish : State → State}
    (hmore : ∀ c, full (put c) = false → (put c).Sound limit)
    (hdone : ∀ c, full (put c) = true → (finish (put c)).Sound limit)
    (hnext : l.nextByte put full finish = some l') : l'.g.Sound limit := by
  unfold nextByte at hnext
  split at hnext
  · cases hnext
  · rename_i c rx _
    cases hnext
    cases hfull : full (put c) with
    | true => simpa [hfull] using hdone c hfull
    | false => simpa [hfull] using hmore c hfull

theorem Line.nextDataPc_sound (h : l.g.Sound limit) (hcmd : l.g.processingCmd = Cmd.dataPc)
    (hnext : l.nextDataPc = some l') : l'.g.Sound limit := by
  have hstream : l.g.processingCmd ≠ Cmd.streamPc := by rw [hcmd]; decide
  unfold nextDataPc at hnext
  split at hnext
  · cases hnext
    exact l.g.init_sound limit
  split at hnext
  · unfold nextDataLen at hnext
    split at hnext
    · cases hnext
    · rename_i c rx _
      split at hnext
      · cases hnext
        exact State.init_sound limit _
      · rename_i hlen
        cases hnext
        exact ⟨h.dataSize, h.armed, fun _ _ => ⟨Nat.le_of_not_lt hlen, by simp⟩,
          fun hs => absurd hs hstream, fun hs => absurd hs hstream⟩
  split at hnext
  · rename_i h1
    obtain ⟨hlen, hcur⟩ := h.dataCur hcmd h1
    refine nextByte_sound (fun c hc => ?_) (fun c _ => ?_) hnext
    · have hlt : (l.g.dataCur + 1) % 256 < l.g.dataLen := by
        exact Nat.lt_of_not_le (of_decide_eq_false hc)
      exact ⟨h.dataSize, h.armed, fun _ _ => ⟨hlen, lt_of_lt_of_le hlt (le_max_left _ _)⟩,
        fun hs => absurd hs hstream, fun hs => absurd hs hstream⟩
    · refine ⟨?_, h.armed, fun _ h2 => absurd h2 (by simp [finishData]),
        fun hs => absurd hs hstream, fun hs => absurd hs hstream⟩
      show (UInt8.ofNat l.g.dataLen).toNat ≤ maxDataSize
      rw [UInt8.toNat_ofNat_of_lt' (lt_of_le_of_lt hlen (by decide))]
      exact hlen
  split at hnext
  · refine nextChecksum_sound ?_ ?_ hnext
    · exact h.dataSize
    · exact h.armed
  · cases hnext

theorem Line.nextStreamPc_sound (h : l.g.Sound limit) (hcmd : l.g.processingCmd = Cmd.streamPc)
    (hnext : l.nextStreamPc = some l') : l'.g.Sound limit := by
  have hdata : l.g.processingCmd ≠ Cmd.dataPc := by rw [hcmd]; decide
  unfold nextStreamPc at hnext
  split at hnext
  · cases hnext
    exact l.g.init_sound limit
  rename_i hmax
  split at hnext
  · unfold nextStreamLen at hnext
    split at hnext
    · rename_i hi lo rx _
      simp only at hnext
      split at hnext
      · cases hnext
        exact State.init_sound limit _
      · rename_i hsize
        cases hnext
        exact ⟨h.dataSize, h.armed, fun hd => absurd hd hdata,
          fun _ _ => h.armed hmax ▸ Nat.le_of_not_lt hsize, fun _ _ _ => by simp⟩
    · cases hnext
  split at hnext
  · rename_i h0 h1
    refine nextByte_sound (fun c hc => ?_) (fun c _ => ?_) hnext
    · have hlt : (l.g.streamCur + 1) % 65536 < l.g.streamSize.toNat := by
        exact Nat.lt_of_not_le (of_decide_eq_false hc)
      exact ⟨h.dataSize, h.armed, fun hd => absurd hd hdata, fun _ _ => h.streamSize hcmd h0,
        fun _ _ _ => lt_of_lt_of_le hlt (le_max_left _ _)⟩
    · exact ⟨h.dataSize, h.armed, fun hd => absurd hd hdata, fun _ _ => h.streamSize hcmd h0,
        fun _ h2 => absurd h2 (by simp [finishStream])⟩
  split at hnext
  · refine nextChecksum_sound ?_ ?_ hnext
    · exact h.dataSize
    · exact fun hm => absurd rfl hm
  · cases hnext

/-- **A step keeps the bounds.** -/
theorem Line.next_sound {now : UInt32} (h : l.g.Sound limit) (hnext : l.next now = some l') :
    l'.g.Sound limit := by
  unfold next at hnext
  split at hnext
  · exact nextHandshake_sound h hnext
  split at hnext
  · exact nextCommand_sound h hnext
  split at hnext
  · cases hnext
    exact l.g.init_sound limit
  split at hnext
  · exact nextDataPc_sound h ‹_› hnext
  split at hnext
  · exact nextStreamPc_sound h ‹_› hnext
  · cases hnext
    exact .quiet rfl h.dataSize h.armed

end Next

/-- **A run of steps keeps the bounds.** -/
theorem Turns.sound {limit n : Nat} {bs : List UInt8} {l l' : Line}
    (hturns : Turns l n bs l') (h : l.g.Sound limit) : l'.g.Sound limit := by
  induction hturns with
  | refl => exact h
  | next now _ hnext ih => exact Line.next_sound ih hnext
  | hear more _ ih => exact ih

/-! ## 2. What is said of a run of the code -/

/-- Between two calls, or two steps. -/
structure Live.Sound (w : Live) : Prop where
  bounds : w.g.Sound w.limit
  fault : w.fault = false

/-- After each operation: nothing has gone wrong, and what a checksum is taken of is as long as it
may be. -/
structure Live.Inside (w : Live) : Prop where
  fault : w.fault = false
  dataSize : w.g.dataSize.toNat ≤ maxDataSize
  streamSize : w.g.processingCmd = Cmd.streamPc → w.g.processingCmdState ≠ 0 →
    w.g.streamSize.toNat ≤ w.limit

theorem Live.Sound.inside {w : Live} (h : w.Sound) : w.Inside :=
  ⟨h.fault, h.bounds.dataSize, h.bounds.streamSize⟩

/-- **Frame.**  Only these variables matter for it. -/
theorem Live.Inside.frame {w w' : Live} (h : w.Inside)
    (hsame : (w'.fault, w'.limit, w'.g.dataSize, w'.g.streamSize, w'.g.processingCmd,
      w'.g.processingCmdState) = (w.fault, w.limit, w.g.dataSize, w.g.streamSize,
        w.g.processingCmd, w.g.processingCmdState)) : w'.Inside := by
  simp only [Prod.mk.injEq] at hsame
  obtain ⟨hfault, hlimit, hdata, hstream, hcmd, hstate⟩ := hsame
  refine ⟨hfault.trans h.fault, ?_, ?_⟩
  · rw [hdata]
    exact h.dataSize
  · rw [hcmd, hstate, hstream, hlimit]
    exact h.streamSize

/-- The weakest precondition in these surroundings.  With `t` the program has to come to its end;
with `safe` every operation has to leave the adapter inside its bounds. -/
abbrev wpL (env : Surroundings) (t : Bool) (safe : Prop) {α : Type} (p : Code α)
    (Q : α → Live → Prop) (w : Live) : Prop :=
  wpre (Spec.guarded (live env) fun w => safe → w.Inside) t p Q w

/-- Nothing arrives. -/
def Surroundings.Silent (env : Surroundings) : Prop := ∀ k, env.arrive k = []

/-- What is asked of the surroundings so that a call comes to its end: the receiver takes all that
there is, and is done when nothing more arrives. -/
def Surroundings.Enough (env : Surroundings) (t : Bool) : Prop := t = true → env.Silent

theorem Surroundings.enough_false (env : Surroundings) : env.Enough false :=
  fun h => absurd h (by decide)

section Rules

variable {α β : Type} {env : Surroundings} {t : Bool} {safe : Prop} {Q : α → Live → Prop} {w : Live}

/-- Each operation has one answer. -/
@[simp] theorem wpL_op (e : Op β) (k : β → Code α) :
    wpL env t safe (.op e k) Q w ↔
      (safe → (liveAnswer env e w).2.Inside) ∧
        wpL env t safe (k (liveAnswer env e w).1) Q (liveAnswer env e w).2 := by
  constructor
  · intro h
    exact h _ _ rfl
  · rintro h b w' hs
    have hans : liveAnswer env e w = (b, w') := hs
    rw [hans] at h
    exact h

@[simp] theorem wpL_ret (a : α) : wpL env t safe (.ret a) Q w ↔ Q a w := Iff.rfl

@[simp] theorem wpL_bind (p : Code β) (f : β → Code α) :
    wpL env t safe (p.bind f) Q w ↔ wpL env t safe p (fun b w' => wpL env t safe (f b) Q w') w :=
  wpre_bind

@[simp] theorem wpL_cmd {Q : β → Live → Prop} (e : Op β) :
    wpL env t safe (cmd e) Q w ↔
      (safe → (liveAnswer env e w).2.Inside) ∧
        Q (liveAnswer env e w).1 (liveAnswer env e w).2 := wpL_op e .ret

/-- Reading the variables changes nothing. -/
theorem wpL_get (k : State → Code α) (hok : safe → w.Inside) (h : wpL env t safe (k w.g) Q w) :
    wpL env t safe (get.bind k) Q w :=
  (wpL_op (w := w) Op.get k).mpr ⟨hok, h⟩

theorem wpL_modify {Q : Unit → Live → Prop} (f : State → State) (hok : safe → w.Inside)
    (hok' : safe → Live.Inside { w with g := f w.g }) (h : Q () { w with g := f w.g }) :
    wpL env t safe (modify f) Q w :=
  wpL_get _ hok ((wpL_op (w := w) (Op.set (f w.g)) _).mpr ⟨hok', h⟩)

/-- What has arrived is read in order. -/
theorem wpL_getchar {Q : UInt8 → Live → Prop} {c : UInt8} {rx : List UInt8}
    (hok : safe → w.Inside) (hrx : w.rx = c :: rx) (h : Q c { w with rx }) :
    wpL env t safe serialGetchar Q w := by
  have hans : liveAnswer env .getchar w = (c, { w with rx }) := by simp only [liveAnswer, hrx]
  refine (wpL_cmd (w := w) Op.getchar).mpr ?_
  rw [hans]
  exact ⟨fun hs => (hok hs).frame rfl, h⟩

theorem wpL_timerGet {Q : UInt32 → Live → Prop} (hok : safe → w.Inside)
    (h : Q (env.clock w.reads) { w with reads := w.reads + 1 }) : wpL env t safe timerGet Q w :=
  (wpL_cmd (w := w) Op.timerGet).mpr ⟨fun hs => (hok hs).frame rfl, h⟩

theorem wpL_putchars {Q : Unit → Live → Prop} (cs : List UInt8) (hok : safe → w.Inside)
    (h : Q () { w with tx := w.tx ++ cs }) : wpL env t safe (serialPutchars cs) Q w := by
  induction cs generalizing w with
  | nil =>
    rw [List.append_nil] at h
    exact h
  | cons c cs ih =>
    refine (wpL_op (w := w) (Op.putchar c) _).mpr ?_
    have hok' : safe → Live.Inside { w with tx := w.tx ++ [c] } :=
      fun hs => (hok hs).frame rfl
    have h' : Q () { w with tx := w.tx ++ [c] ++ cs } := by
      rw [List.append_assoc]
      exact h
    exact ⟨hok', ih hok' h'⟩

end Rules

/-- From `w₀` the receiver has taken `n` steps. -/
structure Went (safe : Prop) (w₀ : Live) (n : Nat) (w : Live) : Prop where
  turns : ∃ bs, w.heard = w₀.heard ++ bs ∧ Turns w₀.line n bs w.line
  limit : w.limit = w₀.limit
  fault : safe → w₀.fault = false → w.fault = false
  late : w.late = w₀.late

namespace Went

variable {safe : Prop} {w₀ w w' : Live} {n m : Nat}

theorem refl (w : Live) : Went safe w 0 w where
  turns := ⟨[], (List.append_nil _).symm, .refl⟩
  limit := rfl
  fault := fun _ => id
  late := rfl

theorem trans (h : Went safe w₀ n w) (h' : Went safe w m w') : Went safe w₀ (n + m) w' := by
  obtain ⟨bs, hheard, hturns⟩ := h.turns
  obtain ⟨bs', hheard', hturns'⟩ := h'.turns
  refine ⟨⟨bs ++ bs', ?_, hturns.trans hturns'⟩, h'.limit.trans h.limit,
    fun hs hf => h'.fault hs (h.fault hs hf), h'.late.trans h.late⟩
  rw [hheard', hheard, List.append_assoc]

/-- Bytes arrive while the code looks. -/
theorem hear (w : Live) (more : List UInt8) (k : Nat) :
    Went safe w 0 { w.hear more with looks := k } where
  turns := ⟨more, rfl, .hear more .refl⟩
  limit := rfl
  fault := fun _ => id
  late := rfl

/-- One step, of which nothing else is seen. -/
theorem next (now : UInt32) (hnext : w.line.next now = some w'.line) (hheard : w'.heard = w.heard)
    (hlimit : w'.limit = w.limit) (hfault : safe → w.fault = false → w'.fault = false)
    (hlate : w'.late = w.late) : Went safe w 1 w' where
  turns := ⟨[], by rw [hheard, List.append_nil], .next now .refl hnext⟩
  limit := hlimit
  fault := hfault
  late := hlate

theorem sound (h : Went safe w₀ n w) (hs : safe) (h₀ : w₀.Sound) : w.Sound := by
  obtain ⟨bs, -, hturns⟩ := h.turns
  refine ⟨?_, h.fault hs h₀.fault⟩
  rw [h.limit]
  exact hturns.sound h₀.bounds

end Went

/-- There is nothing to do. -/
def Live.Stuck (w : Live) : Prop := ∀ now, w.line.next now = none

/-! ## 3. The receivers -/

/-- What one of the receivers has done when it returns, and what is still to be made of its
result. -/
inductive Outcome (safe : Prop) (w : Live) : Int → Live → Prop
  | pending {n : Nat} {w' : Live} : Went safe w n w' → (n = 0 → w'.Stuck) → Outcome safe w 0 w'
  | refused {n : Nat} {w' : Live} : (safe → w'.Inside) →
    Went safe w (n + 1) { w' with g := w'.g.init } → Outcome safe w (-1) w'
  | finished {n : Nat} {w' : Live} : (safe → w'.Inside) →
    Went safe w (n + 1) { w' with g := { w'.g with processingCmd := Cmd.none } } →
    Outcome safe w 1 w'

theorem Outcome.after {safe : Prop} {w₀ w w' : Live} {n : Nat} {rc : Int}
    (h : Went safe w₀ n w) (ho : Outcome safe w rc w') : Outcome safe w₀ rc w' := by
  cases ho with
  | pending hw hstuck =>
    exact .pending (h.trans hw) fun h0 => hstuck (Nat.eq_zero_of_add_eq_zero_left h0)
  | @refused m _ hi hw => exact .refused (n := n + m) hi (h.trans hw)
  | @finished m _ hi hw => exact .finished (n := n + m) hi (h.trans hw)

section Receivers

variable {env : Surroundings} {t : Bool} {safe : Prop} {w : Live}

/-- Bytes arrive, and nothing else happens. -/
theorem wpL_available {Q : Nat → Live → Prop} (hok : safe → w.Inside)
    (h : ∀ w₁, Went safe w 0 w₁ → w₁.g = w.g → (safe → w₁.Inside) →
      w₁.rx = w.rx ++ env.arrive w.looks → Q w₁.rx.length w₁) :
    wpL env t safe serialAvailable Q w := by
  refine (wpL_cmd (w := w) Op.available).mpr ?_
  have hok' : safe → Live.Inside { w.hear (env.arrive w.looks) with looks := w.looks + 1 } :=
    fun hs => (hok hs).frame rfl
  exact ⟨hok', h _ (Went.hear w _ _) rfl hok' rfl⟩

/-- `case 2` of both receivers. -/
theorem wpL_recvChecksum {data : State → GbridgeData} {cmd : UInt8} {accept : State → State}
    (hok : safe → w.Inside) (hcmd : w.g.processingCmd = cmd)
    (hnext : ∀ l : Line, l.g = w.g → ∀ now,
      l.next now = l.nextChecksum (data l.g) (accept l.g))
    (haccept : ∀ w' : Live, w'.Inside → Live.Inside { w' with g := accept w'.g }) :
    wpL env t safe (recvChecksum data cmd accept) (Outcome safe w) w := by
  refine (wpL_bind _ _).mpr (wpL_available hok fun w₁ hwent hg hok₁ _ => ?_)
  split
  · rename_i hlt
    refine Outcome.pending hwent fun _ now => ?_
    rw [hnext w₁.line hg, Line.nextChecksum]
    split
    · rename_i h lo rx hrx
      exact absurd hlt (by simp [show w₁.rx = h :: lo :: rx from hrx])
    · rfl
  · rename_i hge
    obtain ⟨h, lo, rx, hrx⟩ : ∃ h lo rx, w₁.rx = h :: lo :: rx := by
      match hrx : w₁.rx with
      | [] => simp [hrx] at hge
      | [_] => simp [hrx] at hge
      | h :: lo :: rx => exact ⟨h, lo, rx, rfl⟩
    have hok₂ : safe → Live.Inside { w₁ with rx } :=
      fun hs => (hok₁ hs).frame rfl
    have hcmd₁ : w₁.line.g.processingCmd = cmd := (congrArg State.processingCmd hg).trans hcmd
    have hstep : w₁.line.next 0 =
        if be16 h lo ≠ (data w₁.g).checksumData then some { w₁.line.reset with rx }
        else some ⟨{ accept w₁.g with processingCmd := Cmd.none }, rx, w₁.tx ++ [ack cmd]⟩ := by
      rw [hnext w₁.line hg 0, Line.nextChecksum, show w₁.line.rx = h :: lo :: rx from hrx, hcmd₁]
      rfl
    refine (wpL_bind _ _).mpr (wpL_getchar hok₁ hrx ?_)
    refine (wpL_bind _ _).mpr (wpL_getchar (fun hs => (hok₁ hs).frame rfl)
      rfl ?_)
    refine wpL_get _ hok₂ ?_
    split
    · rename_i hsum
      refine Outcome.refused (n := 0) hok₂ (hwent.trans (Went.next 0 ?_ rfl rfl
        (fun _ => id) rfl))
      exact hstep.trans (if_pos hsum)
    · rename_i hsum
      have hok₃ : safe → Live.Inside { w₁ with rx, tx := w₁.tx ++ [ack cmd] } :=
        fun hs => (hok₁ hs).frame rfl
      refine (wpL_op _ _).mpr ⟨hok₃, ?_⟩
      refine (wpL_bind _ _).mpr (wpL_modify (t := t) accept hok₃ (fun hs => haccept _ (hok₃ hs)) ?_)
      refine Outcome.finished (n := 0) (fun hs => haccept _ (hok₃ hs))
        (hwent.trans (Went.next 0 ?_ rfl rfl (fun _ => id) rfl))
      exact hstep.trans (if_neg hsum)

/-- The loop of `case 1` of both receivers: the bytes run out, or the payload is complete.  `P`
holds of the variables while it runs and `Q` when it is complete. -/
theorem wpL_recvBytesLoop {store : Nat → UInt8 → Op Unit} {cur : State → Nat}
    {advance : State → State} {full : State → Bool} {finish : State → State}
    {put : State → UInt8 → State} {P Q : State → Prop}
    (hnext : ∀ l : Line, P l.g → ∀ now, l.next now = l.nextByte (put l.g) full finish)
    (hstore : ∀ (w : Live) (c : UInt8), P w.g → (safe → w.Sound) → ∃ f,
      (safe → Live.Inside { w with g := put w.g c, fault := f }) ∧
        ∀ R : Unit → Live → Prop, R () { w with g := put w.g c, fault := f } →
          wpL env t safe (cmd (store (cur w.g) c))
            (fun _ w' => wpL env t safe (modify advance) R w') w)
    (hmore : ∀ g c, P g → full (put g c) = false → P (put g c))
    (hdone : ∀ g c, P g → full (put g c) = true → Q (finish (put g c)))
    (hq : env.Enough t) (hP : P w.g) (hsound : safe → w.Sound) :
    wpL env t safe (recvBytesLoop store cur advance full finish)
      (fun _ w' => (∃ n, Went safe w n w' ∧ P w'.g ∧ w'.rx = []) ∨
        ∃ n, Went safe w (n + 1) w' ∧ Q w'.g) w := by
  refine ⟨fun k w' => k = w'.rx.length ∧ ∃ n, Went safe w n w' ∧ P w'.g,
    ⟨_, rfl, 0, .refl w, hP⟩, ?_⟩
  rintro _ w₁ ⟨rfl, n, hwent, hP₁⟩
  have hs₁ : safe → w₁.Sound := fun hs => hwent.sound hs (hsound hs)
  refine (wpL_bind _ _).mpr (wpL_available (fun hs => (hs₁ hs).inside)
    fun w₂ hw₂ hg hok₂ hrx₂ => ?_)
  have hP₂ : P w₂.g := hg.symm ▸ hP₁
  split
  · rename_i h0
    exact .inl ⟨n, hwent.trans hw₂, hP₂, List.length_eq_zero_iff.mp h0⟩
  · rename_i h0
    obtain ⟨c, rx, hrx⟩ := List.exists_cons_of_length_pos (Nat.pos_of_ne_zero h0)
    have hs₃ : safe → Live.Sound { w₂ with rx } := fun hs =>
      ⟨(hw₂.sound hs (hs₁ hs)).bounds, (hw₂.sound hs (hs₁ hs)).fault⟩
    refine (wpL_bind _ _).mpr (wpL_getchar hok₂ hrx (wpL_get _ (fun hs => (hs₃ hs).inside) ?_))
    obtain ⟨f, hok₄, hput⟩ := hstore { w₂ with rx } c hP₂ hs₃
    refine (wpL_bind _ _).mpr (wpre_mono (fun _ w' h => (wpL_bind _ _).mpr h) (hput _ ?_))
    refine wpL_get _ hok₄ ?_
    have hbyte : w₂.line.next 0 = some { w₂.line with
        rx, g := if full (put w₂.g c) then finish (put w₂.g c) else put w₂.g c } := by
      rw [hnext w₂.line hP₂, Line.nextByte, show w₂.line.rx = c :: rx from hrx]
      rfl
    split
    · rename_i hfull
      have hstep : Went safe w₂ 1 { w₂ with rx, g := finish (put w₂.g c), fault := f } :=
        .next _ (hbyte.trans (by rw [if_pos hfull]; rfl)) rfl rfl (fun hs _ => (hok₄ hs).fault) rfl
      have hwent₃ := hwent.trans (hw₂.trans hstep)
      refine (wpL_bind _ _).mpr (wpL_modify finish hok₄
        (fun hs => (hwent₃.sound hs (hsound hs)).inside) ?_)
      exact .inr ⟨n + 0, hwent₃, hdone _ _ hP₂ hfull⟩
    · rename_i hfull
      have hstep : Went safe w₂ 1 { w₂ with rx, g := put w₂.g c, fault := f } :=
        .next _ (hbyte.trans (by rw [if_neg hfull]; rfl)) rfl rfl (fun hs _ => (hok₄ hs).fault) rfl
      -- where nothing arrives there is a byte less to read
      have hless : t = true → rx.length < w₁.rx.length := by
        intro ht
        rw [hrx, hq ht, List.append_nil] at hrx₂
        rw [← hrx₂]
        exact Nat.lt_succ_self _
      exact ⟨rx.length, hless, rfl, _, hwent.trans (hw₂.trans hstep),
        hmore _ _ hP₂ (Bool.not_eq_true _ ▸ hfull)⟩

/-- A DATA_PC packet is under way, and at this stage. -/
structure State.InDataPc (stage : Nat) (g : State) : Prop where
  connected : g.connected = true
  cmd : g.processingCmd = Cmd.dataPc
  ready : g.dataReady = false
  stage : g.processingCmdState = stage

/-- A STREAM_PC packet is under way, there is a buffer for it, and it is at this stage. -/
structure State.InStreamPc (stage : Nat) (g : State) : Prop where
  connected : g.connected = true
  cmd : g.processingCmd = Cmd.streamPc
  armed : g.streamMaxSize ≠ 0
  stage : g.processingCmdState = stage

theorem Line.next_dataPc {l : Line} (hc : l.g.connected = true)
    (hcmd : l.g.processingCmd = Cmd.dataPc) (now : UInt32) : l.next now = l.nextDataPc := by
  have hne : l.g.processingCmd ≠ Cmd.none ∧ l.g.processingCmd ≠ Cmd.reset := by
    rw [hcmd]
    decide
  unfold next
  rw [hc, if_neg (by decide), if_neg hne.1, if_neg hne.2, if_pos hcmd]

theorem Line.next_streamPc {l : Line} (hc : l.g.connected = true)
    (hcmd : l.g.processingCmd = Cmd.streamPc) (now : UInt32) : l.next now = l.nextStreamPc := by
  have hne : l.g.processingCmd ≠ Cmd.none ∧ l.g.processingCmd ≠ Cmd.reset ∧
      l.g.processingCmd ≠ Cmd.dataPc := by
    rw [hcmd]
    decide
  unfold next
  rw [hc, if_neg (by decide), if_neg hne.1, if_neg hne.2.1, if_neg hne.2.2, if_pos hcmd]

/-- Where nothing is unread a payload makes no progress. -/
theorem Line.nextByte_nil {l : Line} {put : UInt8 → State} {full : State → Bool}
    {finish : State → State} (hrx : l.rx = []) : l.nextByte put full finish = none := by
  unfold nextByte
  rw [hrx]

theorem wpL_recvDataPcChecksum (h : w.g.InDataPc 2) (hok : safe → w.Inside) :
    wpL env t safe recvDataPcChecksum (Outcome safe w) w := by
  refine wpL_recvChecksum hok h.cmd (fun l hl now => ?_) (fun w' h' => h'.frame rfl)
  rw [← hl] at h
  rw [Line.next_dataPc h.connected h.cmd]
  unfold Line.nextDataPc
  rw [if_neg (by simp [h.ready]), if_neg (by simp [h.stage]), if_neg (by simp [h.stage]),
    if_pos h.stage]

theorem wpL_recvStreamPcChecksum (h : w.g.InStreamPc 2) (hok : safe → w.Inside) :
    wpL env t safe recvStreamPcChecksum (Outcome safe w) w := by
  refine wpL_recvChecksum hok h.cmd (fun l hl now => ?_) (fun w' h' => h'.frame rfl)
  rw [← hl] at h
  rw [Line.next_streamPc h.connected h.cmd]
  unfold Line.nextStreamPc
  rw [if_neg h.armed, if_neg (by simp [h.stage]), if_neg (by simp [h.stage]), if_pos h.stage]

/-- A byte of a DATA_PC packet goes where there is room for it. -/
theorem wpL_storeData (c : UInt8) (h : w.g.InDataPc 1) (hs : safe → w.Sound) : ∃ f,
    (safe → Live.Inside { w with g := Line.putData w.g c, fault := f }) ∧
      ∀ R : Unit → Live → Prop, R () { w with g := Line.putData w.g c, fault := f } →
        wpL env t safe (cmd (.storeData w.g.dataCur c)) (fun _ w' => wpL env t safe
          (modify fun g => { g with dataCur := (g.dataCur + 1) % 256 }) R w') w := by
  have hroom : safe → (w.fault || decide (maxDataSize ≤ w.g.dataCur)) = false := by
    intro hsafe
    obtain ⟨hlen, hcur⟩ := (hs hsafe).bounds.dataCur h.cmd h.stage
    have hlt : w.g.dataCur < maxDataSize := lt_of_lt_of_le hcur (max_le hlen (by decide))
    rw [(hs hsafe).fault, Bool.false_or]
    exact decide_eq_false (Nat.not_le_of_lt hlt)
  have hok : safe → Live.Inside
      (liveAnswer env (.storeData w.g.dataCur c) w).2 := fun hsafe =>
    ⟨hroom hsafe, (hs hsafe).inside.2, (hs hsafe).inside.3⟩
  refine ⟨w.fault || decide (maxDataSize ≤ w.g.dataCur), fun hsafe =>
    ⟨hroom hsafe, (hs hsafe).inside.2, (hs hsafe).inside.3⟩, fun R hR => ?_⟩
  exact (wpL_cmd (w := w) _).mpr ⟨hok, wpL_modify _ hok
    (fun hsafe => ⟨hroom hsafe, (hs hsafe).inside.2, (hs hsafe).inside.3⟩) hR⟩

/-- A byte of a STREAM_PC packet goes where there is room for it. -/
theorem wpL_storeStream (c : UInt8) (h : w.g.InStreamPc 1) (hs : safe → w.Sound) : ∃ f,
    (safe → Live.Inside { w with g := Line.putStream w.g c, fault := f }) ∧
      ∀ R : Unit → Live → Prop, R () { w with g := Line.putStream w.g c, fault := f } →
        wpL env t safe (cmd (.storeStream w.g.streamCur c)) (fun _ w' => wpL env t safe
          (modify fun g => { g with streamCur := (g.streamCur + 1) % 65536 }) R w') w := by
  have hroom : safe → (w.fault || decide (w.limit ≤ w.g.streamCur)) = false := by
    intro hsafe
    have hb := (hs hsafe).bounds
    have hpos : 1 ≤ w.limit := hb.armed h.armed ▸ Nat.one_le_iff_ne_zero.mpr h.armed
    have hsize := hb.streamSize h.cmd (by rw [h.stage]; decide)
    have hlt : w.g.streamCur < w.limit :=
      lt_of_lt_of_le (hb.streamCur h.cmd h.stage h.armed) (max_le hsize hpos)
    rw [(hs hsafe).fault, Bool.false_or]
    exact decide_eq_false (Nat.not_le_of_lt hlt)
  have hok : safe → Live.Inside
      (liveAnswer env (.storeStream w.g.streamCur c) w).2 := fun hsafe =>
    ⟨hroom hsafe, (hs hsafe).inside.2, (hs hsafe).inside.3⟩
  refine ⟨w.fault || decide (w.limit ≤ w.g.streamCur), fun hsafe =>
    ⟨hroom hsafe, (hs hsafe).inside.2, (hs hsafe).inside.3⟩, fun R hR => ?_⟩
  exact (wpL_cmd (w := w) _).mpr ⟨hok, wpL_modify _ hok
    (fun hsafe => ⟨hroom hsafe, (hs hsafe).inside.2, (hs hsafe).inside.3⟩) hR⟩

/-- `recv_cmd_data_pc` from `case 1` on. -/
theorem wpL_recvDataPcBytes (hq : env.Enough t) (h : w.g.InDataPc 1) (hs : safe → w.Sound) :
    wpL env t safe recvDataPcBytes (Outcome safe w) w := by
  have hnext : ∀ l : Line, l.g.InDataPc 1 → ∀ now, l.next now =
      l.nextByte (Line.putData l.g) Line.fullData Line.finishData := by
    intro l hl now
    rw [Line.next_dataPc hl.connected hl.cmd]
    unfold Line.nextDataPc
    rw [hl.ready, hl.stage]
    rfl
  refine (wpL_bind _ _).mpr (wpre_mono ?_ (wpL_recvBytesLoop hnext
    (fun w c hP hs => wpL_storeData c hP hs) (fun g c hP _ => ⟨hP.1, hP.2, hP.3, hP.4⟩)
    (Q := State.InDataPc 2) (fun g c hP _ => ⟨hP.1, hP.2, hP.3, rfl⟩) hq h hs))
  rintro ⟨⟩ w' hw'
  rcases hw' with ⟨n, hwent, hP, hrx⟩ | ⟨n, hwent, hQ⟩
  · refine wpL_get _ (fun hsafe => (hwent.sound hsafe (hs hsafe)).inside) ?_
    rw [if_pos hP.stage]
    refine Outcome.pending hwent fun _ now => ?_
    rw [hnext w'.line hP, Line.nextByte_nil hrx]
  · have hok : safe → w'.Inside := fun hsafe => (hwent.sound hsafe (hs hsafe)).inside
    refine wpL_get _ hok ?_
    rw [if_neg (by rw [hQ.stage]; decide)]
    exact wpre_mono (fun _ _ ho => ho.after hwent) (wpL_recvDataPcChecksum hQ hok)

/-- `recv_cmd_stream_pc` from `case 1` on. -/
theorem wpL_recvStreamPcBytes (hq : env.Enough t) (h : w.g.InStreamPc 1) (hs : safe → w.Sound) :
    wpL env t safe recvStreamPcBytes (Outcome safe w) w := by
  have hnext : ∀ l : Line, l.g.InStreamPc 1 → ∀ now, l.next now =
      l.nextByte (Line.putStream l.g) Line.fullStream Line.finishStream := by
    intro l hl now
    rw [Line.next_streamPc hl.connected hl.cmd]
    unfold Line.nextStreamPc
    rw [if_neg hl.armed, hl.stage]
    rfl
  refine (wpL_bind _ _).mpr (wpre_mono ?_ (wpL_recvBytesLoop hnext
    (fun w c hP hs => wpL_storeStream c hP hs) (fun g c hP _ => ⟨hP.1, hP.2, hP.3, hP.4⟩)
    (Q := State.InStreamPc 2) (fun g c hP _ => ⟨hP.1, hP.2, hP.3, rfl⟩) hq h hs))
  rintro ⟨⟩ w' hw'
  rcases hw' with ⟨n, hwent, hP, hrx⟩ | ⟨n, hwent, hQ⟩
  · refine wpL_get _ (fun hsafe => (hwent.sound hsafe (hs hsafe)).inside) ?_
    rw [if_pos hP.stage]
    refine Outcome.pending hwent fun _ now => ?_
    rw [hnext w'.line hP, Line.nextByte_nil hrx]
  · have hok : safe → w'.Inside := fun hsafe => (hwent.sound hsafe (hs hsafe)).inside
    refine wpL_get _ hok ?_
    rw [if_neg (by rw [hQ.stage]; decide)]
    exact wpre_mono (fun _ _ ho => ho.after hwent) (wpL_recvStreamPcChecksum hQ hok)

/-- `recv_cmd_data_pc`, `case 0`. -/
theorem wpL_recvDataPcLen (hq : env.Enough t) (h : w.g.InDataPc 0) (hs : safe → w.Sound) :
    wpL env t safe recvDataPcLen (Outcome safe w) w := by
  have hnext : ∀ l : Line, l.g.InDataPc 0 → ∀ now, l.next now = l.nextDataLen := by
    intro l hl now
    rw [Line.next_dataPc hl.connected hl.cmd]
    unfold Line.nextDataPc
    rw [if_neg (by simp [hl.ready]), if_pos hl.stage]
  refine (wpL_bind _ _).mpr (wpL_available (fun hsafe => (hs hsafe).inside)
    fun w₁ hwent hg hok₁ _ => ?_)
  rw [← hg] at h
  split
  · rename_i h0
    refine Outcome.pending hwent fun _ now => ?_
    rw [hnext w₁.line h, Line.nextDataLen, show w₁.line.rx = [] from List.length_eq_zero_iff.mp h0]
  · rename_i h0
    obtain ⟨c, rx, hrx⟩ := List.exists_cons_of_length_pos (Nat.pos_of_ne_zero h0)
    have hlen : w₁.line.next 0 =
        if maxDataSize < c.toNat then
          some { w₁.line with rx, g := { w₁.g with dataLen := c.toNat }.init }
        else
          some { w₁.line with
            rx, g := { w₁.g with dataLen := c.toNat, dataCur := 0, processingCmdState := 1 } } := by
      rw [hnext w₁.line h, Line.nextDataLen, show w₁.line.rx = c :: rx from hrx]
      rfl
    have hok : ∀ len cur, safe → Live.Inside
        { w₁ with rx, g := { w₁.g with dataLen := len, dataCur := cur } } :=
      fun _ _ hsafe => (hok₁ hsafe).frame rfl
    refine (wpL_bind _ _).mpr (wpL_getchar hok₁ hrx ((wpL_bind _ _).mpr
      (wpL_modify _ (hok _ _) (hok _ _) ?_)))
    split
    · rename_i hbig
      refine Outcome.refused (n := 0) (hok _ _) (hwent.trans ?_)
      exact .next _ (hlen.trans (if_pos hbig)) rfl rfl (fun _ => id) rfl
    · rename_i hfits
      have hstep : Went safe w₁ 1 { w₁ with
          rx, g := { w₁.g with dataLen := c.toNat, dataCur := 0, processingCmdState := 1 } } :=
        .next _ (hlen.trans (if_neg hfits)) rfl rfl (fun _ => id) rfl
      have hsound := fun hsafe => (hwent.trans hstep).sound hsafe (hs hsafe)
      refine (wpL_bind _ _).mpr (wpL_modify _ (hok _ _) (fun hsafe => (hsound hsafe).inside) ?_)
      refine wpre_mono (fun _ _ ho => ho.after (hwent.trans hstep))
        (wpL_recvDataPcBytes hq ?_ hsound)
      exact ⟨h.connected, h.cmd, h.ready, rfl⟩

/-- `recv_cmd_data_pc` -/
theorem wpL_recvCmdDataPc (hq : env.Enough t) (hc : w.g.connected = true)
    (hcmd : w.g.processingCmd = Cmd.dataPc)
    (hs : safe → w.Sound) : wpL env t safe recvCmdDataPc (Outcome safe w) w := by
  have hok : safe → w.Inside := fun hsafe => (hs hsafe).inside
  refine wpL_get _ hok ?_
  split
  · rename_i hready
    refine Outcome.refused (n := 0) hok (.next 0 ?_ rfl rfl (fun _ => id) rfl)
    rw [Line.next_dataPc hc hcmd]
    exact if_pos hready
  rename_i hready
  have hnot : w.g.dataReady = false := Bool.not_eq_true _ ▸ hready
  split
  · exact wpL_recvDataPcLen hq ⟨hc, hcmd, hnot, ‹_›⟩ hs
  split
  · exact wpL_recvDataPcBytes hq ⟨hc, hcmd, hnot, ‹_›⟩ hs
  split
  · exact wpL_recvDataPcChecksum ⟨hc, hcmd, hnot, ‹_›⟩ hok
  · rename_i h0 h1 h2
    refine Outcome.pending (.refl w) fun _ now => ?_
    rw [Line.next_dataPc hc hcmd]
    exact (if_neg hready).trans ((if_neg h0).trans ((if_neg h1).trans (if_neg h2)))

/-- `recv_cmd_stream_pc`, `case 0`. -/
theorem wpL_recvStreamPcLen (hq : env.Enough t) (h : w.g.InStreamPc 0) (hs : safe → w.Sound) :
    wpL env t safe recvStreamPcLen (Outcome safe w) w := by
  have hnext : ∀ l : Line, l.g.InStreamPc 0 → ∀ now, l.next now = l.nextStreamLen := by
    intro l hl now
    rw [Line.next_streamPc hl.connected hl.cmd]
    unfold Line.nextStreamPc
    rw [if_neg hl.armed, if_pos hl.stage]
  refine (wpL_bind _ _).mpr (wpL_available (fun hsafe => (hs hsafe).inside)
    fun w₁ hwent hg hok₁ _ => ?_)
  rw [← hg] at h
  split
  · rename_i hlt
    refine Outcome.pending hwent fun _ now => ?_
    rw [hnext w₁.line h, Line.nextStreamLen]
    split
    · rename_i hi lo rx hrx
      exact absurd hlt (by simp [show w₁.rx = hi :: lo :: rx from hrx])
    · rfl
  · rename_i hge
    obtain ⟨hi, lo, rx, hrx⟩ : ∃ hi lo rx, w₁.rx = hi :: lo :: rx := by
      match hrx : w₁.rx with
      | [] => simp [hrx] at hge
      | [_] => simp [hrx] at hge
      | hi :: lo :: rx => exact ⟨hi, lo, rx, rfl⟩
    have hlen : w₁.line.next 0 =
        if w₁.g.streamMaxSize < (UInt8.ofNat (hi.toNat <<< 8) ||| lo).toNat then
          some { w₁.line with
            rx, g := { w₁.g with streamSize := UInt8.ofNat (hi.toNat <<< 8) ||| lo }.init }
        else
          some { w₁.line with
            rx, g := { w₁.g with
              streamSize := UInt8.ofNat (hi.toNat <<< 8) ||| lo, streamCur := 0,
              processingCmdState := 1 } } := by
      rw [hnext w₁.line h, Line.nextStreamLen, show w₁.line.rx = hi :: lo :: rx from hrx]
      rfl
    have hok : ∀ rx size, safe → Live.Inside
        { w₁ with rx, g := { w₁.g with streamSize := size } } :=
      fun _ _ hsafe => ⟨(hok₁ hsafe).1, (hok₁ hsafe).2, fun _ h0 => absurd h.stage h0⟩
    refine (wpL_bind _ _).mpr (wpL_getchar hok₁ hrx ((wpL_bind _ _).mpr
      (wpL_modify _ (hok _ w₁.g.streamSize) (hok _ _) ?_)))
    refine (wpL_bind _ _).mpr (wpL_getchar (hok _ _) rfl ((wpL_bind _ _).mpr
      (wpL_modify _ (hok _ _) (hok _ _) (wpL_get _ (hok _ _) ?_))))
    split
    · rename_i hbig
      refine Outcome.refused (n := 0) (hok _ _) (hwent.trans ?_)
      exact .next _ (hlen.trans (if_pos hbig)) rfl rfl (fun _ => id) rfl
    · rename_i hfits
      have hstep : Went safe w₁ 1 { w₁ with
          rx, g := { w₁.g with
            streamSize := UInt8.ofNat (hi.toNat <<< 8) ||| lo, streamCur := 0,
            processingCmdState := 1 } } :=
        .next _ (hlen.trans (if_neg hfits)) rfl rfl (fun _ => id) rfl
      have hsound := fun hsafe => (hwent.trans hstep).sound hsafe (hs hsafe)
      refine (wpL_bind _ _).mpr (wpL_modify _ (hok _ _) (fun hsafe => (hsound hsafe).inside) ?_)
      refine wpre_mono (fun _ _ ho => ho.after (hwent.trans hstep))
        (wpL_recvStreamPcBytes hq ?_ hsound)
      exact ⟨h.connected, h.cmd, h.armed, rfl⟩

/-- `recv_cmd_stream_pc` -/
theorem wpL_recvCmdStreamPc (hq : env.Enough t) (hc : w.g.connected = true)
    (hcmd : w.g.processingCmd = Cmd.streamPc) (hs : safe → w.Sound) :
    wpL env t safe recvCmdStreamPc (Outcome safe w) w := by
  have hok : safe → w.Inside := fun hsafe => (hs hsafe).inside
  refine wpL_get _ hok ?_
  split
  · rename_i hmax
    refine Outcome.refused (n := 0) hok (.next 0 ?_ rfl rfl (fun _ => id) rfl)
    rw [Line.next_streamPc hc hcmd]
    exact if_pos hmax
  rename_i hmax
  split
  · exact wpL_recvStreamPcLen hq ⟨hc, hcmd, hmax, ‹_›⟩ hs
  split
  · exact wpL_recvStreamPcBytes hq ⟨hc, hcmd, hmax, ‹_›⟩ hs
  split
  · exact wpL_recvStreamPcChecksum ⟨hc, hcmd, hmax, ‹_›⟩ hok
  · rename_i h0 h1 h2
    refine Outcome.pending (.refl w) fun _ now => ?_
    rw [Line.next_streamPc hc hcmd]
    exact (if_neg hmax).trans ((if_neg h0).trans ((if_neg h1).trans (if_neg h2)))

end Receivers

/-! ## 4. `gbridge_loop` -/

/-- The receiver has taken a number of steps, and it has taken none only if there are none. -/
def Moved (safe : Prop) (w w' : Live) : Prop := ∃ n, Went safe w n w' ∧ (n = 0 → w'.Stuck)

section Loop

variable {env : Surroundings} {t : Bool} {safe : Prop} {w : Live}

theorem Moved.after {w₀ w' : Live} {n : Nat} (h : Went safe w₀ n w) (hm : Moved safe w w') :
    Moved safe w₀ w' := by
  obtain ⟨m, hwent, hstuck⟩ := hm
  exact ⟨n + m, h.trans hwent, fun h0 => hstuck (Nat.eq_zero_of_add_eq_zero_left h0)⟩

theorem Went.moved {w' : Live} {n : Nat} (h : Went safe w (n + 1) w') : Moved safe w w' :=
  ⟨n + 1, h, fun h0 => absurd h0 (Nat.succ_ne_zero n)⟩

theorem wpL_recvCmd (hq : env.Enough t) (hc : w.g.connected = true)
    (hne : w.g.processingCmd ≠ Cmd.none)
    (hs : safe → w.Sound) :
    wpL env t safe (recvCmd w.g.processingCmd) (Outcome safe w) w := by
  have hok : safe → w.Inside := fun hsafe => (hs hsafe).inside
  unfold recvCmd
  split
  · rename_i hreset
    have hnext : w.line.next 0 = some { w.line.reset with tx := w.tx ++ [ack Cmd.reset] } := by
      unfold Line.next
      rw [if_neg (by simp [show w.line.g.connected = true from hc])]
      exact (if_neg hne).trans (if_pos hreset)
    have hinit : safe → Live.Inside { w with g := w.g.init } := fun hsafe =>
      ⟨(hok hsafe).1, Nat.zero_le _,
        fun h => absurd h (by simp [State.init, Cmd.none, Cmd.streamPc])⟩
    refine (wpL_bind _ _).mpr (wpL_modify _ hok hinit ?_)
    have hsent : safe → Live.Inside { w with g := w.g.init, tx := w.tx ++ [ack Cmd.reset] } :=
      fun hsafe => (hinit hsafe).frame rfl
    exact (wpL_op _ _).mpr ⟨hsent, Outcome.finished (n := 0) hsent
      (.next _ hnext rfl rfl (fun _ => id) rfl)⟩
  split
  · exact wpL_recvCmdDataPc hq hc ‹_› hs
  split
  · exact wpL_recvCmdStreamPc hq hc ‹_› hs
  · rename_i hreset hdata hstream
    refine Outcome.finished (n := 0) hok (.next 0 ?_ rfl rfl (fun _ => id) rfl)
    unfold Line.next
    rw [if_neg (by simp [show w.line.g.connected = true from hc])]
    exact (if_neg hne).trans ((if_neg hreset).trans ((if_neg hdata).trans (if_neg hstream)))

/-- The command under way, and what is made of the receiver's result. -/
theorem wpL_processCmd (hq : env.Enough t) (hc : w.g.connected = true)
    (hne : w.g.processingCmd ≠ Cmd.none)
    (hs : safe → w.Sound) : wpL env t safe processCmd (fun _ w' => Moved safe w w') w := by
  refine wpL_get _ (fun hsafe => (hs hsafe).inside) ?_
  refine (wpL_bind _ _).mpr (wpre_mono ?_ (wpL_recvCmd hq hc hne hs))
  rintro rc w' ho
  cases ho with
  | pending hwent hstuck => exact ⟨_, hwent, hstuck⟩
  | refused hok hwent =>
    exact wpL_modify _ hok (fun hsafe => (hwent.sound hsafe (hs hsafe)).inside) hwent.moved
  | finished hok hwent =>
    exact wpL_modify _ hok (fun hsafe => (hwent.sound hsafe (hs hsafe)).inside) hwent.moved

theorem Line.next_command {l : Line} (hc : l.g.connected = true)
    (hnone : l.g.processingCmd = Cmd.none) (now : UInt32) : l.next now = l.nextCommand now := by
  unfold next
  rw [if_neg (by simp [hc]), if_pos hnone]

/-- What becomes of the next byte when no command is under way. -/
theorem Line.next_byte {l : Line} {c : UInt8} {rx : List UInt8} (hc : l.g.connected = true)
    (hnone : l.g.processingCmd = Cmd.none) (hrx : l.rx = c :: rx) (now : UInt32) :
    l.next now = if c = Cmd.none then some { l with rx }
      else if l.g.waitingCmd ≠ Cmd.none then
        if c = ack l.g.waitingCmd then
          some { l with rx, g := { l.g with waitingCmd := Cmd.none } }
        else some { l with rx }
      else some { l with
        rx, g := { l.g with
          processingCmd := c, processingCmdState := 0, processingCmdTime := now } } := by
  rw [next_command hc hnone, nextCommand, hrx]

/-- A command begins with this byte, at the time that is read now. -/
theorem wpL_startCmd {c : UInt8} {rx : List UInt8} {w₁ : Live} (hq : env.Enough t)
    (hs : safe → w.Sound) (hc : w₁.g.connected = true) (hnone : w₁.g.processingCmd = Cmd.none)
    (hrx : w₁.line.rx = c :: rx) (hzero : c ≠ Cmd.none) (hwaiting : ¬ w₁.g.waitingCmd ≠ Cmd.none)
    (hwent : Went safe w 0 w₁) (hok₁ : safe → w₁.Inside) :
    wpL env t safe (do
        let now ← timerGet
        modify fun g =>
          { g with processingCmd := c, processingCmdState := 0, processingCmdTime := now }
        processCmd)
      (fun _ w' => Moved safe w w') { w₁ with rx } := by
  have hok₂ : safe → Live.Inside { w₁ with rx } :=
    fun hsafe => (hok₁ hsafe).frame rfl
  -- the time that is read is the one the step is taken with
  have hstep : Went safe w₁ 1 { w₁ with
      rx, reads := w₁.reads + 1, g := { w₁.g with
        processingCmd := c, processingCmdState := 0,
        processingCmdTime := env.clock w₁.reads } } :=
    .next _ ((Line.next_byte hc hnone hrx (env.clock w₁.reads)).trans
      ((if_neg hzero).trans (if_neg hwaiting))) rfl rfl (fun _ => id) rfl
  have hsound := fun hsafe => (hwent.trans hstep).sound hsafe (hs hsafe)
  have hok₃ : safe → Live.Inside { w₁ with rx, reads := w₁.reads + 1 } :=
    fun hsafe => (hok₁ hsafe).frame rfl
  refine (wpL_bind _ _).mpr (wpL_timerGet hok₂ ((wpL_bind _ _).mpr (wpL_modify _ hok₃
    (fun hsafe => (hsound hsafe).inside) ?_)))
  exact wpre_mono (fun _ _ hm => hm.after (hwent.trans hstep)) (wpL_processCmd hq hc hzero hsound)

/-- Wait until we receive a command, or go on with the one under way. -/
theorem wpL_receiveCmd (hq : env.Enough t) (hc : w.g.connected = true) (hs : safe → w.Sound) :
    wpL env t safe receiveCmd (fun _ w' => Moved safe w w') w := by
  have hok : safe → w.Inside := fun hsafe => (hs hsafe).inside
  refine wpL_get _ hok ?_
  split
  · rename_i hnone
    refine (wpL_bind _ _).mpr (wpL_available hok fun w₁ hwent hg hok₁ _ => ?_)
    rw [← hg] at hc hnone
    split
    · rename_i h0
      refine ⟨0, hwent, fun _ now => ?_⟩
      rw [Line.next_command hc hnone, Line.nextCommand,
        show w₁.line.rx = [] from List.length_eq_zero_iff.mp h0]
    · rename_i h0
      obtain ⟨c, rx, hrx⟩ := List.exists_cons_of_length_pos (Nat.pos_of_ne_zero h0)
      have hbyte := Line.next_byte (l := w₁.line) hc hnone hrx 0
      have hok₂ : safe → Live.Inside { w₁ with rx } :=
        fun hsafe => (hok₁ hsafe).frame rfl
      have hdrop : w₁.line.next 0 = some { w₁.line with rx } → Moved safe w { w₁ with rx } := by
        intro h
        have hstep : Went safe w₁ 1 { w₁ with rx } := .next _ h rfl rfl (fun _ => id) rfl
        exact (hwent.trans hstep).moved
      refine (wpL_bind _ _).mpr (wpL_getchar hok₁ hrx ?_)
      split
      · rename_i hzero
        exact hdrop (hbyte.trans (if_pos hzero))
      rename_i hzero
      refine wpL_get _ hok₂ ?_
      show wpL env t safe (if w₁.g.waitingCmd ≠ Cmd.none then
        if c = ack w₁.g.waitingCmd then modify _ else _ else _) _ _
      split
      · rename_i hwaiting
        split
        · rename_i hack
          have hstep : Went safe w₁ 1 { w₁ with rx, g := { w₁.g with waitingCmd := Cmd.none } } :=
            .next _ (hbyte.trans ((if_neg hzero).trans ((if_pos hwaiting).trans (if_pos hack))))
              rfl rfl (fun _ => id) rfl
          exact wpL_modify _ hok₂ (fun hsafe =>
            ((hwent.trans hstep).sound hsafe (hs hsafe)).inside) (hwent.trans hstep).moved
        · rename_i hother
          exact hdrop (hbyte.trans
            ((if_neg hzero).trans ((if_pos hwaiting).trans (if_neg hother))))
      · rename_i hwaiting
        exact wpL_startCmd hq hs hc hnone hrx hzero hwaiting hwent hok₁
  · exact wpL_processCmd hq hc ‹_› hs

/-- A call of `gbridge_loop` has moved the receiver on, or has found that a timeout has passed and
has reset the link. -/
inductive Looped (safe : Prop) (w w' : Live) : Prop
  | moved : Moved safe w w' → Looped safe w w'
  | timeout {n : Nat} {w₁ : Live} : Went safe w n w₁ → (w.g.connected = true → n = 0) →
    w₁.line.Armed → w'.line = w₁.line.reset → w'.limit = w₁.limit → w'.fault = w₁.fault →
    w'.late = true → Looped safe w w'

theorem Looped.after {w₀ w' : Live} {n : Nat} (hdown : w₀.g.connected = true → n = 0)
    (h : Went safe w₀ n w) (hl : Looped safe w w') (hup : w.g.connected = true) :
    Looped safe w₀ w' := by
  cases hl with
  | moved hm => exact .moved (hm.after h)
  | timeout hw hzero harmed hline hlimit hfault hlate =>
    refine .timeout (h.trans hw) (fun hc => ?_) harmed hline hlimit hfault hlate
    rw [hdown hc, hzero hup]

theorem Looped.sound {w' : Live} (hl : Looped safe w w') (hs : safe) (h : w.Sound) :
    w'.Sound := by
  cases hl with
  | moved hm =>
    obtain ⟨n, hwent, -⟩ := hm
    exact hwent.sound hs h
  | timeout hw _ _ hline hlimit hfault _ =>
    refine ⟨?_, hfault.trans (hw.sound hs h).fault⟩
    rw [show w'.g = _ from congrArg Line.g hline]
    exact State.init_sound _ _

/-- One of the two timeouts is looked at. -/
theorem wpL_timedOut {cmd : UInt8} {since : UInt32} (hok : safe → w.Inside) :
    wpL env t safe (timedOut cmd since) (fun b w' => w'.line = w.line ∧ w'.limit = w.limit ∧
      w'.fault = w.fault ∧ (safe → w'.Inside) ∧
        if b then w'.late = true ∧ cmd ≠ Cmd.none else Went safe w 0 w') w := by
  unfold timedOut
  split
  · rename_i hne
    refine (wpL_cmd (w := w) _).mpr ?_
    have hok' : safe → (liveAnswer env (.expired since) w).2.Inside :=
      fun hsafe => (hok hsafe).frame rfl
    refine ⟨hok', rfl, rfl, rfl, hok', ?_⟩
    split
    · rename_i hpassed
      have hpassed : timeoutUs < env.clock w.reads - since := of_decide_eq_true hpassed
      exact ⟨by simp [liveAnswer, hpassed], hne⟩
    · rename_i hpassed
      have hpassed : ¬ timeoutUs < env.clock w.reads - since :=
        of_decide_eq_false (Bool.not_eq_true _ ▸ hpassed)
      refine ⟨⟨[], (List.append_nil _).symm, .refl⟩, rfl, fun _ => id, ?_⟩
      simp [liveAnswer, hpassed]
  · exact ⟨rfl, rfl, rfl, hok, .refl w⟩

/-- A timeout has passed, and the link is reset. -/
theorem wpL_timeout {w₀ : Live} (harmed : w₀.line.Armed) (hline : w.line = w₀.line)
    (hlimit : w.limit = w₀.limit) (hfault : w.fault = w₀.fault) (hlate : w.late = true)
    (hok : safe → w.Inside) :
    wpL env t safe gbridgeInit (fun _ w' => Looped safe w₀ w') w := by
  refine wpL_modify _ hok (fun hsafe => ⟨(hok hsafe).1, Nat.zero_le _, fun h => ?_⟩) ?_
  · exact absurd h (by simp [State.init, Cmd.none, Cmd.streamPc])
  · refine .timeout (.refl w₀) (fun _ => rfl) harmed ?_ hlimit hfault hlate
    rw [← hline]
    rfl

theorem wpL_gbridgeLoopConnected (hq : env.Enough t) (hc : w.g.connected = true)
    (hs : safe → w.Sound) :
    wpL env t safe gbridgeLoopConnected (fun _ w' => Looped safe w w') w := by
  refine wpL_get _ (fun hsafe => (hs hsafe).inside)
    ((wpL_bind _ _).mpr (wpre_mono ?_ (wpL_timedOut fun hsafe => (hs hsafe).inside)))
  rintro b w₁ ⟨hline₁, hlimit₁, hfault₁, hok₁, hb₁⟩
  split
  · rename_i hpassed
    rw [if_pos hpassed] at hb₁
    exact wpL_timeout ⟨hc, .inl hb₁.2⟩ hline₁ hlimit₁ hfault₁ hb₁.1 hok₁
  rename_i hpassed
  rw [if_neg hpassed] at hb₁
  refine (wpL_bind _ _).mpr (wpre_mono ?_ (wpL_timedOut hok₁))
  rintro b w₂ ⟨hline₂, hlimit₂, hfault₂, hok₂, hb₂⟩
  split
  · rename_i hpassed
    rw [if_pos hpassed] at hb₂
    exact wpL_timeout ⟨hc, .inr hb₂.2⟩ (hline₂.trans hline₁) (hlimit₂.trans hlimit₁)
      (hfault₂.trans hfault₁) hb₂.1 hok₂
  · rename_i hpassed
    rw [if_neg hpassed] at hb₂
    have hg₂ : w₂.g = w.g := congrArg Line.g (hline₂.trans hline₁)
    refine wpre_mono (fun _ _ hm => .moved (hm.after (hb₁.trans hb₂))) (wpL_receiveCmd hq ?_
      fun hsafe => (hb₁.trans hb₂).sound hsafe (hs hsafe))
    rw [hg₂]
    exact hc

/-- `do_handshake`: what `gbridge_loop` makes of a complete one is part of the step. -/
theorem wpL_doHandshake (hdown : w.g.connected = false) (hs : safe → w.Sound) :
    wpL env t safe doHandshake (fun b w' => (safe → w'.Inside) ∧
      if b then ∃ n, Went safe w (n + 1) { w' with g := { w'.g with connected := true } }
      else Moved safe w w') w := by
  have hnext : ∀ l : Line, l.g.connected = false → ∀ now, l.next now = l.nextHandshake := by
    intro l hl now
    unfold Line.next
    rw [if_pos (by simp [hl])]
  refine (wpL_bind _ _).mpr (wpL_available (fun hsafe => (hs hsafe).inside)
    fun w₁ hwent hg hok₁ _ => ?_)
  rw [← hg] at hdown
  split
  · rename_i h0
    refine ⟨hok₁, 0, hwent, fun _ now => ?_⟩
    rw [hnext w₁.line hdown, Line.nextHandshake,
      show w₁.line.rx = [] from List.length_eq_zero_iff.mp h0]
  rename_i h0
  obtain ⟨c, rx, hrx⟩ := List.exists_cons_of_length_pos (Nat.pos_of_ne_zero h0)
  have hbyte : w₁.line.next 0 =
      if handshake.getD w₁.g.handshakeProgress 0 ≠ c then
        some { w₁.line with
          rx, g := { w₁.g with handshakeProgress := if c = handshake.getD 0 0 then 1 else 0 } }
      else if (w₁.g.handshakeProgress + 1) % 256 ≠ handshake.length then
        some { w₁.line with
          rx, g := { w₁.g with handshakeProgress := (w₁.g.handshakeProgress + 1) % 256 } }
      else
        some ⟨{ w₁.g with handshakeProgress := 0, connected := true }, rx, w₁.tx ++ handshake⟩ := by
    rw [hnext w₁.line hdown, Line.nextHandshake, show w₁.line.rx = c :: rx from hrx]
    rfl
  have hok : ∀ k tx, safe → Live.Inside
      { w₁ with rx, tx, g := { w₁.g with handshakeProgress := k } } :=
    fun _ _ hsafe => (hok₁ hsafe).frame rfl
  have hmoved : ∀ g, w₁.line.next 0 = some { w₁.line with rx, g } →
      Moved safe w { w₁ with rx, g } := by
    intro g h
    have hstep : Went safe w₁ 1 { w₁ with rx, g } := .next _ h rfl rfl (fun _ => id) rfl
    exact (hwent.trans hstep).moved
  refine (wpL_bind _ _).mpr (wpL_getchar hok₁ hrx (wpL_get _ (hok w₁.g.handshakeProgress _) ?_))
  split
  · rename_i hother
    exact (wpL_bind _ _).mpr (wpL_modify _ (hok w₁.g.handshakeProgress _) (hok _ _)
      ⟨hok _ _, hmoved _ (hbyte.trans (if_pos hother))⟩)
  rename_i hsame
  refine (wpL_bind _ _).mpr (wpL_modify _ (hok w₁.g.handshakeProgress _) (hok _ _)
    (wpL_get _ (hok _ _) ?_))
  split
  · rename_i hmore
    exact ⟨hok _ _, hmoved _ (hbyte.trans ((if_neg hsame).trans (if_pos hmore)))⟩
  · rename_i hdone
    refine (wpL_bind _ _).mpr (wpL_modify _ (hok _ _) (hok _ _) ((wpL_bind _ _).mpr
      (wpL_putchars _ (hok _ _) ⟨hok _ _, ?_⟩)))
    rw [if_pos rfl]
    have hstep : Went safe w₁ 1 { w₁ with
        rx, tx := w₁.tx ++ handshake, g := { w₁.g with
          handshakeProgress := 0, connected := true } } :=
      .next _ (hbyte.trans ((if_neg hsame).trans (if_neg hdone))) rfl rfl (fun _ => id) rfl
    exact ⟨_, hwent.trans hstep⟩

/-- **`gbridge_loop` is a number of steps of the receiver**, and none only if there are none; or it
ends in a timeout. -/
theorem wpL_gbridgeLoop (hq : env.Enough t) (hs : safe → w.Sound) :
    wpL env t safe gbridgeLoop (fun _ w' => Looped safe w w') w := by
  refine wpL_get _ (fun hsafe => (hs hsafe).inside) ?_
  split
  · rename_i hc
    exact wpL_gbridgeLoopConnected hq hc hs
  · rename_i hdown
    refine (wpL_bind _ _).mpr (wpre_mono ?_
      (wpL_doHandshake (Bool.not_eq_true _ ▸ hdown) hs))
    rintro b w₁ ⟨hok₁, hb⟩
    split
    · rename_i hdone
      rw [if_pos hdone] at hb
      obtain ⟨n, hwent⟩ := hb
      have hsound := fun hsafe => hwent.sound hsafe (hs hsafe)
      refine (wpL_bind _ _).mpr (wpL_modify _ hok₁ (fun hsafe => (hsound hsafe).inside) ?_)
      exact wpre_mono (fun _ _ hl => hl.after (fun hc => absurd hc hdown) hwent rfl)
        (wpL_gbridgeLoopConnected hq rfl hsound)
    · rename_i hdone
      rw [if_neg hdone] at hb
      exact .moved hb

end Loop

end GBridge.Atmega

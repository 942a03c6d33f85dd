/-
# The whole bridge as one of two parties

In `Pair` a call of `socket_impl.c` is one move of the bridge.  In the whole bridge it is a program
of its own, down to the calls of the operating system.

A state of the whole bridge is a program of `main` with a call under way or none (`Stage`), and the
memory of the sockets as it was when that call began.  A step (`Stage.step`) is

* a step of `main`, with no call under way;
* the beginning of a call, or a step inside of it, which is not seen from outside;
* the return of a call.  Its result is that of a run of the function from the memory at its
  beginning, and the oracle of the pair has to have said so.

On a port where nothing times out (`prompt`), a step of `main` is some moves of the bridge on the
line: a write is as many as it has bytes, a read takes what it asked for (`solo_step`).  Of the
operating system no more is assumed than `OsOp.Honest` says.
-/
import GBridge.Bridge.Honest
import GBridge.Bridge.Party
import GBridge.Bridge.Whole
import GBridge.Lib.Solo

namespace GBridge.Bridge

open Prog Duplex

variable {σ : Type}

/-! ## 1. Calls under way -/

/-- An operating system that keeps to its word. -/
def honestKernel : Sem OsOp Os := fun β e w b w' => kernel β e w b w' ∧ e.Honest b

def WholeOp.Honest : {β : Type} → WholeOp β → β → Prop
  | _, .link _, _ => True
  | _, .os e, b => e.Honest b

/-- The whole bridge on such a system. -/
def honestSem (port : Port σ) : Sem WholeOp (World σ × Os) :=
  fun β e v b v' => wholeSem port β e v b v' ∧ e.Honest b

/-- The whole bridge with its operating system is at a step of `main`, or inside a call that began
with the system in another state. -/
inductive Stage : WholeCode Unit → Os → Code Unit → Os → Prop
  | between {p : Code Unit} {o : Os} : (∀ c k, p ≠ .op (.sock c) k) →
    Stage (expand wholeOp p) o p o
  | inside {c : SockCall} {k : c.Res → Code Unit} {r : OsCode c.Res} {o₀ o : Os} :
    Reach honestKernel (c.code, o₀) (r, o) → (∀ a, r ≠ .ret a) →
    Stage ((wholeSocket r).bind fun b => expand wholeOp (k b)) o (.op (.sock c) k) o₀

section Stage

variable {port : Port σ} {p : Code Unit} {q : WholeCode Unit} {o o₀ : Os} {w : World σ}

theorem Stage.of (p : Code Unit) (o : Os) : Stage (expand wholeOp p) o p o := by
  by_cases hsock : ∃ c k, p = .op (.sock c) k
  · obtain ⟨c, k, rfl⟩ := hsock
    exact .inside .refl (code_ne_ret c)
  · exact .between fun c k hp => hsock ⟨c, k, hp⟩

/-- What a step of the whole bridge is. -/
inductive Stage.Next (port : Port σ) (p : Code Unit) (o₀ : Os) (w : World σ) :
    WholeCode Unit × (World σ × Os) → Prop
  /-- It is one inside the call. -/
  | inside {q : WholeCode Unit} {o : Os} : Stage q o p o₀ → Next port p o₀ w (q, (w, o))
  /-- The call returns. -/
  | returned {c : SockCall} {k : c.Res → Code Unit} {r : c.Res} {q : WholeCode Unit} {o : Os} :
    p = .op (.sock c) k → Eval honestKernel c.code o₀ r o → Stage q o (k r) o →
    Next port p o₀ w (q, (w, o))
  /-- It is one of `main`. -/
  | link {p' : Code Unit} {q : WholeCode Unit} {w' : World σ} : (∀ c k, p ≠ .op (.sock c) k) →
    Step (sem port) (p, w) (p', w') → Stage q o₀ p' o₀ → Next port p o₀ w (q, (w', o₀))

theorem Stage.step {c : WholeCode Unit × (World σ × Os)} (h : Stage q o p o₀)
    (hs : Step (honestSem port) (q, (w, o)) c) : Stage.Next port p o₀ w c := by
  obtain ⟨q', w', o'⟩ := c
  cases h with
  | between hno =>
    cases p with
    | ret a => exact hs.elim
    | loop body k =>
      obtain ⟨hq, hw⟩ := hs
      obtain ⟨rfl, rfl⟩ := Prod.mk.inj (show (w', o') = (w, o) from hw)
      obtain rfl : q' = _ := hq.trans (expand_round body k).symm
      exact .link hno ⟨rfl, rfl⟩ (.of _ _)
    | op e k =>
      cases e with
      | sock c => exact absurd rfl (hno c k)
      | get | set g | read count ms | store dst bs | write bs | eprint s | ewrite bs =>
        obtain ⟨b, ⟨⟨hlink, hos⟩, -⟩, hq⟩ := hs
        obtain rfl : o' = o := hos
        obtain rfl : q' = _ := hq
        exact .link hno ⟨b, hlink, rfl⟩ (.of _ _)
  | @inside c k r _ _ hreach hret =>
    obtain ⟨r', hr', hw, hq⟩ : ∃ r', Step honestKernel (r, o) (r', o') ∧ w' = w ∧
        q' = (wholeSocket r').bind fun b => expand wholeOp (k b) := by
      cases r with
      | ret a => exact absurd rfl (hret a)
      | loop body k' =>
        obtain ⟨hq, hw⟩ := hs
        obtain ⟨rfl, rfl⟩ := Prod.mk.inj (show (w', o') = (w, o) from hw)
        refine ⟨_, ⟨rfl, rfl⟩, rfl, hq.trans ?_⟩
        rw [wholeSocket, expand_round, bind_assoc]
        refine congrArg (Prog.bind _) (funext fun b => ?_)
        cases b <;> rfl
      | op e k' =>
        obtain ⟨b, ⟨⟨⟨hkernel, -⟩, hw⟩, hhonest⟩, hq⟩ := hs
        exact ⟨k' b, ⟨b, ⟨hkernel, hhonest⟩, rfl⟩, hw, hq⟩
    subst hw hq
    by_cases hdone : ∃ a, r' = .ret a
    · obtain ⟨a, rfl⟩ := hdone
      exact .returned rfl (reach_eval (hreach.tail hr')) (.of _ _)
    · exact .inside (.inside (hreach.tail hr') fun a ha => hdone ⟨a, ha⟩)

end Stage

/-! ## 2. Steps of `main` on the line -/

/-- A port on which nothing times out: a read with the long timeout brings all that it asks for, and
the short poll what it likes. -/
def prompt : Port (List UInt8) := fun count ms rx r rx' => ∃ bs, r = .bytes bs ∧ rx = bs ++ rx' ∧
  bs.length ≤ count ∧ (ms = timeoutMs → bs.length = count)

section Solo

variable {oracle : Nat → (c : SockCall) → c.Res} {p p' : Code Unit} {w w' : World (List UInt8)}

/-- A write puts its bytes on the line, one after the other. -/
theorem solo_write {k : Unit → Code Unit} {x : Side} {rx : List UInt8} : ∀ bs : List UInt8,
    Solo (party (moves oracle)) (.op (.write bs) k, x) rx (k (), x) rx bs []
  | [] => .single (a := .tau) (.inl ⟨(), ⟨rfl, rfl, rfl⟩, rfl⟩) rfl
  | b :: bs => .move (a := .send b) (.inr ⟨.write bs, ⟨rfl, rfl, rfl⟩, rfl⟩) rfl (solo_write bs)

/-- **A step of `main` that is no call of `socket_impl.c`** is some moves of the bridge. -/
theorem solo_step (hno : ∀ c k, p ≠ .op (.sock c) k) (hs : Step (sem prompt) (p, w) (p', w'))
    (n : Nat) (printed : List (List UInt8)) : ∃ tx printed', w'.tx = w.tx ++ tx ∧
      ∀ oracle, Solo (party (moves oracle)) (p, ⟨w.g, n, printed⟩) w.port
        (p', ⟨w'.g, n, printed'⟩) w'.port tx [] := by
  cases p with
  | ret a => exact hs.elim
  | loop body k =>
    obtain ⟨rfl, rfl⟩ := hs
    exact ⟨[], printed, (List.append_nil _).symm, fun _ =>
      .single (a := .tau) ⟨rfl, rfl, rfl⟩ rfl⟩
  | op e k =>
    obtain ⟨b, hb, rfl⟩ := hs
    cases e with
    | sock c => exact absurd rfl (hno c k)
    | get =>
      obtain ⟨rfl, hw⟩ := hb
      obtain rfl : w' = w := hw
      exact ⟨[], printed, (List.append_nil _).symm, fun _ =>
        .single (a := .tau) (.inl ⟨_, ⟨rfl, rfl, rfl⟩, rfl⟩) rfl⟩
    | set g | store dst bs | eprint s =>
      obtain rfl : w' = _ := hb
      exact ⟨[], printed, (List.append_nil _).symm, fun _ =>
        .single (a := .tau) (.inl ⟨_, ⟨rfl, rfl, rfl⟩, rfl⟩) rfl⟩
    | ewrite bs =>
      obtain rfl : w' = w := hb
      exact ⟨[], printed ++ [bs], (List.append_nil _).symm, fun _ =>
        .single (a := .tau) (.inl ⟨_, ⟨rfl, rfl, rfl⟩, rfl⟩) rfl⟩
    | write bs =>
      obtain rfl : w' = _ := hb
      exact ⟨bs, printed, rfl, fun _ => solo_write bs⟩
    | read count ms =>
      obtain ⟨port, ⟨bs, rfl, hport, hle, hall⟩, hw⟩ := hb
      obtain rfl : w' = _ := hw
      exact ⟨[], printed, (List.append_nil _).symm, fun _ =>
        .single (a := .recv bs) (.inl ⟨_, ⟨bs, rfl, rfl, hle, hall, rfl⟩, rfl⟩) ⟨hport, rfl, rfl⟩⟩

/-- A call of `socket_impl.c` that has come to its end is noted. -/
theorem solo_sock {c : SockCall} {r : c.Res} (k : c.Res → Code Unit) (x : Side) (rx : List UInt8)
    (hr : oracle x.calls c = r) : Solo (party (moves oracle)) (.op (.sock c) k, x) rx
      (k r, { x with calls := x.calls + 1 }) rx [] [c] :=
  .single (a := .note c) (.inl ⟨r, ⟨rfl, congrArg Sum.inl hr.symm, rfl⟩, rfl⟩) rfl

end Solo

/-! ## 3. A run -/

/-- The port brings all that has arrived, as far as it is asked for; a read with the long timeout
has no answer before there is enough. -/
def promptAnswer : (β : Type) → Op β → World (List UInt8) → Option (β × World (List UInt8))
  | _, .get, w => some (w.g, w)
  | _, .set g, w => some ((), { w with g })
  | _, .read count ms, w =>
    if ms = timeoutMs ∧ w.port.length < count then none
    else some (.bytes (w.port.take count), { w with port := w.port.drop count })
  | _, .store dst bs, w =>
    some ((), { w with g := w.g.store bs dst, overrun := w.overrun || dst.overrun bs.length })
  | _, .write bs, w => some ((), { w with tx := w.tx ++ bs })
  | _, .eprint _, w => some ((), w)
  | _, .ewrite _, w => some ((), w)
  | _, .sock c, w => some (c.sample, w)

theorem promptAnswer_sound (β : Type) (e : Op β) (w : World (List UInt8)) (b : β)
    (w' : World (List UInt8)) (h : promptAnswer β e w = some (b, w')) : sem prompt β e w b w' := by
  cases e with
  | get =>
    cases h
    exact ⟨rfl, rfl⟩
  | read count ms =>
    obtain ⟨henough, heq⟩ := Option.ite_none_left_eq_some.mp h
    cases heq
    refine ⟨_, ⟨_, rfl, (List.take_append_drop count w.port).symm, ?_, fun hms => ?_⟩, rfl⟩
    · rw [List.length_take]
      exact Nat.min_le_left ..
    · rw [List.length_take]
      exact Nat.min_eq_left (not_lt.mp fun hlt => henough ⟨hms, hlt⟩)
  | sock c =>
    cases h
    exact ⟨c.allows_sample, rfl⟩
  | set g | store dst bs | write bs | eprint s | ewrite bs =>
    cases h
    rfl

/-- This port, and the operating system on which nothing fails. -/
def honestAnswer : (β : Type) → WholeOp β → World (List UInt8) × Os →
    Option (β × (World (List UInt8) × Os))
  | _, .link e, v => (promptAnswer _ e v.1).map fun r => (r.1, r.2, v.2)
  | _, .os e, v => (osAnswer _ e v.2).map fun r => (r.1, v.1, r.2)

theorem honestAnswer_sound (β : Type) (e : WholeOp β) (v : World (List UInt8) × Os) (b : β)
    (v' : World (List UInt8) × Os) (h : honestAnswer β e v = some (b, v')) :
    honestSem prompt β e v b v' := by
  cases e with
  | link e =>
    obtain ⟨⟨b, w⟩, hw, heq⟩ := Option.map_eq_some_iff.mp h
    cases heq
    exact ⟨⟨promptAnswer_sound β e v.1 b w hw, rfl⟩, trivial⟩
  | os e =>
    obtain ⟨⟨b, w⟩, hw, heq⟩ := Option.map_eq_some_iff.mp h
    cases heq
    refine ⟨⟨osAnswer_sound β e v.2 b w hw, rfl⟩, ?_⟩
    have hlow : (-1 : Int) ≤ 0 := by decide
    cases e with
    | sendto sock data flags addr =>
      cases hw
      exact ⟨hlow, Int.natCast_nonneg _⟩
    | recvfrom sock size peek =>
      cases hw
      exact ⟨hlow, Int.natCast_nonneg _, Int.natCast_nonneg _⟩
    | _ => trivial

end GBridge.Bridge

/-
# A program in two phases

Up to some moment a program is specified in one way and from then on in another, with a ghost world
of its own.  When that moment comes is for the commands to say: what an `Opening` asks of a command
may be met by going on in the first phase, or in the second one.

For a pair of programs that comes to its second phase, `reach_behind` carries its runs over: to
parties that may do more, and to a log in which something stands already.
-/
import GBridge.Lib.Player

namespace Prog

variable {E : Type → Type} {U V α : Type}

/-! ## 1. Phases -/

/-- What the commands need and may answer, as long as the first phase lasts. -/
structure Opening (E : Type → Type) (U V : Type) where
  pre : {β : Type} → E β → (β → U ⊕ V → Prop) → U → Prop
  mono : ∀ {β : Type} (e : E β) {Q Q' : β → U ⊕ V → Prop} {u : U},
    (∀ b w, Q b w → Q' b w) → pre e Q u → pre e Q' u

/-- What they need in both. -/
def Opening.followed (O : Opening E U V) (S : Spec E V) : Spec E (U ⊕ V) where
  pre e Q
    | .inl u => O.pre e Q u
    | .inr v => S.pre e (fun b v' => Q b (.inr v')) v
  mono := by
    rintro β e Q Q' (u | v) hQ h
    · exact O.mono e hQ h
    · exact S.mono e (fun b v' => hQ b (.inr v')) h

/-- **The second phase is that of the second specification.** -/
theorem wpre_followed {O : Opening E U V} {S : Spec E V} {t : Bool} {p : Prog E α}
    {Q : α → U ⊕ V → Prop} {v : V} :
    wpre (O.followed S) t p Q (.inr v) ↔ wpre S t p (fun a v' => Q a (.inr v')) v := by
  induction p generalizing v with
  | ret a => rfl
  | op e k ih =>
    constructor
    · exact S.mono e fun b v' => (ih b).mp
    · exact S.mono e fun b v' => (ih b).mpr
  | loop body k ihb ih =>
    constructor
    · rintro ⟨I, ⟨n, hn⟩, hbody⟩
      refine ⟨fun n v => I n (.inr v), ⟨n, hn⟩, fun n v hv => ?_⟩
      refine wpre_mono (fun b v' hb => ?_) (ihb.mp (hbody n _ hv))
      cases b with
      | true => exact hb
      | false => exact ih.mp hb
    · rintro ⟨I, ⟨n, hn⟩, hbody⟩
      refine ⟨fun n w => ∃ v, w = .inr v ∧ I n v, ⟨n, v, rfl, hn⟩, ?_⟩
      rintro n _ ⟨v, rfl, hv⟩
      refine ihb.mpr (wpre_mono (fun b v' hb => ?_) (hbody n v hv))
      cases b with
      | true =>
        obtain ⟨m, hm, hi⟩ := hb
        exact ⟨m, hm, v', rfl, hi⟩
      | false => exact ih.mpr hb

end Prog

namespace Duplex

open Prog

variable {E : Type → Type} {G W β N α : Type}

/-! ## 2. Moves -/

/-- The bytes that a move puts on the line. -/
def Act.sends : Act β N → List β
  | .send b => [b]
  | _ => []

/-- The bytes that it takes. -/
def Act.takes : Act β N → List β
  | .recv bs => bs
  | _ => []

/-- What it notes. -/
def Act.noted : Act β N → List N
  | .note n => [n]
  | _ => []

theorem Act.Effect.parts {a : Act β N} {rx rx' tx tx' : List β} {l : List N}
    (h : a.Effect (rx, tx, []) (rx', tx', l)) :
    rx = a.takes ++ rx' ∧ tx' = tx ++ a.sends ∧ l = a.noted := by
  cases a with
  | tau | send b | note n =>
    cases h
    simp [Act.takes, Act.sends, Act.noted]
  | recv bs =>
    obtain ⟨hrx, htx, hl⟩ := h
    exact ⟨hrx, by rw [htx]; exact (List.append_nil tx).symm, hl⟩
  | poll m =>
    obtain ⟨-, h⟩ := h
    cases h
    simp [Act.takes, Act.sends, Act.noted]

/-- The same move, with something else sent before. -/
theorem Act.Effect.elsewhere {a : Act β N} {rx rx' tx tx' : List β} {l : List N}
    (h : a.Effect (rx, tx, []) (rx', tx', l)) (old : List β) :
    a.Effect (rx, old, []) (rx', old ++ a.sends, l) := by
  cases a with
  | tau | send b | note n =>
    cases h
    simp [Act.Effect, Act.sends]
  | recv bs =>
    obtain ⟨hrx, -, hl⟩ := h
    exact ⟨hrx, List.append_nil old, hl⟩
  | poll m =>
    obtain ⟨hm, h⟩ := h
    cases h
    exact ⟨hm, by simp [Act.sends]⟩

/-- **A move of a program**: `Next` is where the ghost world may go as it is made. -/
theorem wpre_party {S : Spec E W} {moves : Moves E G β N} {Q : α → W → Prop} {w : W} {g g' : G}
    {a : Act β N} {p p' : Prog E α} {Next : (W → Prop) → Prop}
    (hanswer : ∀ {γ : Type} {e : E γ} {R : γ → W → Prop} {b : γ}, S.pre e R w →
      moves γ e g a (.inl b) g' → Next (R b))
    (hgo : ∀ {γ : Type} {e e' : E γ} {R : γ → W → Prop}, S.pre e R w →
      moves γ e g a (.inr e') g' → Next (S.pre e' R))
    (hround : ∀ {R : W → Prop}, a = .tau → g' = g → R w → Next R)
    (h : wpre S true p Q w) (hm : party moves (p, g) a (p', g')) : Next (wpre S true p' Q) := by
  cases p with
  | ret x => exact hm.elim
  | op e k =>
    rcases hm with ⟨b, hm, rfl⟩ | ⟨e', hm, rfl⟩
    · exact hanswer (R := fun b => wpre S true (k b) Q) h hm
    · exact hgo (R := fun b => wpre S true (k b) Q) h hm
  | loop body k =>
    obtain ⟨ha, rfl, hg⟩ := hm
    obtain ⟨I, ⟨m, hm⟩, hbody⟩ := h
    refine hround ha hg (wpre_bind.mpr (wpre_mono (fun b v' hb => ?_) (hbody m w hm)))
    cases b with
    | true =>
      obtain ⟨m, -, hm⟩ := hb
      exact ⟨I, ⟨m, hm⟩, hbody⟩
    | false => exact hb

/-! ## 3. Runs of a pair -/

/-- **A run of the pair is one** of parties that may do more, behind what is logged already. -/
theorem reach_behind {M : Type} {S T : Type*} {P Q : Party β N S} {R O : Party β M T}
    {σ σ' : Pair β N M S T} (hP : ∀ {s a s'}, P s a s' → Q s a s')
    (hR : ∀ {t a t'}, R t a t' → O t a t') (l : List (N ⊕ M)) (h : PairReach P R σ σ') :
    PairReach Q O { σ with log := l ++ σ.log } { σ' with log := l ++ σ'.log } := by
  induction h with
  | refl => exact .refl
  | tail _ hs ih =>
    refine ih.tail ?_
    cases hs with
    | left hm he =>
      rw [← List.append_assoc]
      exact .left (hP hm) he
    | right hm he =>
      rw [← List.append_assoc]
      exact .right (hR hm) he
    | arriveL hfly => exact .arriveL hfly
    | arriveR hfly => exact .arriveR hfly

end Duplex

/-
# Runs of a pair that are computed

What a party does on its turn is a function of its state and of the bytes that have arrived.  Where
that function agrees with the moves, a list of turns computes a run.
-/
import GBridge.Lib.Player

namespace Duplex

open Prog

universe u v

variable {E : Type → Type} {G β N M α : Type} {S : Type u} {T : Type v}

/-! ## 1. Moves -/

/-- What a move makes of the bytes that have arrived and of those under way, if it can be made. -/
def Act.apply [DecidableEq β] : Act β N → List β → List β → Option (List β × List β × List N)
  | .tau, rx, tx => some (rx, tx, [])
  | .send b, rx, tx => some (rx, tx ++ [b], [])
  | .recv bs, rx, tx =>
    if rx = bs ++ rx.drop bs.length then some (rx.drop bs.length, tx, []) else none
  | .poll m, rx, tx => if m = rx.length then some (rx, tx, []) else none
  | .note n, rx, tx => some (rx, tx, [n])

theorem Act.apply_effect [DecidableEq β] {a : Act β N} {rx tx : List β}
    {r : List β × List β × List N} (h : a.apply rx tx = some r) : a.Effect (rx, tx, []) r := by
  cases a with
  | tau | send b | note n =>
    cases h
    rfl
  | recv bs =>
    obtain ⟨hrx, heq⟩ := Option.ite_none_right_eq_some.mp h
    cases heq
    exact ⟨hrx, rfl, rfl⟩
  | poll m =>
    obtain ⟨hm, heq⟩ := Option.ite_none_right_eq_some.mp h
    cases heq
    exact ⟨hm, rfl⟩

/-- What a party does on its turn, with these bytes arrived. -/
abbrev Plan (β N : Type) (S : Type u) : Type u := S → List β → Option (Act β N × S)

/-- What a command does. -/
abbrev Answers (E : Type → Type) (G β N : Type) : Type 1 :=
  (γ : Type) → E γ → G → List β → Option (Act β N × (γ ⊕ E γ) × G)

/-- What a program does. -/
def planned (answers : Answers E G β N) : Plan β N (Prog E α × G)
  | (.ret _, _), _ => none
  | (.op e k, g), rx =>
    (answers _ e g rx).map fun r => (r.1, r.2.1.elim k fun e' => .op e' k, r.2.2)
  | (.loop body k, g), _ => some (.tau, body.bind fun b => if b then .loop body k else k, g)

/-- **What commands do that make moves, a program does that makes moves.** -/
theorem planned_party {answers : Answers E G β N} {moves : Moves E G β N}
    (hsound : ∀ {γ : Type} {e : E γ} {g g' : G} {rx : List β} {a : Act β N} {r : γ ⊕ E γ},
      answers γ e g rx = some (a, r, g') → moves γ e g a r g')
    {c c' : Prog E α × G} {rx : List β} {a : Act β N}
    (h : planned answers c rx = some (a, c')) : party moves c a c' := by
  obtain ⟨p, g⟩ := c
  cases p with
  | ret x => cases h
  | op e k =>
    obtain ⟨⟨a, r, g'⟩, hr, heq⟩ := Option.map_eq_some_iff.mp h
    cases heq
    cases r with
    | inl b => exact .inl ⟨b, hsound hr, rfl⟩
    | inr e' => exact .inr ⟨e', hsound hr, rfl⟩
  | loop body k =>
    cases h
    exact ⟨rfl, rfl, rfl⟩

/-! ## 2. Runs -/

/-- Whose turn it is. -/
inductive Whose where
  | left
  | right
  | arriveL
  | arriveR

variable [DecidableEq β]

/-- The next state, if there is one. -/
def Pair.turn (p : Plan β N S) (r : Plan β M T) (σ : Pair β N M S T) :
    Whose → Option (Pair β N M S T)
  | .left => (p σ.left σ.rxL).bind fun m => (m.1.apply σ.rxL σ.flyR).map fun x =>
    { σ with left := m.2, rxL := x.1, flyR := x.2.1, log := σ.log ++ x.2.2.map .inl }
  | .right => (r σ.right σ.rxR).bind fun m => (m.1.apply σ.rxR σ.flyL).map fun x =>
    { σ with right := m.2, rxR := x.1, flyL := x.2.1, log := σ.log ++ x.2.2.map .inr }
  | .arriveL => σ.flyL.head?.map fun b => { σ with rxL := σ.rxL ++ [b], flyL := σ.flyL.tail }
  | .arriveR => σ.flyR.head?.map fun b => { σ with rxR := σ.rxR ++ [b], flyR := σ.flyR.tail }

/-- Turn by turn; one that is not possible is passed over. -/
def Pair.turns (p : Plan β N S) (r : Plan β M T) : List Whose → Pair β N M S T → Pair β N M S T
  | [], σ => σ
  | t :: ts, σ => turns p r ts ((σ.turn p r t).getD σ)

section Run

variable {p : Plan β N S} {r : Plan β M T} {P : Party β N S} {R : Party β M T}

theorem turn_step (hP : ∀ {s rx a s'}, p s rx = some (a, s') → P s a s')
    (hR : ∀ {t rx a t'}, r t rx = some (a, t') → R t a t') {σ σ' : Pair β N M S T} {t : Whose}
    (h : σ.turn p r t = some σ') : PairStep P R σ σ' := by
  cases t with
  | left =>
    obtain ⟨⟨a, s⟩, hm, h⟩ := Option.bind_eq_some_iff.mp h
    obtain ⟨x, he, rfl⟩ := Option.map_eq_some_iff.mp h
    exact .left (hP hm) (Act.apply_effect he)
  | right =>
    obtain ⟨⟨a, s⟩, hm, h⟩ := Option.bind_eq_some_iff.mp h
    obtain ⟨x, he, rfl⟩ := Option.map_eq_some_iff.mp h
    exact .right (hR hm) (Act.apply_effect he)
  | arriveL =>
    obtain ⟨b, hb, rfl⟩ := Option.map_eq_some_iff.mp h
    exact .arriveL (List.eq_cons_of_mem_head? hb)
  | arriveR =>
    obtain ⟨b, hb, rfl⟩ := Option.map_eq_some_iff.mp h
    exact .arriveR (List.eq_cons_of_mem_head? hb)

/-- **What is computed is a run.** -/
theorem turns_reach (hP : ∀ {s rx a s'}, p s rx = some (a, s') → P s a s')
    (hR : ∀ {t rx a t'}, r t rx = some (a, t') → R t a t') :
    ∀ (ts : List Whose) (σ : Pair β N M S T), PairReach P R σ (σ.turns p r ts)
  | [], _ => .refl
  | t :: ts, σ => by
    have hrest := turns_reach hP hR ts ((σ.turn p r t).getD σ)
    cases ht : σ.turn p r t with
    | none =>
      rw [ht] at hrest
      rw [Pair.turns, ht]
      exact hrest
    | some σ' =>
      rw [ht] at hrest
      rw [Pair.turns, ht]
      exact .head (turn_step (P := P) (R := R) hP hR ht) hrest

end Run

end Duplex

/-
# Several moves of one party

What is one step of a finer party may be several moves of the one it is compared with, or none.
`Solo` is such a stretch of moves: what it takes of the bytes that have arrived, what it sends and
what it notes.

In a pair it is a run in which the other party rests, and nothing arrives (`Solo.left`,
`Solo.right`).  Bytes that are on their way may arrive before it, as many as there are
(`reach_arriveL`, `reach_arriveR`).
-/
import GBridge.Lib.Duplex

namespace Duplex

universe u v

variable {β N M : Type} {S : Type u} {T : Type v}

/-- Some moves of a party, one after the other: from a state and the bytes that have arrived to
such another pair, with the bytes that are sent and what is noted. -/
inductive Solo (P : Party β N S) : S → List β → S → List β → List β → List N → Prop
  | rest {s : S} {rx : List β} : Solo P s rx s rx [] []
  | move {s s₁ s' : S} {a : Act β N} {rx rx₁ rx' tx tx' : List β} {l l' : List N} :
    P s a s₁ → a.Effect (rx, [], []) (rx₁, tx, l) → Solo P s₁ rx₁ s' rx' tx' l' →
    Solo P s rx s' rx' (tx ++ tx') (l ++ l')

section Solo

variable {P : Party β N S} {R : Party β M T} {s s' : S} {t t' : T} {a : Act β N}
  {rx rx' tx : List β} {l : List N} {k : List M}

/-- A single move. -/
theorem Solo.single (hm : P s a s') (he : a.Effect (rx, [], []) (rx', tx, l)) :
    Solo P s rx s' rx' tx l := by
  have h := Solo.move hm he .rest
  rwa [List.append_nil, List.append_nil] at h

/-- What was sent before does not matter. -/
theorem Act.Effect.behind (h : a.Effect (rx, [], []) (rx', tx, l)) (old : List β) :
    a.Effect (rx, old, []) (rx', old ++ tx, l) := by
  cases a with
  | tau | send b | note n =>
    cases h
    simp [Act.Effect]
  | recv bs =>
    obtain ⟨hrx, htx, hl⟩ := h
    exact ⟨hrx, by rw [htx, List.append_nil], hl⟩
  | poll m =>
    obtain ⟨hm, h⟩ := h
    cases h
    exact ⟨hm, by rw [List.append_nil]⟩

/-- The left party moves, and the right one rests. -/
theorem Solo.left (h : Solo P s rx s' rx' tx l) (t : T) (fly rxR : List β) :
    ∀ (flyR : List β) (log : List (N ⊕ M)), PairReach P R ⟨s, t, rx, fly, rxR, flyR, log⟩
      ⟨s', t, rx', fly, rxR, flyR ++ tx, log ++ l.map .inl⟩ := by
  induction h with
  | rest =>
    intro flyR log
    rw [List.append_nil, List.map_nil, List.append_nil]
  | @move s s₁ s' a rx rx₁ rx' tx tx' l l' hm he _ ih =>
    intro flyR log
    have hnext := ih (flyR ++ tx) (log ++ l.map .inl)
    rw [List.append_assoc, List.append_assoc, ← List.map_append] at hnext
    exact .head (.left hm (he.behind flyR)) hnext

/-- The right party moves, and the left one rests. -/
theorem Solo.right (h : Solo R t rx t' rx' tx k) (s : S) (rxL flyR : List β) :
    ∀ (fly : List β) (log : List (N ⊕ M)), PairReach P R ⟨s, t, rxL, fly, rx, flyR, log⟩
      ⟨s, t', rxL, fly ++ tx, rx', flyR, log ++ k.map .inr⟩ := by
  induction h with
  | rest =>
    intro fly log
    rw [List.append_nil, List.map_nil, List.append_nil]
  | @move t t₁ t' a rx rx₁ rx' tx tx' k k' hm he _ ih =>
    intro fly log
    have hnext := ih (fly ++ tx) (log ++ k.map .inr)
    rw [List.append_assoc, List.append_assoc, ← List.map_append] at hnext
    exact .head (.right hm (he.behind fly)) hnext

/-- Bytes arrive on the left. -/
theorem reach_arriveL (s : S) (t : T) (rxR flyR fly : List β) (log : List (N ⊕ M)) :
    ∀ bs rx : List β, PairReach P R ⟨s, t, rx, bs ++ fly, rxR, flyR, log⟩
      ⟨s, t, rx ++ bs, fly, rxR, flyR, log⟩
  | [], rx => by rw [List.append_nil, List.nil_append]
  | b :: bs, rx => by
    have hnext := reach_arriveL s t rxR flyR fly log bs (rx ++ [b])
    rw [List.append_assoc, List.singleton_append] at hnext
    exact .head (.arriveL rfl) hnext

/-- Bytes arrive on the right. -/
theorem reach_arriveR (s : S) (t : T) (rxL flyL fly : List β) (log : List (N ⊕ M)) :
    ∀ bs rx : List β, PairReach P R ⟨s, t, rxL, flyL, rx, bs ++ fly, log⟩
      ⟨s, t, rxL, flyL, rx ++ bs, fly, log⟩
  | [], rx => by rw [List.append_nil, List.nil_append]
  | b :: bs, rx => by
    have hnext := reach_arriveR s t rxL flyL fly log bs (rx ++ [b])
    rw [List.append_assoc, List.singleton_append] at hnext
    exact .head (.arriveR rfl) hnext

end Solo

end Duplex

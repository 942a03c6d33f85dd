/-
# Two parties on a line, playing one script

Two programs are joined by two lossless FIFO channels.  Nothing is assumed of the schedule:
each party moves when it likes, a byte is in flight for as long as it likes, and a party that
asks how much has arrived is told the truth of the moment.

The tool for such a pair is a SCRIPT: one list of events, bytes in either direction and
things worth noting on either side, in the order they would happen if the parties took turns.
Each party is then checked alone, against its own view of the script (`view`): the bytes it
may find waiting, and the list of its own events, each with the bytes the other side sends
only once it has happened.  `Follows` is what that check has to establish, and it never
mentions the other party.

`reach_agrees` puts the two together: if both parties follow the script, then in every state
the pair can reach, one of them is ahead by a stretch of the script consisting of its own
events only, and what the channels hold is that stretch.  So the log of the notes is always
an initial segment of the script's notes (`log_isPrefix`).

A party may find bytes waiting that are older than the script; they come first, and the
count of those left is carried along as `early`.
-/
import Mathlib.Data.List.Chain
import Mathlib.Logic.Relation

namespace Duplex

universe u v

variable {β N M : Type} {S : Type u} {T : Type v}

/-! ## 1. Scripts and views -/

/-- An event of the script, seen from one of the two parties: something it does, or
something the other one does. -/
inductive Ev (β N M : Type) where
  /-- We send a byte. -/
  | mine (b : β)
  /-- The other side sends a byte. -/
  | theirs (b : β)
  /-- We do something worth noting. -/
  | note (n : N)
  /-- The other side does something worth noting. -/
  | noted (m : M)

/-- The same event seen from the other side. -/
def Ev.swap : Ev β N M → Ev β M N
  | .mine b => .theirs b
  | .theirs b => .mine b
  | .note n => .noted n
  | .noted m => .note m

@[simp] theorem Ev.swap_swap (e : Ev β N M) : e.swap.swap = e := by cases e <;> rfl

@[simp] theorem map_swap_swap (G : List (Ev β N M)) : (G.map Ev.swap).map Ev.swap = G := by
  rw [List.map_map, show (Ev.swap ∘ Ev.swap : Ev β N M → Ev β N M) = id from
    funext Ev.swap_swap, List.map_id]

/-- Is the event ours? -/
def Ev.ours : Ev β N M → Bool
  | .mine _ | .note _ => true
  | .theirs _ | .noted _ => false

@[simp] theorem Ev.ours_swap (e : Ev β N M) : e.swap.ours = !e.ours := by cases e <;> rfl

/-- Does the event put a byte on the line? -/
def Ev.isByte : Ev β N M → Bool
  | .mine _ | .theirs _ => true
  | .note _ | .noted _ => false

@[simp] theorem Ev.isByte_swap (e : Ev β N M) : e.swap.isByte = e.isByte := by cases e <;> rfl

/-- An own event of a party. -/
inductive Own (β N : Type) where
  | send (b : β)
  | note (n : N)

/-- What is left of a script for one party: the bytes the other side sends before we do
anything more, and our own events, each with the bytes it releases. -/
def view : List (Ev β N M) → List β × List (Own β N × List β)
  | [] => ([], [])
  | .mine b :: G => ([], (.send b, (view G).1) :: (view G).2)
  | .note n :: G => ([], (.note n, (view G).1) :: (view G).2)
  | .theirs b :: G => (b :: (view G).1, (view G).2)
  | .noted _ :: G => view G

@[simp] theorem view_nil : view ([] : List (Ev β N M)) = ([], []) := rfl

@[simp] theorem view_mine (b : β) (G : List (Ev β N M)) :
    view (.mine b :: G) = ([], (.send b, (view G).1) :: (view G).2) := rfl

@[simp] theorem view_note (n : N) (G : List (Ev β N M)) :
    view (.note n :: G) = ([], (.note n, (view G).1) :: (view G).2) := rfl

@[simp] theorem view_theirs (b : β) (G : List (Ev β N M)) :
    view (.theirs b :: G) = (b :: (view G).1, (view G).2) := rfl

@[simp] theorem view_noted (m : M) (G : List (Ev β N M)) : view (.noted m :: G) = view G := rfl

/-- The bytes the other side sends in a stretch of the script. -/
def theirBytes : List (Ev β N M) → List β
  | [] => []
  | .theirs b :: G => b :: theirBytes G
  | .mine _ :: G | .note _ :: G | .noted _ :: G => theirBytes G

/-- The notes of both sides, in order. -/
def notes : List (Ev β N M) → List (N ⊕ M)
  | [] => []
  | .note n :: G => .inl n :: notes G
  | .noted m :: G => .inr m :: notes G
  | .mine _ :: G | .theirs _ :: G => notes G

theorem theirBytes_append (G H : List (Ev β N M)) :
    theirBytes (G ++ H) = theirBytes G ++ theirBytes H := by
  induction G with
  | nil => rfl
  | cons e G ih => cases e <;> simp [theirBytes, ih]

theorem notes_append (G H : List (Ev β N M)) : notes (G ++ H) = notes G ++ notes H := by
  induction G with
  | nil => rfl
  | cons e G ih => cases e <;> simp [notes, ih]

theorem notes_swap (G : List (Ev β N M)) :
    notes (G.map Ev.swap) = (notes G).map Sum.swap := by
  induction G with
  | nil => rfl
  | cons e G ih => cases e <;> simp [notes, Ev.swap, ih]

/-- A stretch of the other side's events only. -/
def Theirs (G : List (Ev β N M)) : Prop := ∀ e ∈ G, e.ours = false

/-- A stretch of our own events only. -/
def Ours (G : List (Ev β N M)) : Prop := ∀ e ∈ G, e.ours = true

theorem ours_swap {G : List (Ev β N M)} : Ours (G.map Ev.swap) ↔ Theirs G := by
  simp [Ours, Theirs]

/-- The other side's stretch only adds to what we may find waiting. -/
theorem view_theirs_append {G : List (Ev β N M)} (h : Theirs G) (H : List (Ev β N M)) :
    view (G ++ H) = (theirBytes G ++ (view H).1, (view H).2) := by
  induction G with
  | nil => rfl
  | cons e G ih =>
    have hG : Theirs G := fun e he => h e (List.mem_cons_of_mem _ he)
    cases e with
    | mine b => exact absurd (h _ List.mem_cons_self) (by simp [Ev.ours])
    | note n => exact absurd (h _ List.mem_cons_self) (by simp [Ev.ours])
    | theirs b => simp [theirBytes, ih hG]
    | noted m => simp [theirBytes, ih hG]

/-- The turn passes from one party to the other only with a byte on the line. -/
def Turns (G : List (Ev β N M)) : Prop :=
  G.IsChain fun e e' => e.ours = e'.ours ∨ e.isByte = true

theorem turns_swap {G : List (Ev β N M)} : Turns (G.map Ev.swap) ↔ Turns G := by
  simp [Turns, List.isChain_map]

theorem turns_of_append_right {G H : List (Ev β N M)} (h : Turns (G ++ H)) : Turns H :=
  (List.isChain_append.mp h).2.1

/-- When nothing is due and an event of ours comes next in our view, it comes next in the
script: the turn cannot have passed over a silent note of the other side. -/
theorem next_ours {G : List (Ev β N M)} (hG : Turns G) (hdue : (view G).1 = [])
    {o : Own β N} {rel : List β} {out : List (Own β N × List β)}
    (hout : (view G).2 = (o, rel) :: out) :
    ∃ e H, G = e :: H ∧ e.ours = true ∧ (view H) = (rel, out) ∧
      (∀ b, o = .send b → e = .mine b) ∧ (∀ n, o = .note n → e = .note n) := by
  induction G with
  | nil => simp at hout
  | cons e G ih =>
    cases e with
    | mine b =>
      simp only [view_mine, List.cons.injEq, Prod.mk.injEq] at hout
      obtain ⟨⟨rfl, hr⟩, ho⟩ := hout
      exact ⟨_, G, rfl, rfl, Prod.ext hr ho, by simp, by simp⟩
    | note n =>
      simp only [view_note, List.cons.injEq, Prod.mk.injEq] at hout
      obtain ⟨⟨rfl, hr⟩, ho⟩ := hout
      exact ⟨_, G, rfl, rfl, Prod.ext hr ho, by simp, by simp⟩
    | theirs b => simp at hdue
    | noted m =>
      have hc := List.isChain_cons.mp hG
      obtain ⟨e', H, rfl, he', -⟩ := ih hc.2 hdue hout
      have hturn := hc.1 e' (by simp)
      rw [he'] at hturn
      simp [Ev.ours, Ev.isByte] at hturn

/-! ## 2. Parties, and what it is to follow a script -/

/-- One move of a party. -/
inductive Act (β N : Type) where
  /-- Something nobody sees. -/
  | tau
  /-- Put a byte on the line. -/
  | send (b : β)
  /-- Take these bytes, which have arrived. -/
  | recv (bs : List β)
  /-- Ask how many bytes have arrived, and be told. -/
  | poll (m : Nat)
  /-- Do something worth noting. -/
  | note (n : N)

/-- A party: a set of states and its moves. -/
abbrev Party (β N : Type) (S : Type u) : Type u := S → Act β N → S → Prop

/-- What a party still has to do and may still find: the bytes that may be waiting, how many
of them are older than the script, and its own events. -/
abbrev Part (β N : Type) (S : Type u) : Type u := S → Nat → List β → List (Own β N × List β) → Prop

/-- The party `P` follows the part `F`: it takes bytes only as they come, and does nothing of
its own but the next event of its part, and that only when no byte is due. -/
structure Follows (P : Party β N S) (F : Part β N S) : Prop where
  tau : ∀ {s s' early inp out}, F s early inp out → P s .tau s' → F s' early inp out
  poll : ∀ {s s' early inp out m}, F s early inp out → P s (.poll m) s' → m ≤ inp.length →
    F s' early inp out
  recv : ∀ {s s' early bs inp out}, F s early (bs ++ inp) out → P s (.recv bs) s' →
    F s' (early - bs.length) inp out
  send : ∀ {s s' early inp out b}, F s early inp out → P s (.send b) s' →
    inp.length ≤ early ∧ ∃ rel out', out = (.send b, rel) :: out' ∧ F s' early (inp ++ rel) out'
  note : ∀ {s s' early inp out n}, F s early inp out → P s (.note n) s' →
    inp.length ≤ early ∧ ∃ rel out', out = (.note n, rel) :: out' ∧ F s' early (inp ++ rel) out'

/-! ## 3. The pair -/

/-- The two parties, what has arrived on either side, what is in flight, and the log. -/
structure Pair (β N M : Type) (S : Type u) (T : Type v) where
  left : S
  right : T
  /-- Arrived on the left. -/
  rxL : List β
  /-- In flight to the left. -/
  flyL : List β
  /-- Arrived on the right. -/
  rxR : List β
  /-- In flight to the right. -/
  flyR : List β
  log : List (N ⊕ M)

/-- What a move does to the bytes that have arrived, the bytes sent off and the log. -/
def Act.Effect : Act β N → (List β × List β × List N) → (List β × List β × List N) → Prop
  | .tau, s, s' => s' = s
  | .send b, (rx, tx, l), s' => s' = (rx, tx ++ [b], l)
  | .recv bs, (rx, tx, l), (rx', tx', l') => rx = bs ++ rx' ∧ tx' = tx ∧ l' = l
  | .poll m, (rx, tx, l), s' => m = rx.length ∧ s' = (rx, tx, l)
  | .note n, (rx, tx, l), s' => s' = (rx, tx, l ++ [n])

/-- One step of the pair: a move of either party, or the arrival of a byte. -/
inductive PairStep (P : Party β N S) (R : Party β M T) :
    Pair β N M S T → Pair β N M S T → Prop
  | left {σ : Pair β N M S T} {a : Act β N} {s' : S} {rx tx : List β} {l : List N} :
    P σ.left a s' → a.Effect (σ.rxL, σ.flyR, []) (rx, tx, l) →
    PairStep P R σ { σ with left := s', rxL := rx, flyR := tx, log := σ.log ++ l.map .inl }
  | right {σ : Pair β N M S T} {a : Act β M} {t' : T} {rx tx : List β} {l : List M} :
    R σ.right a t' → a.Effect (σ.rxR, σ.flyL, []) (rx, tx, l) →
    PairStep P R σ { σ with right := t', rxR := rx, flyL := tx, log := σ.log ++ l.map .inr }
  | arriveL {σ : Pair β N M S T} {b : β} {fly : List β} : σ.flyL = b :: fly →
    PairStep P R σ { σ with rxL := σ.rxL ++ [b], flyL := fly }
  | arriveR {σ : Pair β N M S T} {b : β} {fly : List β} : σ.flyR = b :: fly →
    PairStep P R σ { σ with rxR := σ.rxR ++ [b], flyR := fly }

/-- The states the pair passes through. -/
abbrev PairReach (P : Party β N S) (R : Party β M T) :
    Pair β N M S T → Pair β N M S T → Prop :=
  Relation.ReflTransGen (PairStep P R)

/-! ## 4. The invariant

`Ahead F H s t …` is one half of it: the party in state `s` is ahead of the one in state `t`
by the stretch `seg`, with `rest` still to come for both. -/

/-- The party playing `F` is ahead by `seg`: all that is on its way to it is older than the
script, and what is on its way to the other one is older (`v`) or belongs to `seg`. -/
structure Ahead (F : Part β N S) (H : Part β M T) (s : S) (t : T) (toS toT : List β)
    (seg rest : List (Ev β N M)) : Prop where
  ours : Ours seg
  self : F s toS.length (toS ++ (view rest).1) (view rest).2
  other : ∃ v, toT = v ++ theirBytes (seg.map Ev.swap) ∧
    H t v.length (v ++ (view ((seg ++ rest).map Ev.swap)).1) (view ((seg ++ rest).map Ev.swap)).2

/-- The two parties, the bytes on their way to each and the log agree with the script, of which
`rest` is still to come for both. -/
def Agree (F : Part β N S) (H : Part β M T) (G rest : List (Ev β N M)) (s : S) (t : T)
    (toS toT : List β) (log : List (N ⊕ M)) : Prop :=
  ∃ past seg, G = past ++ (seg ++ rest) ∧ log = notes (past ++ seg) ∧
    (Ahead F H s t toS toT seg rest ∨
      Ahead H F t s toT toS (seg.map Ev.swap) (rest.map Ev.swap))

/-- The invariant does not care which side is called ours. -/
theorem Agree.swap {F : Part β N S} {H : Part β M T} {G rest : List (Ev β N M)} {s : S} {t : T}
    {toS toT : List β} {log : List (N ⊕ M)} (h : Agree F H G rest s t toS toT log) :
    Agree H F (G.map Ev.swap) (rest.map Ev.swap) t s toT toS (log.map Sum.swap) := by
  obtain ⟨past, seg, rfl, rfl, h⟩ := h
  refine ⟨past.map .swap, seg.map .swap, by simp, ?_, ?_⟩
  · rw [← notes_swap, List.map_append]
  · simpa only [map_swap_swap] using h.symm

/-- What a move leaves of the script. -/
def Act.Leaves (rest rest' : List (Ev β N M)) : Act β N → Prop
  | .tau | .poll _ | .recv _ => rest' = rest
  | .send _ | .note _ => ∃ e, rest = e :: rest'

/-- Bytes taken by the party behind come out of the old ones first and then out of the
stretch it is behind by. -/
theorem take_theirs : ∀ (bs : List β) {r v : List β} {seg : List (Ev β N M)}, Theirs seg →
    bs ++ r = v ++ theirBytes seg →
    ∃ v' s₁ s₂, seg = s₁ ++ s₂ ∧ r = v' ++ theirBytes s₂ ∧ v'.length = v.length - bs.length
  | [], r, v, seg, _, h => ⟨v, [], seg, rfl, h, rfl⟩
  | b :: bs, r, x :: v, seg, hs, h => by
    simp only [List.cons_append, List.cons.injEq] at h
    obtain ⟨v', s₁, s₂, hseg, hr, hl⟩ := take_theirs bs hs h.2
    exact ⟨v', s₁, s₂, hseg, hr, by simpa using hl⟩
  | b :: bs, r, [], [], _, h => by simp [theirBytes] at h
  | b :: bs, r, [], e :: seg, hs, h => by
    have hseg : Theirs seg := fun e he => hs e (List.mem_cons_of_mem _ he)
    cases e with
    | mine c => exact absurd (hs _ List.mem_cons_self) (by simp [Ev.ours])
    | note n => exact absurd (hs _ List.mem_cons_self) (by simp [Ev.ours])
    | theirs c =>
      simp only [theirBytes, List.nil_append, List.cons_append, List.cons.injEq] at h
      obtain ⟨v', s₁, s₂, rfl, hr, hl⟩ := take_theirs bs (v := []) hseg (by simpa using h.2)
      exact ⟨v', .theirs c :: s₁, s₂, rfl, hr, by simpa using hl⟩
    | noted m =>
      obtain ⟨v', s₁, s₂, rfl, hr, hl⟩ :=
        take_theirs (b :: bs) (v := []) hseg (by simpa [theirBytes] using h)
      exact ⟨v', .noted m :: s₁, s₂, rfl, hr, hl⟩

section Move

variable {P : Party β N S} {F : Part β N S} {H : Part β M T} {G rest : List (Ev β N M)}
  {s s' : S} {t : T} {log : List (N ⊕ M)} {rx fly toT : List β}

/-- An own event of the mover: it is the next one of the script, and the mover is ahead. -/
theorem agree_own (hG : Turns G) {o : Own β N}
    (hF : ∀ {early inp out}, F s early inp out → inp.length ≤ early ∧
      ∃ rel out', out = (o, rel) :: out' ∧ F s' early (inp ++ rel) out')
    (h : Agree F H G rest s t rx toT log) :
    ∃ (e : Ev β N M) (rest' : List (Ev β N M)), rest = e :: rest' ∧
      (∀ b, o = .send b → e = .mine b) ∧ (∀ n, o = .note n → e = .note n) ∧
      Agree F H G rest' s' t rx (toT ++ theirBytes [e.swap]) (log ++ notes [e]) := by
  obtain ⟨past, seg, rfl, rfl, h⟩ := h
  have hturn : Turns (seg ++ rest) := turns_of_append_right hG
  rcases h with ⟨hours, hself, v, htoT, hother⟩ | ⟨hours, hself, v, htoS, hother⟩
  · -- the mover is ahead already, and gets one event further ahead
    obtain ⟨hle, rel, out', hout, hF'⟩ := hF hself
    have hdue : (view rest).1 = [] := by
      rw [List.length_append] at hle
      exact List.eq_nil_of_length_eq_zero (by omega)
    obtain ⟨e, rest', rfl, he, hv, hsend, hnote⟩ :=
      next_ours (turns_of_append_right hturn) hdue hout
    refine ⟨e, rest', rfl, hsend, hnote, past, seg ++ [e], by simp, ?_,
      .inl ⟨?_, ?_, v, ?_, ?_⟩⟩
    · simp only [notes_append, List.append_assoc]
    · intro e' he'
      rcases List.mem_append.mp he' with h' | h'
      · exact hours e' h'
      · rw [List.mem_singleton.mp h']; exact he
    · simpa [hdue, hv] using hF'
    · simp [htoT, theirBytes_append]
    · simpa using hother
  · -- the mover was behind: nothing was left to catch up with, and it goes ahead
    rw [ours_swap] at hours
    rw [← List.map_append, map_swap_swap] at hother
    obtain ⟨hle, rel, out', hout, hF'⟩ := hF hother
    have hdue : (view (seg ++ rest)).1 = [] := by
      rw [List.length_append] at hle
      exact List.eq_nil_of_length_eq_zero (by omega)
    obtain ⟨e, rest', hrest, he, hv, hsend, hnote⟩ := next_ours hturn hdue hout
    obtain rfl : seg = [] := by
      cases seg with
      | nil => rfl
      | cons e₀ seg =>
        obtain rfl : e₀ = e := by simpa using (List.cons.inj hrest).1
        have := hours e₀ List.mem_cons_self
        rw [he] at this
        exact absurd this (by simp)
    rw [List.nil_append] at hrest
    subst hrest
    refine ⟨e, rest', rfl, hsend, hnote, past, [e], by simp, by simp [notes_append],
      .inl ⟨by simpa [Ours] using he, ?_, toT, by simp, by simpa using hself⟩⟩
    have hrx : rx = v := by simpa [theirBytes] using htoS
    have hdue' : (view (e :: rest')).1 = [] := by simpa using hdue
    rw [hrx, hv]
    simpa [hdue'] using hF'

/-- Every move of a party that follows its part keeps the pair in agreement. -/
theorem agree_move (hP : Follows P F) (hG : Turns G) {a : Act β N} (ha : P s a s')
    {rx' tx tx' : List β} {l : List N} (heff : a.Effect (rx, tx, []) (rx', tx', l))
    {rxT : List β} (h : Agree F H G rest s t (rx ++ fly) (rxT ++ tx) log) :
    ∃ rest', a.Leaves rest rest' ∧
      Agree F H G rest' s' t (rx' ++ fly) (rxT ++ tx') (log ++ l.map .inl) := by
  cases a with
  | tau =>
    obtain ⟨rfl, rfl, rfl⟩ : rx' = rx ∧ tx' = tx ∧ l = [] := by simpa [Act.Effect] using heff
    obtain ⟨past, seg, rfl, rfl, h⟩ := h
    refine ⟨rest, rfl, past, seg, rfl, by simp, ?_⟩
    rcases h with ⟨ho, hs, v, hv, hH⟩ | ⟨ho, hs, v, hv, hH⟩
    · exact .inl ⟨ho, hP.tau hs ha, v, hv, hH⟩
    · exact .inr ⟨ho, hs, v, hv, hP.tau hH ha⟩
  | poll m =>
    obtain ⟨rfl, rfl, rfl, rfl⟩ : m = rx.length ∧ rx' = rx ∧ tx' = tx ∧ l = [] := by
      simpa [Act.Effect] using heff
    obtain ⟨past, seg, rfl, rfl, h⟩ := h
    refine ⟨rest, rfl, past, seg, rfl, by simp, ?_⟩
    rcases h with ⟨ho, hs, v, hv, hH⟩ | ⟨ho, hs, v, hv, hH⟩
    · exact .inl ⟨ho, hP.poll hs ha (by simp), v, hv, hH⟩
    · refine .inr ⟨ho, hs, v, hv, hP.poll hH ha ?_⟩
      have hlen := congrArg List.length hv
      rw [map_swap_swap, List.length_append, List.length_append] at hlen
      rw [← List.map_append, map_swap_swap, view_theirs_append (ours_swap.mp ho)]
      simp only [List.length_append]
      omega
  | recv bs =>
    obtain ⟨rfl, rfl, rfl⟩ : rx = bs ++ rx' ∧ tx' = tx ∧ l = [] := by
      simpa [Act.Effect] using heff
    obtain ⟨past, seg, rfl, rfl, h⟩ := h
    rcases h with ⟨ho, hs, v, hv, hH⟩ | ⟨ho, hs, v, hv, hH⟩
    · refine ⟨rest, rfl, past, seg, rfl, by simp, .inl ⟨ho, ?_, v, hv, hH⟩⟩
      rw [List.append_assoc, List.append_assoc] at hs
      simpa using hP.recv hs ha
    · have htheirs : Theirs seg := ours_swap.mp ho
      rw [map_swap_swap, List.append_assoc] at hv
      obtain ⟨v', s₁, s₂, rfl, hr, hl⟩ := take_theirs bs htheirs hv
      have hs₂ : Theirs s₂ := fun e he => htheirs e (List.mem_append_right _ he)
      refine ⟨rest, rfl, past ++ s₁, s₂, by simp, by simp,
        .inr ⟨ours_swap.mpr hs₂, hs, v', ?_, ?_⟩⟩
      · rw [map_swap_swap, hr]
      · rw [← List.map_append, map_swap_swap] at hH ⊢
        rw [view_theirs_append htheirs, ← List.append_assoc, ← hv, List.append_assoc] at hH
        rw [view_theirs_append hs₂, ← List.append_assoc, ← hr, hl]
        exact hP.recv hH ha
  | send b =>
    obtain ⟨rfl, rfl, rfl⟩ : rx' = rx ∧ tx' = tx ++ [b] ∧ l = [] := by
      simpa [Act.Effect] using heff
    obtain ⟨e, rest', hrest, he, -, hagree⟩ := agree_own hG (fun hs => hP.send hs ha) h
    obtain rfl := he b rfl
    refine ⟨rest', ⟨_, hrest⟩, ?_⟩
    simpa [theirBytes, Ev.swap, notes] using hagree
  | note n =>
    obtain ⟨rfl, rfl, rfl⟩ : rx' = rx ∧ tx' = tx ∧ l = [n] := by simpa [Act.Effect] using heff
    obtain ⟨e, rest', hrest, -, he, hagree⟩ := agree_own hG (fun hs => hP.note hs ha) h
    obtain rfl := he n rfl
    refine ⟨rest', ⟨_, hrest⟩, ?_⟩
    simpa [theirBytes, Ev.swap, notes] using hagree

end Move

/-! ## 5. Every schedule -/

section Reach

variable {P : Party β N S} {R : Party β M T} {F : Part β N S} {H : Part β M T}
  {G : List (Ev β N M)} {σ σ' : Pair β N M S T}

/-- The state of a pair agrees with the script, of which `rest` is still to come. -/
def Pair.AgreesAt (F : Part β N S) (H : Part β M T) (G rest : List (Ev β N M))
    (σ : Pair β N M S T) : Prop :=
  Agree F H G rest σ.left σ.right (σ.rxL ++ σ.flyL) (σ.rxR ++ σ.flyR) σ.log

/-- The state of a pair agrees with the script. -/
def Pair.Agrees (F : Part β N S) (H : Part β M T) (G : List (Ev β N M))
    (σ : Pair β N M S T) : Prop :=
  ∃ rest, σ.AgreesAt F H G rest

theorem step_agrees (hP : Follows P F) (hR : Follows R H) (hG : Turns G)
    (hst : PairStep P R σ σ') (h : σ.Agrees F H G) : σ'.Agrees F H G := by
  obtain ⟨rest, h⟩ := h
  cases hst with
  | left ha heff =>
    obtain ⟨rest', -, h'⟩ := agree_move hP hG ha heff h
    exact ⟨rest', h'⟩
  | right ha heff =>
    obtain ⟨rest', -, h'⟩ := agree_move hR (turns_swap.mpr hG) ha heff h.swap
    refine ⟨rest'.map Ev.swap, ?_⟩
    have := h'.swap
    simpa [Pair.AgreesAt, Function.comp_def] using this
  | arriveL hfly => exact ⟨rest, by simpa [Pair.AgreesAt, hfly] using h⟩
  | arriveR hfly => exact ⟨rest, by simpa [Pair.AgreesAt, hfly] using h⟩

/-- **Whatever the schedule, the pair stays in agreement with the script.** -/
theorem reach_agrees (hP : Follows P F) (hR : Follows R H) (hG : Turns G)
    (hr : PairReach P R σ σ') (h : σ.Agrees F H G) : σ'.Agrees F H G := by
  induction hr with
  | refl => exact h
  | tail _ hst ih => exact step_agrees hP hR hG hst ih

/-- At the start: nothing of the script has happened, and whatever is under way is older. -/
theorem agrees_start (hlog : σ.log = [])
    (hF : F σ.left (σ.rxL ++ σ.flyL).length ((σ.rxL ++ σ.flyL) ++ (view G).1) (view G).2)
    (hH : H σ.right (σ.rxR ++ σ.flyR).length ((σ.rxR ++ σ.flyR) ++ (view (G.map Ev.swap)).1)
      (view (G.map Ev.swap)).2) : σ.Agrees F H G :=
  ⟨G, [], [], rfl, by simp [hlog, notes],
    .inl ⟨by simp [Ours], hF, σ.rxR ++ σ.flyR, by simp [theirBytes], hH⟩⟩

/-- **The log is an initial segment of the script's notes**, in the script's order. -/
theorem log_isPrefix (h : σ.Agrees F H G) : σ.log <+: notes G := by
  obtain ⟨rest, past, seg, rfl, hlog, -⟩ := h
  exact ⟨notes rest, by rw [hlog, ← notes_append, List.append_assoc]⟩

/-- Both parties are still playing their parts. -/
theorem agrees_parts (h : σ.Agrees F H G) :
    (∃ e i o, F σ.left e i o) ∧ ∃ e i o, H σ.right e i o := by
  obtain ⟨rest, past, seg, -, -, ⟨-, hs, v, -, hH⟩ | ⟨-, hs, v, -, hH⟩⟩ := h
  · exact ⟨⟨_, _, _, hs⟩, _, _, _, hH⟩
  · exact ⟨⟨_, _, _, hH⟩, _, _, _, hs⟩

/-- **What every move of a party that plays its part keeps holds in every state.** -/
theorem reach_keeps (hP : Follows P F) (hR : Follows R H) (hG : Turns G) {I : S → Prop}
    {J : T → Prop}
    (hI : ∀ {s s' early inp out} {a : Act β N}, F s early inp out → P s a s' → I s → I s')
    (hJ : ∀ {t t' early inp out} {a : Act β M}, H t early inp out → R t a t' → J t → J t')
    (hr : PairReach P R σ σ') (h : σ.Agrees F H G) (h0 : I σ.left ∧ J σ.right) :
    I σ'.left ∧ J σ'.right := by
  induction hr with
  | refl => exact h0
  | tail hr hst ih =>
    obtain ⟨⟨_, _, _, hF⟩, _, _, _, hH⟩ := agrees_parts (reach_agrees hP hR hG hr h)
    cases hst with
    | left ha _ => exact ⟨hI hF ha ih.1, ih.2⟩
    | right ha _ => exact ⟨ih.1, hJ hH ha ih.2⟩
    | arriveL _ => exact ih
    | arriveR _ => exact ih

/-- Nothing of ours is left in a script whose view has no event of ours. -/
theorem view_snd_nil : ∀ {G : List (Ev β N M)}, (view G).2 = [] → Theirs G
  | [], _ => by simp [Theirs]
  | .mine _ :: _, h => by simp at h
  | .note _ :: _, h => by simp at h
  | .theirs b :: G, h => by
    have := view_snd_nil (G := G) (by simpa using h)
    simpa [Theirs, Ev.ours] using this
  | .noted m :: G, h => by
    have := view_snd_nil (G := G) (by simpa using h)
    simpa [Theirs, Ev.ours] using this

/-- **When the left party is through with its part and the script ended with it, the whole
script has happened.** -/
theorem log_complete (h : σ.Agrees F H G)
    (hdone : ∀ {early inp out}, F σ.left early inp out → out = [])
    (hlast : ∀ e ∈ G.getLast?, e.ours = true) : σ.log = notes G := by
  obtain ⟨rest, past, seg, rfl, hlog, h⟩ := h
  have htheirs : Theirs rest := by
    rcases h with ⟨-, hs, -⟩ | ⟨ho, -, v, -, hH⟩
    · exact view_snd_nil (hdone hs)
    · rw [← List.map_append, map_swap_swap, view_theirs_append (ours_swap.mp ho)] at hH
      exact view_snd_nil (hdone hH)
  obtain rfl : rest = [] := by
    rcases List.eq_nil_or_concat rest with h0 | ⟨l, e, rfl⟩
    · exact h0
    · have h1 : e.ours = false := htheirs e (by simp)
      have h2 : e.ours = true := hlast e (by simp)
      rw [h1] at h2
      exact absurd h2 (by simp)
  rw [hlog, List.append_nil]

end Reach

end Duplex

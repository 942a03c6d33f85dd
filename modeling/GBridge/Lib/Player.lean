/-
# A program as a party

A program becomes a party of a pair when it is said of each command which moves it may make: an
answer is either given at once or the command goes on as another one, as a write of several
bytes does.

`Share` is what the script still has in store for a party.  It is part of the ghost world in
which the program is proved, and a move may be made only if the share allows it (`Share.Move`).
The result is `party_follows`: a program whose weakest precondition holds follows its part of
the script.  The proof about the program then never speaks of schedules, channels or the other
party.
-/
import GBridge.Lib.Duplex
import GBridge.Lib.Prog

namespace Duplex

open Prog

variable {E : Type → Type} {G V β N α : Type}

/-! ## 1. Shares -/

/-- What the script has in store for a party. -/
structure Share (β N : Type) where
  /-- The bytes it may find waiting. -/
  inp : List β
  /-- How many of them are older than the script. -/
  early : Nat
  /-- Its own events, each with the bytes it releases. -/
  out : List (Own β N × List β)

namespace Share

variable {sh : Share β N} {P P' : Share β N → Prop}

/-- The own event comes next, and nothing newer than the script is unread. -/
def Due (sh : Share β N) (o : Own β N) (P : Share β N → Prop) : Prop :=
  sh.inp.length ≤ sh.early ∧
    ∃ rel out, sh.out = (o, rel) :: out ∧ P ⟨sh.inp ++ rel, sh.early, out⟩

/-- The move is allowed, and leads to a share that satisfies `P`. -/
def Move (sh : Share β N) (P : Share β N → Prop) : Act β N → Prop
  | .tau => P sh
  | .poll m => m ≤ sh.inp.length → P sh
  | .recv bs => ∀ inp, sh.inp = bs ++ inp → P ⟨inp, sh.early - bs.length, sh.out⟩
  | .send b => sh.Due (.send b) P
  | .note n => sh.Due (.note n) P

theorem Due.mono {o : Own β N} (hP : ∀ sh', P sh' → P' sh') (h : sh.Due o P) : sh.Due o P' := by
  obtain ⟨hle, rel, out, hout, hp⟩ := h
  exact ⟨hle, rel, out, hout, hP _ hp⟩

/-- What comes next does not depend on what is to be shown of it. -/
theorem Due.forall {o : Own β N} {P : Nat → Share β N → Prop} (h : ∀ n, sh.Due o (P n)) :
    sh.Due o fun sh' => ∀ n, P n sh' := by
  obtain ⟨hle, rel, out, hout, -⟩ := h 0
  refine ⟨hle, rel, out, hout, fun n => ?_⟩
  obtain ⟨-, rel', out', hout', hp⟩ := h n
  obtain ⟨hhead, rfl⟩ := List.cons.inj (hout.symm.trans hout')
  obtain ⟨-, rfl⟩ := Prod.mk.inj hhead
  exact hp

theorem Move.forall {a : Act β N} {P : Nat → Share β N → Prop} (h : ∀ n, sh.Move (P n) a) :
    sh.Move (fun sh' => ∀ n, P n sh') a := by
  cases a with
  | tau => exact h
  | poll m => exact fun hm n => h n hm
  | recv bs => exact fun inp hinp n => h n inp hinp
  | send b => exact Due.forall h
  | note k => exact Due.forall h

variable {M : Type} {pre : List β} {G : List (Ev β N M)}

/-- What the script has in store when these older bytes are still unread. -/
def ofScript (pre : List β) (G : List (Ev β N M)) : Share β N :=
  ⟨pre ++ (view G).1, pre.length, (view G).2⟩

theorem due_mine {b : β} (h : P (ofScript pre G)) :
    (ofScript pre (.mine b :: G)).Due (.send b) P := by
  refine ⟨?_, (view G).1, (view G).2, rfl, ?_⟩
  · simp [ofScript]
  · simpa [ofScript] using h

theorem due_note {n : N} (h : P (ofScript pre G)) :
    (ofScript pre (.note n :: G)).Due (.note n) P := by
  refine ⟨?_, (view G).1, (view G).2, rfl, ?_⟩
  · simp [ofScript]
  · simpa [ofScript] using h

/-- One byte after the other is sent. -/
def Sends : List β → (Share β N → Prop) → Share β N → Prop
  | [], P, sh => P sh
  | b :: bs, P, sh => sh.Due (.send b) (Sends bs P)

theorem Sends.mono (hP : ∀ sh', P sh' → P' sh') :
    ∀ {bs : List β} {sh : Share β N}, Sends bs P sh → Sends bs P' sh
  | [], _, h => hP _ h
  | _ :: _, _, h => Due.mono (fun _ h' => Sends.mono hP h') h

theorem sends_mine (h : P (ofScript pre G)) :
    ∀ bs : List β, Sends bs P (ofScript pre (bs.map .mine ++ G))
  | [] => h
  | _ :: bs => due_mine (sends_mine h bs)

/-! Shares in which only bytes of ours are left. -/

theorem sends_inj {bs bs' : List β}
    (h : bs.map (fun b => ((.send b : Own β N), ([] : List β))) =
      bs'.map fun b => (.send b, [])) : bs = bs' := by
  refine List.map_injective_iff.mpr (fun b b' heq => ?_) h
  exact Own.send.inj (Prod.mk.inj heq).1

section Bytes

variable {todo : List β} (hout : sh.out = todo.map fun b => (.send b, []))

include hout

/-- The byte that is due is the first of them, and brings nothing in. -/
theorem Due.send_first {b : β} (h : sh.Due (.send b) P) :
    ∃ rest, todo = b :: rest ∧ P ⟨sh.inp, sh.early, rest.map fun b => (.send b, [])⟩ := by
  obtain ⟨-, rel, out, heq, hp⟩ := h
  rw [hout] at heq
  cases todo with
  | nil => simp at heq
  | cons c rest =>
    simp only [List.map_cons, List.cons.injEq, Prod.mk.injEq, Own.send.injEq] at heq
    obtain ⟨⟨rfl, rfl⟩, rfl⟩ := heq
    rw [List.append_nil] at hp
    exact ⟨rest, rfl, hp⟩

theorem not_due_note {n : N} : ¬ sh.Due (.note n) P := by
  rintro ⟨-, rel, out, heq, -⟩
  rw [hout] at heq
  cases todo with
  | nil => simp at heq
  | cons b todo => simp at heq

end Bytes

/-- Bytes that are sent are the first that are left. -/
theorem Sends.first {bs todo : List β} (hout : sh.out = todo.map fun b => (.send b, []))
    (h : Sends bs P sh) :
    ∃ rest, todo = bs ++ rest ∧ P ⟨sh.inp, sh.early, rest.map fun b => (.send b, [])⟩ := by
  induction bs generalizing sh todo with
  | nil =>
    refine ⟨todo, rfl, ?_⟩
    rw [← hout]
    exact h
  | cons b bs ih =>
    obtain ⟨rest, rfl, hnext⟩ := Due.send_first hout h
    obtain ⟨rest, rfl, hp⟩ := ih rfl hnext
    exact ⟨rest, rfl, hp⟩

end Share

/-- A script of bytes of ours. -/
theorem view_mines {M : Type} (bs : List β) :
    view (bs.map Ev.mine ++ ([] : List (Ev β N M))) = ([], bs.map fun b => (.send b, [])) := by
  induction bs with
  | nil => rfl
  | cons b bs ih => rw [List.map_cons, List.cons_append, view_mine, ih, List.map_cons]

/-- A message that comes in and is answered by a byte: `sh todo` is the share when `todo` is
still to come of it, and `after` the one when the byte has been sent. -/
structure Feed (sh : List β → Share β N) (b : β) (after : Share β N) : Prop where
  inp : ∀ c todo, (sh (c :: todo)).inp = c :: (sh todo).inp
  early : ∀ c todo, (sh (c :: todo)).early - 1 = (sh todo).early
  out : ∀ c todo, (sh (c :: todo)).out = (sh todo).out
  acked : (sh []).Due (.send b) fun sh' => sh' = after

/-- A message of the script. -/
theorem feed_script {M : Type} (b : β) (G : List (Ev β N M)) :
    Feed (fun todo => .ofScript [] (todo.map .theirs ++ .mine b :: G)) b (.ofScript [] G) where
  inp _ _ := rfl
  early _ _ := rfl
  out _ _ := rfl
  acked := Share.due_mine rfl

/-- A message that is there already, with other bytes behind it. -/
theorem feed_older {M : Type} (b : β) (rest : List β) (G : List (Ev β N M)) :
    Feed (fun todo => .ofScript (todo ++ rest) (.mine b :: G)) b (.ofScript rest G) where
  inp _ _ := rfl
  early _ _ := rfl
  out _ _ := rfl
  acked := Share.due_mine rfl

/-- Several bytes of the message are taken at once. -/
theorem Feed.recv {sh : List β → Share β N} {b : β} {after : Share β N} (h : Feed sh b after) :
    ∀ (bs : List β) {todo inp : List β}, (sh (bs ++ todo)).inp = bs ++ inp →
      Share.mk inp ((sh (bs ++ todo)).early - bs.length) (sh (bs ++ todo)).out = sh todo
  | [], todo, inp, hinp => by
    rw [List.nil_append] at hinp
    rw [← show (sh todo).inp = inp from hinp]
    rfl
  | c :: bs, todo, inp, hinp => by
    have htail : (sh (bs ++ todo)).inp = bs ++ inp := by
      rw [List.cons_append, h.inp] at hinp
      exact (List.cons.inj hinp).2
    rw [List.cons_append, h.out, List.length_cons, Nat.add_comm, Nat.sub_add_eq, h.early]
    exact h.recv bs htail

theorem Feed.inp_append {sh : List β → Share β N} {b : β} {after : Share β N}
    (h : Feed sh b after) (todo : List β) :
    ∀ bs : List β, (sh (bs ++ todo)).inp = bs ++ (sh todo).inp
  | [] => rfl
  | c :: bs => by rw [List.cons_append, h.inp, h.inp_append todo bs, List.cons_append]

/-- What a poll leaves of the patience: if polls are counted, one that came too early uses some of
it up. -/
structure Costs (counted : Bool) (early : Prop) (patience patience' : Nat) : Prop where
  less : counted = true → early → patience' < patience
  same : ¬ (counted = true ∧ early) → patience' = patience

theorem Costs.le {counted : Bool} {early : Prop} {patience patience' : Nat}
    (h : Costs counted early patience patience') : patience' ≤ patience := by
  by_cases hearly : counted = true ∧ early
  · exact Nat.le_of_lt (h.less hearly.1 hearly.2)
  · exact Nat.le_of_eq (h.same hearly)

theorem Costs.free {early : Prop} {patience patience' : Nat} (h : ¬ early) {counted : Bool} :
    Costs counted early patience patience' ↔ patience' = patience :=
  ⟨fun hc => hc.same fun hearly => h hearly.2,
    fun he => ⟨fun _ hearly => absurd hearly h, fun _ => he⟩⟩

/-- All that is still to come of the message may be found waiting. -/
theorem Feed.length_le {sh : List β → Share β N} {b : β} {after : Share β N}
    (h : Feed sh b after) (todo : List β) : todo.length ≤ (sh todo).inp.length := by
  have hinp := h.inp_append [] todo
  rw [List.append_nil] at hinp
  rw [hinp, List.length_append]
  exact Nat.le_add_right _ _

/-! ## 2. Programs as parties -/

/-- The moves a command may make: it answers, or it goes on as another command. -/
abbrev Moves (E : Type → Type) (G β N : Type) : Type 1 :=
  (γ : Type) → E γ → G → Act β N → γ ⊕ E γ → G → Prop

/-- The party a program is. -/
def party (moves : Moves E G β N) : Party β N (Prog E α × G)
  | (.ret _, _), _, _ => False
  | (.op e k, g), a, c =>
    (∃ b, moves _ e g a (.inl b) c.2 ∧ c.1 = k b) ∨
      ∃ e', moves _ e g a (.inr e') c.2 ∧ c.1 = .op e' k
  | (.loop body k, g), a, c =>
    a = .tau ∧ c.1 = (body.bind fun b => if b then .loop body k else k) ∧ c.2 = g

/-- A specification is played by the moves: whatever move a command makes is allowed.  A move may
use up one unit of patience. -/
structure Plays (S : Spec E V) (moves : Moves E G β N) (state : V → G)
    (share : V → Share β N) (patience : V → Nat) : Prop where
  answer : ∀ {γ : Type} {e : E γ} {Q : γ → V → Prop} {v : V} {a : Act β N} {b : γ} {g : G}
    {n : Nat}, S.pre e Q v → moves γ e (state v) a (.inl b) g → n < patience v →
      (share v).Move (fun sh => ∃ v', state v' = g ∧ share v' = sh ∧ n ≤ patience v' ∧ Q b v') a
  go : ∀ {γ : Type} {e e' : E γ} {Q : γ → V → Prop} {v : V} {a : Act β N} {g : G} {n : Nat},
    S.pre e Q v → moves γ e (state v) a (.inr e') g → n < patience v →
      (share v).Move
        (fun sh => ∃ v', state v' = g ∧ share v' = sh ∧ n ≤ patience v' ∧ S.pre e' Q v') a

variable {S : Spec E V} {moves : Moves E G β N} {state : V → G} {share : V → Share β N}
  {patience : V → Nat}

/-- The program is somewhere on its way to the postcondition, with so much patience left. -/
def OnWay (S : Spec E V) (state : V → G) (share : V → Share β N) (patience : V → Nat)
    (Q : α → V → Prop) (n : Nat) (c : Prog E α × G) (sh : Share β N) : Prop :=
  ∃ v, state v = c.2 ∧ share v = sh ∧ n ≤ patience v ∧ wpre S true c.1 Q v

/-- It is so with any amount of patience. -/
def Playing (S : Spec E V) (state : V → G) (share : V → Share β N) (patience : V → Nat)
    (Q : α → V → Prop) (c : Prog E α × G) (sh : Share β N) : Prop :=
  ∀ n, OnWay S state share patience Q n c sh

theorem onWay_move (hS : Plays S moves state share patience) {Q : α → V → Prop}
    {c c' : Prog E α × G} {sh : Share β N} {a : Act β N} {n : Nat}
    (h : OnWay S state share patience Q (n + 1) c sh) (hmove : party moves c a c') :
    sh.Move (OnWay S state share patience Q n c') a := by
  obtain ⟨p, g⟩ := c
  obtain ⟨p', g'⟩ := c'
  obtain ⟨v, rfl, rfl, hn, hv⟩ := h
  cases p with
  | ret x => exact hmove.elim
  | op e k =>
    rcases hmove with ⟨b, hm, rfl⟩ | ⟨e', hm, rfl⟩
    · exact hS.answer (Q := fun b v' => wpre S true (k b) Q v') hv hm hn
    · exact hS.go (Q := fun b v' => wpre S true (k b) Q v') hv hm hn
  | loop body k =>
    obtain ⟨rfl, rfl, rfl⟩ := hmove
    obtain ⟨I, ⟨m, hm⟩, hbody⟩ := hv
    refine ⟨v, rfl, rfl, Nat.le_of_succ_le hn,
      wpre_bind.mpr (wpre_mono (fun b v' hb => ?_) (hbody m v hm))⟩
    cases b with
    | true =>
      obtain ⟨m, -, hm⟩ := hb
      exact ⟨I, ⟨m, hm⟩, hbody⟩
    | false => exact hb

theorem playing_move (hS : Plays S moves state share patience) {Q : α → V → Prop}
    {c c' : Prog E α × G} {sh : Share β N} {a : Act β N}
    (h : Playing S state share patience Q c sh) (hmove : party moves c a c') :
    sh.Move (Playing S state share patience Q c') a :=
  Share.Move.forall fun n => onWay_move hS (h (n + 1)) hmove

/-- **A program whose weakest precondition holds follows its part.** -/
theorem party_follows (hS : Plays S moves state share patience) (Q : α → V → Prop) :
    Follows (party moves) fun c early inp out =>
      Playing S state share patience Q c ⟨inp, early, out⟩ where
  tau h hm := playing_move hS h hm
  poll h hm hle := playing_move hS h hm hle
  recv h hm := playing_move hS h hm _ rfl
  send h hm := playing_move hS h hm
  note h hm := playing_move hS h hm

end Duplex

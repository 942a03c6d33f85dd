/-
# The adapter, following a script

The code of the adapter is proved once, against a specification of its operations that serves
two readings of them: the serial port of `Semantics`, where a call of `gbridge_loop` finds what
has arrived, and the pair of programs, where bytes arrive while the code runs.  In both the code
may find waiting what the script has sent so far, or any initial part of it, and may send what
the script has for it next.

`Env` is what the two readings differ in: whether the link may be reset, and which moments are
recent enough not to run into a timeout.
-/
import GBridge.Atmega.Semantics
import GBridge.Lib.Player

namespace GBridge.Atmega

open Prog Duplex

/-! ## 1. The specification -/

/-- What may be relied on while a script is followed. -/
structure Env where
  /-- The link is never reset. -/
  strict : Bool
  /-- The moments that are not too long ago. -/
  fresh : UInt32 → Prop
  /-- A poll that does not report all there is to come uses up patience. -/
  counted : Bool

/-- The ghost world: the variables, how many bytes are known to have arrived, how many polls may
still come too early, and what the script has in store. -/
structure Play where
  g : State
  known : Nat
  patience : Nat
  share : Share UInt8 Result

/-- What an operation needs, and what it may answer. -/
def Play.pre (env : Env) : {β : Type} → Op β → (β → Play → Prop) → Play → Prop
  | _, .get, Q, v => Q v.g v
  | _, .set g, Q, v => (env.strict = true → g.connected = true) ∧ Q () { v with g }
  | _, .storeData i c, Q, v => Q () { v with g := v.g.storeData i c }
  | _, .storeStream i c, Q, v => Q () { v with g := v.g.storeStream i c }
  | _, .available, Q, v =>
    ∀ n patience, n ≤ v.share.inp.length →
      Costs env.counted (n < v.share.inp.length) v.patience patience →
      Q n { v with known := n, patience }
  | _, .getchar, Q, v =>
    0 < v.known ∧ ∃ c inp, v.share.inp = c :: inp ∧
      Q c { v with known := v.known - 1, share := ⟨inp, v.share.early - 1, v.share.out⟩ }
  | _, .putchar c, Q, v => v.share.Due (.send c) fun share => Q () { v with share }
  | _, .timerGet, Q, v => ∀ t, env.fresh t → Q t v
  | _, .expired since, Q, v => env.fresh since ∧ Q false v
  | _, .returned r, Q, v => v.share.Due (.note r) fun share => Q () { v with share }

/-- The operations, as a script is followed. -/
def play (env : Env) : Spec Op Play where
  pre := Play.pre env
  mono := by
    intro β e Q Q' v hQ h
    cases e with
    | get => exact hQ _ _ h
    | set g => exact ⟨h.1, hQ _ _ h.2⟩
    | storeData i c => exact hQ _ _ h
    | storeStream i c => exact hQ _ _ h
    | available => exact fun n patience hn hcost => hQ _ _ (h n patience hn hcost)
    | getchar =>
      obtain ⟨hknown, c, inp, hinp, hq⟩ := h
      exact ⟨hknown, c, inp, hinp, hQ _ _ hq⟩
    | putchar c => exact h.mono fun _ hq => hQ _ _ hq
    | timerGet => exact fun t ht => hQ _ _ (h t ht)
    | expired since => exact ⟨h.1, hQ _ _ h.2⟩
    | returned r => exact h.mono fun _ hq => hQ _ _ hq

/-- The weakest precondition while a script is followed. -/
abbrev wpP (env : Env) (t : Bool) {α : Type} (p : Code α) (Q : α → Play → Prop) (v : Play) :
    Prop :=
  wpre (play env) t p Q v

/-! ## 2. Rules -/

section Rules

variable {env : Env} {t : Bool} {α β M : Type} {v : Play} {pre : List UInt8}
  {G : List (Ev UInt8 Result M)}

theorem wpP_bind {p : Code α} {f : α → Code β} {Q : β → Play → Prop}
    (h : wpP env t p (fun a v' => wpP env t (f a) Q v') v) : wpP env t (p.bind f) Q v :=
  wpre_bind.mpr h

theorem wpP_ite {c : Prop} [Decidable c] {p q : Code α} {Q : α → Play → Prop}
    (hp : c → wpP env t p Q v) (hq : ¬ c → wpP env t q Q v) :
    wpP env t (if c then p else q) Q v := by
  split
  · exact hp ‹_›
  · exact hq ‹_›

theorem wpP_get {f : State → Code β} {Q : β → Play → Prop} (h : wpP env t (f v.g) Q v) :
    wpP env t (get.bind f) Q v := h

theorem wpP_modify {f : State → State} {Q : Unit → Play → Prop}
    (hup : env.strict = true → (f v.g).connected = true) (h : Q () { v with g := f v.g }) :
    wpP env t (modify f) Q v := ⟨hup, h⟩

theorem wpP_available {Q : Nat → Play → Prop}
    (h : ∀ n patience, n ≤ v.share.inp.length →
      Costs env.counted (n < v.share.inp.length) v.patience patience →
      Q n { v with known := n, patience }) :
    wpP env t serialAvailable Q v := h

theorem wpP_timerGet {Q : UInt32 → Play → Prop} (h : ∀ now, env.fresh now → Q now v) :
    wpP env t timerGet Q v := h

theorem wpP_expired {since : UInt32} {Q : Bool → Play → Prop} (hfresh : env.fresh since)
    (h : Q false v) : wpP env t (expired since) Q v := ⟨hfresh, h⟩

/-- A byte of the script is read. -/
theorem wpP_getchar {c : UInt8} {Q : UInt8 → Play → Prop} (hknown : 0 < v.known)
    (hshare : v.share = .ofScript [] (.theirs c :: G))
    (h : Q c { v with known := v.known - 1, share := .ofScript [] G }) :
    wpP env t serialGetchar Q v := by
  refine ⟨hknown, c, (view G).1, ?_, ?_⟩
  · rw [hshare]
    rfl
  · rw [hshare]
    exact h

/-- A byte older than the script is read. -/
theorem wpP_getchar_old {c : UInt8} {Q : UInt8 → Play → Prop} (hknown : 0 < v.known)
    (hshare : v.share = .ofScript (c :: pre) G)
    (h : Q c { v with known := v.known - 1, share := .ofScript pre G }) :
    wpP env t serialGetchar Q v := by
  refine ⟨hknown, c, pre ++ (view G).1, ?_, ?_⟩
  · rw [hshare]
    rfl
  · rw [hshare]
    exact h

theorem wpP_putchar_due {c : UInt8} {Q : Unit → Play → Prop}
    (h : v.share.Due (.send c) fun share => Q () { v with share }) :
    wpP env t (serialPutchar c) Q v := h

theorem wpP_putchar {c : UInt8} {Q : Unit → Play → Prop}
    (hshare : v.share = .ofScript pre (.mine c :: G))
    (h : Q () { v with share := .ofScript pre G }) : wpP env t (serialPutchar c) Q v := by
  refine wpP_putchar_due ?_
  rw [hshare]
  exact Share.due_mine h

theorem wpP_putchars {Q : Unit → Play → Prop} : ∀ {cs : List UInt8} {v : Play},
    v.share = .ofScript pre (cs.map Ev.mine ++ G) → Q () { v with share := .ofScript pre G } →
    wpP env t (serialPutchars cs) Q v
  | [], v, hshare, h => by
    obtain ⟨g, known, patience, share⟩ := v
    obtain rfl : share = .ofScript pre G := hshare
    exact h
  | _ :: _, _, hshare, h => wpP_bind (wpP_putchar hshare (wpP_putchars rfl h))

theorem wpP_returned {r : Result} {Q : Unit → Play → Prop}
    (hshare : v.share = .ofScript pre (.note r :: G))
    (h : Q () { v with share := .ofScript pre G }) : wpP env t (.cmd (.returned r)) Q v := by
  have hdue : v.share.Due (.note r) fun share => Q () { v with share } := by
    rw [hshare]
    exact Share.due_note h
  exact hdue

end Rules

/-! ## 3. The script on the serial port -/

/-- A call of `gbridge_loop` at a moment. -/
def Env.at (now : UInt32) : Env := ⟨false, fun since => now - since ≤ timeoutUs, false⟩

/-- The ghost world stands for the real one: the bytes of the script are those that have arrived
and those still `coming`, and what remains to be sent of it completes what is `sent` in all. -/
structure Play.Is (now : UInt32) (coming sent : List UInt8) (v : Play) (w : World) : Prop where
  g : v.g = w.g
  known : v.known = w.rx.length
  inp : v.share.inp = w.rx ++ coming
  now : w.now = now
  out : ∃ todo, v.share.out = todo.map (fun b => (.send b, [])) ∧ w.tx ++ todo = sent

/-- **The serial port follows the specification.** -/
theorem play_tracks (now : UInt32) (coming sent : List UInt8) :
    (play (.at now)).Tracks (Play.Is now coming sent) sem := by
  rintro β e Q v w ⟨hg, hknown, hinp, hnow, todo, hout, hsent⟩ hpre
  cases e with
  | get =>
    refine ⟨⟨_, _, rfl⟩, fun b w' hs => ?_⟩
    obtain ⟨rfl, rfl⟩ : w.g = b ∧ w = w' := by simpa [sem, answer] using hs
    exact ⟨v, ⟨hg, hknown, hinp, hnow, todo, hout, hsent⟩, hg ▸ hpre⟩
  | set g =>
    refine ⟨⟨_, _, rfl⟩, fun b w' hs => ?_⟩
    obtain rfl : { w with g } = w' := by simpa [sem, answer] using hs
    exact ⟨{ v with g }, ⟨rfl, hknown, hinp, hnow, todo, hout, hsent⟩, hpre.2⟩
  | storeData i c =>
    refine ⟨⟨_, _, rfl⟩, fun b w' hs => ?_⟩
    obtain rfl : { w with g := w.g.storeData i c } = w' := by simpa [sem, answer] using hs
    exact ⟨{ v with g := v.g.storeData i c },
      ⟨hg ▸ rfl, hknown, hinp, hnow, todo, hout, hsent⟩, hpre⟩
  | storeStream i c =>
    refine ⟨⟨_, _, rfl⟩, fun b w' hs => ?_⟩
    obtain rfl : { w with g := w.g.storeStream i c } = w' := by simpa [sem, answer] using hs
    exact ⟨{ v with g := v.g.storeStream i c },
      ⟨hg ▸ rfl, hknown, hinp, hnow, todo, hout, hsent⟩, hpre⟩
  | available =>
    refine ⟨⟨_, _, rfl⟩, fun b w' hs => ?_⟩
    obtain ⟨rfl, rfl⟩ : w.rx.length = b ∧ w = w' := by simpa [sem, answer] using hs
    refine ⟨{ v with known := w.rx.length }, ⟨hg, rfl, hinp, hnow, todo, hout, hsent⟩,
      hpre _ v.patience ?_ ⟨fun h => (nomatch h), fun _ => rfl⟩⟩
    rw [hinp, List.length_append]
    exact Nat.le_add_right _ _
  | getchar =>
    obtain ⟨hpos, c', inp, hinp', hq⟩ := hpre
    cases hrx : w.rx with
    | nil =>
      rw [hknown, hrx] at hpos
      exact absurd hpos (by simp)
    | cons c rx =>
      obtain ⟨rfl, rfl⟩ : c = c' ∧ rx ++ coming = inp := by
        rw [hinp, hrx] at hinp'
        exact List.cons.inj hinp'
      refine ⟨⟨c, { w with rx }, by simp [sem, answer, hrx]⟩, fun b w' hs => ?_⟩
      obtain ⟨rfl, rfl⟩ : c = b ∧ { w with rx := rx } = w' := by
        simpa [sem, answer, hrx] using hs
      refine ⟨{ v with known := v.known - 1, share := ⟨rx ++ coming, _, _⟩ },
        ⟨hg, ?_, rfl, hnow, todo, hout, hsent⟩, hq⟩
      rw [hknown, hrx, List.length_cons, Nat.add_sub_cancel]
  | putchar c =>
    refine ⟨⟨_, _, rfl⟩, fun b w' hs => ?_⟩
    obtain rfl : { w with tx := w.tx ++ [c] } = w' := by simpa [sem, answer] using hs
    have hdue : v.share.Due (.send c) fun share => Q () { v with share } := hpre
    obtain ⟨rest, rfl, hq⟩ := Share.Due.send_first hout hdue
    rw [List.append_cons] at hsent
    refine ⟨_, ?_, hq⟩
    exact ⟨hg, hknown, hinp, hnow, rest, rfl, hsent⟩
  | timerGet =>
    refine ⟨⟨_, _, rfl⟩, fun b w' hs => ?_⟩
    obtain ⟨rfl, rfl⟩ : w.now = b ∧ w = w' := by simpa [sem, answer] using hs
    refine ⟨v, ⟨hg, hknown, hinp, hnow, todo, hout, hsent⟩, hpre _ ?_⟩
    rw [hnow]
    show now - now ≤ timeoutUs
    rw [UInt32.sub_self]
    decide
  | expired since =>
    refine ⟨⟨_, _, rfl⟩, fun b w' hs => ?_⟩
    obtain ⟨rfl, rfl⟩ : decide (timeoutUs < w.now - since) = b ∧ w = w' := by
      simpa [sem, answer] using hs
    have hfresh : ¬ timeoutUs < w.now - since := UInt32.not_lt.mpr (hnow ▸ hpre.1)
    refine ⟨v, ⟨hg, hknown, hinp, hnow, todo, hout, hsent⟩, ?_⟩
    rw [decide_eq_false hfresh]
    exact hpre.2
  | returned r =>
    have hdue : v.share.Due (.note r) fun share => Q () { v with share } := hpre
    exact absurd hdue (Share.not_due_note hout)

end GBridge.Atmega

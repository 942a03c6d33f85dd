/-
# The adapter never waits for a byte

`serial_getchar` waits until there is a byte to read, and nothing would get the adapter out of it:
the timeouts are looked at in `gbridge_loop` only.  Each use of it in `gbridge.c` stands behind a
`serial_available` that has counted enough of them, so it never has to wait.

`Given` says that a program needs no more than a number of bytes to be there: each `serial_getchar`
uses up one of them, and what does not look at what has arrived leaves them there.  A
`serial_available` brings back its result.  With it the receivers are walked through, and `Ready`
says of every call that it needs none to begin with.
-/
import GBridge.Atmega.Walk

namespace GBridge.Atmega

open Prog

/-- A byte is only read when there is one. -/
def Op.Ready : {α : Type} → Op α → Live → Prop
  | _, .getchar, w => w.rx ≠ []
  | _, _, _ => True

/-- Neither `serial_getchar` nor `serial_available`: what has arrived stays as it is. -/
def Op.Aside : {α : Type} → Op α → Prop
  | _, .getchar | _, .available => False
  | _, _ => True

/-! ## 1. What has been counted -/

abbrev readySpec (env : Surroundings) : Spec Op Live :=
  Spec.watched (live env) (fun e w => e.Ready w) fun _ => True

/-- With so many bytes there, the program does not read more than there are. -/
def Given (env : Surroundings) (n : Nat) {α : Type} (p : Code α) : Prop :=
  ∀ w : Live, n ≤ w.rx.length → wpre (readySpec env) false p (fun _ _ => True) w

/-- The program needs no bytes to be there. -/
abbrev Ready (env : Surroundings) {α : Type} (p : Code α) : Prop :=
  Keeps (readySpec env) (fun _ => True) p

section Given

variable {env : Surroundings} {n : Nat} {α β : Type}

theorem Ready.given {p : Code α} (h : Ready env p) : Given env n p := fun w _ => h w trivial

theorem Given.ready {p : Code α} (h : Given env 0 p) : Ready env p := fun w _ => h w (Nat.zero_le _)

theorem Given.ite {c : Prop} [Decidable c] {p q : Code α} (hp : Given env n p)
    (hq : Given env n q) : Given env n (if c then p else q) := by
  split
  · exact hp
  · exact hq

/-- What does not look at what has arrived leaves it there. -/
theorem Given.aside {p : Code β} {k : β → Code α} (hp : p.Every Op.Aside)
    (hk : ∀ b, Given env n (k b)) : Given env n (p.bind k) := by
  intro w hw
  have hkeeps : Keeps (readySpec env) (fun w' => n ≤ w'.rx.length) p := by
    refine Every.keeps ?_ hp
    intro γ e w he hw
    cases e with
    | getchar | available => exact he.elim
    | _ =>
      refine ⟨trivial, ?_⟩
      rintro _ _ ⟨⟩
      exact ⟨trivial, hw⟩
  exact wpre_bind.mpr (wpre_mono hk (hkeeps w hw))

/-- A byte is read. -/
theorem Given.getchar {k : UInt8 → Code α} (hk : ∀ c, Given env n (k c)) :
    Given env (n + 1) (serialGetchar.bind k) := by
  intro w hw
  obtain ⟨c, rx, hrx⟩ := List.exists_cons_of_length_pos (Nat.lt_of_lt_of_le n.succ_pos hw)
  refine ⟨fun hnil => absurd (hrx.symm.trans hnil) (List.cons_ne_nil _ _), fun b w' hs => ?_⟩
  have hans : (c, ({ w with rx } : Live)) = (b, w') := by
    rw [← show liveAnswer env .getchar w = (b, w') from hs]
    simp [liveAnswer, hrx]
  obtain ⟨rfl, rfl⟩ := Prod.mk.inj hans
  rw [hrx] at hw
  exact ⟨trivial, hk c _ (Nat.le_of_succ_le_succ hw)⟩

/-- The bytes are counted. -/
theorem ready_available {k : Nat → Code α} (hk : ∀ m, Given env m (k m)) :
    Ready env (serialAvailable.bind k) := by
  intro w _
  refine ⟨trivial, fun m w' hs => ⟨trivial, hk m w' ?_⟩⟩
  obtain ⟨rfl, rfl⟩ := Prod.mk.inj (show liveAnswer env .available w = (m, w') from hs)
  exact Nat.le_refl _

/-- There are at least so many, or nothing is read. -/
theorem ready_atLeast {m : Nat} {p q : Code α} (hp : Ready env p) (hq : Given env m q) :
    Ready env (do if (← serialAvailable) < m then p else q) := by
  refine ready_available fun k => ?_
  intro w hw
  exact wpre_if (fun _ => hp w trivial) fun hk => hq w (le_trans (not_lt.mp hk) hw)

theorem ready_some {p q : Code α} (hp : Ready env p) (hq : Given env 1 q) :
    Ready env (do if (← serialAvailable) = 0 then p else q) := by
  refine ready_available fun k => ?_
  intro w hw
  exact wpre_if (fun _ => hp w trivial) fun hk => hq w (le_trans (Nat.one_le_iff_ne_zero.mpr hk) hw)

/-- What neither looks at what has arrived nor waits. -/
theorem ready_aside {p : Code α} (hp : p.Every Op.Aside) : Ready env p := by
  refine Every.keeps ?_ hp
  intro γ e w he _
  refine ⟨?_, fun _ _ _ => ⟨trivial, trivial⟩⟩
  cases e with
  | getchar => exact he.elim
  | _ => trivial

theorem aside_get {k : State → Code α} (hk : ∀ g, (k g).Every Op.Aside) :
    (get.bind k).Every Op.Aside := ⟨trivial, hk⟩

theorem aside_modify (f : State → State) : (modify f).Every Op.Aside :=
  aside_get fun _ => ⟨trivial, fun _ => trivial⟩

theorem aside_putchars : ∀ cs : List UInt8, (serialPutchars cs).Every Op.Aside
  | [] => trivial
  | _ :: cs => ⟨trivial, fun _ => aside_putchars cs⟩

theorem ready_putchar (c : UInt8) : Ready env (serialPutchar c) :=
  ready_aside ⟨trivial, fun _ => trivial⟩

theorem Op.Still.aside {e : Op α} (he : e.Still) : e.Aside := by
  cases e with
  | set | available | getchar | putchar => exact he.elim
  | _ => trivial

theorem ready_get {k : State → Code α} (hk : ∀ g, Ready env (k g)) : Ready env (get.bind k) :=
  .bind (ready_aside ⟨trivial, fun _ => trivial⟩) hk

theorem ready_modify (f : State → State) : Ready env (modify f) := ready_aside (aside_modify f)

/-! ## 2. The calls -/

theorem ready_doHandshake : Ready env doHandshake := by
  have hreply : Ready env (do
      modify fun g => { g with handshakeProgress := 0 }
      serialPutchars handshake
      return true) :=
    .bind (ready_modify _) fun _ => .bind (ready_aside (aside_putchars _)) fun _ => .ret true
  refine ready_some (.ret false) (.getchar fun c => Ready.given (ready_get fun g => ?_))
  refine .ite (.bind (ready_modify _) fun _ => .ret false) (.bind (ready_modify _) fun _ => ?_)
  exact ready_get fun _ => .ite (.ret false) hreply

/-- Bytes are read where they have been counted. -/
theorem ready_carries : Carries (readySpec env) fun _ => True where
  get _ h := ⟨trivial, fun _ _ hs => ⟨trivial, by cases hs; exact h⟩⟩
  modify _ := ready_modify _
  still he := ready_aside ⟨he.aside, fun _ => trivial⟩
  ack _ := ready_putchar _
  reset := .bind (ready_modify _) fun _ => .bind (ready_putchar _) fun _ => .ret 1
  handshake _ _ := ready_doHandshake _ trivial
  byte hp hk := ready_some hp (.getchar fun c => Ready.given (hk c))
  pairAlone hp hk := ready_atLeast hp (.getchar fun h => .getchar fun l => Ready.given (hk h l))
  pairSet hp _ hk := ready_atLeast hp (.getchar fun h => .aside (aside_modify _) fun _ =>
    .getchar fun l => Ready.given (hk h l))

theorem ready_waitCmd (cmd : UInt8) : Ready env (waitCmd cmd) := by
  have hwait : ∀ c : State → Bool, Ready env (.whileM (do return c (← get)) gbridgeLoop) :=
    fun c => .whileM (ready_get fun _ => .ret _) ready_carries.gbridgeLoop
  refine ready_get fun _ => .ite (.bind (hwait _) fun _ => ?_) (.ret ())
  refine .bind (ready_aside ⟨trivial, fun _ => trivial⟩) fun now => ?_
  exact .bind (ready_modify _) fun _ => hwait _

theorem ready_sends : Sends (readySpec env) fun _ => True where
  toCarries := ready_carries
  wait := ready_waitCmd
  line _ _ := ready_aside (aside_putchars _)
  packet bs _ := .bind (ready_putchar _) fun _ => .bind (ready_putchar _) fun _ =>
    .bind (ready_aside (aside_putchars _)) fun _ => .bind (ready_putchar _) fun _ => ready_putchar _
  stream buffer _ := by
    refine .bind (ready_get fun _ => .ite ?_ (.ret ())) fun _ =>
      .bind (ready_get fun _ => .ite ?_ (.ret ())) fun _ =>
        ready_get fun _ => .ite ?_ (.ret ())
    · exact .bind (ready_putchar _) fun _ => .bind (ready_putchar _) fun _ =>
        .bind (ready_putchar _) fun _ => ready_modify _
    · exact .bind (ready_modify _) fun _ => ready_aside (aside_putchars buffer)
    · exact .bind (ready_get fun _ => .bind (ready_putchar _) fun _ => ready_putchar _)
        fun _ => ready_waitCmd _

end Given

/-- **No call reads a byte that is not there.** -/
theorem ApiCall.ready {env : Surroundings} {c : ApiCall} (hc : c.Fits) {w w' : Live} {β : Type}
    {e : Op β} {k : β → Code Unit} (hr : Reach (live env) (c.code, w) (.op e k, w')) : e.Ready w' :=
  (watched_reach (ready_sends.call hc w trivial) trivial hr).1 _ _ _ rfl

end GBridge.Atmega

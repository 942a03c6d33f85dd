/-
# Programs that talk to an environment, and how to reason about them

A program is a tree: it returns, it issues a command and continues with whatever the
environment answers, or it repeats a body until the body says stop.  The commands are a
parameter, an indexed family `E : Type → Type` whose index is the type of the answer, so one
text of a program can be read against several environments.

Three readings are used.

* `Eval` is the run that comes to an end: from a world, with a result, to a world.
* `Step` is one transition of a run still going on; `Reach` is its closure.  What holds in
  the middle of a run, or of a run that never ends, is said with it.
* `wpre` is the weakest precondition, over a `Spec` that says of each command what it needs
  and what it may answer.  The flag picks the total reading, where every loop comes with a
  measure that goes down, or the liberal one, where a loop only keeps its invariant.

The three are tied together by `wpre_eval`, `guarded_reach` and `wp_exists`.
-/
import Mathlib.Logic.Relation

/-- A program with commands in `E`. -/
inductive Prog (E : Type → Type) : Type → Type 1 where
  /-- Return a value. -/
  | ret {α : Type} (a : α) : Prog E α
  /-- Issue a command and go on with its answer. -/
  | op {α β : Type} (e : E β) (k : β → Prog E α) : Prog E α
  /-- Run the body again and again until it answers `false`. -/
  | loop {α : Type} (body : Prog E Bool) (k : Prog E α) : Prog E α

namespace Prog

variable {E : Type → Type} {W : Type} {α β : Type}

/-! ## 1. Sequencing -/

/-- Run a program and go on with its result. -/
def bind : {α : Type} → Prog E α → (α → Prog E β) → Prog E β
  | _, .ret a, f => f a
  | _, .op e k, f => .op e fun b => bind (k b) f
  | _, .loop body k, f => .loop body (bind k f)

instance : Monad (Prog E) where
  pure := .ret
  bind := bind

@[simp] theorem pure_eq (a : α) : (pure a : Prog E α) = .ret a := rfl

@[simp] theorem bind_eq (p : Prog E α) (f : α → Prog E β) : p >>= f = p.bind f := rfl

@[simp] theorem ret_bind (a : α) (f : α → Prog E β) : (Prog.ret a).bind f = f a := rfl

@[simp] theorem op_bind {γ : Type} (e : E γ) (k : γ → Prog E α) (f : α → Prog E β) :
    (Prog.op e k).bind f = .op e fun b => (k b).bind f := rfl

@[simp] theorem loop_bind (body : Prog E Bool) (k : Prog E α) (f : α → Prog E β) :
    (Prog.loop body k).bind f = .loop body (k.bind f) := rfl

theorem bind_assoc {γ : Type} (p : Prog E α) (f : α → Prog E β) (g : β → Prog E γ) :
    (p.bind f).bind g = p.bind fun a => (f a).bind g := by
  induction p with
  | ret a => rfl
  | op e k ih =>
    simp only [op_bind]
    exact congrArg _ (funext fun b => ih b f)
  | loop body k _ ih => simp only [loop_bind, ih]

/-- A single command. -/
def cmd (e : E α) : Prog E α := .op e .ret

/-- `while (cond) body`. -/
def whileM (cond : Prog E Bool) (body : Prog E Unit) : Prog E Unit :=
  .loop (cond.bind fun c => if c then body.bind fun _ => .ret true else .ret false) (.ret ())

/-! ## 2. Specifications of commands, and weakest preconditions -/

/-- What a command needs and what it may answer: a monotone predicate transformer for each
command. -/
structure Spec (E : Type → Type) (W : Type) where
  pre : {β : Type} → E β → (β → W → Prop) → W → Prop
  mono : ∀ {β : Type} (e : E β) {Q Q' : β → W → Prop} {w : W},
    (∀ b w', Q b w' → Q' b w') → pre e Q w → pre e Q' w

/-- The weakest precondition.  With `t` every loop needs a measure that goes down each time
round; without it the loop only has to keep its invariant. -/
def wpre (S : Spec E W) (t : Bool) : {α : Type} → Prog E α → (α → W → Prop) → W → Prop
  | _, .ret a, Q, w => Q a w
  | _, .op e k, Q, w => S.pre e (fun b w' => wpre S t (k b) Q w') w
  | _, .loop body k, Q, w =>
    ∃ I : Nat → W → Prop, (∃ n, I n w) ∧ ∀ n w, I n w →
      wpre S t body (fun b w' =>
        if b then ∃ m, (t = true → m < n) ∧ I m w' else wpre S t k Q w') w

variable {S : Spec E W} {t : Bool} {Q : α → W → Prop} {w : W}

@[simp] theorem wpre_ret (a : α) : wpre S t (.ret a) Q w ↔ Q a w := Iff.rfl

@[simp] theorem wpre_op (e : E β) (k : β → Prog E α) :
    wpre S t (.op e k) Q w ↔ S.pre e (fun b w' => wpre S t (k b) Q w') w := Iff.rfl

@[simp] theorem wpre_cmd (e : E α) : wpre S t (cmd e) Q w ↔ S.pre e Q w := Iff.rfl

@[simp] theorem wpre_ite (c : Prop) [Decidable c] (p q : Prog E α) :
    wpre S t (if c then p else q) Q w ↔ if c then wpre S t p Q w else wpre S t q Q w := by
  split <;> rfl

/-- The rule of the conditional. -/
theorem wpre_if {c : Prop} [Decidable c] {p q : Prog E α} (hp : c → wpre S t p Q w)
    (hq : ¬ c → wpre S t q Q w) : wpre S t (if c then p else q) Q w := by
  split
  · exact hp ‹_›
  · exact hq ‹_›

/-- A weaker postcondition is no harder to reach. -/
theorem wpre_mono {p : Prog E α} {Q Q' : α → W → Prop} {w : W}
    (hQ : ∀ a w', Q a w' → Q' a w') (h : wpre S t p Q w) : wpre S t p Q' w := by
  induction p generalizing w with
  | ret a => exact hQ a w h
  | op e k ih => exact S.mono e (fun b w' hb => ih b hQ hb) h
  | loop body k ihb ih =>
    obtain ⟨I, hI, hbody⟩ := h
    refine ⟨I, hI, fun n w hn => ihb (fun b w' hb => ?_) (hbody n w hn)⟩
    cases b with
    | true => exact hb
    | false => exact ih hQ hb

/-- The rule of sequencing. -/
theorem wpre_bind {p : Prog E α} {f : α → Prog E β} {Q : β → W → Prop} {w : W} :
    wpre S t (p.bind f) Q w ↔ wpre S t p (fun a w' => wpre S t (f a) Q w') w := by
  induction p generalizing w with
  | ret a => rfl
  | op e k ih =>
    constructor
    · exact S.mono e fun b w' hb => (ih b).mp hb
    · exact S.mono e fun b w' hb => (ih b).mpr hb
  | loop body k _ ih =>
    simp only [loop_bind, wpre, ih]

theorem wpre_seq {p : Prog E α} {f : α → Prog E β} {Q : β → W → Prop} {w : W}
    (R : α → W → Prop) (hp : wpre S t p R w) (hf : ∀ a w', R a w' → wpre S t (f a) Q w') :
    wpre S t (p.bind f) Q w :=
  wpre_bind.mpr (wpre_mono hf hp)

/-- The rule of the while loop.  The invariant carries the measure as its first argument. -/
theorem wpre_whileM {cond : Prog E Bool} {body : Prog E Unit} {Q : Unit → W → Prop} {w : W}
    (I : Nat → W → Prop) (n : Nat) (h0 : I n w)
    (hstep : ∀ n w, I n w → wpre S t cond (fun c w' =>
      if c then wpre S t body (fun _ w'' => ∃ m, (t = true → m < n) ∧ I m w'') w'
      else Q () w') w) :
    wpre S t (whileM cond body) Q w := by
  refine ⟨I, ⟨n, h0⟩, fun n w hn => ?_⟩
  refine wpre_bind.mpr (wpre_mono (fun c w' hc => ?_) (hstep n w hn))
  cases c with
  | true => exact wpre_bind.mpr hc
  | false => exact hc

/-- The liberal reading of the while loop: no measure. -/
theorem wlp_whileM {cond : Prog E Bool} {body : Prog E Unit} {Q : Unit → W → Prop} {w : W}
    (I : W → Prop) (h0 : I w)
    (hstep : ∀ w, I w → wpre S false cond (fun c w' =>
      if c then wpre S false body (fun _ w'' => I w'') w' else Q () w') w) :
    wpre S false (whileM cond body) Q w := by
  refine wpre_whileM (fun _ => I) 0 h0 fun n w hn => wpre_mono (fun c w' hc => ?_) (hstep w hn)
  cases c with
  | true => exact wpre_mono (fun _ w'' hi => ⟨0, by simp, hi⟩) hc
  | false => exact hc

/-- Whatever holds with measures holds without. -/
theorem wpre_weaken {p : Prog E α} {Q : α → W → Prop} {w : W} (h : wpre S true p Q w) :
    wpre S false p Q w := by
  induction p generalizing w with
  | ret a => exact h
  | op e k ih => exact S.mono e (fun b w' hb => ih b hb) h
  | loop body k ihb ih =>
    obtain ⟨I, hI, hbody⟩ := h
    refine ⟨I, hI, fun n w hn => wpre_mono (fun b w' hb => ?_) (ihb (hbody n w hn))⟩
    cases b with
    | true => obtain ⟨m, -, hm⟩ := hb; exact ⟨m, by simp, hm⟩
    | false => exact ih hb

/-- A specification that asks for less will do. -/
theorem wpre_of_spec {S' : Spec E W}
    (hS : ∀ {β : Type} (e : E β) (Q : β → W → Prop) (w : W), S.pre e Q w → S'.pre e Q w)
    {p : Prog E α} {Q : α → W → Prop} {w : W} (h : wpre S t p Q w) : wpre S' t p Q w := by
  induction p generalizing w with
  | ret a => exact h
  | op e k ih => exact S'.mono e (fun b w' hb => ih b hb) (hS e _ w h)
  | loop body k ihb ih =>
    obtain ⟨I, hI, hbody⟩ := h
    refine ⟨I, hI, fun n w hn => wpre_mono (fun b w' hb => ?_) (ihb (hbody n w hn))⟩
    cases b with
    | true => exact hb
    | false => exact ih hb

/-- Nothing is asked of a program without measures if nothing is asked of its commands. -/
theorem wpre_true (hS : ∀ {β : Type} (e : E β) (w : W), S.pre e (fun _ _ => True) w)
    (p : Prog E α) (w : W) : wpre S false p (fun _ _ => True) w := by
  induction p generalizing w with
  | ret a => trivial
  | op e k ih => exact S.mono e (fun b w' _ => ih b w') (hS e w)
  | loop body k ihb ih =>
    refine ⟨fun _ _ => True, ⟨0, trivial⟩, fun n w _ => wpre_mono (fun b w' _ => ?_) (ihb w)⟩
    cases b with
    | true => exact ⟨0, by simp, trivial⟩
    | false => exact ih w'

/-- Every command the program may come to issue satisfies `P`. -/
def Every (P : {β : Type} → E β → Prop) : {α : Type} → Prog E α → Prop
  | _, .ret _ => True
  | _, .op e k => P e ∧ ∀ b, Every P (k b)
  | _, .loop body k => Every P body ∧ Every P k

section Every

variable {P : {β : Type} → E β → Prop}

@[simp] theorem every_ret (a : α) : (Prog.ret a : Prog E α).Every P := trivial

@[simp] theorem every_op (e : E β) (k : β → Prog E α) :
    (Prog.op e k).Every P ↔ P e ∧ ∀ b, (k b).Every P := Iff.rfl

@[simp] theorem every_ite (c : Prop) [Decidable c] (p q : Prog E α) :
    (if c then p else q).Every P ↔ if c then p.Every P else q.Every P := by
  split <;> rfl

theorem every_of_forall (h : ∀ {β : Type} (e : E β), P e) (p : Prog E α) : p.Every P := by
  induction p with
  | ret a => trivial
  | op e k ih => exact ⟨h e, ih⟩
  | loop body k ihb ih => exact ⟨ihb, ih⟩

theorem Every.bind {p : Prog E α} {f : α → Prog E β} (hp : p.Every P) (hf : ∀ a, (f a).Every P) :
    (p.bind f).Every P := by
  induction p with
  | ret a => exact hf a
  | op e k ih => exact ⟨hp.1, fun b => ih b (hp.2 b) hf⟩
  | loop body k _ ih => exact ⟨hp.1, ih hp.2 hf⟩

theorem Every.ite {c : Prop} [Decidable c] {p q : Prog E α} (hp : p.Every P) (hq : q.Every P) :
    (if c then p else q).Every P := by
  split
  · exact hp
  · exact hq

theorem Every.whileM {cond : Prog E Bool} {body : Prog E Unit} (hc : cond.Every P)
    (hb : body.Every P) : (whileM cond body).Every P :=
  ⟨hc.bind fun _ => .ite (hb.bind fun _ => trivial) trivial, trivial⟩

/-- **The frame rule.**  What a program does to one part of the world it does in the presence of
another part, which it leaves alone if its commands do. -/
theorem wpre_frame {T : Type} {S : Spec E W} {S' : Spec E (W × T)} {x : T}
    (hS : ∀ {β : Type} (e : E β) (Q : β → W → Prop) (w : W), P e → S.pre e Q w →
      S'.pre e (fun b v => Q b v.1 ∧ v.2 = x) (w, x))
    {p : Prog E α} {Q : α → W → Prop} {w : W} (hp : p.Every P) (h : wpre S t p Q w) :
    wpre S' t p (fun a v => Q a v.1 ∧ v.2 = x) (w, x) := by
  induction p generalizing w with
  | ret a => exact ⟨h, rfl⟩
  | op e k ih =>
    refine S'.mono e ?_ (hS e _ w hp.1 h)
    rintro b ⟨w', _⟩ ⟨hk, rfl⟩
    exact ih b (hp.2 b) hk
  | loop body k ihb ih =>
    obtain ⟨I, ⟨n, hn⟩, hbody⟩ := h
    refine ⟨fun n v => I n v.1 ∧ v.2 = x, ⟨n, hn, rfl⟩, ?_⟩
    rintro n ⟨w, _⟩ ⟨hn, rfl⟩
    refine wpre_mono ?_ (ihb hp.1 (hbody n w hn))
    rintro b ⟨w', _⟩ ⟨hb, rfl⟩
    cases b with
    | true =>
      obtain ⟨m, hm, hI⟩ := hb
      exact ⟨m, hm, hI, rfl⟩
    | false => exact ih hp.2 hb

end Every

/-- The program keeps `I`, whatever it returns. -/
def Keeps (S : Spec E W) (I : W → Prop) (p : Prog E α) : Prop :=
  ∀ w, I w → wpre S false p (fun _ w' => I w') w

section Keeps

variable {I : W → Prop}

theorem Keeps.ret (a : α) : Keeps S I (.ret a) := fun _ h => h

theorem Keeps.bind {p : Prog E α} {f : α → Prog E β} (hp : Keeps S I p)
    (hf : ∀ a, Keeps S I (f a)) : Keeps S I (p.bind f) := fun w h =>
  wpre_bind.mpr (wpre_mono (fun a w' h' => hf a w' h') (hp w h))

theorem Keeps.ite {c : Prop} [Decidable c] {p q : Prog E α} (hp : Keeps S I p)
    (hq : Keeps S I q) : Keeps S I (if c then p else q) := by
  split
  · exact hp
  · exact hq

theorem Keeps.loop {body : Prog E Bool} {k : Prog E α} (hbody : Keeps S I body)
    (hk : Keeps S I k) : Keeps S I (.loop body k) := by
  intro w h
  refine ⟨fun _ => I, ⟨0, h⟩, fun n w hw => wpre_mono (fun b w' hw' => ?_) (hbody w hw)⟩
  cases b with
  | true => exact ⟨0, by simp, hw'⟩
  | false => exact hk w' hw'

theorem Keeps.whileM {cond : Prog E Bool} {body : Prog E Unit} (hc : Keeps S I cond)
    (hb : Keeps S I body) : Keeps S I (whileM cond body) := by
  refine .loop (.bind hc fun c => ?_) (.ret ())
  cases c with
  | true => exact .bind hb fun _ => .ret true
  | false => exact .ret false

/-- What its commands keep, a program keeps. -/
theorem Every.keeps {P : {β : Type} → E β → Prop}
    (hS : ∀ {β : Type} (e : E β) (w : W), P e → I w → S.pre e (fun _ w' => I w') w)
    {p : Prog E α} (hp : p.Every P) : Keeps S I p := by
  induction p with
  | ret a => exact .ret a
  | op e k ih => exact fun w h => S.mono e (fun b w' h' => ih b (hp.2 b) w' h') (hS e w hp.1 h)
  | loop body k ihb ih => exact .loop (ihb hp.1) (ih hp.2)

end Keeps

/-! ## 3. Runs -/

/-- What a command does to the world: the answers it may give, with the world after each. -/
abbrev Sem (E : Type → Type) (W : Type) : Type 1 := (β : Type) → E β → W → β → W → Prop

/-- Repeat a body, given as the relation of its complete runs, until it answers `false`. -/
inductive Iter (B : W → Bool → W → Prop) : W → W → Prop
  | stop {w w' : W} : B w false w' → Iter B w w'
  | again {w w₁ w' : W} : B w true w₁ → Iter B w₁ w' → Iter B w w'

/-- The runs of a program that come to an end. -/
def Eval (sem : Sem E W) : {α : Type} → Prog E α → W → α → W → Prop
  | _, .ret a, w, a', w' => a = a' ∧ w = w'
  | _, .op e k, w, a', w' => ∃ b w₁, sem _ e w b w₁ ∧ Eval sem (k b) w₁ a' w'
  | _, .loop body k, w, a', w' => ∃ w₁, Iter (Eval sem body) w w₁ ∧ Eval sem k w₁ a' w'

/-- One transition of a run. -/
def Step (sem : Sem E W) : {α : Type} → Prog E α × W → Prog E α × W → Prop
  | _, (.ret _, _), _ => False
  | _, (.op e k, w), c => ∃ b, sem _ e w b c.2 ∧ c.1 = k b
  | _, (.loop body k, w), c =>
    c.1 = body.bind (fun b => if b then .loop body k else k) ∧ c.2 = w

/-- The configurations a run passes through. -/
abbrev Reach (sem : Sem E W) : Prog E α × W → Prog E α × W → Prop :=
  Relation.ReflTransGen (Step sem)

/-- A specification describes the commands truthfully. -/
def Spec.Sound (S : Spec E W) (sem : Sem E W) : Prop :=
  ∀ (β : Type) (e : E β) (Q : β → W → Prop) (w : W) (b : β) (w' : W),
    S.pre e Q w → sem β e w b w' → Q b w'

variable {sem : Sem E W}

/-- The specification that expects of each command whatever it can do. -/
def Spec.demonic (sem : Sem E W) : Spec E W where
  pre e Q w := ∀ b w', sem _ e w b w' → Q b w'
  mono _ _ _ _ hQ h b w' hs := hQ b w' (h b w' hs)

theorem Spec.demonic_sound (sem : Sem E W) : (Spec.demonic sem).Sound sem :=
  fun _ _ _ _ b w' h hs => h b w' hs

@[simp] theorem Spec.demonic_pre {sem : Sem E W} (e : E β) {Q : β → W → Prop} {w : W} :
    (Spec.demonic sem).pre e Q w ↔ ∀ b w', sem _ e w b w' → Q b w' := Iff.rfl

/-- The same commands, but only with answers that satisfy `ok`. -/
def Sem.only (sem : Sem E W) (ok : (β : Type) → E β → W → β → Bool) : Sem E W :=
  fun β e w b w' => sem β e w b w' ∧ ok β e w b = true

/-- The specification that moreover wants `inv` to hold after every command. -/
def Spec.guarded (sem : Sem E W) (inv : W → Prop) : Spec E W where
  pre e Q w := ∀ b w', sem _ e w b w' → inv w' ∧ Q b w'
  mono _ _ _ _ hQ h b w' hs := ⟨(h b w' hs).1, hQ b w' (h b w' hs).2⟩

theorem Spec.guarded_sound (sem : Sem E W) (inv : W → Prop) : (Spec.guarded sem inv).Sound sem :=
  fun _ _ _ _ b w' h hs => (h b w' hs).2

theorem eval_bind {p : Prog E α} {f : α → Prog E β} {w w' : W} {b : β} :
    Eval sem (p.bind f) w b w' ↔ ∃ a w₁, Eval sem p w a w₁ ∧ Eval sem (f a) w₁ b w' := by
  induction p generalizing w with
  | ret a =>
    simp only [ret_bind, Eval]
    constructor
    · exact fun h => ⟨a, w, ⟨rfl, rfl⟩, h⟩
    · rintro ⟨a', w₁, ⟨rfl, rfl⟩, h⟩; exact h
  | op e k ih =>
    simp only [op_bind, Eval, ih]
    constructor
    · rintro ⟨c, w₁, hs, a, w₂, h1, h2⟩; exact ⟨a, w₂, ⟨c, w₁, hs, h1⟩, h2⟩
    · rintro ⟨a, w₂, ⟨c, w₁, hs, h1⟩, h2⟩; exact ⟨c, w₁, hs, a, w₂, h1, h2⟩
  | loop body k _ ih =>
    simp only [loop_bind, Eval, ih]
    constructor
    · rintro ⟨w₁, hi, a, w₂, h1, h2⟩; exact ⟨a, w₂, ⟨w₁, hi, h1⟩, h2⟩
    · rintro ⟨a, w₂, ⟨w₁, hi, h1⟩, h2⟩; exact ⟨w₁, hi, a, w₂, h1, h2⟩

/-- **Where each command has one answer, a program has one run.** -/
theorem eval_unique (hsem : ∀ (β : Type) (e : E β) (w : W) (b b' : β) (w₁ w₂ : W),
      sem β e w b w₁ → sem β e w b' w₂ → b = b' ∧ w₁ = w₂)
    {p : Prog E α} {w w₁ w₂ : W} {a a' : α} (h₁ : Eval sem p w a w₁) (h₂ : Eval sem p w a' w₂) :
    a = a' ∧ w₁ = w₂ := by
  induction p generalizing w w₁ w₂ with
  | ret b =>
    obtain ⟨rfl, rfl⟩ := h₁
    exact h₂
  | op e k ih =>
    obtain ⟨b, v, hs, h₁⟩ := h₁
    obtain ⟨b', v', hs', h₂⟩ := h₂
    obtain ⟨rfl, rfl⟩ := hsem _ e w b b' v v' hs hs'
    exact ih b h₁ h₂
  | loop body k ihb ih =>
    obtain ⟨v, hi, h₁⟩ := h₁
    obtain ⟨v', hi', h₂⟩ := h₂
    suffices hsame : v = v' by
      rw [← hsame] at h₂
      exact ih h₁ h₂
    clear h₁ h₂
    induction hi generalizing v' with
    | stop hb =>
      cases hi' with
      | stop hb' => exact (ihb hb hb').2
      | again hb' _ => exact absurd (ihb hb hb').1 (by decide)
    | again hb _ ihi =>
      cases hi' with
      | stop hb' => exact absurd (ihb hb hb').1 (by decide)
      | again hb' hrest =>
        obtain ⟨-, rfl⟩ := ihb hb hb'
        exact ihi _ hrest

/-- What is seen of a run in a richer world is a run. -/
theorem eval_view {V : Type} {sem' : Sem E V} {view : V → W}
    (h : ∀ (β : Type) (e : E β) (v : V) (b : β) (v' : V), sem' β e v b v' →
      sem β e (view v) b (view v'))
    {p : Prog E α} {v v' : V} {a : α} (he : Eval sem' p v a v') :
    Eval sem p (view v) a (view v') := by
  induction p generalizing v v' with
  | ret b =>
    obtain ⟨rfl, rfl⟩ := he
    exact ⟨rfl, rfl⟩
  | op e k ih =>
    obtain ⟨b, v₁, hs, he⟩ := he
    exact ⟨b, view v₁, h _ e v b v₁ hs, ih b he⟩
  | loop body k ihb ih =>
    obtain ⟨v₁, hi, he⟩ := he
    refine ⟨view v₁, ?_, ih he⟩
    clear he
    induction hi with
    | stop hb => exact .stop (ihb hb)
    | again hb _ ihi => exact .again (ihb hb) ihi

/-- **Every run is seen of a run in the richer world**, if that has an answer wherever the world
has one: what is only noted does not get in the way. -/
theorem eval_ghost {V : Type} {sem' : Sem E V} {view : V → W}
    (h : ∀ (β : Type) (e : E β) (v : V) (b : β) (w' : W), sem β e (view v) b w' →
      ∃ v', sem' β e v b v' ∧ view v' = w')
    {p : Prog E α} {v : V} {w' : W} {a : α} (he : Eval sem p (view v) a w') :
    ∃ v', Eval sem' p v a v' ∧ view v' = w' := by
  induction p generalizing v w' with
  | ret b =>
    obtain ⟨rfl, rfl⟩ := he
    exact ⟨v, ⟨rfl, rfl⟩, rfl⟩
  | op e k ih =>
    obtain ⟨b, w₁, hs, he⟩ := he
    obtain ⟨v₁, hs', rfl⟩ := h _ e v b w₁ hs
    obtain ⟨v', he', hv'⟩ := ih b he
    exact ⟨v', ⟨b, v₁, hs', he'⟩, hv'⟩
  | loop body k ihb ih =>
    obtain ⟨w₁, hi, he⟩ := he
    suffices hiter : ∃ v₁, Iter (Eval sem' body) v v₁ ∧ view v₁ = w₁ by
      obtain ⟨v₁, hi', rfl⟩ := hiter
      obtain ⟨v', he', hv'⟩ := ih he
      exact ⟨v', ⟨v₁, hi', he'⟩, hv'⟩
    clear he
    generalize hw : view v = w at hi
    induction hi generalizing v with
    | stop hb =>
      subst hw
      obtain ⟨v₁, hb', hv₁⟩ := ihb hb
      exact ⟨v₁, .stop hb', hv₁⟩
    | again hb _ ihi =>
      subst hw
      obtain ⟨v₁, hb', hv₁⟩ := ihb hb
      obtain ⟨v₂, hi', hv₂⟩ := ihi hv₁
      exact ⟨v₂, .again hb' hi', hv₂⟩

/-- The transitions of a program are transitions of whatever it is the first part of. -/
theorem step_bind {p p' : Prog E α} {w w' : W} (f : α → Prog E β)
    (hs : Step sem (p, w) (p', w')) : Step sem (p.bind f, w) (p'.bind f, w') := by
  cases p with
  | ret a => exact hs.elim
  | op e k =>
    obtain ⟨b, hs, rfl⟩ := hs
    exact ⟨b, hs, rfl⟩
  | loop body k =>
    obtain ⟨rfl, rfl⟩ := hs
    refine ⟨?_, rfl⟩
    show (body.bind _).bind f = _
    rw [bind_assoc]
    refine congrArg body.bind (funext fun b => ?_)
    cases b <;> rfl

theorem reach_bind {p p' : Prog E α} {w w' : W} (f : α → Prog E β)
    (hr : Reach sem (p, w) (p', w')) : Reach sem (p.bind f, w) (p'.bind f, w') :=
  Relation.ReflTransGen.lift (fun c : Prog E α × W => (c.1.bind f, c.2))
    (fun _ _ hs => step_bind f hs) _ _ hr

/-- **A run that comes to an end is made of transitions.** -/
theorem eval_reach {p : Prog E α} {w w' : W} {a : α} (he : Eval sem p w a w') :
    Reach sem (p, w) (.ret a, w') := by
  induction p generalizing w w' with
  | ret b =>
    obtain ⟨rfl, rfl⟩ := he
    exact .refl
  | op e k ih =>
    obtain ⟨b, w₁, hs, he⟩ := he
    exact .head ⟨b, hs, rfl⟩ (ih b he)
  | loop body k ihb ih =>
    obtain ⟨w₁, hi, he⟩ := he
    refine Relation.ReflTransGen.trans ?_ (ih he)
    clear he
    have hround : ∀ {w w' : W} {b : Bool}, Eval sem body w b w' →
        Reach sem (.loop body k, w) (if b then .loop body k else k, w') := fun hb =>
      .head (b := (body.bind fun b => if b then .loop body k else k, _)) ⟨rfl, rfl⟩
        (reach_bind _ (ihb hb))
    induction hi with
    | stop hb => exact hround hb
    | again hb _ ihi => exact Relation.ReflTransGen.trans (hround hb) ihi

/-- A transition, and a run from there that comes to an end. -/
theorem step_eval {c c' : Prog E α × W} {w' : W} {a : α} (hs : Step sem c c')
    (he : Eval sem c'.1 c'.2 a w') : Eval sem c.1 c.2 a w' := by
  obtain ⟨p, w⟩ := c
  obtain ⟨p', w₁⟩ := c'
  cases p with
  | ret b => exact hs.elim
  | op e k =>
    obtain ⟨b, hs, rfl⟩ := hs
    exact ⟨b, w₁, hs, he⟩
  | loop body k =>
    obtain ⟨rfl, rfl⟩ := hs
    obtain ⟨b, w₂, hbody, hrest⟩ := eval_bind.mp he
    cases b with
    | true =>
      obtain ⟨w₃, hi, hk⟩ := hrest
      exact ⟨w₃, .again hbody hi, hk⟩
    | false => exact ⟨w₂, .stop hbody, hrest⟩

/-- **Transitions that lead to an end are a run that comes to an end.** -/
theorem reach_eval {p : Prog E α} {w w' : W} {a : α} (hr : Reach sem (p, w) (.ret a, w')) :
    Eval sem p w a w' := by
  suffices h : ∀ c, Reach sem c (.ret a, w') → Eval sem c.1 c.2 a w' from h _ hr
  intro c hr
  induction hr using Relation.ReflTransGen.head_induction_on with
  | refl => exact ⟨rfl, rfl⟩
  | head hs _ ih => exact step_eval hs ih

/-- A specification may speak of ghost worlds `V` that stand for the real ones: it describes the
commands truthfully if, whatever a command does, it is what the specification promised of some
ghost world that still stands for the real one. -/
def Spec.Describes {V : Type} (S : Spec E V) (Rel : V → W → Prop) (sem : Sem E W) : Prop :=
  ∀ (β : Type) (e : E β) (Q : β → V → Prop) (v : V) (w : W) (b : β) (w' : W),
    Rel v w → S.pre e Q v → sem β e w b w' → ∃ v', Rel v' w' ∧ Q b v'

/-- **A run that ends, ends in the postcondition**, of the ghost world. -/
theorem wpre_eval_ghost {V : Type} {S : Spec E V} {Rel : V → W → Prop}
    (hS : S.Describes Rel sem) {p : Prog E α} {Q : α → V → Prop} {v : V} {w w' : W} {a : α}
    (hr : Rel v w) (h : wpre S t p Q v) (he : Eval sem p w a w') : ∃ v', Rel v' w' ∧ Q a v' := by
  induction p generalizing v w w' with
  | ret a =>
    obtain ⟨rfl, rfl⟩ := he
    exact ⟨v, hr, h⟩
  | op e k ih =>
    obtain ⟨b, w₁, hs, he⟩ := he
    obtain ⟨v₁, hr₁, hk⟩ := hS _ e _ v w b w₁ hr h hs
    exact ih b hr₁ hk he
  | loop body k ihb ih =>
    obtain ⟨I, hI, hbody⟩ := h
    obtain ⟨w₁, hi, he⟩ := he
    suffices hk : ∀ w w₁, Iter (Eval sem body) w w₁ → ∀ v, Rel v w → (∃ n, I n v) →
        ∃ v₁, Rel v₁ w₁ ∧ wpre S t k Q v₁ by
      obtain ⟨v₁, hr₁, hk⟩ := hk w w₁ hi v hr hI
      exact ih hr₁ hk he
    clear hr hI he
    intro w w₁ hi
    induction hi with
    | stop hb =>
      rintro v hr ⟨n, hn⟩
      obtain ⟨v₁, hr₁, hk⟩ := ihb hr (hbody n v hn) hb
      exact ⟨v₁, hr₁, by simpa using hk⟩
    | again hb _ ihi =>
      rintro v hr ⟨n, hn⟩
      obtain ⟨v₁, hr₁, hm⟩ := ihb hr (hbody n v hn) hb
      obtain ⟨m, -, hm⟩ : ∃ m, (t = true → m < n) ∧ I m v₁ := by simpa using hm
      exact ihi v₁ hr₁ ⟨m, hm⟩

/-- **A run that ends, ends in the postcondition.** -/
theorem wpre_eval (hS : S.Sound sem) {p : Prog E α} {Q : α → W → Prop} {w w' : W} {a : α}
    (h : wpre S t p Q w) (he : Eval sem p w a w') : Q a w' := by
  have hdescribes : S.Describes Eq sem := by
    rintro β e Q v _ b w' rfl hpre hs
    exact ⟨w', rfl, hS β e Q v b w' hpre hs⟩
  obtain ⟨_, rfl, hq⟩ := wpre_eval_ghost hdescribes rfl h he
  exact hq

/-- One transition keeps the weakest precondition. -/
theorem wpre_step (hS : S.Sound sem) {Q : α → W → Prop} {c c' : Prog E α × W}
    (h : wpre S false c.1 Q c.2)
    (hs : Step sem c c') : wpre S false c'.1 Q c'.2 := by
  obtain ⟨p, w⟩ := c
  obtain ⟨p', w'⟩ := c'
  cases p with
  | ret a => exact hs.elim
  | op e k =>
    obtain ⟨b, hs, rfl⟩ := hs
    exact hS _ e _ w b w' h hs
  | loop body k =>
    obtain ⟨rfl, rfl⟩ := hs
    obtain ⟨I, ⟨n, hn⟩, hbody⟩ := h
    refine wpre_bind.mpr (wpre_mono (fun b w' hb => ?_) (hbody n _ hn))
    cases b with
    | true => obtain ⟨m, -, hm⟩ := hb; exact ⟨I, ⟨m, hm⟩, hbody⟩
    | false => exact hb

/-- **A guarded invariant holds in every state of a run**, not only at its end. -/
theorem guarded_reach {inv : W → Prop} {p : Prog E α} {Q : α → W → Prop} {w : W}
    {c : Prog E α × W} (h : wpre (Spec.guarded sem inv) false p Q w) (hinv : inv w)
    (hr : Reach sem (p, w) c) : inv c.2 := by
  suffices hboth : wpre (Spec.guarded sem inv) false c.1 Q c.2 ∧ inv c.2 from hboth.2
  induction hr with
  | refl => exact ⟨h, hinv⟩
  | @tail c₁ c₂ _ hs ih =>
    refine ⟨wpre_step (Spec.guarded_sound sem inv) ih.1 hs, ?_⟩
    obtain ⟨p₁, w₁⟩ := c₁
    cases p₁ with
    | ret a => exact hs.elim
    | op e k =>
      obtain ⟨b, hs, -⟩ := hs
      exact (ih.1 b c₂.2 hs).1
    | loop body k =>
      obtain ⟨-, hw⟩ := hs
      rw [hw]
      exact ih.2

/-- The specification that wants `ok` to hold whenever a command is given, and `inv` after it. -/
def Spec.watched (sem : Sem E W) (ok : {β : Type} → E β → W → Prop) (inv : W → Prop) :
    Spec E W where
  pre e Q w := ok e w ∧ ∀ b w', sem _ e w b w' → inv w' ∧ Q b w'
  mono _ _ _ _ hQ h := ⟨h.1, fun b w' hs => ⟨(h.2 b w' hs).1, hQ b w' (h.2 b w' hs).2⟩⟩

theorem Spec.watched_sound (sem : Sem E W) (ok : {β : Type} → E β → W → Prop) (inv : W → Prop) :
    (Spec.watched sem ok inv).Sound sem :=
  fun _ _ _ _ b w' h hs => (h.2 b w' hs).2

/-- **What is watched holds in every state of a run**: `ok` of the next command, `inv` of the world,
and the postcondition at the end. -/
theorem watched_reach {ok : {β : Type} → E β → W → Prop} {inv : W → Prop} {p : Prog E α}
    {Q : α → W → Prop} {w : W} {c : Prog E α × W} (h : wpre (Spec.watched sem ok inv) false p Q w)
    (hinv : inv w) (hr : Reach sem (p, w) c) :
    (∀ (β : Type) (e : E β) (k : β → Prog E α), c.1 = .op e k → ok e c.2) ∧
      (∀ a, c.1 = .ret a → Q a c.2) ∧ inv c.2 := by
  suffices hboth : wpre (Spec.watched sem ok inv) false c.1 Q c.2 ∧ inv c.2 by
    obtain ⟨hwp, hinv⟩ := hboth
    refine ⟨?_, ?_, hinv⟩
    · intro β e k he
      rw [he] at hwp
      exact hwp.1
    · intro a ha
      rwa [ha] at hwp
  induction hr with
  | refl => exact ⟨h, hinv⟩
  | @tail c₁ c₂ _ hs ih =>
    refine ⟨wpre_step (Spec.watched_sound sem ok inv) ih.1 hs, ?_⟩
    obtain ⟨p₁, w₁⟩ := c₁
    cases p₁ with
    | ret a => exact hs.elim
    | op e k =>
      obtain ⟨b, hs, -⟩ := hs
      exact (ih.1.2 b c₂.2 hs).1
    | loop body k =>
      obtain ⟨-, hw⟩ := hs
      rw [hw]
      exact ih.2

/-- **With measures the run exists.**  Let the specification speak of ghost worlds `V` and the
commands of real worlds `W`.  If each command can be answered in the real world in a way its
specification allows, the program has a complete run, and it ends in the postcondition. -/
theorem wp_exists {V : Type} {S : Spec E V} {Rel : V → W → Prop}
    (hS : ∀ (β : Type) (e : E β) (Q : β → V → Prop) (v : V) (w : W), Rel v w → S.pre e Q v →
      ∃ b v' w', sem β e w b w' ∧ Rel v' w' ∧ Q b v')
    {p : Prog E α} {Q : α → V → Prop} {v : V} {w : W} (hr : Rel v w)
    (h : wpre S true p Q v) : ∃ a v' w', Eval sem p w a w' ∧ Rel v' w' ∧ Q a v' := by
  induction p generalizing v w with
  | ret a => exact ⟨a, v, w, ⟨rfl, rfl⟩, hr, h⟩
  | op e k ih =>
    obtain ⟨b, v', w', hs, hr', hk⟩ := hS _ e _ v w hr h
    obtain ⟨a, v₂, w₂, he, hr₂, hq⟩ := ih b hr' hk
    exact ⟨a, v₂, w₂, ⟨b, w', hs, he⟩, hr₂, hq⟩
  | loop body k ihb ih =>
    obtain ⟨I, ⟨n, hn⟩, hbody⟩ := h
    -- the measure is what the iteration count is an induction on
    suffices ∀ n v w, Rel v w → I n v →
        ∃ v' w', Iter (Eval sem body) w w' ∧ Rel v' w' ∧ wpre S true k Q v' by
      obtain ⟨v', w', hi, hr', hk⟩ := this n v w hr hn
      obtain ⟨a, v₂, w₂, he, hr₂, hq⟩ := ih hr' hk
      exact ⟨a, v₂, w₂, ⟨w', hi, he⟩, hr₂, hq⟩
    intro n
    induction n using Nat.strongRecOn with
    | _ n ihn =>
      intro v w hr hn
      obtain ⟨b, v₁, w₁, he, hr₁, hb⟩ := ihb hr (hbody n v hn)
      cases b with
      | false => exact ⟨v₁, w₁, .stop he, hr₁, hb⟩
      | true =>
        obtain ⟨m, hm, hI⟩ := hb
        obtain ⟨v', w', hi, hr', hk⟩ := ihn m (hm rfl) v₁ w₁ hr₁ hI
        exact ⟨v', w', .again he hi, hr', hk⟩

/-- The program has a run that comes to an end, and every run that does ends in `Q`. -/
def Ends (sem : Sem E W) (p : Prog E α) (w : W) (Q : α → W → Prop) : Prop :=
  (∃ a w', Eval sem p w a w') ∧ ∀ a w', Eval sem p w a w' → Q a w'

theorem Ends.mono {p : Prog E α} {Q Q' : α → W → Prop} (h : Ends sem p w Q)
    (hQ : ∀ a w', Q a w' → Q' a w') : Ends sem p w Q' :=
  ⟨h.1, fun a w' he => hQ a w' (h.2 a w' he)⟩

/-- Where the outcome is decided by a condition, a program ends in one of the two outcomes exactly
if the condition holds. -/
theorem Ends.iff_of_cases {c : Prop} {p : Prog E α} {Q Q' : α → W → Prop}
    (h : Ends sem p w fun a w' => c ∧ Q a w' ∨ ¬ c ∧ Q' a w')
    (hno : ∀ a w', Q a w' → ¬ Q' a w') : Ends sem p w Q ↔ c := by
  constructor
  · intro hQ
    obtain ⟨a, w', he⟩ := h.1
    rcases h.2 a w' he with ⟨hc, -⟩ | ⟨-, hq'⟩
    · exact hc
    · exact absurd hq' (hno a w' (hQ.2 a w' he))
  · intro hc
    refine h.mono fun a w' hcases => ?_
    rcases hcases with ⟨-, hq⟩ | ⟨hc', -⟩
    · exact hq
    · exact absurd hc hc'

/-- The specification follows the real world: every command it allows has an answer, and every
answer is one it promised. -/
def Spec.Tracks {V : Type} (S : Spec E V) (Rel : V → W → Prop) (sem : Sem E W) : Prop :=
  ∀ (β : Type) (e : E β) (Q : β → V → Prop) (v : V) (w : W), Rel v w → S.pre e Q v →
    (∃ b w', sem β e w b w') ∧ ∀ b w', sem β e w b w' → ∃ v', Rel v' w' ∧ Q b v'

/-- **Total correctness, of the real world, from a proof about the ghost world.** -/
theorem wpre_ends {V : Type} {S : Spec E V} {Rel : V → W → Prop} (hS : S.Tracks Rel sem)
    {p : Prog E α} {Q : α → V → Prop} {v : V} {w : W} (hr : Rel v w) (h : wpre S true p Q v) :
    Ends sem p w fun a w' => ∃ v', Rel v' w' ∧ Q a v' := by
  refine ⟨?_, fun a w' he => ?_⟩
  · have hsim : ∀ (β : Type) (e : E β) (Q : β → V → Prop) (v : V) (w : W), Rel v w →
        S.pre e Q v → ∃ b v' w', sem β e w b w' ∧ Rel v' w' ∧ Q b v' := by
      intro β e Q v w hr hpre
      obtain ⟨⟨b, w', hs⟩, hall⟩ := hS β e Q v w hr hpre
      obtain ⟨v', hr', hq⟩ := hall b w' hs
      exact ⟨b, v', w', hs, hr', hq⟩
    obtain ⟨a, -, w', he, -, -⟩ := wp_exists hsim hr h
    exact ⟨a, w', he⟩
  · have hdescribes : S.Describes Rel sem := fun β e Q v w b w' hr hpre hs =>
      (hS β e Q v w hr hpre).2 b w' hs
    exact wpre_eval_ghost hdescribes hr h he

/-- The specification of commands that can be answered, and whatever the answer is. -/
def Spec.sure (sem : Sem E W) : Spec E W where
  pre e Q w := (∃ b w', sem _ e w b w') ∧ ∀ b w', sem _ e w b w' → Q b w'
  mono _ _ _ _ hQ h := ⟨h.1, fun b w' hs => hQ b w' (h.2 b w' hs)⟩

/-- **With measures, and commands that can be answered, a program ends in its postcondition.** -/
theorem sure_ends {p : Prog E α} {Q : α → W → Prop} {w : W}
    (h : wpre (Spec.sure sem) true p Q w) : Ends sem p w Q := by
  have htracks : (Spec.sure sem).Tracks Eq sem := by
    rintro β e Q v _ rfl ⟨hcan, hall⟩
    exact ⟨hcan, fun b w' hs => ⟨w', rfl, hall b w' hs⟩⟩
  refine (wpre_ends htracks rfl h).mono ?_
  rintro a _ ⟨w', rfl, hq⟩
  exact hq

/-- The specification for which it is enough that a command can do what is wanted. -/
def Spec.angelic (sem : Sem E W) : Spec E W where
  pre e Q w := ∃ b w', sem _ e w b w' ∧ Q b w'
  mono _ _ _ _ hQ := fun ⟨b, w', hs, h⟩ => ⟨b, w', hs, hQ b w' h⟩

/-- **With measures, what can be done has a run that does it.** -/
theorem angelic_exists {p : Prog E α} {Q : α → W → Prop} {w : W}
    (h : wpre (Spec.angelic sem) true p Q w) : ∃ a w', Eval sem p w a w' ∧ Q a w' := by
  have hsim : ∀ (β : Type) (e : E β) (Q : β → W → Prop) (v w : W), v = w →
      (Spec.angelic sem).pre e Q v → ∃ b v' w', sem β e w b w' ∧ v' = w' ∧ Q b v' := by
    rintro β e Q v _ rfl ⟨b, w', hs, hq⟩
    exact ⟨b, w', w', hs, rfl, hq⟩
  obtain ⟨a, w', _, he, rfl, hq⟩ := wp_exists hsim rfl h
  exact ⟨a, w', he, hq⟩

/-! ## 4. Running a program -/

/-- Repeat a body until it answers `false`, at most `fuel` times. -/
def iterRun (body : W → Option (Bool × W)) : Nat → W → Option W
  | 0, _ => none
  | fuel + 1, w =>
    (body w).bind fun r => if r.1 then iterRun body fuel r.2 else some r.2

/-- Run a program against given answers, each loop for at most `fuel` rounds. -/
def run (answer : (β : Type) → E β → W → Option (β × W)) (fuel : Nat) :
    {α : Type} → Prog E α → W → Option (α × W)
  | _, .ret a, w => some (a, w)
  | _, .op e k, w => (answer _ e w).bind fun r => run answer fuel (k r.1) r.2
  | _, .loop body k, w =>
    (iterRun (run answer fuel body) fuel w).bind fun w' => run answer fuel k w'

theorem run_bind {answer : (β : Type) → E β → W → Option (β × W)} {fuel : Nat} {p : Prog E α}
    {f : α → Prog E β} {w : W} : run answer fuel (p.bind f) w =
      (run answer fuel p w).bind fun r => run answer fuel (f r.1) r.2 := by
  induction p generalizing w with
  | ret a => rfl
  | op e k ih => simp only [op_bind, run, ih, Option.bind_assoc]
  | loop body k _ ih => simp only [loop_bind, run, ih, Option.bind_assoc]

/-- If the answers are possible ones, what is computed is a run.  The answers may be drawn from
a richer world, of which `view` is the part the commands act on. -/
theorem run_eval {V : Type} {answer : (β : Type) → E β → V → Option (β × V)} {view : V → W}
    (hans : ∀ (β : Type) (e : E β) (v : V) (b : β) (v' : V), answer β e v = some (b, v') →
      sem β e (view v) b (view v'))
    {fuel : Nat} {p : Prog E α} {v v' : V} {x : α} (h : run answer fuel p v = some (x, v')) :
    Eval sem p (view v) x (view v') := by
  induction p generalizing v v' with
  | ret a =>
    obtain ⟨rfl, rfl⟩ : a = x ∧ v = v' := by simpa [run] using h
    exact ⟨rfl, rfl⟩
  | op e k ih =>
    obtain ⟨⟨b, v₁⟩, h1, h2⟩ := Option.bind_eq_some_iff.mp h
    exact ⟨b, view v₁, hans _ e v b v₁ h1, ih b h2⟩
  | loop body k ihb ih =>
    obtain ⟨v₁, h1, h2⟩ := Option.bind_eq_some_iff.mp h
    refine ⟨view v₁, ?_, ih h2⟩
    suffices hiter : ∀ (n : Nat) (v : V), iterRun (run answer fuel body) n v = some v₁ →
        Iter (Eval sem body) (view v) (view v₁) from hiter fuel v h1
    intro n
    induction n with
    | zero => intro v h; exact absurd h (by simp [iterRun])
    | succ n ihn =>
      intro v h
      obtain ⟨⟨b, v₂⟩, hb, hrest⟩ := Option.bind_eq_some_iff.mp h
      cases b with
      | true => exact .again (ihb hb) (ihn v₂ (by simpa using hrest))
      | false =>
        obtain rfl : v₂ = v₁ := by simpa using hrest
        exact .stop (ihb hb)

/-- The world after so many transitions, against given answers; it stays as it is when the run
has ended or the answers have. -/
def advance (answer : (β : Type) → E β → W → Option (β × W)) :
    {α : Type} → Nat → Prog E α → W → W
  | _, 0, _, w => w
  | _, _ + 1, .ret _, w => w
  | _, n + 1, .op e k, w =>
    match answer _ e w with
    | none => w
    | some (b, w') => advance answer n (k b) w'
  | _, n + 1, .loop body k, w =>
    advance answer n (body.bind fun b => if b then .loop body k else k) w

theorem advance_reach {answer : (β : Type) → E β → W → Option (β × W)}
    (hans : ∀ (β : Type) (e : E β) (w : W) (b : β) (w' : W), answer β e w = some (b, w') →
      sem β e w b w') :
    ∀ (n : Nat) (p : Prog E α) (w : W), ∃ p', Reach sem (p, w) (p', advance answer n p w) := by
  intro n
  induction n with
  | zero => exact fun p w => ⟨p, .refl⟩
  | succ n ih =>
    intro p w
    cases p with
    | ret a => exact ⟨.ret a, .refl⟩
    | op e k =>
      rw [advance]
      split
      · exact ⟨.op e k, .refl⟩
      · rename_i b w' h
        obtain ⟨p', hp'⟩ := ih (k b) w'
        exact ⟨p', .head ⟨b, hans _ e w b w' h, rfl⟩ hp'⟩
    | loop body k =>
      obtain ⟨p', hp'⟩ := ih (body.bind fun b => if b then .loop body k else k) w
      exact ⟨p', .head ⟨rfl, rfl⟩ hp'⟩

/-- One transition, against given answers, if there is one. -/
def next (answer : (β : Type) → E β → W → Option (β × W)) : Prog E α × W → Option (Prog E α × W)
  | (.ret _, _) => none
  | (.op e k, w) => (answer _ e w).map fun r => (k r.1, r.2)
  | (.loop body k, w) => some (body.bind fun b => if b then .loop body k else k, w)

/-- So many transitions. -/
def nexts (answer : (β : Type) → E β → W → Option (β × W)) :
    Nat → Prog E α × W → Option (Prog E α × W)
  | 0, c => some c
  | n + 1, c => (next answer c).bind (nexts answer n)

theorem next_step {answer : (β : Type) → E β → W → Option (β × W)}
    (hans : ∀ (β : Type) (e : E β) (w : W) (b : β) (w' : W), answer β e w = some (b, w') →
      sem β e w b w') {c c' : Prog E α × W} (h : next answer c = some c') : Step sem c c' := by
  obtain ⟨p, w⟩ := c
  cases p with
  | ret a => cases h
  | op e k =>
    obtain ⟨⟨b, w'⟩, hb, rfl⟩ := Option.map_eq_some_iff.mp h
    exact ⟨b, hans _ e w b w' hb, rfl⟩
  | loop body k =>
    cases h
    exact ⟨rfl, rfl⟩

theorem nexts_reach {answer : (β : Type) → E β → W → Option (β × W)}
    (hans : ∀ (β : Type) (e : E β) (w : W) (b : β) (w' : W), answer β e w = some (b, w') →
      sem β e w b w') :
    ∀ {n : Nat} {c c' : Prog E α × W}, nexts answer n c = some c' → Reach sem c c' := by
  intro n
  induction n with
  | zero =>
    intro c c' h
    cases h
    exact .refl
  | succ n ih =>
    intro c c' h
    obtain ⟨c₁, h₁, h₂⟩ := Option.bind_eq_some_iff.mp h
    exact .head (next_step hans h₁) (ih h₂)

end Prog

/-
# Two runs in lockstep

`Both` compares two runs at their ends.  Here two runs are compared all along, and neither need
ever end: the answers to the commands are given by a function, so each world has one run, and the
two take their transitions together.  After every one of them the worlds look alike (`O`), and the
results, if there are any, are related.

`InStep` is the case of interest, as `Blind` is of `Both`: one program in two worlds that are
related.  `lock_advance` and `lock_eval` say what it is worth.
-/
import GBridge.Lib.Prog

namespace Prog

variable {E : Type → Type} {W : Type} {ans : (β : Type) → E β → W → β × W} {O : W → W → Prop}
  {α β γ δ : Type}

/-! ## 1. Pairs of runs -/

/-- The two programs have the same shape, the worlds look alike after every command, and what is
returned satisfies `Q`. -/
def Lock (ans : (β : Type) → E β → W → β × W) (O : W → W → Prop) :
    {α β : Type} → Prog E α → Prog E β → (α → β → W → W → Prop) → W → W → Prop
  | _, _, .ret a, .ret b, Q, w, v => Q a b w v
  | _, _, .op e k, .op d l, Q, w, v =>
    O (ans _ e w).2 (ans _ d v).2 ∧
      Lock ans O (k (ans _ e w).1) (l (ans _ d v).1) Q (ans _ e w).2 (ans _ d v).2
  | _, _, .loop body k, .loop body' k', Q, w, v =>
    ∃ I : W → W → Prop, I w v ∧ ∀ w v, I w v → Lock ans O body body' (fun b c w' v' =>
      b = c ∧ if b then I w' v' else Lock ans O k k' Q w' v') w v
  | _, _, _, _, _, _, _ => False

section Rules

variable {p : Prog E α} {q : Prog E β} {w v : W}

theorem lock_ret {a : α} {b : β} {Q : α → β → W → W → Prop} (h : Q a b w v) :
    Lock ans O (.ret a) (.ret b) Q w v := h

theorem lock_op {e : E γ} {d : E δ} {k : γ → Prog E α} {l : δ → Prog E β}
    {Q : α → β → W → W → Prop} (ho : O (ans _ e w).2 (ans _ d v).2)
    (h : Lock ans O (k (ans _ e w).1) (l (ans _ d v).1) Q (ans _ e w).2 (ans _ d v).2) :
    Lock ans O (.op e k) (.op d l) Q w v := ⟨ho, h⟩

theorem Lock.mono {Q Q' : α → β → W → W → Prop} (h : Lock ans O p q Q w v)
    (hQ : ∀ a b w' v', Q a b w' v' → Q' a b w' v') : Lock ans O p q Q' w v := by
  induction p generalizing β q w v with
  | ret a =>
    cases q with
    | ret b => exact hQ a b w v h
    | op d l => exact h.elim
    | loop body k => exact h.elim
  | op e k ih =>
    cases q with
    | ret b => exact h.elim
    | op d l => exact ⟨h.1, ih _ h.2 hQ⟩
    | loop body k => exact h.elim
  | loop body k ihb ih =>
    cases q with
    | ret b => exact h.elim
    | op d l => exact h.elim
    | loop body' k' =>
      obtain ⟨I, h0, hbody⟩ := h
      refine ⟨I, h0, fun w v hi => ihb (hbody w v hi) ?_⟩
      rintro b c w' v' ⟨rfl, hnext⟩
      refine ⟨rfl, ?_⟩
      cases b with
      | true => exact hnext
      | false => exact ih hnext hQ

/-- The rule of sequencing. -/
theorem lock_bind {f : α → Prog E γ} {g : β → Prog E δ} {Q : γ → δ → W → W → Prop}
    (h : Lock ans O p q (fun a b w' v' => Lock ans O (f a) (g b) Q w' v') w v) :
    Lock ans O (p.bind f) (q.bind g) Q w v := by
  induction p generalizing β q w v with
  | ret a =>
    cases q with
    | ret b => exact h
    | op d l => exact h.elim
    | loop body k => exact h.elim
  | op e k ih =>
    cases q with
    | ret b => exact h.elim
    | op d l => exact ⟨h.1, ih _ h.2⟩
    | loop body k => exact h.elim
  | loop body k _ ih =>
    cases q with
    | ret b => exact h.elim
    | op d l => exact h.elim
    | loop body' k' =>
      obtain ⟨I, h0, hbody⟩ := h
      refine ⟨I, h0, fun w v hi => (hbody w v hi).mono ?_⟩
      rintro b c w' v' ⟨rfl, hnext⟩
      refine ⟨rfl, ?_⟩
      cases b with
      | true => exact hnext
      | false => exact ih hnext

theorem lock_seq {f : α → Prog E γ} {g : β → Prog E δ} {Q : γ → δ → W → W → Prop}
    (R : α → β → W → W → Prop) (h : Lock ans O p q R w v)
    (hf : ∀ a b w' v', R a b w' v' → Lock ans O (f a) (g b) Q w' v') :
    Lock ans O (p.bind f) (q.bind g) Q w v :=
  lock_bind (h.mono hf)

/-- The rule of the conditional: both go the same way. -/
theorem lock_ite {c c' : Prop} [Decidable c] [Decidable c'] {p' : Prog E α} {q' : Prog E β}
    {Q : α → β → W → W → Prop} (hc : c ↔ c') (hp : c → Lock ans O p q Q w v)
    (hq : ¬ c → Lock ans O p' q' Q w v) :
    Lock ans O (if c then p else p') (if c' then q else q') Q w v := by
  by_cases h : c
  · rw [if_pos h, if_pos (hc.mp h)]
    exact hp h
  · rw [if_neg h, if_neg (mt hc.mpr h)]
    exact hq h

/-- The rule of the loop: as long as `I` holds both bodies say the same. -/
theorem lock_loop {body body' : Prog E Bool} {k : Prog E α} {k' : Prog E β}
    {Q : α → β → W → W → Prop} (I J : W → W → Prop) (h0 : I w v)
    (hbody : ∀ w v, I w v → Lock ans O body body'
      (fun b c w' v' => b = c ∧ if b then I w' v' else J w' v') w v)
    (hk : ∀ w v, J w v → Lock ans O k k' Q w v) :
    Lock ans O (.loop body k) (.loop body' k') Q w v := by
  refine ⟨I, h0, fun w v hi => (hbody w v hi).mono ?_⟩
  rintro b c w' v' ⟨rfl, hnext⟩
  refine ⟨rfl, ?_⟩
  cases b with
  | true => exact hnext
  | false => exact hk w' v' hnext

end Rules

/-! ## 2. What it is worth -/

/-- **After any number of transitions the worlds look alike.** -/
theorem lock_advance {Q : α → β → W → W → Prop} (n : Nat) {p : Prog E α} {q : Prog E β} {w v : W}
    (ho : O w v) (h : Lock ans O p q Q w v) :
    O (advance (fun β e w => some (ans β e w)) n p w)
      (advance (fun β e w => some (ans β e w)) n q v) := by
  induction n generalizing p q w v with
  | zero => exact ho
  | succ n ih =>
    cases p with
    | ret a =>
      cases q with
      | ret b => exact ho
      | op d l => exact h.elim
      | loop body k => exact h.elim
    | op e k =>
      cases q with
      | ret b => exact h.elim
      | op d l => exact ih h.1 h.2
      | loop body k => exact h.elim
    | loop body k =>
      cases q with
      | ret b => exact h.elim
      | op d l => exact h.elim
      | loop body' k' =>
        obtain ⟨I, h0, hbody⟩ := h
        refine ih ho (lock_seq _ (hbody w v h0) ?_)
        rintro b c w' v' ⟨rfl, hnext⟩
        cases b with
        | true => exact ⟨I, hnext, hbody⟩
        | false => exact hnext

/-- **If the one run comes to an end, so does the other**, and the results are related. -/
theorem lock_eval {Q : α → β → W → W → Prop} {p : Prog E α} {q : Prog E β} {w v w' : W} {a : α}
    (h : Lock ans O p q Q w v) (he : Eval (fun _ e w b w' => ans _ e w = (b, w')) p w a w') :
    ∃ b v', Eval (fun _ e w b w' => ans _ e w = (b, w')) q v b v' ∧ Q a b w' v' := by
  induction p generalizing β q w v w' with
  | ret a =>
    obtain ⟨rfl, rfl⟩ := he
    cases q with
    | ret b => exact ⟨b, v, ⟨rfl, rfl⟩, h⟩
    | op d l => exact h.elim
    | loop body k => exact h.elim
  | op e k ih =>
    obtain ⟨c, w₁, hs, he⟩ := he
    cases q with
    | ret b => exact h.elim
    | op d l =>
      have hnext := h.2
      rw [hs] at hnext
      obtain ⟨b, v', hq, hQ⟩ := ih c hnext he
      exact ⟨b, v', ⟨_, _, rfl, hq⟩, hQ⟩
    | loop body k => exact h.elim
  | loop body k ihb ih =>
    obtain ⟨w₁, hiter, he⟩ := he
    cases q with
    | ret b => exact h.elim
    | op d l => exact h.elim
    | loop body' k' =>
      obtain ⟨I, h0, hbody⟩ := h
      have hrounds : ∃ v₁, Iter (Eval (fun _ e w b w' => ans _ e w = (b, w')) body') v v₁ ∧
          Lock ans O k k' Q w₁ v₁ := by
        clear he
        induction hiter generalizing v with
        | stop hb =>
          obtain ⟨c, v₁, hb', rfl, hnext⟩ := ihb (hbody _ _ h0) hb
          exact ⟨v₁, .stop hb', hnext⟩
        | again hb _ ihi =>
          obtain ⟨c, v₁, hb', rfl, hnext⟩ := ihb (hbody _ _ h0) hb
          obtain ⟨v₂, hrest, hk⟩ := ihi hnext
          exact ⟨v₂, .again hb' hrest, hk⟩
      obtain ⟨v₁, hi, hk⟩ := hrounds
      obtain ⟨b, v', hq, hQ⟩ := ih hk he
      exact ⟨b, v', ⟨v₁, hi, hq⟩, hQ⟩

/-! ## 3. One program in two worlds -/

/-- Run in two worlds that are related, the program runs in lockstep, returns the same and leaves
them related. -/
def InStep (ans : (β : Type) → E β → W → β × W) (O I : W → W → Prop) (p : Prog E α) : Prop :=
  ∀ w v, I w v → Lock ans O p p (fun a b w' v' => a = b ∧ I w' v') w v

section InStep

variable {I : W → W → Prop}

theorem InStep.ret (a : α) : InStep ans O I (.ret a) := fun _ _ h => lock_ret ⟨rfl, h⟩

theorem InStep.cmd {e : E α}
    (h : ∀ w v, I w v → O (ans _ e w).2 (ans _ e v).2 ∧ (ans _ e w).1 = (ans _ e v).1 ∧
      I (ans _ e w).2 (ans _ e v).2) : InStep ans O I (cmd e) := by
  intro w v hi
  obtain ⟨ho, hret, hi'⟩ := h w v hi
  exact lock_op ho (lock_ret ⟨hret, hi'⟩)

theorem InStep.bind {p : Prog E α} {f : α → Prog E β} (hp : InStep ans O I p)
    (hf : ∀ a, InStep ans O I (f a)) : InStep ans O I (p.bind f) := by
  intro w v hi
  refine lock_seq _ (hp w v hi) ?_
  rintro a _ w' v' ⟨rfl, hi'⟩
  exact hf a w' v' hi'

theorem InStep.ite {c : Prop} [Decidable c] {p q : Prog E α} (hp : InStep ans O I p)
    (hq : InStep ans O I q) : InStep ans O I (if c then p else q) := by
  split
  · exact hp
  · exact hq

theorem InStep.loop {body : Prog E Bool} {k : Prog E α} (hbody : InStep ans O I body)
    (hk : InStep ans O I k) : InStep ans O I (.loop body k) := by
  intro w v hi
  refine lock_loop I I hi (fun w v hi => (hbody w v hi).mono ?_) hk
  rintro a _ w' v' ⟨rfl, hi'⟩
  exact ⟨rfl, by rwa [ite_self]⟩

theorem InStep.whileM {cond : Prog E Bool} {body : Prog E Unit} (hc : InStep ans O I cond)
    (hb : InStep ans O I body) : InStep ans O I (whileM cond body) := by
  refine .loop (.bind hc fun c => ?_) (.ret ())
  exact .ite (.bind hb fun _ => .ret true) (.ret false)

end InStep

/-! ## 4. Programs over an interface -/

variable {F : Type → Type}

/-- Carry out a program over an interface whose commands are programs themselves. -/
def carry (code : {β : Type} → F β → Prog E β) : {α : Type} → Prog F α → Prog E α
  | _, .ret a => .ret a
  | _, .op e k => (code e).bind fun b => carry code (k b)
  | _, .loop body k => .loop (carry code body) (carry code k)

/-- **Whatever is done over an interface is in step if its commands are.** -/
theorem InStep.carry {I : W → W → Prop} {code : {β : Type} → F β → Prog E β}
    (hcode : ∀ (β : Type) (e : F β), InStep ans O I (code e)) (p : Prog F α) :
    InStep ans O I (carry code p) := by
  induction p with
  | ret a => exact .ret a
  | op e k ih => exact .bind (hcode _ e) fun b => ih b
  | loop body k ihb ih => exact .loop ihb ih

end Prog

/-
# Two runs side by side

What a program reveals of the world it runs in is a property of two of its runs.  `Both` is the
weakest precondition of such a property: of a run of one program and a run of another, each of
which comes to an end.  The rules take both programs a command at a time; where they branch they
branch together, and their loops go round equally often.

`Blind` is the case of interest: a program run in two worlds that are alike returns the same in
both and leaves them alike.
-/
import GBridge.Lib.Prog

namespace Prog

variable {E : Type → Type} {W : Type} {sem : Sem E W} {α β γ δ : Type}

/-! ## 1. Pairs of runs -/

/-- A run of the one program and a run of the other that come to an end, end in `Q`. -/
def Both (sem : Sem E W) (p : Prog E α) (q : Prog E β) (Q : α → β → W → W → Prop) (w v : W) :
    Prop :=
  ∀ a w' b v', Eval sem p w a w' → Eval sem q v b v' → Q a b w' v'

section Rules

variable {p : Prog E α} {q : Prog E β} {w v : W}

theorem Both.mono {Q Q' : α → β → W → W → Prop} (h : Both sem p q Q w v)
    (hQ : ∀ a b w' v', Q a b w' v' → Q' a b w' v') : Both sem p q Q' w v :=
  fun a w' b v' hp hq => hQ a b w' v' (h a w' b v' hp hq)

theorem both_ret {a : α} {b : β} {Q : α → β → W → W → Prop} (h : Q a b w v) :
    Both sem (.ret a) (.ret b) Q w v := by
  rintro _ _ _ _ ⟨rfl, rfl⟩ ⟨rfl, rfl⟩
  exact h

theorem both_op {e : E γ} {d : E δ} {k : γ → Prog E α} {l : δ → Prog E β}
    {Q : α → β → W → W → Prop}
    (h : ∀ c w' d' v', sem _ e w c w' → sem _ d v d' v' → Both sem (k c) (l d') Q w' v') :
    Both sem (.op e k) (.op d l) Q w v := by
  rintro a w' b v' ⟨c, w₁, hs, he⟩ ⟨c', v₁, hs', he'⟩
  exact h c w₁ c' v₁ hs hs' a w' b v' he he'

/-- The rule of sequencing. -/
theorem both_bind {f : α → Prog E γ} {g : β → Prog E δ} {Q : γ → δ → W → W → Prop}
    (h : Both sem p q (fun a b w' v' => Both sem (f a) (g b) Q w' v') w v) :
    Both sem (p.bind f) (q.bind g) Q w v := by
  intro c w' d v' hp hq
  obtain ⟨a, w₁, hp, hf⟩ := eval_bind.mp hp
  obtain ⟨b, v₁, hq, hg⟩ := eval_bind.mp hq
  exact h a w₁ b v₁ hp hq c w' d v' hf hg

theorem both_seq {f : α → Prog E γ} {g : β → Prog E δ} {Q : γ → δ → W → W → Prop}
    (R : α → β → W → W → Prop) (h : Both sem p q R w v)
    (hf : ∀ a b w' v', R a b w' v' → Both sem (f a) (g b) Q w' v') :
    Both sem (p.bind f) (q.bind g) Q w v :=
  both_bind (h.mono hf)

/-- The rule of the conditional: both go the same way. -/
theorem both_ite {c c' : Prop} [Decidable c] [Decidable c'] {p' : Prog E α} {q' : Prog E β}
    {Q : α → β → W → W → Prop} (hc : c ↔ c') (hp : c → Both sem p q Q w v)
    (hq : ¬ c → Both sem p' q' Q w v) :
    Both sem (if c then p else p') (if c' then q else q') Q w v := by
  by_cases h : c
  · rw [if_pos h, if_pos (hc.mp h)]
    exact hp h
  · rw [if_neg h, if_neg (mt hc.mpr h)]
    exact hq h

/-- The rule of the loop: as long as `I` holds both bodies say the same. -/
theorem both_loop {body body' : Prog E Bool} {k : Prog E α} {k' : Prog E β}
    {Q : α → β → W → W → Prop} (I J : W → W → Prop) (h0 : I w v)
    (hbody : ∀ w v, I w v → Both sem body body'
      (fun a b w' v' => a = b ∧ if a then I w' v' else J w' v') w v)
    (hk : ∀ w v, J w v → Both sem k k' Q w v) :
    Both sem (.loop body k) (.loop body' k') Q w v := by
  rintro a w' b v' ⟨w₁, hi, hk₁⟩ ⟨v₁, hi', hk₂⟩
  suffices hj : J w₁ v₁ from hk w₁ v₁ hj a w' b v' hk₁ hk₂
  clear hk₁ hk₂
  induction hi generalizing v with
  | stop hb =>
    cases hi' with
    | stop hb' => exact (hbody _ _ h0 _ _ _ _ hb hb').2
    | again hb' _ => exact absurd (hbody _ _ h0 _ _ _ _ hb hb').1 (by decide)
  | again hb _ ih =>
    cases hi' with
    | stop hb' => exact absurd (hbody _ _ h0 _ _ _ _ hb hb').1 (by decide)
    | again hb' hrest => exact ih (hbody _ _ h0 _ _ _ _ hb hb').2 hrest

end Rules

/-! ## 2. What cannot be told apart -/

/-- Run in two worlds that are alike, the program returns the same and leaves them alike. -/
def Blind (sem : Sem E W) (I : W → W → Prop) (p : Prog E α) : Prop :=
  ∀ w v, I w v → Both sem p p (fun a b w' v' => a = b ∧ I w' v') w v

section Blind

variable {I : W → W → Prop}

theorem Blind.ret (a : α) : Blind sem I (.ret a) := fun _ _ h => both_ret ⟨rfl, h⟩

/-- The first program need not be blind if what comes of it is used as if it were. -/
theorem Blind.seq {p : Prog E α} {f : α → Prog E β} (R : α → α → Prop)
    (hp : ∀ w v, I w v → Both sem p p (fun a b w' v' => R a b ∧ I w' v') w v)
    (hf : ∀ a b, R a b → ∀ w v, I w v →
      Both sem (f a) (f b) (fun a b w' v' => a = b ∧ I w' v') w v) :
    Blind sem I (p.bind f) := fun w v hi =>
  both_seq _ (hp w v hi) fun a b w' v' hab => hf a b hab.1 w' v' hab.2

theorem Blind.bind {p : Prog E α} {f : α → Prog E β} (hp : Blind sem I p)
    (hf : ∀ a, Blind sem I (f a)) : Blind sem I (p.bind f) :=
  .seq Eq hp fun a _ hab w v hi => hab ▸ hf a w v hi

theorem Blind.ite {c : Prop} [Decidable c] {p q : Prog E α} (hp : Blind sem I p)
    (hq : Blind sem I q) : Blind sem I (if c then p else q) := by
  split
  · exact hp
  · exact hq

theorem Blind.loop {body : Prog E Bool} {k : Prog E α} (hbody : Blind sem I body)
    (hk : Blind sem I k) : Blind sem I (.loop body k) := by
  intro w v hi
  refine both_loop I I hi (fun w v hi => (hbody w v hi).mono fun a b w' v' hab => ?_) hk
  obtain ⟨rfl, hi'⟩ := hab
  exact ⟨rfl, by rwa [ite_self]⟩

theorem Blind.whileM {cond : Prog E Bool} {body : Prog E Unit} (hc : Blind sem I cond)
    (hb : Blind sem I body) : Blind sem I (whileM cond body) := by
  refine .loop (.bind hc fun c => ?_) (.ret ())
  exact .ite (.bind hb fun _ => .ret true) (.ret false)

end Blind

end Prog

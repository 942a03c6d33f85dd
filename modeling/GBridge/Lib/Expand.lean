/-
# Programs that are run further down

A command of one program may be a program over other commands.  `expand` puts these in the place of
the commands.  A run of what comes out is a run of the first program in which the program for one
command may be under way (`expand_reach`), where a command does what some run of its program does
from beginning to end (`Sem.expanded`).

On the way there are a few facts on runs: a run of a sequence is in its first part or has come
through it (`bind_step`), a run can be seen through a view of its worlds (`reach_view`), and what
each command keeps a run keeps (`reach_keeps`).

Some commands may be such that nothing is known of what comes after them.  `Sem.marked` lets them
through and takes note; as long as there is no note a run is what it was (`marked_reach`).
-/
import GBridge.Lib.Prog

namespace Prog

variable {E F : Type → Type} {V W : Type} {α β : Type}

/-! ## 1. Expanding -/

/-- Each command is replaced by a program. -/
def expand (h : {β : Type} → E β → Prog F β) : {α : Type} → Prog E α → Prog F α
  | _, .ret a => .ret a
  | _, .op e k => (h e).bind fun b => expand h (k b)
  | _, .loop body k => .loop (expand h body) (expand h k)

section Expand

variable {h : {β : Type} → E β → Prog F β}

@[simp] theorem expand_ret (a : α) : expand h (.ret a) = .ret a := rfl

@[simp] theorem expand_op (e : E β) (k : β → Prog E α) :
    expand h (.op e k) = (h e).bind fun b => expand h (k b) := rfl

theorem expand_bind (p : Prog E α) (f : α → Prog E β) :
    expand h (p.bind f) = (expand h p).bind fun a => expand h (f a) := by
  induction p with
  | ret a => rfl
  | op e k ih =>
    rw [op_bind, expand_op, expand_op, bind_assoc]
    exact congrArg (h e).bind (funext fun b => ih b f)
  | loop body k _ ih =>
    rw [loop_bind, expand, expand, loop_bind, ih]

/-- What a round of a loop expands to is a round of the expanded loop. -/
theorem expand_round (body : Prog E Bool) (k : Prog E α) :
    expand h (body.bind fun b => if b then .loop body k else k) =
      (expand h body).bind fun b => if b then .loop (expand h body) (expand h k)
        else expand h k := by
  rw [expand_bind]
  refine congrArg (expand h body).bind (funext fun b => ?_)
  cases b <;> rfl

end Expand

/-! ## 2. Runs of a sequence -/

section Step

variable {sem : Sem F W}

/-- A transition of a sequence is one of its first part, unless that has come to its end. -/
theorem bind_step {p : Prog F α} {f : α → Prog F β} {w : W} {c : Prog F β × W}
    (hp : ∀ a, p ≠ .ret a) (hs : Step sem (p.bind f, w) c) :
    ∃ p', Step sem (p, w) (p', c.2) ∧ c.1 = p'.bind f := by
  cases p with
  | ret a => exact absurd rfl (hp a)
  | op e k =>
    obtain ⟨b, hb, hc⟩ := hs
    exact ⟨k b, ⟨b, hb, rfl⟩, hc⟩
  | loop body k =>
    obtain ⟨hc, hw⟩ := hs
    refine ⟨_, ⟨rfl, hw⟩, ?_⟩
    rw [hc, bind_assoc]
    refine congrArg body.bind (funext fun b => ?_)
    cases b <;> rfl

/-- A single command has not been given, or has been answered. -/
theorem cmd_reach {e : F β} {r : Prog F β} {w w' : W} (hr : Reach sem (cmd e, w) (r, w')) :
    (r = cmd e ∧ w' = w) ∨ ∃ b, r = .ret b ∧ sem β e w b w' := by
  obtain heq | ⟨c, hs, hrest⟩ := Relation.ReflTransGen.cases_head hr
  · obtain ⟨rfl, rfl⟩ := Prod.mk.inj heq
    exact Or.inl ⟨rfl, rfl⟩
  · obtain ⟨p, w₁⟩ := c
    obtain ⟨b, hb, rfl⟩ := hs
    obtain heq | ⟨c, hs, -⟩ := Relation.ReflTransGen.cases_head hrest
    · obtain ⟨rfl, rfl⟩ := Prod.mk.inj heq
      exact Or.inr ⟨b, rfl, hb⟩
    · exact hs.elim

/-- What is seen of a run in a richer world is a run. -/
theorem reach_view {sem' : Sem F V} {f : V → W}
    (hf : ∀ (β : Type) (e : F β) (v : V) (b : β) (v' : V), sem' β e v b v' →
      sem β e (f v) b (f v')) {p p' : Prog F α} {v v' : V}
    (hr : Reach sem' (p, v) (p', v')) : Reach sem (p, f v) (p', f v') := by
  refine Relation.ReflTransGen.lift (fun c : Prog F α × V => (c.1, f c.2)) ?_ _ _ hr
  rintro ⟨p, v⟩ ⟨p', v'⟩ hs
  cases p with
  | ret a => exact hs.elim
  | op e k =>
    obtain ⟨b, hb, hk⟩ := hs
    exact ⟨b, hf _ e v b v' hb, hk⟩
  | loop body k =>
    obtain ⟨hp, hv⟩ := hs
    exact ⟨hp, congrArg f hv⟩

/-- What each command keeps, a run keeps. -/
theorem reach_keeps {I : W → Prop} (hI : ∀ (β : Type) (e : F β) (w : W) (b : β) (w' : W),
    I w → sem β e w b w' → I w') {c c' : Prog F α × W} (h : I c.2) (hr : Reach sem c c') :
    I c'.2 := by
  induction hr with
  | refl => exact h
  | @tail c₁ c₂ _ hs ih =>
    obtain ⟨p, w⟩ := c₁
    cases p with
    | ret a => exact hs.elim
    | op e k =>
      obtain ⟨b, hb, -⟩ := hs
      exact hI _ e w b c₂.2 ih hb
    | loop body k => exact hs.2 ▸ ih

/-- Bad commands are let through: they answer anything and leave anything, and it is noted that
there has been one. -/
def Sem.marked (sem : Sem F W) (bad : {β : Type} → F β → Prop) : Sem F (W × Bool) :=
  fun _ e u b u' => sem _ e u.1 b u'.1 ∧ u'.2 = u.2 ∨ bad e ∧ u'.2 = true

variable {bad : {β : Type} → F β → Prop}

/-- **Up to the first bad command** nothing is different. -/
theorem marked_reach {p : Prog F α} {u : W × Bool} {c : Prog F α × (W × Bool)}
    (hr : Reach (sem.marked bad) (p, u) c) (hnone : c.2.2 = false) :
    Reach sem (p, u.1) (c.1, c.2.1) := by
  induction hr with
  | refl => exact .refl
  | @tail c₁ c₂ _ hs ih =>
    obtain ⟨p₁, w₁, m₁⟩ := c₁
    obtain ⟨p₂, w₂, m₂⟩ := c₂
    cases p₁ with
    | ret a => exact hs.elim
    | op e k =>
      obtain ⟨b, ⟨hb, hm⟩ | ⟨-, hm⟩, hk⟩ := hs
      · exact (ih (hm.symm.trans hnone)).tail ⟨b, hb, hk⟩
      · exact absurd (hm.symm.trans hnone) (by decide)
    | loop body k =>
      obtain ⟨hp, hu⟩ := hs
      obtain ⟨rfl, rfl⟩ := Prod.mk.inj (show (w₂, m₂) = (w₁, m₁) from hu)
      exact (ih hnone).tail ⟨hp, rfl⟩

/-- A run without bad commands. -/
theorem reach_marked {p p' : Prog F α} {w w' : W} (hr : Reach sem (p, w) (p', w')) :
    Reach (sem.marked bad) (p, (w, false)) (p', (w', false)) :=
  reach_view (f := fun w => (w, false)) (fun _ _ _ _ _ hs => Or.inl ⟨hs, rfl⟩) hr

end Step

/-! ## 3. Runs of what is expanded -/

/-- A command does what its program does. -/
def Sem.expanded (sem : Sem F W) (h : {β : Type} → E β → Prog F β) : Sem E W :=
  fun _ e w b w' => Eval sem (h e) w b w'

section Reach

variable {h : {β : Type} → E β → Prog F β} {sem : Sem F W} {p : Prog E α} {w : W}

/-- Where a run of an expanded program is: between two commands, or inside one. -/
inductive Expanded (h : {β : Type} → E β → Prog F β) (sem : Sem F W) (p : Prog E α) (w : W) :
    Prog F α × W → Prop
  | between {p' : Prog E α} {w' : W} : Reach (sem.expanded h) (p, w) (p', w') →
    Expanded h sem p w (expand h p', w')
  | inside {β : Type} {e : E β} {k : β → Prog E α} {r : Prog F β} {w₁ w' : W} :
    Reach (sem.expanded h) (p, w) (.op e k, w₁) → Reach sem (h e, w₁) (r, w') →
    Expanded h sem p w (r.bind fun b => expand h (k b), w')

theorem Expanded.head {p' : Prog E α} {w' : W} {c : Prog F α × W}
    (hr : Reach (sem.expanded h) (p, w) (p', w')) (hc : Expanded h sem p' w' c) :
    Expanded h sem p w c := by
  cases hc with
  | between hr' => exact .between (hr.trans hr')
  | inside hr' hin => exact .inside (hr.trans hr') hin

/-- The first transition. -/
theorem Expanded.first {c : Prog F α × W} (hs : Step sem (expand h p, w) c) :
    Expanded h sem p w c := by
  induction p generalizing w with
  | ret a => exact hs.elim
  | op e k ih =>
    by_cases hret : ∃ b, h e = .ret b
    · -- the command does nothing, and the next one is looked at
      obtain ⟨b, hb⟩ := hret
      have hstep : Step (sem.expanded h) (.op e k, w) (k b, w) := by
        refine ⟨b, ?_, rfl⟩
        rw [Sem.expanded, hb]
        exact ⟨rfl, rfl⟩
      rw [expand_op, hb, ret_bind] at hs
      exact .head (.single hstep) (ih b hs)
    · obtain ⟨p', hfirst, hc⟩ := bind_step (fun b hb => hret ⟨b, hb⟩) hs
      obtain ⟨q, w'⟩ := c
      obtain rfl : q = _ := hc
      exact .inside .refl (.single hfirst)
  | loop body k =>
    obtain ⟨q, w'⟩ := c
    obtain ⟨hq, hw⟩ := hs
    obtain rfl : w' = w := hw
    obtain rfl : q = _ := hq.trans (expand_round body k).symm
    exact .between (.single ⟨rfl, rfl⟩)

theorem Expanded.step {c c' : Prog F α × W} (hc : Expanded h sem p w c) (hs : Step sem c c') :
    Expanded h sem p w c' := by
  cases hc with
  | between hr => exact .head hr (.first hs)
  | @inside β e k r w₁ w' hr hin =>
    by_cases hret : ∃ b, r = .ret b
    · obtain ⟨b, rfl⟩ := hret
      have hstep : Step (sem.expanded h) (.op e k, w₁) (k b, w') := ⟨b, reach_eval hin, rfl⟩
      exact .head (hr.tail hstep) (.first hs)
    · obtain ⟨r', hnext, hq⟩ := bind_step (fun b hb => hret ⟨b, hb⟩) hs
      obtain ⟨q, w''⟩ := c'
      obtain rfl : q = _ := hq
      exact .inside hr (hin.tail hnext)

/-- **A run of an expanded program is a run of the program**, with one command perhaps under
way. -/
theorem expand_reach {c : Prog F α × W} (hr : Reach sem (expand h p, w) c) :
    Expanded h sem p w c := by
  induction hr with
  | refl => exact .between .refl
  | tail _ hs ih => exact ih.step hs

/-- If each command is replaced by a single one, a run is the same run. -/
theorem relabel_reach {f : {β : Type} → E β → F β} {c : Prog F α × W}
    (hr : Reach sem (expand (fun e => cmd (f e)) p, w) c) :
    ∃ p', c.1 = expand (fun e => cmd (f e)) p' ∧
      Reach (fun _ e => sem _ (f e)) (p, w) (p', c.2) := by
  have hsame : ∀ (β : Type) (e : E β) (w : W) (b : β) (w' : W),
      sem.expanded (fun e => cmd (f e)) β e w b w' → sem β (f e) w b w' := by
    rintro β e w b w' ⟨b', w₁, hb, rfl, rfl⟩
    exact hb
  cases expand_reach hr with
  | between hr' => exact ⟨_, rfl, reach_view (f := id) hsame hr'⟩
  | @inside β e k r w₁ w' hr' hin =>
    have hr' : Reach (fun _ e => sem _ (f e)) (p, w) (.op e k, w₁) :=
      reach_view (f := id) hsame hr'
    rcases cmd_reach hin with ⟨rfl, rfl⟩ | ⟨b, rfl, hb⟩
    · exact ⟨.op e k, rfl, hr'⟩
    · exact ⟨k b, rfl, hr'.tail ⟨b, hb, rfl⟩⟩

end Reach

end Prog

/-
# Transition systems that are given by a step function

An action is taken in a state, if that is possible, and gives the next state.  `Reached` are the
states of all runs in which a condition holds of every action and the state it is taken in.

* What holds at the start and is kept by each such step holds in all of them (`Reached.invariant`).
* A run that is written down as a list of actions is computed by `run`, and ends in one of them
  (`Reached.run`).
* How often such a run takes one action may be counted along with what it keeps (`run_counts`),
  which bounds the number of steps of a party whatever the others do in between.
-/
import Mathlib.Data.List.Count

namespace Transition

variable {σ α : Type} {start : σ → Prop} {step : σ → α → Option σ} {ok : σ → α → Prop}

/-- The states that are reached from a start by steps of which `ok` holds. -/
inductive Reached (start : σ → Prop) (step : σ → α → Option σ) (ok : σ → α → Prop) : σ → Prop
  | start {s : σ} : start s → Reached start step ok s
  | step {s s' : σ} {a : α} :
    Reached start step ok s → ok s a → step s a = some s' → Reached start step ok s'

/-- **An invariant holds in every state reached.** -/
theorem Reached.invariant {I : σ → Prop} {s : σ} (h : Reached start step ok s)
    (hstart : ∀ s, start s → I s)
    (hstep : ∀ s a s', I s → ok s a → step s a = some s' → I s') : I s := by
  induction h with
  | start h => exact hstart _ h
  | step _ hok hs ih => exact hstep _ _ _ ih hok hs

/-- Take the actions one after the other, as long as `ok` holds. -/
def run (step : σ → α → Option σ) (ok : σ → α → Prop) [∀ s a, Decidable (ok s a)] (s : σ) :
    List α → Option σ
  | [] => some s
  | a :: as => if ok s a then (step s a).bind fun s' => run step ok s' as else none

theorem Reached.run [∀ s a, Decidable (ok s a)] {as : List α} {s s' : σ}
    (h : Reached start step ok s) (hs : run step ok s as = some s') :
    Reached start step ok s' := by
  induction as generalizing s with
  | nil =>
    obtain rfl : s = s' := Option.some.inj hs
    exact h
  | cons a as ih =>
    rw [Transition.run, Option.ite_none_right_eq_some, Option.bind_eq_some_iff] at hs
    obtain ⟨hok, s₁, hfirst, hrest⟩ := hs
    exact ih (h.step hok hfirst) hrest

/-- **An invariant may count an action.**  A run keeps it, with the count gone up by as often as the
action was taken. -/
theorem run_counts [DecidableEq α] [∀ s a, Decidable (ok s a)] {I : Nat → σ → Prop}
    {P : α → Prop} (b : α) (hstep : ∀ n s a s', I n s → P a → ok s a → step s a = some s' →
      I (if a = b then n + 1 else n) s') {as : List α} {n : Nat} {s s' : σ}
    (has : ∀ a ∈ as, P a) (hs : run step ok s as = some s') (h : I n s) :
    I (n + as.count b) s' := by
  induction as generalizing n s with
  | nil =>
    obtain rfl : s = s' := Option.some.inj hs
    exact h
  | cons a as ih =>
    rw [Transition.run, Option.ite_none_right_eq_some, Option.bind_eq_some_iff] at hs
    obtain ⟨hok, s₁, hfirst, hrest⟩ := hs
    have h₁ := hstep n s a s₁ h (has a List.mem_cons_self) hok hfirst
    have hlast := ih (fun a' ha' => has a' (List.mem_cons_of_mem _ ha')) hrest h₁
    by_cases hab : a = b
    · rw [if_pos hab, Nat.add_assoc, Nat.add_comm 1] at hlast
      rw [hab, List.count_cons_self]
      exact hlast
    · rw [if_neg hab] at hlast
      rw [List.count_cons_of_ne hab]
      exact hlast

end Transition

/-
# Programs that look until they have seen enough

A program that waits for something looks for it again and again, and whether it ever ends is not for
it to say.  What can be said is that it does nothing else for ever: between two looks it takes a
measured number of steps, and once there is nothing left to look for it comes to its end.

`Spec.patient` gives a program some patience, which every look takes one of.  The measures of its
loops may count on it, so that the program is total as long as the patience lasts.

* `patient_reach`: a program that is total with every patience is watched in every state of every
  run, as with `Spec.watched`, and is still total with every patience;
* `patient_ends`: from a state in which no look is allowed any more, it ends.

A program that keeps its variables in a part of the state reads and writes them between its looks.
`Variables` says that it can always do so and that this is no look, and `Variables.wpre_read` and
`Variables.wpre_modify` take such a step.  `patient_retry` is the loop that tries again until it has
succeeded: a try that fails has to take some of the patience, and a try that succeeds ends it.
-/
import GBridge.Lib.Prog

namespace Prog

variable {E : Type → Type} {W : Type} {α β : Type}

/-- The specification that wants `ok` to hold whenever a command is given and `inv` after it, and
the command to have an answer.  A look takes some of the patience, and what comes after the last
one is of no account. -/
def Spec.patient (sem : Sem E W) (look : {β : Type} → E β → Prop)
    (ok : {β : Type} → E β → W → Prop) (inv : W → Prop) : Spec E (W × Nat) where
  pre e Q u := ok e u.1 ∧ (∃ b w', sem _ e u.1 b w') ∧ ∀ b w', sem _ e u.1 b w' →
    inv w' ∧ (¬ look e → Q b (w', u.2)) ∧ (look e → ∀ n, u.2 = n + 1 → Q b (w', n))
  mono _ _ _ _ hQ h := ⟨h.1, h.2.1, fun b w' hs => ⟨(h.2.2 b w' hs).1,
    fun hno => hQ b _ ((h.2.2 b w' hs).2.1 hno),
    fun hlook n hn => hQ b _ ((h.2.2 b w' hs).2.2 hlook n hn)⟩⟩

section Patient

variable {sem : Sem E W} {look : {β : Type} → E β → Prop} {ok : {β : Type} → E β → W → Prop}
  {inv : W → Prop} {t : Bool} {Q : α → W × Nat → Prop} {w : W} {n : Nat} {R : α → W → Prop}

/-- A command that has one answer, and is no look. -/
theorem patient_one {e : E β} {k : β → Prog E α} {b : β} {w' : W} (hno : ¬ look e)
    (hok : ok e w) (hs : sem β e w b w')
    (hone : ∀ b₁ w₁, sem β e w b₁ w₁ → b₁ = b ∧ w₁ = w') (hinv : inv w')
    (h : wpre (Spec.patient sem look ok inv) t (k b) Q (w', n)) :
    wpre (Spec.patient sem look ok inv) t (.op e k) Q (w, n) := by
  refine ⟨hok, ⟨b, w', hs⟩, fun b₁ w₁ hs₁ => ?_⟩
  obtain ⟨rfl, rfl⟩ := hone b₁ w₁ hs₁
  exact ⟨hinv, fun _ => h, fun hlook => absurd hlook hno⟩

/-- A look. -/
theorem patient_look {e : E β} {k : β → Prog E α} (hlook : look e) (hok : ok e w)
    (hcan : ∃ b w', sem β e w b w') (h : ∀ b w', sem β e w b w' → inv w' ∧ ∀ m, n = m + 1 →
      wpre (Spec.patient sem look ok inv) t (k b) Q (w', m)) :
    wpre (Spec.patient sem look ok inv) t (.op e k) Q (w, n) :=
  ⟨hok, hcan, fun b w' hs => ⟨(h b w' hs).1, fun hno => absurd hlook hno,
    fun _ => (h b w' hs).2⟩⟩

/-- **Tries until one succeeds**: one that fails leaves things as they should be for the next one,
and has looked. -/
theorem patient_retry {p : Prog E Bool} {I : W → Prop} {R : W → Prop} (hw : I w)
    (h : ∀ w n, I w → wpre (Spec.patient sem look ok inv) true p
      (fun done u => if done then R u.1 else I u.1 ∧ u.2 < n) (w, n)) :
    wpre (Spec.patient sem look ok inv) true
      (.loop (p.bind fun done => .ret !done) (.ret ())) (fun _ u => R u.1) (w, n) := by
  -- what is left of the patience is the measure
  refine ⟨fun m u => u.2 = m ∧ I u.1, ⟨n, rfl, hw⟩, ?_⟩
  rintro m ⟨w, _⟩ ⟨rfl, hI⟩
  refine wpre_bind.mpr (wpre_mono (fun done u hdone => ?_) (h w _ hI))
  cases done with
  | true => exact hdone
  | false => exact ⟨u.2, fun _ => hdone.2, rfl, hdone.1⟩

/-- The command `rd` reads a part of the state, and `wr` writes it.  Both can always be given, have
one answer, and are no looks. -/
structure Variables (sem : Sem E W) (look : {β : Type} → E β → Prop)
    (ok : {β : Type} → E β → W → Prop) {S : Type} (rd : E S) (wr : S → E Unit) (val : W → S)
    (put : W → S → W) : Prop where
  reads : ∀ w s w', sem S rd w s w' ↔ s = val w ∧ w' = w
  writes : ∀ s w u w', sem Unit (wr s) w u w' ↔ w' = put w s
  read_free : ¬ look rd
  write_free : ∀ s, ¬ look (wr s)
  read_ok : ∀ w, ok rd w
  write_ok : ∀ s w, ok (wr s) w

section Variables

variable {S : Type} {rd : E S} {wr : S → E Unit} {val : W → S} {put : W → S → W}

/-- The variables are read. -/
theorem Variables.wpre_read (hv : Variables sem look ok rd wr val put) {k : S → Prog E α}
    (hinv : inv w) (h : wpre (Spec.patient sem look ok inv) t (k (val w)) Q (w, n)) :
    wpre (Spec.patient sem look ok inv) t ((cmd rd).bind k) Q (w, n) :=
  patient_one hv.read_free (hv.read_ok w) ((hv.reads w _ w).mpr ⟨rfl, rfl⟩)
    (fun s w' hs => (hv.reads w s w').mp hs) hinv h

/-- The variables are written. -/
theorem Variables.wpre_write (hv : Variables sem look ok rd wr val put) {s : S}
    {k : Unit → Prog E α} (hinv : inv (put w s))
    (h : wpre (Spec.patient sem look ok inv) t (k ()) Q (put w s, n)) :
    wpre (Spec.patient sem look ok inv) t ((cmd (wr s)).bind k) Q (w, n) :=
  patient_one (hv.write_free s) (hv.write_ok s w) ((hv.writes s w () _).mpr rfl)
    (fun u w' hs => ⟨rfl, (hv.writes s w u w').mp hs⟩) hinv h

/-- The variables are modified. -/
theorem Variables.wpre_modify (hv : Variables sem look ok rd wr val put) {f : S → S}
    {k : Unit → Prog E α} (hinv : inv w) (hinv' : inv (put w (f (val w))))
    (h : wpre (Spec.patient sem look ok inv) t (k ()) Q (put w (f (val w)), n)) :
    wpre (Spec.patient sem look ok inv) t (((cmd rd).bind fun s => cmd (wr (f s))).bind k) Q
      (w, n) :=
  hv.wpre_read hinv (hv.wpre_write hinv' h)

end Variables

/-- The program is total, whatever the patience. -/
def Patient (sem : Sem E W) (look : {β : Type} → E β → Prop)
    (ok : {β : Type} → E β → W → Prop) (inv : W → Prop) (R : α → W → Prop) (c : Prog E α × W) :
    Prop :=
  inv c.2 ∧ ∀ n, wpre (Spec.patient sem look ok inv) true c.1 (fun a u => R a u.1) (c.2, n)

theorem patient_step {c c' : Prog E α × W} (h : Patient sem look ok inv R c)
    (hs : Step sem c c') : Patient sem look ok inv R c' := by
  obtain ⟨p, w⟩ := c
  obtain ⟨p', w'⟩ := c'
  obtain ⟨hinv, hall⟩ := h
  cases p with
  | ret a => exact hs.elim
  | op e k =>
    obtain ⟨b, hb, rfl⟩ := hs
    refine ⟨((hall 0).2.2 b w' hb).1, fun n => ?_⟩
    by_cases hlook : look e
    · exact ((hall (n + 1)).2.2 b w' hb).2.2 hlook n rfl
    · exact ((hall n).2.2 b w' hb).2.1 hlook
  | loop body k =>
    obtain ⟨rfl, rfl⟩ := hs
    refine ⟨hinv, fun n => ?_⟩
    obtain ⟨I, ⟨m, hm⟩, hbody⟩ := hall n
    refine wpre_bind.mpr (wpre_mono (fun b u hb => ?_) (hbody m _ hm))
    cases b with
    | true =>
      obtain ⟨m', -, hm'⟩ := hb
      exact ⟨I, ⟨m', hm'⟩, hbody⟩
    | false => exact hb

/-- **In every state of every run** the program is total, whatever the patience. -/
theorem patient_reach {c c' : Prog E α × W} (h : Patient sem look ok inv R c)
    (hr : Reach sem c c') : Patient sem look ok inv R c' := by
  induction hr with
  | refl => exact h
  | tail _ hs ih => exact patient_step ih hs

/-- What is watched. -/
theorem Patient.watched {c : Prog E α × W} (h : Patient sem look ok inv R c) :
    (∀ (β : Type) (e : E β) (k : β → Prog E α), c.1 = .op e k → ok e c.2) ∧
      ∀ a, c.1 = .ret a → R a c.2 := by
  obtain ⟨p, w⟩ := c
  refine ⟨?_, ?_⟩
  · rintro β e k rfl
    exact (h.2 0).1
  · rintro a rfl
    exact h.2 0

/-- **With nothing left to look for the program comes to its end**: let no look be allowed in a
state that is done, and let every other command leave it done. -/
theorem patient_ends (done : W → Prop) {c : Prog E α × W} (h : Patient sem look ok inv R c)
    (hlook : ∀ (β : Type) (e : E β) (w : W), done w → look e → ¬ ok e w)
    (hkeep : ∀ (β : Type) (e : E β) (w : W) (b : β) (w' : W), done w → ¬ look e →
      sem β e w b w' → done w') (hdone : done c.2) :
    Ends sem c.1 c.2 fun a w' => R a w' ∧ done w' := by
  have htracks : (Spec.patient sem look ok inv).Tracks (fun u w => u = (w, 0) ∧ done w) sem := by
    rintro β e Q _ w ⟨rfl, hw⟩ ⟨hok, hcan, hall⟩
    have hno : ¬ look e := fun hl => hlook β e w hw hl hok
    exact ⟨hcan, fun b w' hs => ⟨_, ⟨rfl, hkeep β e w b w' hw hno hs⟩,
      (hall b w' hs).2.1 hno⟩⟩
  refine (wpre_ends htracks ⟨rfl, hdone⟩ (h.2 0)).mono ?_
  rintro a w' ⟨_, ⟨rfl, hw'⟩, ha⟩
  exact ⟨ha, hw'⟩

end Patient

end Prog

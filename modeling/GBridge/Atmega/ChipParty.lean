/-
# The chip as one of two parties

In `Pair` the adapter moves on the line by whole operations.  Here a step of the chip is seen to be
some of these moves, or none (`Running.Played.step`):

* `serial_putchar` sends its byte as soon as it is called, since from then on the byte is on its
  way; the steps of it and those of `serial_transmit` are nothing to the line;
* `serial_getchar` takes its byte when it returns (`Running.handed`);
* `serial_available` is a question how much has arrived, asked when it returns.  What has arrived in
  the ring and has not been counted yet is still under way for the link layer;
* a handler is no move, and neither is what the program does with its own variables.

`Running.Played` ties the chip to the line: what the link layer has come to, which bytes are still
to be counted, and surroundings in which it has come to that (`Driver`).  Only runs in which no
timeout passes are moves of the pair (`Running.OnTime`).
-/
import GBridge.Atmega.Driver
import GBridge.Atmega.Party
import GBridge.Lib.Solo

namespace GBridge.Atmega

open Prog Duplex

/-! ## 1. What the link layer has come to -/

/-- The program that is left when the byte is sent that `serial_putchar` has been called with. -/
def Running.ahead : Running → Code Unit
  | ⟨.op (.putchar _) k, true, _⟩ => k ()
  | ⟨p, _, _⟩ => p

/-- The bytes that `serial_getchar` has handed over: not the one it is about to return. -/
def Running.handed : Running → List UInt8
  | ⟨.op .getchar _, true, w⟩ =>
    if w.receiving.pc = .idle then w.receiving.returned.dropLast else w.receiving.returned
  | ⟨_, _, w⟩ => w.receiving.returned

/-- No timeout is found to have passed. -/
def Running.OnTime (s : Running) : Prop :=
  ∀ since k, s.code = .op (.expired since) k → s.chip.micros - since ≤ timeoutUs

/-- The chip shows what the link layer has come to in a run of `p`, with these bytes accepted and
not counted yet. -/
structure Running.Played (p : Code Unit) (l₀ : Live) (s : Running) (l : Live) (later : List UInt8) :
    Prop where
  ordered : s.chip.Ordered
  shows : s.Shows l
  heard : s.handed ++ (l.rx ++ later) = s.chip.receiving.accepted
  run : ∃ env, ∀ env', Agree env env' l → Prog.Reach (live env') (p, l₀) (s.code, l)

section Ahead

variable {p : Code Unit} {b : Bool} {w w' : Chip} {β : Type} {e : Op β} {k : β → Code Unit}

@[simp] theorem Running.ahead_outside : Running.ahead ⟨p, false, w⟩ = p := by
  cases p with
  | ret | loop => rfl
  | op e k => cases e <;> rfl

@[simp] theorem Running.handed_outside : Running.handed ⟨p, false, w⟩ = w.receiving.returned := by
  cases p with
  | ret | loop => rfl
  | op e k => cases e <;> rfl

/-- The program does not look at the memory. -/
theorem Running.ahead_chip : Running.ahead ⟨p, b, w'⟩ = Running.ahead ⟨p, b, w⟩ := by
  cases b with
  | false => rw [ahead_outside, ahead_outside]
  | true =>
    cases p with
    | ret | loop => rfl
    | op e k => cases e <;> rfl

theorem Running.handed_chip (hpc : w'.receiving.pc = w.receiving.pc)
    (hreturned : w'.receiving.returned = w.receiving.returned) :
    Running.handed ⟨p, b, w'⟩ = Running.handed ⟨p, b, w⟩ := by
  cases b with
  | false => rw [handed_outside, handed_outside, hreturned]
  | true =>
    cases p with
    | ret | loop => exact hreturned
    | op e k =>
      cases e with
      | getchar => rw [handed, handed, hpc, hreturned]
      | _ => exact hreturned

end Ahead

/-- What a step of the chip is on the line: some moves of the adapter, after these bytes have
arrived. -/
structure Running.Moved (s s' : Running) (l l' : Live) (bs tx : List UInt8) (notes : List Result) :
    Prop where
  solo : Solo (party moves) (s.ahead, l.g) (l.rx ++ bs) (s'.ahead, l'.g) l'.rx tx notes
  passed : s'.chip.sending.passed = s.chip.sending.passed ++ tx
  results : s'.chip.results = s.chip.results ++ notes

/-! ## 2. Handlers -/

section Steps

variable {p q : Code Unit} {b : Bool} {l l₀ : Live} {w w' : Chip} {later bs : List UInt8} {β : Type}
  {e : Op β} {k : β → Code Unit}

/-- A handler leaves all as it is, but that a byte may have arrived. -/
theorem Running.Played.interrupt {i : Interrupt} (h : Running.Played p l₀ ⟨q, b, w⟩ l later)
    (hi : w.interrupt i = some w')
    (hacc : w'.receiving.accepted = w.receiving.accepted ++ bs) :
    Running.Played p l₀ ⟨q, b, w'⟩ l (later ++ bs) := by
  have hi := Chip.interrupt_cases hi
  have hsame : w'.receiving.pc = w.receiving.pc ∧
      w'.receiving.returned = w.receiving.returned := by
    cases hi with
    | receiving c error =>
      obtain ⟨hpc, hreturned, -⟩ := w.receiving.serialReceive_same c error
      exact ⟨hpc, hreturned⟩
    | sending | timer => exact ⟨rfl, rfl⟩
  refine ⟨hi.ordered h.ordered, hi.shows h.shows, ?_, h.run⟩
  rw [Running.handed_chip hsame.1 hsame.2, ← List.append_assoc l.rx, ← List.append_assoc, h.heard]
  exact hacc.symm

theorem Running.Moved.interrupt {i : Interrupt} (hi : w.interrupt i = some w') :
    Running.Moved ⟨q, b, w⟩ ⟨q, b, w'⟩ l l [] [] [] := by
  have hi := Chip.interrupt_cases hi
  have hresults : w'.results = w.results := by
    cases hi with
    | sending | receiving | timer => rfl
  refine ⟨?_, hi.passed.trans (List.append_nil _).symm, hresults.trans (List.append_nil _).symm⟩
  rw [Running.ahead_chip, List.append_nil]
  exact .rest

/-! ## 3. Operations that are one step -/

/-- The timer is not found to have passed. -/
def Op.Punctual : {β : Type} → Op β → β → Prop
  | _, .expired _, late => late = false
  | _, _, _ => True

/-- An operation that is neither of the three functions is a move that is not seen, or something
noted. -/
theorem Answers.solo {a : β} {l' : Live} (h : Answers l e a l')
    (ha : ∃ w w', Chip.answer e w = some (a, w')) (htime : e.Punctual a) :
    ∃ notes, l'.rx = l.rx ∧ l'.tx = l.tx ∧ l'.results = l.results ++ notes ∧
      Solo (party moves) (.op e k, l.g) l.rx (k a, l'.g) l.rx [] notes := by
  obtain ⟨w, w', ha⟩ := ha
  obtain ⟨bs, t, hlive⟩ := h
  have hlive := hlive ⟨fun _ => [], fun _ => 0⟩
  cases e with
  | available | getchar | putchar => cases ha
  | get | set g | storeData i c | storeStream i c | timerGet =>
    cases hlive
    refine ⟨[], rfl, rfl, (List.append_nil _).symm, .single (a := .tau) (.inl ⟨_, ?_, rfl⟩) rfl⟩
    first | exact ⟨rfl, rfl, rfl⟩ | exact ⟨rfl, ⟨_, rfl⟩, rfl⟩
  | expired since =>
    cases hlive
    refine ⟨[], rfl, rfl, (List.append_nil _).symm, .single (a := .tau) (.inl ⟨_, ?_, rfl⟩) rfl⟩
    exact ⟨rfl, congrArg Sum.inl htime, rfl⟩
  | returned r =>
    cases hlive
    exact ⟨[r], rfl, rfl, rfl, .single (a := .note r) (.inl ⟨_, ⟨rfl, rfl, rfl⟩, rfl⟩) rfl⟩

theorem Chip.Shows.operate {a : β} (h : w.Shows l) (ha : w.answer e = some (a, w'))
    (htime : e.Punctual a) : ∃ l' notes, Answers l e a l' ∧ w'.Shows l' ∧
      w'.receiving = w.receiving ∧ l'.rx = l.rx ∧
        Running.Moved ⟨.op e k, false, w⟩ ⟨k a, false, w'⟩ l l' [] [] notes := by
  obtain ⟨l', hanswers, hshows, hreceiving⟩ := h.answer ha
  obtain ⟨notes, hrx, htx, hresults, hsolo⟩ := hanswers.solo (k := k) ⟨w, w', ha⟩ htime
  refine ⟨l', notes, hanswers, hshows, hreceiving, hrx, ?_, ?_, ?_⟩
  · rw [Running.ahead_outside, Running.ahead_outside, List.append_nil, hrx]
    exact hsolo
  · rw [hshows.passed, htx, List.append_nil]
    exact h.passed.symm
  · rw [← hshows.results, hresults, h.results]

/-! ## 4. The three functions -/

/-- What the calls have returned is seen all the time. -/
theorem Running.Shows.alike {s : Running} (h : s.Shows l) : s.chip.Alike l := by
  obtain ⟨q, b, w⟩ := s
  cases b with
  | false => exact Chip.Shows.toAlike h
  | true =>
    cases q with
    | ret | loop => exact h.elim
    | op e k =>
      have hinside : w.Inside l e := h
      cases hinside with
      | putchar ha | getchar ha | available ha => exact ha

/-- A function is called: `serial_putchar` has sent its byte. -/
theorem Chip.Shows.entered (h : w.Shows l) (he : w.enter e = some w') :
    (∃ tx, Running.Moved ⟨.op e k, false, w⟩ ⟨.op e k, true, w'⟩ l l [] tx []) ∧
      Running.handed ⟨.op e k, true, w'⟩ = w.receiving.returned := by
  cases e with
  | putchar c =>
    obtain ⟨s, hstep, rfl⟩ := Option.map_eq_some_iff.mp he
    simp only [Tx.step, h.idle, if_true, Option.some.injEq] at hstep
    obtain rfl := hstep
    refine ⟨⟨[c], ?_, rfl, (List.append_nil _).symm⟩, rfl⟩
    rw [List.append_nil]
    exact .single (a := .send c) (.inl ⟨_, ⟨rfl, rfl, rfl⟩, rfl⟩) rfl
  | getchar | available =>
    obtain ⟨s, hstep, rfl⟩ := Option.map_eq_some_iff.mp he
    simp only [Rx.step, h.quiet, if_true, Option.some.injEq] at hstep
    obtain rfl := hstep
    refine ⟨⟨[], ?_, (List.append_nil _).symm, (List.append_nil _).symm⟩, rfl⟩
    rw [List.append_nil]
    exact .rest
  | _ => cases he

/-- A step of `serial_getchar` hands nothing over: the byte that it takes out of the ring is still
to be returned. -/
theorem Rx.Reading.handed {r : Rx} {rx : List UInt8} (h : r.Reading rx) (hpc : r.pc ≠ .idle) :
    (if (rxStep r r.pc).pc = .idle then (rxStep r r.pc).returned.dropLast
      else (rxStep r r.pc).returned) =
        if r.pc = .idle then r.returned.dropLast else r.returned := by
  rw [if_neg hpc]
  cases h with
  | after hidle => exact absurd hidle hpc
  | before _ hgetting =>
    cases hr : r.pc with
    | idle => exact absurd hr hpc
    | availHead | availTail =>
      rw [hr] at hgetting
      exact hgetting.elim
    | testHead | read => rfl
    | testTail head =>
      rw [rxStep]
      cases r.serialRx.isempty head <;> rfl
    | advance c => exact List.dropLast_concat

/-- `serial_available` hands nothing over. -/
theorem Rx.Counting.returned {r : Rx} {rx : List UInt8} (h : r.Counting rx) (hpc : r.pc ≠ .idle) :
    (rxStep r r.pc).returned = r.returned := by
  cases h with
  | after _ hidle => exact absurd hidle hpc
  | before _ _ hcounting =>
    cases hr : r.pc with
    | advance c =>
      rw [hr] at hcounting
      exact hcounting.elim
    | _ => rfl

/-- A step inside changes nothing on the line. -/
theorem Chip.Inside.proceeded (h : w.Inside l e) (hp : w.proceed e = some w') :
    Running.Moved ⟨.op e k, true, w⟩ ⟨.op e k, true, w'⟩ l l [] [] [] ∧
      Running.handed ⟨.op e k, true, w'⟩ = Running.handed ⟨.op e k, true, w⟩ := by
  have hrest : ∀ w', w'.sending.passed = w.sending.passed → w'.results = w.results →
      Running.Moved ⟨.op e k, true, w⟩ ⟨.op e k, true, w'⟩ l l [] [] [] := by
    intro w' hpassed hresults
    refine ⟨?_, hpassed.trans (List.append_nil _).symm, hresults.trans (List.append_nil _).symm⟩
    rw [Running.ahead_chip, List.append_nil]
    exact .rest
  cases h with
  | putchar =>
    obtain ⟨s, hstep, rfl⟩ := Option.map_eq_some_iff.mp hp
    simp only [Tx.step, Option.ite_none_left_eq_some, Option.some.injEq] at hstep
    obtain ⟨-, rfl⟩ := hstep
    exact ⟨hrest _ rfl rfl, rfl⟩
  | getchar _ _ hreading =>
    obtain ⟨s, hstep, rfl⟩ := Option.map_eq_some_iff.mp hp
    simp only [Rx.step, Option.ite_none_left_eq_some, Option.some.injEq] at hstep
    obtain ⟨hpc, rfl⟩ := hstep
    exact ⟨hrest _ rfl rfl, hreading.handed hpc⟩
  | available _ _ hcounting =>
    obtain ⟨s, hstep, rfl⟩ := Option.map_eq_some_iff.mp hp
    simp only [Rx.step, Option.ite_none_left_eq_some, Option.some.injEq] at hstep
    obtain ⟨hpc, rfl⟩ := hstep
    exact ⟨hrest _ rfl rfl, hcounting.returned hpc⟩

/-- A function returns: `serial_available` says how much has arrived, `serial_getchar` takes a
byte. -/
theorem Chip.Inside.left {a : β} (h : w.Inside l e) (ho : w.Ordered) (hready : e.Ready l)
    (hl : w.leave e = some a)
    (hheard : Running.handed ⟨.op e k, true, w⟩ ++ (l.rx ++ later) = w.receiving.accepted) :
    ∃ l' bs later', later = bs ++ later' ∧ Answers l e a l' ∧ w.Shows l' ∧
      w.receiving.returned ++ (l'.rx ++ later') = w.receiving.accepted ∧
        Running.Moved ⟨.op e k, true, w⟩ ⟨k a, false, w⟩ l l' bs [] [] := by
  obtain ⟨l', hanswers, hshows⟩ := h.leave ho hready hl
  have hseen := hanswers
  obtain ⟨bs, t, hlive⟩ := hseen
  have hlive := hlive ⟨fun _ => [], fun _ => 0⟩
  cases h with
  | putchar =>
    cases hlive
    refine ⟨_, [], later, rfl, hanswers, hshows, hheard, ?_, (List.append_nil _).symm,
      (List.append_nil _).symm⟩
    rw [Running.ahead_outside, List.append_nil]
    exact .rest
  | getchar =>
    simp only [Chip.leave, Option.ite_none_right_eq_some] at hl
    obtain ⟨hidle, hlast⟩ := hl
    obtain ⟨c, rx, hrx⟩ := List.exists_cons_of_ne_nil hready
    simp only [liveAnswer, hrx, Prod.mk.injEq] at hlive
    obtain ⟨rfl, rfl⟩ := hlive
    have hbefore : Running.handed ⟨.op .getchar k, true, w⟩ = w.receiving.returned.dropLast :=
      if_pos hidle
    refine ⟨_, [], later, rfl, hanswers, hshows, ?_, ?_, (List.append_nil _).symm,
      (List.append_nil _).symm⟩
    · rw [← hheard, hbefore, hrx, ← List.dropLast_append_getLast? _ hlast, List.dropLast_concat,
        List.append_assoc]
      rfl
    · rw [Running.ahead_outside, List.append_nil]
      exact .single (a := .recv [c]) (.inl ⟨_, ⟨c, rfl, rfl, rfl⟩, rfl⟩) ⟨hrx, rfl, rfl⟩
  | available =>
    have harrive : (Surroundings.extend ⟨fun _ => [], fun _ => 0⟩ l bs t).arrive l.looks = bs :=
      Function.update_self ..
    simp only [liveAnswer, harrive, Prod.mk.injEq] at hlive
    obtain ⟨rfl, rfl⟩ := hlive
    obtain ⟨later', rfl⟩ : bs <+: later := by
      have hcounted : w.receiving.returned ++ (l.rx ++ bs) <+: w.receiving.accepted := hshows.heard
      rw [← hheard] at hcounted
      exact (List.prefix_append_right_inj _).mp ((List.prefix_append_right_inj _).mp hcounted)
    refine ⟨_, bs, later', rfl, hanswers, hshows, ?_, ?_, (List.append_nil _).symm,
      (List.append_nil _).symm⟩
    · rw [← hheard]
      exact congrArg (w.receiving.returned ++ ·) (List.append_assoc ..)
    · rw [Running.ahead_outside]
      exact .single (a := .poll _) (.inl ⟨_, ⟨_, rfl, rfl, rfl⟩, rfl⟩) ⟨rfl, rfl⟩

/-! ## 5. One step -/

/-- **A step of the chip is some moves of the adapter**, after some of the bytes have arrived that
were still under way. -/
theorem Running.Played.step {s s' : Running} (hp : ∀ env, Ready env p)
    (h : s.Played p l₀ l later) (hs : s.Step s') (htime : s.OnTime)
    (hacc : s'.chip.receiving.accepted = s.chip.receiving.accepted) :
    ∃ l' bs later' tx notes, later = bs ++ later' ∧ s'.Played p l₀ l' later' ∧
      s.Moved s' l l' bs tx notes := by
  obtain ⟨hordered, hshows, hheard, env, hrun⟩ := h
  have hready : ∀ (β : Type) (e : Op β) (k : β → Code Unit), s.code = .op e k → e.Ready l := by
    intro β e k hcode
    have hreach := hrun env (Agree.refl env l)
    rw [hcode] at hreach
    exact (watched_reach (hp env l₀ trivial) trivial hreach).1 β e k rfl
  cases hs with
  | interrupt i hi =>
    refine ⟨l, [], later, [], [], rfl, ?_, .interrupt hi⟩
    have h := Running.Played.interrupt ⟨hordered, hshows, hheard, env, hrun⟩ hi
      (hacc.trans (List.append_nil _).symm)
    rwa [List.append_nil] at h
  | round =>
    refine ⟨l, [], later, [], [], rfl, ⟨hordered, hshows, ?_, env, fun env' hagree => ?_⟩,
      ?_, (List.append_nil _).symm, (List.append_nil _).symm⟩
    · rw [handed_outside] at hheard ⊢
      exact hheard
    · exact (hrun env' hagree).tail ⟨rfl, rfl⟩
    · rw [ahead_outside, ahead_outside, List.append_nil]
      exact .single (a := .tau) ⟨rfl, rfl, rfl⟩ rfl
  | @operate β e k w w' b ha =>
    have hpunctual : e.Punctual b := by
      cases e with
      | expired since =>
        cases ha
        exact decide_eq_false (UInt32.not_lt.mpr (htime since k rfl))
      | _ => trivial
    obtain ⟨l', notes, hanswers, hshows', hreceiving, hrx, hmoved⟩ :=
      Chip.Shows.operate hshows ha hpunctual
    obtain ⟨env₁, hrun₁⟩ := hanswers.follows hrun
    obtain ⟨r, hr⟩ := hordered
    refine ⟨l', [], later, [], notes, rfl, ⟨⟨r, hreceiving ▸ hr⟩, hshows', ?_, env₁, hrun₁⟩, hmoved⟩
    rw [handed_outside] at hheard ⊢
    rw [hreceiving, hrx]
    exact hheard
  | @enter β e k w w' he =>
    obtain ⟨hinside, hordered'⟩ := Chip.Shows.enter hshows hordered he
    obtain ⟨⟨tx, hmoved⟩, hhanded⟩ := Chip.Shows.entered (k := k) hshows he
    refine ⟨l, [], later, tx, [], rfl, ⟨hordered', hinside, ?_, env, hrun⟩, hmoved⟩
    rw [handed_outside] at hheard
    rw [hhanded, hheard]
    exact hacc.symm
  | @proceed β e k w w' hp =>
    obtain ⟨hinside, hordered'⟩ := Chip.Inside.proceed hshows hordered (hready _ e k rfl) hp
    obtain ⟨hmoved, hhanded⟩ := Chip.Inside.proceeded (k := k) hshows hp
    refine ⟨l, [], later, [], [], rfl, ⟨hordered', hinside, ?_, env, hrun⟩, hmoved⟩
    rw [hhanded, hheard]
    exact hacc.symm
  | @leave β e k w b hl =>
    obtain ⟨l', bs, later', rfl, hanswers, hshows', hheard', hmoved⟩ :=
      Chip.Inside.left hshows hordered (hready _ e k rfl) hl hheard
    obtain ⟨env₁, hrun₁⟩ := hanswers.follows hrun
    refine ⟨l', bs, later', [], [], rfl, ⟨hordered, hshows', ?_, env₁, hrun₁⟩, hmoved⟩
    rw [handed_outside]
    exact hheard'

end Steps

end GBridge.Atmega

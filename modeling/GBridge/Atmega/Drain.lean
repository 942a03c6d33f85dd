/-
# Sending comes to an end

`serial_putchar` waits while `serial_tx` is full, and `serial_drain` while the transmit interrupt is
enabled.  Neither waits for ever, in runs in which no `sbi` is taken on an emptied ring.

* What is in the ring keeps `UDRIE0` set, or is about to set it (`Tx.Awake`).  This is the converse
  of `TxInv.enabled`, and needs no condition on the run.
* So a `serial_putchar` that waits waits for a handler that can run, and one run of the handler
  makes room (`TxInv.makes_room`).  With room a call takes at most six steps, whatever comes in
  between, because nothing but the call itself fills the ring (`putchar_returns`).
* Between two calls the interrupt is enabled exactly while something is in the ring
  (`TxInv.enabled_iff`).  Each run of the handler writes the next byte, so the number of runs until
  `serial_drain` is satisfied is the number of bytes that were in the ring (`transmit_drains`).

How fast the USART takes the bytes is not said; steps are counted, not time.
-/
import GBridge.Atmega.Serial

namespace GBridge.Atmega

/-- `serial_drain` goes round once more; `rxc0` says that a byte has not been taken from `UDR0`. -/
def serialDrainWaits (u : Usart) (rxc0 : Bool) : Bool := u.udrie0 || rxc0

/-- No call begins. -/
def Act.Within : Act → Prop
  | .call _ => False
  | _ => True

/-! ## 1. What is in the ring keeps the handler going -/

/-- If there is something in the ring the interrupt is enabled, or will be with the next step. -/
def Tx.Awake (s : Tx) : Prop :=
  s.usart.serialTx.isEmpty = false → s.usart.udrie0 = true ∨ s.pc = .sbi

section Awake

variable {s s' : Tx}

/-- Neither the ring nor the interrupt changes, and the step is not the `sbi`. -/
theorem Tx.Awake.same (h : s.Awake) (hpc : s.pc ≠ .sbi)
    (hring : s'.usart.serialTx.isEmpty = s.usart.serialTx.isEmpty)
    (hon : s'.usart.udrie0 = s.usart.udrie0) : s'.Awake := by
  intro hfilled
  rw [hring] at hfilled
  rcases h hfilled with hon' | hsbi
  · exact Or.inl (hon.trans hon')
  · exact absurd hsbi hpc

/-- **Each transition leaves the handler enabled, or about to be**, as long as there is something
for it to do. -/
theorem Tx.Awake.step {a : Act} (h : s.Awake) (hs : s.step a = some s') : s'.Awake := by
  cases a with
  | call c =>
    simp only [Tx.step, Option.ite_none_right_eq_some, Option.some.injEq] at hs
    obtain ⟨hidle, rfl⟩ := hs
    exact h.same (by simp [hidle]) rfl rfl
  | main =>
    simp only [Tx.step, Option.ite_none_left_eq_some, Option.some.injEq] at hs
    obtain ⟨hpc, rfl⟩ := hs
    cases hs : s.pc with
    | idle => exact absurd hs hpc
    | testReady | testEmpty | direct | waitFull | store =>
      exact h.same (by simp [hs]) rfl rfl
    | advance => exact fun _ => Or.inr rfl
    | sbi => exact fun _ => Or.inl rfl
  | interrupt =>
    simp only [Tx.step, Option.ite_none_right_eq_some, Option.some.injEq, Bool.and_eq_true] at hs
    obtain ⟨⟨hon, -⟩, rfl⟩ := hs
    intro hfilled
    rw [serialTransmit_eq] at hfilled ⊢
    have hrest : s.usart.serialTx.release.isEmpty = false := hfilled
    left
    simp [hon, hrest]
  | ready =>
    simp only [Tx.step, Option.some.injEq] at hs
    obtain rfl := hs
    exact h

theorem Tx.Awake.reachable {ok : Tx → Act → Prop} (h : Tx.Reachable ok s) : s.Awake := by
  apply h.invariant
  · rintro _ ⟨buffer, i, udre0, rfl⟩ hfilled
    have hempty : (Tx.start buffer i udre0).usart.serialTx.isEmpty = true := beq_self_eq_true i
    rw [hempty] at hfilled
    cases hfilled
  · intro s a s' hawake _ hs
    exact hawake.step hs

end Awake

/-! ## 2. `serial_putchar` returns -/

/-- How many steps are left of `serial_putchar`, if it need not wait. -/
def Pc.left : Pc → Nat
  | .idle => 0
  | .sbi | .direct _ => 1
  | .advance _ => 2
  | .store _ => 3
  | .waitFull _ => 4
  | .testEmpty _ => 5
  | .testReady _ => 6

/-- It need not wait: there is room, or the byte is in the ring. -/
def Tx.Roomy (s : Tx) : Prop := s.usart.serialTx.isFull = false ∨ s.pc.left ≤ 1

section Returns

variable {s s' : Tx}

/-- Each step of it is one less. -/
theorem Tx.Roomy.main (h : s.Roomy) (hs : s.step .main = some s') :
    s'.Roomy ∧ s'.pc.left + 1 ≤ s.pc.left := by
  simp only [Tx.step, Option.ite_none_left_eq_some, Option.some.injEq] at hs
  obtain ⟨hpc, rfl⟩ := hs
  have hroom : 2 ≤ s.pc.left → s.usart.serialTx.isFull = false := by
    intro htwo
    rcases h with hroom | hone
    · exact hroom
    · omega
  cases hs : s.pc with
  | idle => exact absurd hs hpc
  | testReady c =>
    have hfree := hroom (by simp [hs, Pc.left])
    refine ⟨Or.inl hfree, ?_⟩
    cases hready : s.usart.udre0 <;> simp [mainStep, hready, Pc.left]
  | testEmpty c =>
    have hfree := hroom (by simp [hs, Pc.left])
    refine ⟨Or.inl hfree, ?_⟩
    cases hempty : serialBufferIsempty s.usart.serialTx <;> simp [mainStep, hempty, Pc.left]
  | direct c => exact ⟨Or.inr (Nat.zero_le _), Nat.le_refl _⟩
  | waitFull c =>
    have hfree := hroom (by simp [hs, Pc.left])
    have hgo : mainStep s.usart (.waitFull c) = (.store c, s.usart) := by
      have hnot : serialBufferIsfull s.usart.serialTx = false := hfree
      rw [mainStep, hnot]
      rfl
    rw [hgo]
    exact ⟨Or.inl hfree, Nat.le_refl _⟩
  | store c => exact ⟨Or.inl (hroom (by simp [hs, Pc.left])), Nat.le_refl _⟩
  | advance c => exact ⟨Or.inr (Nat.le_refl _), Nat.le_refl _⟩
  | sbi => exact ⟨Or.inr (Nat.zero_le _), Nat.le_refl _⟩

/-- The handler makes room. -/
theorem TxInv.makes_room (h : TxInv s) (hs : s.step .interrupt = some s') :
    s'.usart.serialTx.isFull = false := by
  simp only [Tx.step, Option.ite_none_right_eq_some, Option.some.injEq, Bool.and_eq_true] at hs
  obtain ⟨⟨hon, -⟩, rfl⟩ := hs
  rw [serialTransmit_eq]
  exact RingBuffer.release_isFull (h.enabled hon)

/-- What is kept while a call is under way that need not wait, and has taken `n` steps of the
six. -/
structure Tx.Within (n : Nat) (s : Tx) : Prop where
  inv : TxInv s
  roomy : s.Roomy
  left : n + s.pc.left ≤ 6

theorem Tx.Within.step {n : Nat} {a : Act} (h : s.Within n) (ha : a.Within)
    (hok : SbiOnFilled s a) (hs : s.step a = some s') :
    s'.Within (if a = .main then n + 1 else n) := by
  have hinv := h.inv.step hok hs
  have hleft := h.left
  cases a with
  | call c => exact ha.elim
  | main =>
    obtain ⟨hroomy, hless⟩ := h.roomy.main hs
    exact ⟨hinv, hroomy, by rw [if_pos rfl]; omega⟩
  | interrupt =>
    refine ⟨hinv, Or.inl (h.inv.makes_room hs), ?_⟩
    simp only [Tx.step, Option.ite_none_right_eq_some, Option.some.injEq] at hs
    obtain ⟨-, rfl⟩ := hs
    exact hleft
  | ready =>
    simp only [Tx.step, Option.some.injEq] at hs
    obtain rfl := hs
    exact ⟨hinv, h.roomy, hleft⟩

end Returns

/-- `serial_putchar` comes to its end. -/
structure Tx.Returns (s : Tx) : Prop where
  /-- If the ring is full the handler is enabled, or will be with the next step. -/
  armed : s.usart.serialTx.isFull = true → s.usart.udrie0 = true ∨ s.pc = .sbi
  room : ∀ s', s.step .interrupt = some s' → s'.usart.serialTx.isFull = false
  /-- With room it takes at most six steps, whatever comes in between. -/
  bound : s.usart.serialTx.isFull = false → ∀ as s', (∀ a ∈ as, a.Within) →
    Transition.run Tx.step SbiOnFilled s as = some s' → as.count .main ≤ 6

theorem Pc.left_le (pc : Pc) : pc.left ≤ 6 := by
  cases pc <;> simp [Pc.left]

/-- **`serial_putchar` always returns**, in every run in which no `sbi` is taken on an emptied ring:
it only waits for the handler, which can run then, and for that only once. -/
theorem putchar_returns (s : Tx) (h : Tx.Reachable SbiOnFilled s) : s.Returns := by
  have hinv := TxInv.reachable h
  constructor
  · intro hfull
    refine Tx.Awake.reachable h (Bool.eq_false_iff.mpr fun hempty => ?_)
    have hlen := RingBuffer.isFull_iff.mp hfull
    have hnil := congrArg List.length (RingBuffer.isEmpty_iff.mp hempty)
    rw [RingBuffer.contents_length, List.length_nil] at hnil
    rw [hnil] at hlen
    exact absurd hlen (by decide)
  · exact fun s' => hinv.makes_room
  · intro hroom as s' has hrun
    have hstart : s.Within 0 := ⟨hinv, Or.inl hroom, (Nat.zero_add _).symm ▸ s.pc.left_le⟩
    have hlast : s'.Within (0 + as.count .main) :=
      Transition.run_counts .main (fun _ _ _ _ hs ha hok => hs.step ha hok) has hrun hstart
    have hleft := hlast.left
    omega

/-- The ring is filled: a byte goes straight to `UDR0`, and 63 wait. -/
def filling : List Act :=
  [.call 1, .main, .main, .main] ++
    (List.replicate 63 [.call 2, .main, .main, .main, .main, .main]).flatten

/-- The next call waits. -/
def waiting : List Act := filling ++ [.call 3, .main, .main]

/-- It waits until the handler has taken a byte, and then takes four steps. -/
theorem putchar_returns_waiting : ∃ s s' s'', Tx.Reachable SbiOnFilled s ∧
    s.pc = .waitFull 3 ∧ s.usart.serialTx.isFull = true ∧ s.usart.udrie0 = true ∧
      (s.step .ready).bind (·.step .interrupt) = some s' ∧
        Transition.run Tx.step SbiOnFilled s' [.main, .main, .main, .main] = some s'' ∧
          s''.pc = .idle ∧ s.Returns := by
  have hrun : ((Transition.run Tx.step SbiOnFilled Tx.zero waiting).bind fun s =>
      ((s.step .ready).bind (·.step .interrupt)).bind fun s' =>
        (Transition.run Tx.step SbiOnFilled s' [.main, .main, .main, .main]).map fun s'' =>
          (s.pc, s.usart.serialTx.isFull, s.usart.udrie0, s''.pc)) =
      some (.waitFull 3, true, true, .idle) := by decide +kernel
  obtain ⟨s, hs, hrest⟩ := Option.bind_eq_some_iff.mp hrun
  obtain ⟨s', hs', hrest⟩ := Option.bind_eq_some_iff.mp hrest
  obtain ⟨s'', hs'', hseen⟩ := Option.map_eq_some_iff.mp hrest
  simp only [Prod.mk.injEq] at hseen
  obtain ⟨hpc, hfull, hon, hidle⟩ := hseen
  have hreach : Tx.Reachable SbiOnFilled s := .run (.start ⟨_, _, _, rfl⟩) hs
  exact ⟨s, s', s'', hreach, hpc, hfull, hon, hs', hs'', hidle, putchar_returns s hreach⟩

/-! ## 3. `serial_drain` -/

section Drains

variable {s s' : Tx}

/-- What is kept between two calls, with `n` runs of the handler. -/
structure Tx.Draining (passed udr0 : List UInt8) (n : Nat) (s : Tx) : Prop where
  inv : TxInv s
  awake : s.Awake
  idle : s.pc = .idle
  passed : s.passed = passed
  written : udr0 <+: s.usart.udr0
  length : s.usart.udr0.length = udr0.length + n

theorem Tx.Draining.step {passed udr0 : List UInt8} {n : Nat} {a : Act}
    (h : s.Draining passed udr0 n) (ha : a.Within) (hok : SbiOnFilled s a)
    (hs : s.step a = some s') : s'.Draining passed udr0 (if a = .interrupt then n + 1 else n) := by
  have hinv := h.inv.step hok hs
  have hawake := h.awake.step hs
  cases a with
  | call c => exact ha.elim
  | main =>
    simp only [Tx.step, Option.ite_none_left_eq_some] at hs
    exact absurd h.idle hs.1
  | interrupt =>
    simp only [Tx.step, Option.ite_none_right_eq_some, Option.some.injEq] at hs
    obtain ⟨-, rfl⟩ := hs
    have hwrites : (serialTransmit s.usart).udr0 = s.usart.udr0 ++ [s.usart.serialTx.peek] := by
      rw [serialTransmit_eq]
    refine ⟨hinv, hawake, h.idle, h.passed, ?_, ?_⟩
    · exact hwrites ▸ h.written.trans (List.prefix_append _ _)
    · rw [if_pos rfl, ← Nat.add_assoc, ← h.length]
      exact (congrArg List.length hwrites).trans List.length_append
  | ready =>
    simp only [Tx.step, Option.some.injEq] at hs
    obtain rfl := hs
    exact ⟨hinv, hawake, h.idle, h.passed, h.written, h.length⟩

/-- Between two calls the interrupt is enabled as long as there is something to write. -/
theorem TxInv.enabled_iff (h : TxInv s) (hawake : s.Awake) (hidle : s.pc = .idle) :
    s.usart.udrie0 = true ↔ s.usart.serialTx.length ≠ 0 := by
  rw [← RingBuffer.contents_length, Ne, List.length_eq_zero_iff, ← Ne,
    ← RingBuffer.isEmpty_eq_false_iff]
  constructor
  · exact h.enabled
  · intro hfilled
    rcases hawake hfilled with hon | hsbi
    · exact hon
    · rw [hidle] at hsbi
      cases hsbi

/-- Between two calls what has been passed is written or in the ring. -/
theorem TxInv.length_passed (h : TxInv s) (hidle : s.pc = .idle) :
    s.passed.length = s.usart.udr0.length + s.usart.serialTx.length := by
  have horder := congrArg List.length h.order
  rw [hidle, Pc.pending, List.append_nil, List.length_append,
    RingBuffer.contents_length] at horder
  exact horder

end Drains

/-- What has become of a port that was left to itself between two calls. -/
structure Tx.Drained (s : Tx) (n : Nat) (s' : Tx) : Prop where
  /-- Each run of the handler has written the next byte. -/
  udr0 : s'.usart.udr0 = s.passed.take (s.usart.udr0.length + n)
  /-- The handler has not run more often than there were bytes. -/
  runs : n ≤ s.usart.serialTx.length
  /-- It can run again until all of them have been written. -/
  enabled : s'.usart.udrie0 = true ↔ n < s.usart.serialTx.length
  /-- When `serial_drain` leaves its loop all that was passed is written. -/
  drain : ∀ rxc0, serialDrainWaits s'.usart rxc0 = false → s'.usart.udr0 = s.passed

/-- **What has been passed is written**, byte by byte, as often as the handler runs; then the
interrupt is off, and `serial_drain` leaves its loop no sooner.  The run begins between two calls
and no further byte is passed. -/
theorem transmit_drains (s : Tx) (h : Tx.Reachable SbiOnFilled s) (hidle : s.pc = .idle)
    (as : List Act) (has : ∀ a ∈ as, a.Within) (s' : Tx)
    (hrun : Transition.run Tx.step SbiOnFilled s as = some s') :
    s.Drained (as.count .interrupt) s' := by
  have hinv := TxInv.reachable h
  have hstart : s.Draining s.passed s.usart.udr0 0 :=
    ⟨hinv, Tx.Awake.reachable h, hidle, rfl, List.prefix_refl _, rfl⟩
  have hlast : s'.Draining s.passed s.usart.udr0 (0 + as.count .interrupt) :=
    Transition.run_counts .interrupt (fun _ _ _ _ hs ha hok => hs.step ha hok) has hrun hstart
  have hlength := hlast.length
  have hbefore := hinv.length_passed hidle
  have hafter := hlast.inv.length_passed hlast.idle
  have henabled := hlast.inv.enabled_iff hlast.awake hlast.idle
  have hwritten : s'.usart.udr0 <+: s.passed := hlast.passed ▸ hlast.inv.inOrder.1
  rw [hlast.passed] at hafter
  rw [Nat.zero_add] at hlength
  constructor
  · rw [← hlength]
    exact List.prefix_iff_eq_take.mp hwritten
  · omega
  · rw [henabled]
    omega
  · intro rxc0 hleaves
    have hoff : s'.usart.udrie0 = false := (Bool.or_eq_false_iff.mp hleaves).1
    have hempty : s'.usart.serialTx.length = 0 := by
      by_contra hfilled
      rw [henabled.mpr hfilled] at hoff
      cases hoff
    exact hwritten.eq_of_length (by omega)

/-- Two bytes wait, and the handler runs twice. -/
theorem transmit_drains_two : ∃ s s', Tx.Reachable SbiOnFilled s ∧ s.pc = .idle ∧
    s.usart.udr0 = [1] ∧ s.passed = [1, 2, 3] ∧
      Transition.run Tx.step SbiOnFilled s [.ready, .interrupt, .ready, .interrupt] = some s' ∧
        s'.usart.udr0 = [1, 2, 3] ∧ s.Drained 2 s' := by
  have hrun : ((Transition.run Tx.step SbiOnFilled Tx.zero
      [.call 1, .main, .main, .main, .call 2, .main, .main, .main, .main, .main,
       .call 3, .main, .main, .main, .main, .main]).bind fun s =>
        (Transition.run Tx.step SbiOnFilled s [.ready, .interrupt, .ready, .interrupt]).map
          fun s' => (s.pc, s.usart.udr0, s.passed, s'.usart.udr0)) =
      some (.idle, [1], [1, 2, 3], [1, 2, 3]) := by decide +kernel
  obtain ⟨s, hs, hrest⟩ := Option.bind_eq_some_iff.mp hrun
  obtain ⟨s', hs', hseen⟩ := Option.map_eq_some_iff.mp hrest
  simp only [Prod.mk.injEq] at hseen
  obtain ⟨hidle, hudr0, hpassed, hwritten⟩ := hseen
  have hreach : Tx.Reachable SbiOnFilled s := .run (.start ⟨_, _, _, rfl⟩) hs
  refine ⟨s, s', hreach, hidle, hudr0, hpassed, hs', hwritten, ?_⟩
  exact transmit_drains s hreach hidle [.ready, .interrupt, .ready, .interrupt]
    (by simp [Act.Within]) s' hs'

end GBridge.Atmega

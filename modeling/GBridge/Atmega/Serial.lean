/-
# `atmega328p/source/serial.c`: sending, with the interrupt at any point

`serial_putchar` puts a byte into `serial_tx` and leaves it to the interrupt handler
`serial_transmit` to write it to `UDR0`; only when nothing is waiting does it write `UDR0` itself.
The handler runs whenever `UDRIE0` and `UDRE0` are both set, so it can come between any two steps of
`serial_putchar`, which is therefore taken apart into its steps (`mainStep`).

`TxInv` ties the two together.  Every byte that was passed is written, in the ring, or in the hands
of the call under way (`TxInv.order`), and `UDRIE0` is set only while `serial_tx` holds something
(`TxInv.enabled`).

The handler keeps that, and so does every step of `serial_putchar` but the last: between the advance
of the head and the `sbi` the handler may empty the ring, and the `sbi` then enables the interrupt
on an empty ring.  `transmit_order` says that this is all that can go wrong, and `dry_sbi_unsound`
that it always does.

Whether the USART takes a byte that is written to `UDR0` is not asked here.  It ignores one that
comes while `UDRE0` is clear, which a `serial_putchar` may do whose test of it is out of date
(`Wired`).
-/
import GBridge.Lib.RingBuffer
import GBridge.Lib.Transition

namespace GBridge.Atmega

/-! ## 1. `struct serial_buffer` -/

/-- `SERIAL_BUFFER_SIZE` -/
def serialBufferSize : Nat := 0x40

/-- `struct serial_buffer`.  An index is advanced as an `unsigned char`, modulo the size; below
`0x40` the first of the two wraps never happens. -/
abbrev SerialBuffer := RingBuffer UInt8 serialBufferSize

/-- `serial_buffer_isempty` -/
def serialBufferIsempty (buffer : SerialBuffer) : Bool := buffer.isEmpty

/-- `serial_buffer_isfull` -/
def serialBufferIsfull (buffer : SerialBuffer) : Bool := buffer.isFull

/-- `serial_buffer_get`: the byte read, and the buffer after. -/
def serialBufferGet (buffer : SerialBuffer) : UInt8 × SerialBuffer :=
  (buffer.peek, buffer.release)

/-! ## 2. The transmitter and its interrupt -/

/-- The sending half of the serial port. -/
structure Usart where
  serialTx : SerialBuffer
  /-- The interrupt is enabled. -/
  udrie0 : Bool
  /-- `UDR0` can take a byte. -/
  udre0 : Bool
  /-- The bytes written to `UDR0` so far. -/
  udr0 : List UInt8
deriving DecidableEq

/-- `UDR0 = c` -/
def Usart.writeUdr0 (u : Usart) (c : UInt8) : Usart :=
  { u with udre0 := false, udr0 := u.udr0 ++ [c] }

/-- `serial_transmit` -/
def serialTransmit (u : Usart) : Usart :=
  let (c, tx) := serialBufferGet u.serialTx
  let u := { u with serialTx := tx }.writeUdr0 c
  if serialBufferIsempty u.serialTx then { u with udrie0 := false } else u

/-! ## 3. `serial_putchar`, step by step -/

/-- Where the main program is in `serial_putchar(c)`. -/
inductive Pc where
  /-- Between two calls. -/
  | idle
  /-- `bit_is_set(UCSR0A, UDRE0)` -/
  | testReady (c : UInt8)
  /-- `serial_buffer_isempty(&serial_tx)` -/
  | testEmpty (c : UInt8)
  /-- `UDR0 = c` -/
  | direct (c : UInt8)
  /-- `while (serial_buffer_isfull(&serial_tx))` -/
  | waitFull (c : UInt8)
  /-- `buffer->buffer[buffer->head] = c` -/
  | store (c : UInt8)
  /-- `buffer->head = (unsigned char)(buffer->head + 1) % SERIAL_BUFFER_SIZE` -/
  | advance (c : UInt8)
  /-- `sbi(UCSR0B, UDRIE0)` -/
  | sbi
deriving DecidableEq

/-- The main program, the port, and the bytes passed to `serial_putchar` so far. -/
structure Tx where
  pc : Pc
  usart : Usart
  passed : List UInt8
deriving DecidableEq

/-- One step of `serial_putchar`. -/
def mainStep (u : Usart) : Pc → Pc × Usart
  | .idle => (.idle, u)
  | .testReady c => (if u.udre0 then .testEmpty c else .waitFull c, u)
  | .testEmpty c => (if serialBufferIsempty u.serialTx then .direct c else .waitFull c, u)
  | .direct c => (.idle, u.writeUdr0 c)
  | .waitFull c => (if serialBufferIsfull u.serialTx then .waitFull c else .store c, u)
  | .store c => (.advance c, { u with serialTx := u.serialTx.store c })
  | .advance _ => (.sbi, { u with serialTx := u.serialTx.advance })
  | .sbi => (.idle, { u with udrie0 := true })

/-- What can happen next. -/
inductive Act where
  /-- `serial_putchar(c)` is called. -/
  | call (c : UInt8)
  /-- The main program makes a step. -/
  | main
  /-- The interrupt handler runs. -/
  | interrupt
  /-- `UDR0` can take a byte again. -/
  | ready
deriving DecidableEq

/-- One transition, if it is possible. -/
def Tx.step (s : Tx) : Act → Option Tx
  | .call c =>
    if s.pc = .idle then some { s with pc := .testReady c, passed := s.passed ++ [c] } else none
  | .main =>
    if s.pc = .idle then none
    else some { s with pc := (mainStep s.usart s.pc).1, usart := (mainStep s.usart s.pc).2 }
  | .interrupt =>
    if s.usart.udrie0 && s.usart.udre0 then some { s with usart := serialTransmit s.usart }
    else none
  | .ready => some { s with usart := { s.usart with udre0 := true } }

/-- Before the first call: the indices are equal and the interrupt is off. -/
def Tx.start (buffer : Vector UInt8 serialBufferSize) (i : Fin serialBufferSize) (udre0 : Bool) :
    Tx :=
  { pc := .idle, passed := [],
    usart := { serialTx := ⟨buffer, i, i⟩, udrie0 := false, udre0, udr0 := [] } }

/-- The states reached by runs in which `ok` holds of each transition and the state it is
taken in. -/
def Tx.Reachable (ok : Tx → Act → Prop) : Tx → Prop :=
  Transition.Reached (fun s => ∃ buffer i udre0, s = .start buffer i udre0) Tx.step ok

/-- The order is kept: what was written to `UDR0` is an initial segment of what was passed to
`serial_putchar`, and the handler does not run on an empty ring. -/
def Tx.InOrder (s : Tx) : Prop :=
  s.usart.udr0 <+: s.passed ∧
    ∀ s', s.step .interrupt = some s' → serialBufferIsempty s.usart.serialTx = false

/-- The `sbi` is not taken on a ring that the handler has emptied since the head advanced. -/
def SbiOnFilled (s : Tx) (a : Act) : Prop :=
  a = .main → s.pc = .sbi → serialBufferIsempty s.usart.serialTx = false

/-! ## 4. The invariant -/

/-- The byte of the call under way that is not in the ring yet. -/
def Pc.pending : Pc → List UInt8
  | .idle | .sbi => []
  | .testReady c | .testEmpty c | .direct c | .waitFull c | .store c | .advance c => [c]

/-- What holds between any two steps. -/
structure TxInv (s : Tx) : Prop where
  /-- Every byte passed is written, in the ring, or in the hands of the call under way. -/
  order : s.passed = s.usart.udr0 ++ s.usart.serialTx.contents ++ s.pc.pending
  /-- The interrupt is enabled only while there is something to send. -/
  enabled : s.usart.udrie0 = true → s.usart.serialTx.isEmpty = false
  /-- Nothing overtakes a byte that is written past the ring. -/
  direct : ∀ c, s.pc = .direct c → s.usart.serialTx.isEmpty = true
  room : ∀ c, s.pc = .store c ∨ s.pc = .advance c → s.usart.serialTx.isFull = false
  stored : ∀ c, s.pc = .advance c → s.usart.serialTx.read s.usart.serialTx.head = c

theorem TxInv.start (buffer : Vector UInt8 serialBufferSize) (i : Fin serialBufferSize)
    (udre0 : Bool) : TxInv (.start buffer i udre0) := by
  have hempty : (Tx.start buffer i udre0).usart.serialTx.contents = [] :=
    RingBuffer.isEmpty_iff.mp (beq_self_eq_true i)
  refine ⟨?_, by simp [Tx.start], by simp [Tx.start], by simp [Tx.start], by simp [Tx.start]⟩
  rw [hempty]
  rfl

/-- The handler takes the front of the ring, and turns itself off when it took the last. -/
theorem serialTransmit_eq (u : Usart) :
    serialTransmit u =
      { serialTx := u.serialTx.release, udrie0 := u.udrie0 && !u.serialTx.release.isEmpty,
        udre0 := false, udr0 := u.udr0 ++ [u.serialTx.peek] } := by
  unfold serialTransmit serialBufferGet serialBufferIsempty Usart.writeUdr0
  cases h : u.serialTx.release.isEmpty <;> simp [h]

/-- A run of the handler keeps the invariant, wherever the main program is. -/
theorem TxInv.interrupt {s : Tx} (h : TxInv s) (hon : s.usart.udrie0 = true) :
    TxInv { s with usart := serialTransmit s.usart } := by
  have hne : s.usart.serialTx.isEmpty = false := h.enabled hon
  rw [serialTransmit_eq]
  refine ⟨?_, ?_, ?_, ?_, ?_⟩
  · have ho := h.order
    rw [RingBuffer.contents_release hne] at ho
    simpa using ho
  · simp
  · intro c hc
    have := h.direct c hc
    rw [hne] at this
    exact absurd this (by simp)
  · intro c _
    exact RingBuffer.release_isFull hne
  · exact fun c hc => h.stored c hc

/-- Each step of `serial_putchar` keeps the invariant, if the `sbi` finds something in the
ring. -/
theorem TxInv.main {s : Tx} (h : TxInv s) (hok : SbiOnFilled s .main) :
    TxInv { s with pc := (mainStep s.usart s.pc).1, usart := (mainStep s.usart s.pc).2 } := by
  obtain ⟨pc, u, passed⟩ := s
  obtain ⟨order, enabled, direct, room, stored⟩ := h
  simp only at order enabled direct room stored
  cases pc with
  | idle => exact ⟨order, enabled, direct, room, stored⟩
  | testReady c =>
    cases hr : u.udre0 <;> exact ⟨by simpa [mainStep, hr, Pc.pending] using order, enabled,
      by simp [mainStep, hr], by simp [mainStep, hr], by simp [mainStep, hr]⟩
  | testEmpty c =>
    cases he : serialBufferIsempty u.serialTx with
    | true =>
      exact ⟨by simpa [mainStep, he, Pc.pending] using order, enabled, fun _ _ => he,
        by simp [mainStep, he], by simp [mainStep, he]⟩
    | false =>
      exact ⟨by simpa [mainStep, he, Pc.pending] using order, enabled,
        by simp [mainStep, he], by simp [mainStep, he], by simp [mainStep, he]⟩
  | direct c =>
    have hnil : u.serialTx.contents = [] := RingBuffer.isEmpty_iff.mp (direct c rfl)
    refine ⟨?_, enabled, by simp [mainStep], by simp [mainStep], by simp [mainStep]⟩
    simpa [mainStep, Usart.writeUdr0, Pc.pending, hnil] using order
  | waitFull c =>
    cases hf : serialBufferIsfull u.serialTx with
    | true =>
      exact ⟨by simpa [mainStep, hf, Pc.pending] using order, enabled,
        by simp [mainStep, hf], by simp [mainStep, hf], by simp [mainStep, hf]⟩
    | false =>
      exact ⟨by simpa [mainStep, hf, Pc.pending] using order, enabled,
        by simp [mainStep, hf], fun _ _ => hf, by simp [mainStep, hf]⟩
  | store c =>
    refine ⟨?_, enabled, by simp [mainStep], fun _ _ => room c (.inl rfl), ?_⟩
    · simpa [mainStep, Pc.pending] using order
    · intro c' hc'
      obtain rfl : c = c' := by simpa [mainStep] using hc'
      exact RingBuffer.read_store_head c
  | advance c =>
    have hroom : u.serialTx.isFull = false := room c (.inr rfl)
    have hcont : u.serialTx.advance.contents = u.serialTx.contents ++ [c] := by
      rw [RingBuffer.contents_advance hroom, stored c rfl]
    refine ⟨?_, fun _ => ?_, by simp [mainStep], by simp [mainStep], by simp [mainStep]⟩
    · simpa [mainStep, Pc.pending, hcont] using order
    · rw [← Bool.not_eq_true, RingBuffer.isEmpty_iff]
      simp [mainStep, hcont]
  | sbi =>
    exact ⟨by simpa [mainStep, Pc.pending] using order, fun _ => hok rfl rfl,
      by simp [mainStep], by simp [mainStep], by simp [mainStep]⟩

/-- **One transition keeps the invariant**, unless it is an `sbi` on an emptied ring. -/
theorem TxInv.step {s s' : Tx} {a : Act} (h : TxInv s) (hok : SbiOnFilled s a)
    (hs : s.step a = some s') : TxInv s' := by
  cases a with
  | call c =>
    simp only [Tx.step, Option.ite_none_right_eq_some, Option.some.injEq] at hs
    obtain ⟨hidle, rfl⟩ := hs
    have ho := h.order
    rw [hidle, Pc.pending, List.append_nil] at ho
    exact ⟨by simp [Pc.pending, ho], h.enabled, by simp, by simp, by simp⟩
  | main =>
    simp only [Tx.step, Option.ite_none_left_eq_some, Option.some.injEq] at hs
    obtain ⟨-, rfl⟩ := hs
    exact h.main hok
  | interrupt =>
    simp only [Tx.step, Option.ite_none_right_eq_some, Option.some.injEq, Bool.and_eq_true] at hs
    obtain ⟨⟨hon, -⟩, rfl⟩ := hs
    exact h.interrupt hon
  | ready =>
    simp only [Tx.step, Option.some.injEq] at hs
    obtain rfl := hs
    exact ⟨h.order, h.enabled, h.direct, h.room, h.stored⟩

theorem TxInv.reachable {s : Tx} (h : Tx.Reachable SbiOnFilled s) : TxInv s := by
  apply h.invariant
  · rintro _ ⟨buffer, i, udre0, rfl⟩
    exact TxInv.start buffer i udre0
  · intro s a s' hinv hok hs
    exact hinv.step hok hs

theorem TxInv.inOrder {s : Tx} (h : TxInv s) : s.InOrder := by
  refine ⟨⟨s.usart.serialTx.contents ++ s.pc.pending, ?_⟩, fun s' hs => ?_⟩
  · rw [h.order, List.append_assoc]
  · simp only [Tx.step, Option.ite_none_right_eq_some, Bool.and_eq_true] at hs
    exact h.enabled hs.1.1

/-! ## 5. The order of transmission -/

/-- **In every run in which no `sbi` is taken on an emptied ring, the order is kept in every
state**: what has been written to `UDR0` is an initial piece of what was passed to `serial_putchar`,
and the handler is not enabled on an empty ring.  It may run between any two steps of
`serial_putchar`. -/
theorem transmit_order (s : Tx) (h : Tx.Reachable SbiOnFilled s) : s.InOrder :=
  (TxInv.reachable h).inOrder

/-- **An `sbi` on an emptied ring always breaks it**: as soon as `UDR0` can take a byte, the
handler runs on an empty ring. -/
theorem dry_sbi_unsound {s s' : Tx} (hpc : s.pc = .sbi)
    (hdry : serialBufferIsempty s.usart.serialTx = true) (hs : s.step .main = some s') :
    ∃ s'', s'.step .ready = some s'' ∧ ¬ s''.InOrder := by
  refine ⟨_, rfl, fun h => ?_⟩
  obtain rfl : { s with pc := .idle, usart := { s.usart with udrie0 := true } } = s' := by
    simpa [Tx.step, hpc, mainStep] using hs
  have := h.2 _ rfl
  rw [hdry] at this
  exact absurd this (by simp)

/-- The port after power-up. -/
def Tx.zero : Tx := .start (Vector.replicate serialBufferSize 0) ⟨0, by decide⟩ true

/-- Two calls.  The first byte goes straight to `UDR0`, the second waits in the ring until the
handler takes it. -/
def twoCalls : List Act :=
  [.call 1, .main, .main, .main, .call 2, .main, .main, .main, .main, .main, .ready, .interrupt]

instance (s : Tx) (a : Act) : Decidable (SbiOnFilled s a) :=
  inferInstanceAs (Decidable (_ → _ → _))

theorem transmit_order_twoCalls :
    ∃ s, Transition.run Tx.step SbiOnFilled Tx.zero twoCalls = some s ∧
      s.usart.udr0 = [1, 2] ∧ s.InOrder := by
  have hrun : (Transition.run Tx.step SbiOnFilled Tx.zero twoCalls).map (·.usart.udr0) =
      some [1, 2] := by decide +kernel
  obtain ⟨s, hs, hudr0⟩ := Option.map_eq_some_iff.mp hrun
  exact ⟨s, hs, hudr0, transmit_order s (.run (.start ⟨_, _, _, rfl⟩) hs)⟩

/-- Three calls.  As above, but the handler runs twice between the last two steps of the third
call and empties the ring. -/
def dryRun : List Act :=
  [.call 1, .main, .main, .main, .call 2, .main, .main, .main, .main, .main,
   .call 3, .main, .main, .main, .main,
   .ready, .interrupt, .ready, .interrupt, .main, .ready, .interrupt]

/-- **The order is not kept in every run**: after the three calls of `dryRun` the handler has
sent a fourth byte, an old one. -/
theorem transmit_order_fails : ¬ ∀ s, Tx.Reachable (fun _ _ => True) s → s.InOrder := by
  intro h
  have hrun : (Transition.run Tx.step (fun _ _ => True) Tx.zero dryRun).map
      (fun s => (s.usart.udr0, s.passed)) = some ([1, 2, 3, 0], [1, 2, 3]) := by decide +kernel
  obtain ⟨s, hs, hsent⟩ := Option.map_eq_some_iff.mp hrun
  obtain ⟨hudr0, hpassed⟩ := Prod.mk.inj hsent
  have horder := (h s (.run (.start ⟨_, _, _, rfl⟩) hs)).1
  rw [hudr0, hpassed] at horder
  exact absurd horder (by decide)

end GBridge.Atmega

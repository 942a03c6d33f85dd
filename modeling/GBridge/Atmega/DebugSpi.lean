/-
# `atmega328p/source/main.c` with `DEBUG_SPI`: the trace of the SPI transfers

The interrupt handler puts two bytes for each transfer into `buffer`, the one received and the one
sent before it, and the main loop takes two bytes out for each line it prints.  Neither marks where
a pair begins.  The handler runs to its end; the main loop is taken apart into its steps, and the
handler can come between any two of them.

`TraceInv` says that every byte put into the buffer is printed, in the hands of the main loop, or
still there.  What the main loop has looked at stays where it is when bytes are put behind it
(`TracePc.Looked.append`).

The handler asks for room before each byte.  As long as it never finds room for exactly one, it puts
both bytes or neither (`contents_spiStc`), and `trace_whole` says that every line is one transfer.
The ring holds an odd number of bytes, so when the main loop falls behind, room for one is what is
left over: `trace_whole_fails` is such a run.
-/
import GBridge.Lib.RingBuffer
import GBridge.Lib.Transition

namespace GBridge.Atmega

/-! ## 1. The buffer and the handler -/

/-- `BUF_LEN` -/
def bufLen : Nat := 0x100

/-- `buffer`, `buf_in` and `buf_out`.  The indices are `unsigned` and below `BUF_LEN`, so their high
bytes are 0 and half a change of an index is never seen. -/
abbrev TraceBuffer := RingBuffer UInt8 bufLen

/-- `buffer_isempty` -/
def bufferIsempty (buffer : TraceBuffer) : Bool := buffer.isEmpty

/-- `buffer_isfull` -/
def bufferIsfull (buffer : TraceBuffer) : Bool := buffer.isFull

/-- `buffer_put` -/
def bufferPut (buffer : TraceBuffer) (c : UInt8) : TraceBuffer := (buffer.store c).advance

/-- A transfer: the byte received, the byte sent before it, and what `buffer_isfull` said. -/
structure Transfer where
  spdr : UInt8
  lastSpdr : UInt8
  full : Bool
deriving DecidableEq

/-- Where the main loop is. -/
inductive TracePc where
  /-- `if (!buffer_isempty())` -/
  | test
  /-- `c = buffer[out++]` for the first byte of a line. -/
  | read
  /-- `buf_out = out % BUF_LEN` -/
  | advance (c : UInt8)
  /-- The first byte is printed. -/
  | print (c : UInt8)
  /-- `while (buffer_isempty())`; the first byte stands on the line. -/
  | wait (first : UInt8)
  /-- `c = buffer[out++]` for the second byte. -/
  | readNext (first : UInt8)
  | advanceNext (first c : UInt8)
  /-- The second byte is printed, and the line ended. -/
  | printNext (first c : UInt8)
deriving DecidableEq

/-- The main loop, the buffer, and what has been seen of the run. -/
structure Trace where
  pc : TracePc
  buffer : TraceBuffer
  lastSpdr : UInt8
  /-- The lines printed, two bytes each. -/
  lines : List (UInt8 × UInt8)
  transfers : List Transfer
deriving DecidableEq

/-- `ISR (SPI_STC_vect)`; `reply` is what `mobile_transfer` returns. -/
def spiStc (s : Trace) (spdr reply : UInt8) : Trace :=
  let buffer := if bufferIsfull s.buffer then s.buffer else bufferPut s.buffer spdr
  let buffer := if bufferIsfull buffer then buffer else bufferPut buffer s.lastSpdr
  { s with
    buffer, lastSpdr := reply
    transfers := s.transfers ++ [⟨spdr, s.lastSpdr, bufferIsfull s.buffer⟩] }

/-- One step of the main loop. -/
def traceStep (s : Trace) : TracePc → Trace
  | .test => { s with pc := if bufferIsempty s.buffer then .test else .read }
  | .read => { s with pc := .advance s.buffer.peek }
  | .advance c => { s with pc := .print c, buffer := s.buffer.release }
  | .print c => { s with pc := .wait c }
  | .wait first => { s with pc := if bufferIsempty s.buffer then .wait first else .readNext first }
  | .readNext first => { s with pc := .advanceNext first s.buffer.peek }
  | .advanceNext first c => { s with pc := .printNext first c, buffer := s.buffer.release }
  | .printNext first c => { s with pc := .test, lines := s.lines ++ [(first, c)] }

/-- What can happen next. -/
inductive TraceAct where
  /-- The main loop makes a step. -/
  | main
  /-- A transfer is complete. -/
  | transfer (spdr reply : UInt8)
deriving DecidableEq

/-- One transition; each is always possible. -/
def Trace.step (s : Trace) : TraceAct → Option Trace
  | .main => some (traceStep s s.pc)
  | .transfer spdr reply => some (spiStc s spdr reply)

/-- Before the first transfer; `idle` is `MOBILE_SERIAL_IDLE_BYTE`. -/
def Trace.start (buffer : Vector UInt8 bufLen) (idle : UInt8) : Trace :=
  { pc := .test, buffer := ⟨buffer, ⟨0, by decide⟩, ⟨0, by decide⟩⟩, lastSpdr := idle, lines := [],
    transfers := [] }

/-- The states reached by runs in which `ok` holds of each transition and the state it is
taken in. -/
def Trace.Reachable (ok : Trace → TraceAct → Prop) : Trace → Prop :=
  Transition.Reached (fun s => ∃ buffer idle, s = .start buffer idle) Trace.step ok

/-- The transfers that are not missing: those that came when the buffer was not full. -/
def Trace.kept (s : Trace) : List (UInt8 × UInt8) :=
  (s.transfers.filter fun t => !t.full).map fun t => (t.spdr, t.lastSpdr)

/-- **No line is torn**: the lines are the transfers that are not missing, in their order. -/
def Trace.Whole (s : Trace) : Prop := s.lines <+: s.kept

/-- A transfer does not come when there is room for exactly one byte. -/
def RoomForPair (s : Trace) (a : TraceAct) : Prop :=
  a ≠ .main → s.buffer.length + 2 ≠ bufLen

/-! ## 2. The invariant -/

/-- The bytes of the pairs, one after the other. -/
def pairBytes : List (UInt8 × UInt8) → List UInt8
  | [] => []
  | (a, b) :: rest => a :: b :: pairBytes rest

@[simp] theorem pairBytes_append (xs ys : List (UInt8 × UInt8)) :
    pairBytes (xs ++ ys) = pairBytes xs ++ pairBytes ys := by
  induction xs with
  | nil => rfl
  | cons x xs ih => simp [pairBytes, ih]

/-- Pairs whose bytes come first come first. -/
theorem prefix_of_pairBytes {xs ys : List (UInt8 × UInt8)} {rest : List UInt8}
    (h : pairBytes ys = pairBytes xs ++ rest) : xs <+: ys := by
  induction xs generalizing ys with
  | nil => exact List.nil_prefix
  | cons x xs ih =>
    cases ys with
    | nil => simp [pairBytes] at h
    | cons y ys =>
      simp only [pairBytes, List.cons_append, List.cons.injEq] at h
      obtain ⟨hfst, hsnd, hrest⟩ := h
      rw [List.cons_prefix_cons]
      exact ⟨Prod.ext hfst.symm hsnd.symm, ih hrest⟩

/-- The bytes the main loop has taken out and not yet printed a line of. -/
def TracePc.inHand : TracePc → List UInt8
  | .test | .read | .advance _ => []
  | .print first | .wait first | .readNext first | .advanceNext first _ => [first]
  | .printNext first c => [first, c]

/-- What the main loop has seen of the buffer is still there. -/
def TracePc.Looked (contents : List UInt8) : TracePc → Prop
  | .test | .print _ | .wait _ | .printNext _ _ => True
  | .read | .readNext _ => contents ≠ []
  | .advance c | .advanceNext _ c => contents.head? = some c

/-- What holds between any two steps. -/
structure TraceInv (s : Trace) : Prop where
  /-- Every byte put into the buffer is printed, in hand, or still there. -/
  order : pairBytes s.kept = pairBytes s.lines ++ s.pc.inHand ++ s.buffer.contents
  looked : s.pc.Looked s.buffer.contents

theorem TraceInv.start (buffer : Vector UInt8 bufLen) (idle : UInt8) :
    TraceInv (.start buffer idle) := by
  constructor
  · have hempty : (Trace.start buffer idle).buffer.contents = [] :=
      RingBuffer.isEmpty_iff.mp (beq_self_eq_true _)
    rw [hempty]
    rfl
  · trivial

/-- Bytes that are put behind do not change what is in front. -/
theorem TracePc.Looked.append {pc : TracePc} {contents : List UInt8} (h : pc.Looked contents)
    (more : List UInt8) : pc.Looked (contents ++ more) := by
  cases pc with
  | test | print _ | wait _ | printNext _ _ => trivial
  | read | readNext _ => exact List.append_ne_nil_of_left_ne_nil h more
  | advance c | advanceNext _ c =>
    have hhead : contents.head? = some c := h
    simp [TracePc.Looked, List.head?_append, hhead]

theorem Trace.kept_spiStc (s : Trace) (spdr reply : UInt8) :
    (spiStc s spdr reply).kept =
      s.kept ++ if bufferIsfull s.buffer then [] else [(spdr, s.lastSpdr)] := by
  cases h : bufferIsfull s.buffer <;> simp [Trace.kept, spiStc, h]

/-- **A transfer that does not find room for exactly one byte puts a pair or nothing.** -/
theorem contents_spiStc {s : Trace} (hroom : s.buffer.length + 2 ≠ bufLen) (spdr reply : UInt8) :
    (spiStc s spdr reply).buffer.contents =
      s.buffer.contents ++ if bufferIsfull s.buffer then [] else [spdr, s.lastSpdr] := by
  cases hfull : bufferIsfull s.buffer with
  | true => simp [spiStc, hfull]
  | false =>
    have hcontents : (bufferPut s.buffer spdr).contents = s.buffer.contents ++ [spdr] :=
      RingBuffer.contents_put spdr hfull
    have hlength : (bufferPut s.buffer spdr).length = s.buffer.length + 1 :=
      RingBuffer.advance_length hfull
    have hroom' : bufferIsfull (bufferPut s.buffer spdr) = false := by
      refine Bool.eq_false_of_not_eq_true fun hfull' => hroom ?_
      have hlast := RingBuffer.isFull_iff.mp hfull'
      omega
    have hpair : (bufferPut (bufferPut s.buffer spdr) s.lastSpdr).contents =
        s.buffer.contents ++ [spdr] ++ [s.lastSpdr] := by
      rw [← hcontents]
      exact RingBuffer.contents_put s.lastSpdr hroom'
    simp [spiStc, hfull, hroom', hpair]

theorem TraceInv.transfer {s : Trace} (h : TraceInv s) (hroom : s.buffer.length + 2 ≠ bufLen)
    (spdr reply : UInt8) : TraceInv (spiStc s spdr reply) := by
  have hcontents := contents_spiStc hroom spdr reply
  constructor
  · rw [s.kept_spiStc, hcontents, pairBytes_append, h.order]
    cases hfull : bufferIsfull s.buffer <;> simp [spiStc, pairBytes]
  · rw [hcontents]
    exact h.looked.append _

/-- Each step of the main loop keeps the invariant. -/
theorem TraceInv.main {s : Trace} (h : TraceInv s) : TraceInv (traceStep s s.pc) := by
  obtain ⟨pc, buffer, lastSpdr, lines, transfers⟩ := s
  obtain ⟨horder, hlooked⟩ := h
  simp only [Trace.kept] at horder hlooked
  cases pc with
  | test | wait first =>
    cases hempty : bufferIsempty buffer with
    | true => exact ⟨by simpa [traceStep, hempty, Trace.kept] using horder,
        by simp [traceStep, hempty, TracePc.Looked]⟩
    | false =>
      have hne : buffer.contents ≠ [] := RingBuffer.isEmpty_eq_false_iff.mp hempty
      exact ⟨by simpa [traceStep, hempty, Trace.kept, TracePc.inHand] using horder,
        by simpa [traceStep, hempty, TracePc.Looked] using hne⟩
  | read | readNext first => exact ⟨horder, RingBuffer.head?_contents hlooked⟩
  | advance c | advanceNext first c =>
    rw [RingBuffer.contents_of_head? hlooked] at horder
    exact ⟨by simpa [traceStep, Trace.kept, TracePc.inHand] using horder, trivial⟩
  | print c => exact ⟨horder, trivial⟩
  | printNext first c =>
    exact ⟨by simpa [traceStep, Trace.kept, TracePc.inHand, pairBytes] using horder, trivial⟩

/-- **One transition keeps the invariant**, unless a transfer finds room for exactly
one byte. -/
theorem TraceInv.step {s s' : Trace} {a : TraceAct} (h : TraceInv s) (hok : RoomForPair s a)
    (hs : s.step a = some s') : TraceInv s' := by
  cases a with
  | main =>
    obtain rfl : traceStep s s.pc = s' := Option.some.inj hs
    exact h.main
  | transfer spdr reply =>
    obtain rfl : spiStc s spdr reply = s' := Option.some.inj hs
    exact h.transfer (hok (by simp)) spdr reply

theorem TraceInv.whole {s : Trace} (h : TraceInv s) : s.Whole := by
  have horder := h.order
  rw [List.append_assoc] at horder
  exact prefix_of_pairBytes horder

/-! ## 3. The lines -/

/-- **In every run in which no transfer finds room for exactly one byte, no line is torn.**  Each
line that the main loop prints is one transfer, the byte received with the byte sent, and in their
order none is missing but those that came when the buffer was full. -/
theorem trace_whole (s : Trace) (h : s.Reachable RoomForPair) : s.Whole := by
  apply TraceInv.whole
  apply h.invariant
  · rintro _ ⟨buffer, idle, rfl⟩
    exact TraceInv.start buffer idle
  · intro s a s' hinv hok hs
    exact hinv.step hok hs

instance (s : Trace) (a : TraceAct) : Decidable (RoomForPair s a) :=
  inferInstanceAs (Decidable (_ → _))

instance (s : Trace) : Decidable s.Whole := inferInstanceAs (Decidable (_ <+: _))

/-- The buffer after power-up, and an idle byte. -/
def Trace.zero : Trace := .start (Vector.replicate bufLen 0) 0xd2

/-- The second transfer comes between the two bytes of the first line. -/
def twoTransfers : List TraceAct :=
  .transfer 0x99 0x66 :: List.replicate 5 .main ++ .transfer 0x10 0 :: List.replicate 11 .main

theorem trace_whole_twoTransfers :
    ∃ s, Transition.run Trace.step RoomForPair Trace.zero twoTransfers = some s ∧
      s.lines = [(0x99, 0xd2), (0x10, 0x66)] ∧ s.Whole := by
  have hrun : (Transition.run Trace.step RoomForPair Trace.zero twoTransfers).map (·.lines) =
      some [(0x99, 0xd2), (0x10, 0x66)] := by decide +kernel
  obtain ⟨s, hs, hlines⟩ := Option.map_eq_some_iff.mp hrun
  exact ⟨s, hs, hlines, trace_whole s (.run (.start ⟨_, _, rfl⟩) hs)⟩

/-- The main loop prints nothing for 128 transfers.  Of the last of them only the first byte is
kept, and it stands on a line with the first byte of the one that comes when there is room. -/
def behind : List TraceAct :=
  List.replicate 128 (.transfer 1 0) ++ List.replicate 1020 .main ++
    .transfer 2 0 :: List.replicate 4 .main

/-- **Not every run prints whole lines**: after `behind` the last line is half of one transfer and
half of another. -/
theorem trace_whole_fails : ¬ ∀ s : Trace, s.Reachable (fun _ _ => True) → s.Whole := by
  intro h
  have hrun : (Transition.run Trace.step (fun _ _ => True) Trace.zero behind).map
      (fun s => (s.lines.getLast?, decide s.Whole)) = some (some (1, 2), false) := by
    decide +kernel
  obtain ⟨s, hs, hseen⟩ := Option.map_eq_some_iff.mp hrun
  obtain ⟨-, htorn⟩ := Prod.mk.inj hseen
  exact of_decide_eq_false htorn (h s (.run (.start ⟨_, _, rfl⟩) hs))

end GBridge.Atmega

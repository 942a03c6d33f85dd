/-
# `atmega328p/source/serial.c`: receiving, with the interrupt at any point

`serial_receive` puts the bytes that arrive into `serial_rx`, and `serial_getchar` takes them out.
The handler runs to its end; `serial_getchar` and `serial_available` are taken apart into the reads
and writes of the indices, and the handler can come between any two of them.

Here the indices are what they are in memory, an `unsigned char` each.

* `Models` says which ring they stand for.  Each function of `struct serial_buffer` is the one of
  the ring (`Models.put` and the like), `serial_available` with its subtraction of two bytes
  included.
* `RxInv` ties the ring to the bytes that have been accepted and returned.  What the main program
  has read of the indices may be out of date by the time it is used; what it is good for is said by
  `RxPc.Looked`, and stays right when a byte comes in (`RxPc.Looked.put`): the head has only moved
  on.
* `receive_queue` is what follows: the two functions see a bounded queue, and `serial_available`
  counts between what there is when it is called and when it returns.
-/
import GBridge.Atmega.Serial
import GBridge.Lib.Transition

namespace GBridge.Atmega

/-! ## 1. `struct serial_buffer` in memory -/

/-- `struct serial_buffer` -/
structure SerialMem where
  buffer : Vector UInt8 serialBufferSize
  head : UInt8
  tail : UInt8
deriving DecidableEq

namespace SerialMem

/-- `(unsigned char)(i + 1) % SERIAL_BUFFER_SIZE` -/
def next (i : UInt8) : UInt8 := (i + 1) % 0x40

/-- `serial_buffer_isempty`, when `head` has been read. -/
def isempty (buffer : SerialMem) (head : UInt8) : Bool := head == buffer.tail

/-- `serial_buffer_isfull` -/
def isfull (buffer : SerialMem) : Bool := next buffer.head == buffer.tail

/-- `serial_buffer_put` -/
def put (buffer : SerialMem) (c : UInt8) : SerialMem :=
  { buffer with
    buffer := buffer.buffer.setIfInBounds buffer.head.toNat c, head := next buffer.head }

/-- The first half of `serial_buffer_get`: `buffer->buffer[buffer->tail]`. -/
def peek (buffer : SerialMem) : UInt8 := buffer.buffer[buffer.tail.toNat]?.getD 0

/-- The second half: the tail is moved on. -/
def release (buffer : SerialMem) : SerialMem := { buffer with tail := next buffer.tail }

/-- `((unsigned)(SERIAL_BUFFER_SIZE + head - tail)) % SERIAL_BUFFER_SIZE`, when `head` has been
read; an `unsigned` has 16 bits. -/
def available (buffer : SerialMem) (head : UInt8) : UInt16 :=
  (0x40 + head.toUInt16 - buffer.tail.toUInt16) % 0x40

/-- The bytes from the tail to the head. -/
def unread (buffer : SerialMem) : List UInt8 :=
  (List.range (buffer.available buffer.head).toNat).map fun k =>
    buffer.buffer[(buffer.tail.toNat + k) % serialBufferSize]?.getD 0

end SerialMem

/-! ## 2. The handler and the two functions -/

/-- Where the main program is. -/
inductive RxPc where
  /-- Between two calls. -/
  | idle
  /-- `serial_getchar`: `serial_buffer_isempty` reads the head. -/
  | testHead
  /-- It compares the head with the tail. -/
  | testTail (head : UInt8)
  /-- `buffer->buffer[buffer->tail]` -/
  | read
  /-- `buffer->tail = …` -/
  | advance (c : UInt8)
  /-- `serial_available` reads the head; so many bytes were unread when it was called. -/
  | availHead (before : Nat)
  /-- It reads the tail. -/
  | availTail (before : Nat) (head : UInt8)
deriving DecidableEq

/-- A call of `serial_available`: its value, and how many bytes were unread before and after. -/
structure Report where
  before : Nat
  value : UInt16
  after : Nat
deriving DecidableEq

/-- The main program, the ring, and what has been seen of the run. -/
structure Rx where
  pc : RxPc
  serialRx : SerialMem
  /-- The bytes that `serial_receive` did not discard. -/
  accepted : List UInt8
  /-- The bytes that `serial_getchar` has returned. -/
  returned : List UInt8
  reports : List Report
deriving DecidableEq

/-- How many bytes have been accepted and not been returned. -/
def Rx.unread (s : Rx) : Nat := s.accepted.length - s.returned.length

/-- `serial_receive`; `error` is a parity error or a frame error. -/
def serialReceive (s : Rx) (c : UInt8) (error : Bool) : Rx :=
  -- discard the byte if a parity error has occurred or the buffer is full
  if error || s.serialRx.isfull then s
  else { s with serialRx := s.serialRx.put c, accepted := s.accepted ++ [c] }

/-- One step of the main program. -/
def rxStep (s : Rx) : RxPc → Rx
  | .idle => s
  | .testHead => { s with pc := .testTail s.serialRx.head }
  | .testTail head => { s with pc := if s.serialRx.isempty head then .testHead else .read }
  | .read => { s with pc := .advance s.serialRx.peek }
  | .advance c =>
    { s with pc := .idle, serialRx := s.serialRx.release, returned := s.returned ++ [c] }
  | .availHead before => { s with pc := .availTail before s.serialRx.head }
  | .availTail before head =>
    { s with pc := .idle, reports := s.reports ++ [⟨before, s.serialRx.available head, s.unread⟩] }

/-- What can happen next. -/
inductive RxAct where
  /-- `serial_getchar` is called. -/
  | getchar
  /-- `serial_available` is called. -/
  | available
  /-- The main program makes a step. -/
  | main
  /-- The interrupt handler runs. -/
  | interrupt (c : UInt8) (error : Bool)
deriving DecidableEq

/-- One transition, if it is possible. -/
def Rx.step (s : Rx) : RxAct → Option Rx
  | .getchar => if s.pc = .idle then some { s with pc := .testHead } else none
  | .available => if s.pc = .idle then some { s with pc := .availHead s.unread } else none
  | .main => if s.pc = .idle then none else some (rxStep s s.pc)
  | .interrupt c error => some (serialReceive s c error)

/-- After power-up both indices are 0. -/
def Rx.start (buffer : Vector UInt8 serialBufferSize) : Rx :=
  { pc := .idle, serialRx := ⟨buffer, 0, 0⟩, accepted := [], returned := [], reports := [] }

/-- The states that are reached, whatever happens. -/
def Rx.Reachable : Rx → Prop :=
  Transition.Reached (fun s => ∃ buffer, s = .start buffer) Rx.step fun _ _ => True

/-! ## 3. The ring it stands for -/

/-- The indices are those of this ring; so they are below the size. -/
structure Models (m : SerialMem) (r : SerialBuffer) : Prop where
  buffer : m.buffer = r.buffer
  head : m.head.toNat = r.head
  tail : m.tail.toNat = r.tail

section Models

variable {m : SerialMem} {r : SerialBuffer} {head : UInt8} {n : Nat}

/-- The first of the two wraps never happens. -/
theorem toNat_next {i : UInt8} {j : Fin serialBufferSize} (h : i.toNat = j) :
    (SerialMem.next i).toNat = RingBuffer.next j := by
  have hlt : j.val < 0x40 := j.isLt
  have hnext : (SerialMem.next i).toNat = (i.toNat + 1) % 256 % 0x40 := by
    simp [SerialMem.next]
  rw [hnext, h, Nat.mod_eq_of_lt (show j.val + 1 < 256 by omega)]
  rfl

theorem Models.isfull_eq (h : Models m r) : m.isfull = r.isFull := by
  rw [Bool.eq_iff_iff, SerialMem.isfull, RingBuffer.isFull, beq_iff_eq, beq_iff_eq,
    ← UInt8.toNat_inj, toNat_next h.head, h.tail]
  exact Fin.ext_iff.symm

theorem Models.put (h : Models m r) (c : UInt8) : Models (m.put c) (r.store c).advance := by
  refine ⟨?_, toNat_next h.head, h.tail⟩
  have hlt : r.head.val < r.buffer.toArray.size := r.buffer.size_toArray.symm ▸ r.head.isLt
  rw [SerialMem.put, h.buffer, h.head]
  apply Vector.toArray_inj.mp
  rw [Vector.toArray_setIfInBounds, Array.setIfInBounds_def, dif_pos hlt]
  rfl

theorem Models.read (h : Models m r) (k : Nat) :
    m.buffer[(m.tail.toNat + k) % serialBufferSize]?.getD 0 =
      r.read (RingBuffer.cell r.tail k) := by
  have hlt : (r.tail.val + k) % serialBufferSize < serialBufferSize := Nat.mod_lt _ (by decide)
  rw [h.buffer, h.tail, Vector.getElem?_eq_getElem hlt]
  rfl

theorem Models.peek (h : Models m r) : m.peek = r.peek := by
  have hcell := h.read 0
  rw [RingBuffer.cell_zero, Nat.add_zero, h.tail, Nat.mod_eq_of_lt r.tail.isLt] at hcell
  rw [SerialMem.peek, h.tail]
  exact hcell

theorem Models.release (h : Models m r) : Models m.release r.release :=
  ⟨h.buffer, h.head, toNat_next h.tail⟩

/-- **The modular count is exact**: what was the head `n` cells from the tail counts `n`. -/
theorem Models.available (h : Models m r) (hn : n < serialBufferSize)
    (hhead : head.toNat = RingBuffer.cell r.tail n) : (m.available head).toNat = n := by
  have ht : m.tail.toNat < 0x40 := h.tail ▸ r.tail.isLt
  have hn' : n < 0x40 := hn
  have hhead' : head.toNat = (m.tail.toNat + n) % 0x40 := by
    rw [hhead, h.tail]
    rfl
  have hvalue : (m.available head).toNat =
      (65536 - m.tail.toNat + (0x40 + head.toNat) % 65536) % 65536 % 0x40 := by
    simp [SerialMem.available, UInt16.toNat_sub]
  rw [hvalue, hhead']
  omega

theorem Models.head_length (h : Models m r) :
    m.head.toNat = RingBuffer.cell r.tail r.length := by
  rw [RingBuffer.cell_length]
  exact h.head

theorem Models.unread_eq (h : Models m r) : m.unread = r.contents := by
  rw [SerialMem.unread, h.available r.length_lt h.head_length]
  exact List.map_congr_left fun k _ => h.read k

/-- An index that was the head is the tail, if nothing was in the ring then. -/
theorem Models.isempty_iff (h : Models m r) (hn : n < serialBufferSize)
    (hhead : head.toNat = RingBuffer.cell r.tail n) : m.isempty head = true ↔ n = 0 := by
  rw [SerialMem.isempty, beq_iff_eq, ← UInt8.toNat_inj, hhead, h.tail]
  constructor
  · intro heq
    have hcell : RingBuffer.cell r.tail n = RingBuffer.cell r.tail 0 := by
      rw [RingBuffer.cell_zero]
      exact Fin.ext heq
    exact RingBuffer.cell_inj hn (Nat.zero_lt_of_lt hn) hcell
  · rintro rfl
    rw [RingBuffer.cell_zero]

end Models

/-! ## 4. The invariant -/

/-- What the main program has read is still right, although the head may have moved on. -/
def RxPc.Looked (r : SerialBuffer) : RxPc → Prop
  | .idle | .testHead => True
  | .testTail head => ∃ n ≤ r.length, head.toNat = RingBuffer.cell r.tail n
  | .read => r.contents ≠ []
  | .advance c => r.contents.head? = some c
  | .availHead before => before ≤ r.length
  | .availTail before head =>
    ∃ n ≤ r.length, head.toNat = RingBuffer.cell r.tail n ∧ before ≤ n

/-- What holds between any two steps. -/
structure RxInv (s : Rx) (r : SerialBuffer) : Prop where
  models : Models s.serialRx r
  /-- Every byte accepted is returned or in the ring. -/
  order : s.accepted = s.returned ++ r.contents
  looked : s.pc.Looked r
  reports : ∀ p ∈ s.reports, p.before ≤ p.value.toNat ∧ p.value.toNat ≤ p.after

section Inv

variable {s s' : Rx} {r : SerialBuffer}

theorem RxInv.unread_eq (h : RxInv s r) : s.unread = r.length := by
  rw [Rx.unread, h.order, List.length_append, RingBuffer.contents_length, Nat.add_sub_cancel_left]

/-- **What the main program has read stays right when a byte is put into the ring.** -/
theorem RxPc.Looked.put {pc : RxPc} (h : pc.Looked r) (c : UInt8) (hroom : r.isFull = false) :
    pc.Looked (r.store c).advance := by
  have hlen : (r.store c).advance.length = r.length + 1 := RingBuffer.advance_length hroom
  cases pc with
  | idle | testHead => trivial
  | testTail head =>
    obtain ⟨n, hn, hhead⟩ := h
    exact ⟨n, by omega, hhead⟩
  | read =>
    show (r.store c).advance.contents ≠ []
    rw [RingBuffer.contents_put c hroom]
    exact List.append_ne_nil_of_left_ne_nil h [c]
  | advance c' =>
    have hhead : r.contents.head? = some c' := h
    show (r.store c).advance.contents.head? = some c'
    rw [RingBuffer.contents_put c hroom, List.head?_append, hhead]
    rfl
  | availHead before =>
    have hbefore : before ≤ r.length := h
    show before ≤ (r.store c).advance.length
    omega
  | availTail before head =>
    obtain ⟨n, hn, hhead, hbefore⟩ := h
    exact ⟨n, by omega, hhead, hbefore⟩

/-- A run of the handler keeps the invariant, wherever the main program is. -/
theorem RxInv.interrupt (h : RxInv s r) (c : UInt8) (error : Bool) :
    ∃ r', RxInv (serialReceive s c error) r' := by
  unfold serialReceive
  split
  · exact ⟨r, h⟩
  · rename_i hno
    have hroom : r.isFull = false := by
      rw [← h.models.isfull_eq]
      exact Bool.eq_false_of_not_eq_true fun hfull => hno (by rw [hfull, Bool.or_true])
    refine ⟨(r.store c).advance, h.models.put c, ?_, h.looked.put c hroom, h.reports⟩
    rw [RingBuffer.contents_put c hroom, ← List.append_assoc, ← h.order]

/-- Each step of the main program keeps the invariant. -/
theorem RxInv.main (h : RxInv s r) : ∃ r', RxInv (rxStep s s.pc) r' := by
  have hunread := h.unread_eq
  obtain ⟨pc, m, accepted, returned, reports⟩ := s
  obtain ⟨hmodels, horder, hlooked, hreports⟩ := h
  cases pc with
  | idle => exact ⟨r, hmodels, horder, hlooked, hreports⟩
  | testHead =>
    exact ⟨r, hmodels, horder, ⟨r.length, Nat.le_refl _, hmodels.head_length⟩, hreports⟩
  | testTail head =>
    obtain ⟨n, hn, hhead⟩ := hlooked
    have hempty := hmodels.isempty_iff (Nat.lt_of_le_of_lt hn r.length_lt) hhead
    refine ⟨r, hmodels, horder, ?_, hreports⟩
    cases hm : m.isempty head with
    | true => simp [rxStep, hm, RxPc.Looked]
    | false =>
      have hne : r.contents ≠ [] := by
        rw [Ne, ← List.length_eq_zero_iff, RingBuffer.contents_length]
        intro hzero
        have hn0 : n = 0 := by omega
        rw [hempty.mpr hn0] at hm
        cases hm
      simpa [rxStep, hm, RxPc.Looked] using hne
  | read =>
    refine ⟨r, hmodels, horder, ?_, hreports⟩
    show r.contents.head? = some m.peek
    rw [hmodels.peek]
    exact RingBuffer.head?_contents hlooked
  | advance c =>
    refine ⟨r.release, hmodels.release, ?_, trivial, hreports⟩
    show accepted = (returned ++ [c]) ++ r.release.contents
    rw [List.append_assoc, List.singleton_append, ← RingBuffer.contents_of_head? hlooked]
    exact horder
  | availHead before =>
    exact ⟨r, hmodels, horder, ⟨r.length, Nat.le_refl _, hmodels.head_length, hlooked⟩, hreports⟩
  | availTail before head =>
    obtain ⟨n, hn, hhead, hbefore⟩ := hlooked
    have hvalue := hmodels.available (Nat.lt_of_le_of_lt hn r.length_lt) hhead
    refine ⟨r, hmodels, horder, trivial, ?_⟩
    intro p hp
    rcases List.mem_append.mp hp with hp | hp
    · exact hreports p hp
    · obtain rfl := List.mem_singleton.mp hp
      refine ⟨hvalue.symm ▸ hbefore, ?_⟩
      rw [hunread]
      exact hvalue.symm ▸ hn

/-- **One transition keeps the invariant.** -/
theorem RxInv.step {a : RxAct} (h : RxInv s r) (hs : s.step a = some s') : ∃ r', RxInv s' r' := by
  cases a with
  | getchar =>
    simp only [Rx.step, Option.ite_none_right_eq_some, Option.some.injEq] at hs
    obtain ⟨-, rfl⟩ := hs
    exact ⟨r, h.models, h.order, trivial, h.reports⟩
  | available =>
    simp only [Rx.step, Option.ite_none_right_eq_some, Option.some.injEq] at hs
    obtain ⟨-, rfl⟩ := hs
    exact ⟨r, h.models, h.order, Nat.le_of_eq h.unread_eq, h.reports⟩
  | main =>
    simp only [Rx.step, Option.ite_none_left_eq_some, Option.some.injEq] at hs
    obtain ⟨-, rfl⟩ := hs
    exact h.main
  | interrupt c error =>
    simp only [Rx.step, Option.some.injEq] at hs
    obtain rfl := hs
    exact h.interrupt c error

theorem RxInv.start (buffer : Vector UInt8 serialBufferSize) :
    ∃ r, RxInv (Rx.start buffer) r := by
  let zero : Fin serialBufferSize := ⟨0, by decide⟩
  have hempty : RingBuffer.contents (⟨buffer, zero, zero⟩ : SerialBuffer) = [] :=
    RingBuffer.isEmpty_iff.mp (beq_self_eq_true zero)
  refine ⟨⟨buffer, zero, zero⟩, ⟨rfl, rfl, rfl⟩, ?_, trivial, by simp [Rx.start]⟩
  rw [hempty]
  rfl

theorem RxInv.reachable (h : s.Reachable) : ∃ r, RxInv s r := by
  apply h.invariant
  · rintro _ ⟨buffer, rfl⟩
    exact RxInv.start buffer
  · rintro s a s' ⟨r, hr⟩ - hs
    exact hr.step hs

end Inv

/-! ## 5. A bounded queue -/

/-- What a bounded queue is, seen from outside. -/
structure Rx.Queue (s : Rx) : Prop where
  /-- No byte accepted is lost, doubled, overwritten or overtaken. -/
  order : s.accepted = s.returned ++ s.serialRx.unread
  head : s.serialRx.head.toNat < serialBufferSize
  tail : s.serialRx.tail.toNat < serialBufferSize
  /-- `serial_available` counts between what there is when it is called and when it returns. -/
  reports : ∀ p ∈ s.reports, p.before ≤ p.value.toNat ∧ p.value.toNat ≤ p.after
  /-- A byte that arrives is accepted, unless it is damaged or there is no room for it. -/
  arrival : ∀ c error s', s.step (.interrupt c error) = some s' →
    s'.accepted = s.accepted ++ [c] ∨
      s' = s ∧ (error = true ∨ s.unread + 1 = serialBufferSize)

/-- The handler discards a byte for one of two reasons. -/
theorem RxInv.arrival {s : Rx} {r : SerialBuffer} (h : RxInv s r) (c : UInt8) (error : Bool) :
    (serialReceive s c error).accepted = s.accepted ++ [c] ∨
      serialReceive s c error = s ∧ (error = true ∨ s.unread + 1 = serialBufferSize) := by
  unfold serialReceive
  split
  · rename_i hdiscard
    right
    constructor
    · rfl
    · rcases Bool.or_eq_true_iff.mp hdiscard with herror | hfull
      · exact Or.inl herror
      · right
        rw [h.models.isfull_eq, RingBuffer.isFull_iff] at hfull
        rw [h.unread_eq]
        exact hfull
  · left
    rfl

/-- **The receive ring is a bounded queue, wherever the handler comes in**: `serial_getchar` returns
the bytes that `serial_receive` accepted, in their order and each once; what is refused is refused
for want of room or for an error; the indices stay inside the buffer; and what `serial_available`
reports is between what was there and what is there now. -/
theorem receive_queue (s : Rx) (h : s.Reachable) : s.Queue := by
  obtain ⟨r, hr⟩ := RxInv.reachable h
  constructor
  · rw [hr.models.unread_eq]
    exact hr.order
  · rw [hr.models.head]
    exact r.head.isLt
  · rw [hr.models.tail]
    exact r.tail.isLt
  · exact hr.reports
  · intro c error s' hs
    obtain rfl : serialReceive s c error = s' := Option.some.inj hs
    exact hr.arrival c error

/-- A byte comes while `serial_getchar` waits for one, another between the read of the cell and
the move of the tail, and a third, damaged, inside `serial_available`. -/
def interleaved : List RxAct :=
  [.getchar, .main, .main, .interrupt 7 false, .main, .main, .main, .interrupt 8 false, .main,
   .available, .main, .interrupt 9 true, .main]

theorem receive_queue_interleaved :
    ∃ s, Transition.run Rx.step (fun _ _ => True) (Rx.start (Vector.replicate serialBufferSize 0))
        interleaved = some s ∧ s.returned = [7] ∧ s.reports = [⟨1, 1, 1⟩] ∧ s.Queue := by
  have hrun : (Transition.run Rx.step (fun _ _ => True)
      (Rx.start (Vector.replicate serialBufferSize 0)) interleaved).map
        (fun s => (s.returned, s.reports)) = some ([7], [⟨1, 1, 1⟩]) := by decide +kernel
  obtain ⟨s, hs, hseen⟩ := Option.map_eq_some_iff.mp hrun
  obtain ⟨hreturned, hreports⟩ := Prod.mk.inj hseen
  exact ⟨s, hs, hreturned, hreports, receive_queue s (.run (.start ⟨_, rfl⟩) hs)⟩

end GBridge.Atmega

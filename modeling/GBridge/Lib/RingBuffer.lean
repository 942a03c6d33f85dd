/-
# Ring buffers: a queue in an array, with a head and a tail index

The writer stores at `head` and then moves it on; the reader reads at `tail` and then moves
it on.  The two moves of the indices are kept apart from the reads and writes of cells,
because the other party may run in between.  One cell always stays free: the ring is empty
when the indices are equal and full when the head is one short of the tail.

`contents` is the queue a ring stands for.  Each of the four primitive moves has one lemma
that says what it does to the queue.
-/
import Mathlib.Data.List.Basic
import Mathlib.Data.Nat.ModEq

/-- `N` cells with the index of the next cell to write and of the next one to read. -/
structure RingBuffer (α : Type) (N : Nat) where
  buffer : Vector α N
  head : Fin N
  tail : Fin N
deriving DecidableEq

namespace RingBuffer

variable {α : Type} {N : Nat} {r : RingBuffer α N}

/-! ## 1. The moves -/

/-- The index after this one. -/
def next (i : Fin N) : Fin N := ⟨(i + 1) % N, Nat.mod_lt _ i.pos⟩

def isEmpty (r : RingBuffer α N) : Bool := r.head == r.tail

def isFull (r : RingBuffer α N) : Bool := next r.head == r.tail

/-- Write the cell at the head. -/
def store (r : RingBuffer α N) (x : α) : RingBuffer α N :=
  { r with buffer := r.buffer.set r.head x r.head.isLt }

/-- Move the head on. -/
def advance (r : RingBuffer α N) : RingBuffer α N := { r with head := next r.head }

/-- What a cell holds. -/
def read (r : RingBuffer α N) (i : Fin N) : α := r.buffer[i]

/-- The cell at the tail. -/
def peek (r : RingBuffer α N) : α := r.read r.tail

/-- Move the tail on. -/
def release (r : RingBuffer α N) : RingBuffer α N := { r with tail := next r.tail }

/-! ## 2. The queue it stands for -/

/-- The index `k` cells after this one. -/
def cell (i : Fin N) (k : Nat) : Fin N := ⟨(i + k) % N, Nat.mod_lt _ i.pos⟩

/-- The number of cells in use. -/
def length (r : RingBuffer α N) : Nat := (N + r.head - r.tail) % N

/-- The cells in use, from the tail on. -/
def contents (r : RingBuffer α N) : List α :=
  (List.range r.length).map fun k => r.read (cell r.tail k)

theorem length_lt (r : RingBuffer α N) : r.length < N := Nat.mod_lt _ r.head.pos

@[simp] theorem contents_length (r : RingBuffer α N) : r.contents.length = r.length := by
  simp [contents]

theorem cell_zero (i : Fin N) : cell i 0 = i := by
  apply Fin.ext
  exact Nat.mod_eq_of_lt i.isLt

theorem cell_next (i : Fin N) (k : Nat) : cell (next i) k = cell i (k + 1) := by
  apply Fin.ext
  simp only [cell, next, Nat.mod_add_mod]
  rw [Nat.add_assoc, Nat.add_comm 1 k]

theorem next_cell (i : Fin N) (k : Nat) : next (cell i k) = cell i (k + 1) := by
  apply Fin.ext
  simp only [cell, next, Nat.mod_add_mod]
  rw [Nat.add_assoc]

/-- Less than once round the ring no cell comes twice. -/
theorem cell_inj {i : Fin N} {k l : Nat} (hk : k < N) (hl : l < N) (h : cell i k = cell i l) :
    k = l := by
  have hmod : (i + k) % N = (i + l) % N := congrArg Fin.val h
  have hkl : k % N = l % N := Nat.ModEq.add_left_cancel' i.val hmod
  rwa [Nat.mod_eq_of_lt hk, Nat.mod_eq_of_lt hl] at hkl

/-- The cell after the last one in use is the one at the head. -/
theorem cell_length (r : RingBuffer α N) : cell r.tail r.length = r.head := by
  apply Fin.ext
  have ht : r.tail.val < N := r.tail.isLt
  have hsum : r.tail + (N + r.head - r.tail) = r.head + N := by omega
  simp only [cell, length, Nat.add_mod_mod, hsum, Nat.add_mod_right]
  exact Nat.mod_eq_of_lt r.head.isLt

/-- The number of cells in use is the distance from the tail to the head. -/
theorem length_eq {k : Nat} (hk : k < N) (h : cell r.tail k = r.head) : r.length = k :=
  cell_inj r.length_lt hk (r.cell_length.trans h.symm)

theorem isEmpty_iff : r.isEmpty = true ↔ r.contents = [] := by
  rw [← List.length_eq_zero_iff, contents_length, isEmpty, beq_iff_eq]
  constructor
  · intro h
    exact length_eq r.head.pos (by rw [cell_zero, h])
  · intro h
    rw [← r.cell_length, h, cell_zero]

theorem isEmpty_eq_false_iff : r.isEmpty = false ↔ r.contents ≠ [] := by
  rw [← Bool.not_eq_true, isEmpty_iff]

theorem isFull_iff : r.isFull = true ↔ r.length + 1 = N := by
  have hlt := r.length_lt
  have hnext : next r.head = cell r.tail (r.length + 1) := by rw [← next_cell, cell_length]
  rw [isFull, beq_iff_eq, hnext]
  constructor
  · intro h
    by_contra hne
    have h0 : cell r.tail (r.length + 1) = cell r.tail 0 := by rw [h, cell_zero]
    have := cell_inj (by omega) (by omega) h0
    omega
  · intro h
    apply Fin.ext
    rw [cell, h]
    simpa using Nat.mod_eq_of_lt r.tail.isLt

/-! ## 3. What the moves do to the queue -/

@[simp] theorem store_length (x : α) : (r.store x).length = r.length := rfl

@[simp] theorem read_store_head (x : α) : (r.store x).read r.head = x :=
  Vector.getElem_set_self _

/-- The cell at the head is not in use. -/
@[simp] theorem contents_store (x : α) : (r.store x).contents = r.contents := by
  have hlt := r.length_lt
  refine List.map_congr_left fun k hk => ?_
  rw [store_length, List.mem_range] at hk
  have hne : r.head.val ≠ (cell r.tail k).val := by
    intro h
    have hcell : cell r.tail r.length = cell r.tail k := by rw [cell_length, Fin.ext h]
    have := cell_inj hlt (by omega) hcell
    omega
  exact Vector.getElem_set_ne r.head.isLt (cell r.tail k).isLt hne

theorem advance_length (h : r.isFull = false) : r.advance.length = r.length + 1 := by
  have hlt := r.length_lt
  have hne : r.length + 1 ≠ N := fun he => by simp [isFull_iff.mpr he] at h
  refine length_eq (by omega) ?_
  exact (next_cell _ _).symm.trans (congrArg next r.cell_length)

/-- Moving the head on puts the cell it was at into use. -/
theorem contents_advance (h : r.isFull = false) :
    r.advance.contents = r.contents ++ [r.read r.head] := by
  have hhead : cell r.advance.tail r.length = r.head := r.cell_length
  rw [contents, advance_length h, List.range_succ, List.map_append, List.map_singleton, hhead]
  rfl

/-- Storing at the head and moving it on puts a value at the end of the queue. -/
theorem contents_put (x : α) (h : r.isFull = false) :
    (r.store x).advance.contents = r.contents ++ [x] := by
  have hroom : (r.store x).isFull = false := h
  rw [contents_advance hroom, contents_store]
  exact congrArg (fun y => r.contents ++ [y]) (read_store_head x)

theorem release_length (h : r.isEmpty = false) : r.release.length + 1 = r.length := by
  obtain ⟨n, hn⟩ : ∃ n, r.length = n + 1 := by
    refine Nat.exists_eq_succ_of_ne_zero fun h0 => ?_
    have hnil : r.contents = [] := List.length_eq_zero_iff.mp (by rw [contents_length, h0])
    simp [isEmpty_iff.mpr hnil] at h
  have hlt := r.length_lt
  have hcell : cell (next r.tail) n = r.head := by rw [cell_next, ← hn, cell_length]
  have : r.release.length = n := length_eq (by omega) hcell
  omega

/-- The cell at the tail is the front of the queue, and moving the tail on drops it. -/
theorem contents_release (h : r.isEmpty = false) :
    r.contents = r.peek :: r.release.contents := by
  rw [contents, ← release_length h, List.range_succ_eq_map, List.map_cons, List.map_map]
  rw [cell_zero]
  refine congrArg (List.cons r.peek) (List.map_congr_left fun k _ => ?_)
  have hcell : cell r.tail (k + 1) = cell r.release.tail k := (cell_next _ _).symm
  exact congrArg r.read hcell

theorem head?_contents (h : r.contents ≠ []) : r.contents.head? = some r.peek := by
  rw [contents_release (isEmpty_eq_false_iff.mpr h)]
  rfl

theorem contents_of_head? {x : α} (h : r.contents.head? = some x) :
    r.contents = x :: r.release.contents := by
  have hne : r.contents ≠ [] := fun hnil => by simp [hnil] at h
  rw [head?_contents hne] at h
  obtain rfl : r.peek = x := Option.some.inj h
  exact contents_release (isEmpty_eq_false_iff.mpr hne)

/-- What has room keeps having room when the reader moves on. -/
theorem release_isFull (h : r.isEmpty = false) : r.release.isFull = false := by
  have hlt := r.length_lt
  have hlen := release_length h
  rw [← Bool.not_eq_true, isFull_iff]
  omega

end RingBuffer

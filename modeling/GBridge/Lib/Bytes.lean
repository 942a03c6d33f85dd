/-
# Bytes, 16-bit words on the wire, and 16-bit sums

A 16-bit word travels as two bytes, high byte first, and a checksum is the sum of the bytes
modulo `2 ^ 16`.  The facts used below are that the two conversions are inverse to each other,
that sums do not depend on how the bytes are cut up, and that a sum notices the change of any
one byte it covers (`sum16_set_ne`).
-/
import Mathlib.Data.List.Basic

namespace Bytes

/-! ## 1. Words on the wire -/

/-- The high byte, `n >> 8`. -/
def hi (n : Nat) : UInt8 := UInt8.ofNat (n >>> 8)

/-- The low byte, `n >> 0`. -/
def lo (n : Nat) : UInt8 := UInt8.ofNat n

/-- A word from its two bytes, `h << 8 | l`. -/
def be16 (h l : UInt8) : Nat := h.toNat <<< 8 ||| l.toNat

theorem be16_eq (h l : UInt8) : be16 h l = h.toNat * 256 + l.toNat := by
  have hl : l.toNat < 2 ^ 8 := l.toNat_lt
  rw [be16, ← Nat.shiftLeft_add_eq_or_of_lt hl, Nat.shiftLeft_eq]

theorem be16_lt (h l : UInt8) : be16 h l < 65536 := by
  have h1 : h.toNat < 256 := h.toNat_lt
  have h2 : l.toNat < 256 := l.toNat_lt
  rw [be16_eq]
  omega

theorem toNat_hi (n : Nat) : (hi n).toNat = n / 256 % 256 := by
  rw [hi, UInt8.toNat_ofNat', Nat.shiftRight_eq_div_pow]

theorem toNat_lo (n : Nat) : (lo n).toNat = n % 256 := by
  rw [lo, UInt8.toNat_ofNat']

/-- What is sent of a word is the word modulo `2 ^ 16`. -/
theorem be16_hi_lo (n : Nat) : be16 (hi n) (lo n) = n % 65536 := by
  rw [be16_eq, toNat_hi, toNat_lo]
  omega

theorem hi_be16 (h l : UInt8) : hi (be16 h l) = h := by
  have h2 : l.toNat < 256 := l.toNat_lt
  have h1 : h.toNat < 256 := h.toNat_lt
  refine UInt8.toNat_inj.mp ?_
  rw [toNat_hi, be16_eq]
  omega

theorem lo_be16 (h l : UInt8) : lo (be16 h l) = l := by
  have h2 : l.toNat < 256 := l.toNat_lt
  refine UInt8.toNat_inj.mp ?_
  rw [toNat_lo, be16_eq]
  omega

/-! ## 2. Sums -/

/-- The plain sum of some bytes. -/
def sum : List UInt8 → Nat
  | [] => 0
  | b :: bs => b.toNat + sum bs

/-- Add the bytes one after the other to a 16-bit accumulator. -/
def sum16 (c : Nat) (bs : List UInt8) : Nat := bs.foldl (fun c b => (c + b.toNat) % 65536) c

@[simp] theorem sum_nil : sum [] = 0 := rfl

@[simp] theorem sum_cons (b : UInt8) (bs : List UInt8) : sum (b :: bs) = b.toNat + sum bs := rfl

theorem sum_append (as bs : List UInt8) : sum (as ++ bs) = sum as + sum bs := by
  induction as with
  | nil => exact (Nat.zero_add _).symm
  | cons a as ih => rw [List.cons_append, sum_cons, sum_cons, ih, Nat.add_assoc]

/-- The accumulator is the sum modulo `2 ^ 16`. -/
theorem sum16_mod : ∀ (bs : List UInt8) (c : Nat), sum16 c bs % 65536 = (c + sum bs) % 65536
  | [], c => by simp [sum16]
  | b :: bs, c => by
    have ih := sum16_mod bs ((c + b.toNat) % 65536)
    rw [sum16, List.foldl_cons]
    rw [sum16] at ih
    rw [ih, sum_cons]
    omega

theorem sum16_eq {bs : List UInt8} {c : Nat} (hc : c < 65536) :
    sum16 c bs = (c + sum bs) % 65536 := by
  have hlt : ∀ (bs : List UInt8) (c : Nat), c < 65536 → sum16 c bs < 65536 := by
    intro bs
    induction bs with
    | nil => intro c hc; simpa [sum16] using hc
    | cons b bs ih => intro c _; exact ih _ (Nat.mod_lt _ (by omega))
  rw [← sum16_mod, Nat.mod_eq_of_lt (hlt bs c hc)]

theorem sum16_lt (bs : List UInt8) : sum16 0 bs < 65536 := by
  rw [sum16_eq (by omega)]
  exact Nat.mod_lt _ (by omega)

/-- Changing one byte moves the sum by the difference of the two. -/
theorem sum_set : ∀ {bs : List UInt8} {i : Nat} (hi : i < bs.length) (v : UInt8),
    sum (bs.set i v) + bs[i].toNat = sum bs + v.toNat
  | b :: bs, 0, _, v => by simp; omega
  | b :: bs, i + 1, hi, v => by
    have hi' : i < bs.length := by simpa using hi
    have ih := sum_set hi' v
    simp only [List.set_cons_succ, sum_cons, List.getElem_cons_succ]
    omega

/-- **A 16-bit sum notices the change of any one byte**: two bytes differ by less than
`2 ^ 16`. -/
theorem sum16_set_ne {bs : List UInt8} {i : Nat} (hi : i < bs.length) {v : UInt8}
    (hv : v ≠ bs[i]) : sum16 0 (bs.set i v) ≠ sum16 0 bs := by
  intro h
  rw [sum16_eq (by omega), sum16_eq (by omega)] at h
  have hs := sum_set hi v
  have h1 : v.toNat < 256 := v.toNat_lt
  have h2 : bs[i].toNat < 256 := bs[i].toNat_lt
  have hne : v.toNat ≠ bs[i].toNat := fun he => hv (UInt8.toNat_inj.mp he)
  omega

end Bytes

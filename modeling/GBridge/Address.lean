/-
# Addresses between two machines

`address_write` and `address_read` stand in both programs with the same text, but an `int` is 16
bits wide on the adapter and 32 on the bridge.  A port is put together as an `int`, and on the
adapter its high byte reaches the sign.

Here both functions are computed with the integers of a machine (`Machine`), and the reads of the
buffer can fail, so that a result is also a proof that nothing past the given size is read.  They do
what `addressWrite` and `addressRead` say, on either side (`write_eq`, `read_eq`): the sign that the
high byte reaches is cut off again when the port is stored.  `address_codec` puts together what
follows: what is written on one machine is read back on the other, and what is read is what was
written.
-/
import GBridge.Wire

namespace GBridge

open Bytes
open MobileAddr (typeNone typeIpv4 typeIpv6)

/-! ## 1. Machines -/

/-- The widths of an `int` and of the field for a port.  The field holds a port, and an `int` is not
cut short of it: it is an `unsigned`, or narrower. -/
structure Machine where
  int : Nat
  port : Nat
  carries : 16 ≤ port
  fits : port ≤ int

namespace Machine

/-- The adapter. -/
def atmega : Machine := ⟨16, 16, by decide, by decide⟩

/-- The computer the bridge runs on. -/
def bridge : Machine := ⟨32, 32, by decide, by decide⟩

end Machine

/-- `struct mobile_addr` in memory, the field for the port being so wide. -/
inductive StoredAddr (port : Nat) where
  | none
  | ipv4 (port : BitVec port) (host : List.Vector UInt8 4)
  | ipv6 (port : BitVec port) (host : List.Vector UInt8 16)
deriving DecidableEq

/-- An address with a 16-bit port, as a machine stores it. -/
def MobileAddr.stored (m : Machine) : MobileAddr → StoredAddr m.port
  | .none => .none
  | .ipv4 port host => .ipv4 (port.toBitVec.setWidth m.port) host
  | .ipv6 port host => .ipv6 (port.toBitVec.setWidth m.port) host

namespace Machine

variable (m : Machine)

/-- `(port >> 8) & 0xFF`, put into an `unsigned char`. -/
def portHi (port : BitVec m.port) : UInt8 := .ofBitVec (((port >>> 8) &&& 0xFF).setWidth 8)

/-- `(port >> 0) & 0xFF` -/
def portLo (port : BitVec m.port) : UInt8 := .ofBitVec (((port >>> 0) &&& 0xFF).setWidth 8)

/-- `buffer[1] << 8 | buffer[2]`, an `int`, put into the field: its sign is carried on, if the
field is wider. -/
def portRead (h l : UInt8) : BitVec m.port :=
  (h.toBitVec.setWidth m.int <<< 8 ||| l.toBitVec.setWidth m.int).signExtend m.port

/-- `address_write`: what it returns, and the bytes it stores. -/
def addressWrite : Option (StoredAddr m.port) → Nat × List UInt8
  | none => (1, [typeNone])
  | some (.ipv4 port host) => (3 + 4, typeIpv4 :: m.portHi port :: m.portLo port :: host.toList)
  | some (.ipv6 port host) => (3 + 16, typeIpv6 :: m.portHi port :: m.portLo port :: host.toList)
  | some .none => (1, [typeNone])

/-- `memcpy` from the front of a buffer, which must be as long. -/
def memcpy (n : Nat) (buffer : List UInt8) : Option (List.Vector UInt8 n) :=
  if h : n ≤ buffer.length then some ⟨buffer.take n, List.length_take_of_le h⟩ else none

/-- `address_read`: what it returns, and what it stores, if anything.  There is no result if it
looks beyond the end of the buffer. -/
def addressRead (buffer : List UInt8) (size : Nat) : Option (Nat × Option (StoredAddr m.port)) := do
  if size < 1 then return (0, none)
  let type ← buffer[0]?
  if type = typeNone then return (1, some .none)
  else if type = typeIpv4 then
    if size < 3 + 4 then return (0, none)
    let port := m.portRead (← buffer[1]?) (← buffer[2]?)
    let host ← memcpy 4 (buffer.drop 3)
    return (3 + 4, some (.ipv4 port host))
  else if type = typeIpv6 then
    if size < 3 + 16 then return (0, none)
    let port := m.portRead (← buffer[1]?) (← buffer[2]?)
    let host ← memcpy 16 (buffer.drop 3)
    return (3 + 16, some (.ipv6 port host))
  else return (0, none)

/-! ## 2. The two functions on any machine -/

variable {m}

/-- **No sign gets into a port.** -/
theorem portRead_eq (h l : UInt8) : m.portRead h l = BitVec.ofNat m.port (be16 h l) := by
  have hh : h.toNat < 2 ^ 8 := h.toNat_lt
  have hl : l.toNat < 2 ^ 8 := l.toNat_lt
  have hint : 2 ^ 16 ≤ 2 ^ m.int :=
    Nat.pow_le_pow_right (by decide) (Nat.le_trans m.carries m.fits)
  apply BitVec.eq_of_toNat_eq
  rw [portRead, BitVec.signExtend_eq_setWidth_of_le _ m.fits, BitVec.toNat_setWidth,
    BitVec.toNat_or,
    BitVec.toNat_shiftLeft, BitVec.toNat_setWidth, BitVec.toNat_setWidth, BitVec.toNat_ofNat, be16,
    UInt8.toNat_toBitVec, UInt8.toNat_toBitVec,
    Nat.mod_eq_of_lt (show h.toNat < 2 ^ m.int by omega),
    Nat.mod_eq_of_lt (show l.toNat < 2 ^ m.int by omega), Nat.shiftLeft_eq,
    Nat.mod_eq_of_lt (show h.toNat * 2 ^ 8 < 2 ^ m.int by omega)]

/-- A port is in the field as it is. -/
theorem toNat_stored (port : UInt16) : (port.toBitVec.setWidth m.port).toNat = port.toNat := by
  have hport : port.toNat < 2 ^ 16 := port.toNat_lt
  have hle : 2 ^ 16 ≤ 2 ^ m.port := Nat.pow_le_pow_right (by decide) m.carries
  rw [BitVec.toNat_setWidth, UInt16.toNat_toBitVec]
  exact Nat.mod_eq_of_lt (Nat.lt_of_lt_of_le hport hle)

theorem toNat_mask : (0xFF : BitVec m.port).toNat = 2 ^ 8 - 1 := by
  have hle : 2 ^ 16 ≤ 2 ^ m.port := Nat.pow_le_pow_right (by decide) m.carries
  have hmask : (0xFF : BitVec m.port).toNat = 255 % 2 ^ m.port := BitVec.toNat_ofNat 255 m.port
  exact hmask.trans (Nat.mod_eq_of_lt (by omega))

theorem portHi_stored (port : UInt16) :
    m.portHi (port.toBitVec.setWidth m.port) = hi port.toNat := by
  apply UInt8.toNat_inj.mp
  rw [portHi, UInt8.toNat_ofBitVec, BitVec.toNat_setWidth, BitVec.toNat_and,
    BitVec.toNat_ushiftRight,
    toNat_stored, toNat_mask, Nat.and_two_pow_sub_one_eq_mod, Nat.mod_mod, hi, UInt8.toNat_ofNat']

theorem portLo_stored (port : UInt16) :
    m.portLo (port.toBitVec.setWidth m.port) = lo port.toNat := by
  apply UInt8.toNat_inj.mp
  rw [portLo, UInt8.toNat_ofBitVec, BitVec.toNat_setWidth, BitVec.toNat_and,
    BitVec.toNat_ushiftRight,
    toNat_stored, toNat_mask, Nat.and_two_pow_sub_one_eq_mod, Nat.mod_mod, lo, UInt8.toNat_ofNat']
  rfl

/-- `address_write` stores what `addressWrite` says, and returns how much it is. -/
theorem write_eq (addr : Option MobileAddr) : m.addressWrite (addr.map (·.stored m)) =
    ((GBridge.addressWrite addr).length, GBridge.addressWrite addr) := by
  rcases addr with _ | _ | ⟨port, host⟩ | ⟨port, host⟩
  · rfl
  · rfl
  · simp [addressWrite, MobileAddr.stored, GBridge.addressWrite, portHi_stored, portLo_stored]
  · simp [addressWrite, MobileAddr.stored, GBridge.addressWrite, portHi_stored, portLo_stored]

theorem getElem?_eq {buffer : List UInt8} {i : Nat} (hi : i < buffer.length) :
    buffer[i]? = some (buffer.getD i 0) := by
  rw [List.getD_eq_getElem _ _ hi, List.getElem?_eq_getElem hi]

theorem memcpy_eq {n : Nat} {buffer : List UInt8} (h : n ≤ buffer.length) :
    memcpy n buffer = some (hostAt n buffer) := by
  rw [memcpy, dif_pos h]
  exact congrArg some (List.Vector.eq _ _ (hostAt_toList h).symm)

theorem portRead_portAt (buffer : List UInt8) : m.portRead (buffer.getD 1 0) (buffer.getD 2 0) =
    (portAt buffer).toBitVec.setWidth m.port := by
  apply BitVec.eq_of_toNat_eq
  rw [portRead_eq, toNat_stored, BitVec.toNat_ofNat, portAt, UInt16.toNat_ofNat']
  have hle : 2 ^ 16 ≤ 2 ^ m.port := Nat.pow_le_pow_right (by decide) m.carries
  have hlt := be16_lt (buffer.getD 1 0) (buffer.getD 2 0)
  rw [Nat.mod_eq_of_lt (by omega), Nat.mod_eq_of_lt hlt]

/-- `address_read` returns and stores what `addressRead` says; it looks at none beyond the end. -/
theorem read_eq {buffer : List UInt8} {size : Nat} (hsize : size ≤ buffer.length) :
    m.addressRead buffer size = some ((GBridge.addressRead buffer size).1,
      (GBridge.addressRead buffer size).2.map (·.stored m)) := by
  have hhost : ∀ n, 3 + n ≤ size → memcpy n (buffer.drop 3) = some (hostAt n (buffer.drop 3)) := by
    intro n hn
    apply memcpy_eq
    rw [List.length_drop]
    omega
  unfold addressRead GBridge.addressRead
  by_cases h0 : size < 1
  · simp [h0]
  have hbyte : ∀ i < size, buffer[i]? = some (buffer.getD i 0) :=
    fun i hi => getElem?_eq (Nat.lt_of_lt_of_le hi hsize)
  simp only [if_neg h0, hbyte 0 (by omega), Option.bind_eq_bind, Option.bind_some]
  by_cases hnone : buffer.getD 0 0 = typeNone
  · simp only [if_pos hnone]
    rfl
  simp only [if_neg hnone]
  by_cases h4 : buffer.getD 0 0 = typeIpv4
  · simp only [if_pos h4]
    by_cases hshort : size < 3 + 4
    · simp only [if_pos hshort]
      rfl
    · simp only [if_neg hshort, hbyte 1 (by omega), hbyte 2 (by omega), hhost 4 (by omega),
        portRead_portAt, Option.bind_some]
      rfl
  simp only [if_neg h4]
  by_cases h6 : buffer.getD 0 0 = typeIpv6
  · simp only [if_pos h6]
    by_cases hshort : size < 3 + 16
    · simp only [if_pos hshort]
      rfl
    · simp only [if_neg hshort, hbyte 1 (by omega), hbyte 2 (by omega), hhost 16 (by omega),
        portRead_portAt, Option.bind_some]
      rfl
  · simp only [if_neg h6]
    rfl

/-! ## 3. The codec -/

section Codec

variable (enc dec : Machine) {bs : List UInt8} {size k : Nat} {r : Option (StoredAddr dec.port)}

/-- Decoding undoes encoding, whatever follows. -/
theorem read_write (addr : Option MobileAddr) (t : List UInt8) :
    dec.addressRead ((enc.addressWrite (addr.map (·.stored enc))).2 ++ t)
        ((enc.addressWrite (addr.map (·.stored enc))).2 ++ t).length =
      some ((enc.addressWrite (addr.map (·.stored enc))).1, some ((wireAddr addr).stored dec)) := by
  rw [write_eq, read_eq (Nat.le_refl _), addressRead_write]
  · rfl
  · rw [List.length_append]
    exact Nat.le_add_right _ _

/-- **What is accepted is an encoding**, and what is an encoding is accepted. -/
theorem read_iff (hsize : size ≤ bs.length) (hk : 0 < k) :
    dec.addressRead bs size = some (k, r) ↔ ∃ addr : MobileAddr, r = some (addr.stored dec) ∧
      enc.addressWrite (some (addr.stored enc)) = (k, (bs.take size).take k) := by
  constructor
  · intro h
    rw [read_eq hsize] at h
    obtain ⟨rfl, rfl⟩ := Prod.mk.inj (Option.some.inj h)
    obtain ⟨addr, hread, hle, htake⟩ := addressRead_sound hsize (Nat.ne_of_gt hk)
    refine ⟨addr, ?_, ?_⟩
    · rw [hread]
      rfl
    · rw [hread, List.take_take, Nat.min_eq_left hle, htake]
      exact write_eq (some addr)
  · rintro ⟨addr, rfl, hwrite⟩
    obtain ⟨rfl, hbytes⟩ := Prod.mk.inj ((write_eq (some addr)).symm.trans hwrite)
    have hle : (GBridge.addressWrite (some addr)).length ≤ size := by
      have hlen := congrArg List.length hbytes
      simp only [List.length_take] at hlen
      omega
    have hsplit : bs = GBridge.addressWrite (some addr) ++
        bs.drop (GBridge.addressWrite (some addr)).length := by
      rw [List.take_take, Nat.min_eq_left hle] at hbytes
      conv_lhs =>
        rw [← List.take_append_drop (GBridge.addressWrite (some addr)).length bs, ← hbytes]
    rw [read_eq hsize, hsplit, addressRead_write _ _ _ hle]
    rfl

/-- What is not accepted stores nothing. -/
theorem addressRead_zero (h : (GBridge.addressRead bs size).1 = 0) :
    (GBridge.addressRead bs size).2 = none := by
  unfold GBridge.addressRead at h ⊢
  split_ifs at h ⊢ <;> rfl

/-- **The address codec.**  Whichever machine encodes and whichever decodes, with anything behind:
an address comes back as it was, and as long as it was written.  Of the bytes within `size`, those
that are accepted are the encodings; nothing else is, and it stores nothing.  No byte beyond `size`
is looked at: the result is the same where the buffer ends there. -/
theorem address_codec :
    (∀ (addr : Option MobileAddr) (t : List UInt8),
      dec.addressRead ((enc.addressWrite (addr.map (·.stored enc))).2 ++ t)
          ((enc.addressWrite (addr.map (·.stored enc))).2 ++ t).length =
        some ((enc.addressWrite (addr.map (·.stored enc))).1, some ((wireAddr addr).stored dec))) ∧
    ∀ (bs : List UInt8) (size : Nat), size ≤ bs.length →
      (∀ k r, 0 < k → (dec.addressRead bs size = some (k, r) ↔ ∃ addr : MobileAddr,
        r = some (addr.stored dec) ∧
          enc.addressWrite (some (addr.stored enc)) = (k, (bs.take size).take k))) ∧
      ((∀ k r, 0 < k → dec.addressRead bs size ≠ some (k, r)) →
        dec.addressRead bs size = some (0, none)) ∧
      dec.addressRead bs size = dec.addressRead (bs.take size) size := by
  refine ⟨read_write enc dec, fun bs size hsize =>
    ⟨fun k r hk => read_iff enc dec hsize hk, ?_, ?_⟩⟩
  · intro hno
    have hread := read_eq (m := dec) hsize
    rcases Nat.eq_zero_or_pos (GBridge.addressRead bs size).1 with hzero | hpos
    · rw [hread, hzero, addressRead_zero hzero]
      rfl
    · exact absurd hread (hno _ _ hpos)
  · have hlen : size ≤ (bs.take size).length := Nat.le_of_eq (List.length_take_of_le hsize).symm
    rw [read_eq hsize, read_eq hlen]
    rw [← addressRead_append (t := bs.drop size) hlen, List.take_append_drop]

/-- Port 50000 of 127.0.0.1, with a byte behind. -/
theorem address_codec_loopback : bridge.addressRead [1, 0xC3, 0x50, 127, 0, 0, 1, 0xFF] 8 =
    some (7, some (.ipv4 50000 ⟨[127, 0, 0, 1], rfl⟩)) :=
  (((address_codec atmega bridge).2 [1, 0xC3, 0x50, 127, 0, 0, 1, 0xFF] 8 (by decide)).1 7 _
    (by decide)).mpr ⟨.ipv4 50000 ⟨[127, 0, 0, 1], rfl⟩, rfl, by decide⟩

end Codec

end Machine

end GBridge

/-
# What the two programs share: `gbridge_cmd.h`, `gbridge_prot_ma_cmd.h`, packets, addresses

The atmega and the bridge are two programs, but the link protocol is one.  This file holds
what both include or both contain word for word: the command bytes, the request bytes of the
mobile adapter protocol, `struct gbridge_data` with the loops that sum it, and the address
encoding, whose two functions stand twice in the source with the same text.
-/
import GBridge.Lib.Bytes
import Mathlib.Data.List.GetD
import Mathlib.Data.Vector.Basic

namespace GBridge

open Bytes

/-! ## 1. `gbridge_cmd.h` -/

/-- `GBRIDGE_HANDSHAKE` -/
def handshake : List UInt8 := [0x99, 0x66, 0x47, 0x42]

/-- `GBRIDGE_TIMEOUT_US` -/
def timeoutUs : UInt32 := 1000000

/-- `GBRIDGE_TIMEOUT_MS` -/
def timeoutMs : Nat := 1000

/-- `GBRIDGE_MAX_DATA_SIZE` -/
def maxDataSize : Nat := 0x80

/-- `GBRIDGE_CMD_REPLY_F`, the flag of an acknowledgement. -/
def replyF : UInt8 := 0x80

namespace Cmd

/-! `enum gbridge_cmd`, as the byte it is on the line. -/

/-- `GBRIDGE_CMD_NONE` -/
def none : UInt8 := 0
/-- `GBRIDGE_CMD_DEBUG_LINE` -/
def debugLine : UInt8 := 0x02
/-- `GBRIDGE_CMD_DATA` -/
def data : UInt8 := 0x0A
/-- `GBRIDGE_CMD_STREAM` -/
def stream : UInt8 := 0x0C
/-- `GBRIDGE_CMD_DATA_PC` -/
def dataPc : UInt8 := 0x4A
/-- `GBRIDGE_CMD_STREAM_PC` -/
def streamPc : UInt8 := 0x4C
/-- `GBRIDGE_CMD_RESET` -/
def reset : UInt8 := 0x4F

end Cmd

/-- The acknowledgement of a command, `cmd | GBRIDGE_CMD_REPLY_F`. -/
def ack (cmd : UInt8) : UInt8 := cmd ||| replyF

/-! ## 2. `gbridge_prot_ma_cmd.h` -/

namespace ProtMa

/-! `enum gbma_prot_cmd`: the first byte of a request and of its reply. -/

/-- `GBRIDGE_PROT_MA_CMD_OPEN` -/
def cmdOpen : UInt8 := 0
/-- `GBRIDGE_PROT_MA_CMD_CLOSE` -/
def cmdClose : UInt8 := 1
/-- `GBRIDGE_PROT_MA_CMD_CONNECT` -/
def cmdConnect : UInt8 := 2
/-- `GBRIDGE_PROT_MA_CMD_LISTEN` -/
def cmdListen : UInt8 := 3
/-- `GBRIDGE_PROT_MA_CMD_ACCEPT` -/
def cmdAccept : UInt8 := 4
/-- `GBRIDGE_PROT_MA_CMD_SEND` -/
def cmdSend : UInt8 := 5
/-- `GBRIDGE_PROT_MA_CMD_RECV` -/
def cmdRecv : UInt8 := 6

end ProtMa

/-! ## 3. `struct gbridge_data` -/

/-- `struct gbridge_data`: an 8-bit size and the memory its pointer leads to, which may hold
more than `size` bytes. -/
structure GbridgeData where
  size : UInt8
  buffer : List UInt8
deriving DecidableEq, Repr

namespace GbridgeData

/-- The packet proper. -/
def bytes (d : GbridgeData) : List UInt8 := d.buffer.take d.size.toNat

/-- The struct that holds exactly these bytes. -/
def ofList (bs : List UInt8) : GbridgeData := ⟨UInt8.ofNat bs.length, bs⟩

theorem bytes_ofList {bs : List UInt8} (h : bs.length < 256) : (ofList bs).bytes = bs := by
  rw [bytes, ofList, UInt8.toNat_ofNat', Nat.mod_eq_of_lt h, List.take_length]

/-- `checksum_data`: a 16-bit sum over an 8-bit index. -/
def checksumData (d : GbridgeData) : Nat := sum16 0 d.bytes

theorem checksumData_lt (d : GbridgeData) : d.checksumData < 65536 := sum16_lt _

end GbridgeData

/-- What is summed of some bytes when their number passes through an `unsigned char`. -/
def counted (data : List UInt8) : List UInt8 := data.take (data.length % 256)

/-- `checksum_add`: the size is an `unsigned char`, whatever the caller passes. -/
def checksumAdd (checksum : Nat) (data : List UInt8) (size : Nat) : Nat :=
  sum16 checksum (data.take (size % 256))

/-! ## 4. Frames -/

/-- The two checksum bytes of a payload sent in one piece. -/
def checksumBytes (payload : List UInt8) : List UInt8 :=
  let checksum := (GbridgeData.ofList payload).checksumData
  [hi checksum, lo checksum]

/-- A frame with an 8-bit length: DATA and DATA_PC. -/
def dataFrame (cmd : UInt8) (payload : List UInt8) : List UInt8 :=
  cmd :: UInt8.ofNat payload.length :: (payload ++ checksumBytes payload)

/-- A frame with a 16-bit length: STREAM and STREAM_PC. -/
def streamFrame (cmd : UInt8) (payload : List UInt8) : List UInt8 :=
  cmd :: hi payload.length :: lo payload.length :: (payload ++ checksumBytes payload)

/-- A DATA frame is its head, the packet and the checksum. -/
theorem dataFrame_eq (cmd : UInt8) {payload : List UInt8} (h : payload.length < 256) :
    dataFrame cmd payload =
      [cmd, (GbridgeData.ofList payload).size] ++ (GbridgeData.ofList payload).bytes ++
        [hi (GbridgeData.ofList payload).checksumData,
          lo (GbridgeData.ofList payload).checksumData] := by
  rw [GbridgeData.bytes_ofList h]
  simp [dataFrame, checksumBytes, GbridgeData.ofList]

/-- The checksum a DATA frame carries is the sum of its payload. -/
theorem be16_checksum {payload : List UInt8} (hlen : payload.length < 256) :
    be16 (hi (GbridgeData.ofList payload).checksumData)
      (lo (GbridgeData.ofList payload).checksumData) = sum16 0 payload := by
  rw [be16_hi_lo, Nat.mod_eq_of_lt (GbridgeData.checksumData_lt _), GbridgeData.checksumData,
    GbridgeData.bytes_ofList hlen]

/-- What is summed of a buffer with an 8-bit size is what is summed of its front. -/
theorem checksumData_take {buffer : List UInt8} {size : Nat} (h : size ≤ buffer.length) :
    GbridgeData.checksumData ⟨UInt8.ofNat size, buffer⟩ =
      (GbridgeData.ofList (buffer.take size)).checksumData := by
  have hle : (UInt8.ofNat size).toNat ≤ size := by
    rw [UInt8.toNat_ofNat']
    exact Nat.mod_le _ _
  simp only [GbridgeData.checksumData, GbridgeData.bytes, GbridgeData.ofList,
    List.length_take_of_le h, List.take_take, Nat.min_eq_left hle]

/-- A STREAM_PC frame is its head, the front of the buffer and the checksum. -/
theorem streamFrame_eq (cmd : UInt8) {buffer : List UInt8} {size : Nat}
    (h : size ≤ buffer.length) :
    streamFrame cmd (buffer.take size) =
      [cmd, hi size, lo size] ++ buffer.take size ++
        [hi (GbridgeData.checksumData ⟨UInt8.ofNat size, buffer⟩),
          lo (GbridgeData.checksumData ⟨UInt8.ofNat size, buffer⟩)] := by
  rw [checksumData_take h]
  simp [streamFrame, checksumBytes, List.length_take_of_le h]

/-! ## 5. `struct mobile_addr` and its encoding -/

/-- `struct mobile_addr`, a union discriminated by `type`. -/
inductive MobileAddr where
  /-- `MOBILE_ADDRTYPE_NONE` -/
  | none
  /-- `MOBILE_ADDRTYPE_IPV4`, `struct mobile_addr4` -/
  | ipv4 (port : UInt16) (host : List.Vector UInt8 4)
  /-- `MOBILE_ADDRTYPE_IPV6`, `struct mobile_addr6` -/
  | ipv6 (port : UInt16) (host : List.Vector UInt8 16)
deriving DecidableEq

namespace MobileAddr

/-- `MOBILE_ADDRTYPE_*` -/
def typeNone : UInt8 := 0
/-- `MOBILE_ADDRTYPE_IPV4` -/
def typeIpv4 : UInt8 := 1
/-- `MOBILE_ADDRTYPE_IPV6` -/
def typeIpv6 : UInt8 := 2

end MobileAddr

open MobileAddr (typeNone typeIpv4 typeIpv6)

/-- `address_write`: the bytes it stores, as many as it returns.  `none` is the null
pointer. -/
def addressWrite : Option MobileAddr → List UInt8
  | none => [typeNone]
  | some (.ipv4 port host) => typeIpv4 :: hi port.toNat :: lo port.toNat :: host.toList
  | some (.ipv6 port host) => typeIpv6 :: hi port.toNat :: lo port.toNat :: host.toList
  | some .none => [typeNone]

/-- `memcpy(host, buffer, n)` -/
def hostAt (n : Nat) (buffer : List UInt8) : List.Vector UInt8 n :=
  .ofFn fun i => buffer.getD i 0

/-- `buffer[1] << 8 | buffer[2]` as a port. -/
def portAt (buffer : List UInt8) : UInt16 :=
  UInt16.ofNat (be16 (buffer.getD 1 0) (buffer.getD 2 0))

/-- `address_read`: the number of bytes it takes, and the address it stores, if any.  The
buffer is the memory from the pointer on; `size` is what the caller says it may look at. -/
def addressRead (buffer : List UInt8) (size : Nat) : Nat × Option MobileAddr :=
  if size < 1 then (0, none)
  else if buffer.getD 0 0 = typeNone then (1, some .none)
  else if buffer.getD 0 0 = typeIpv4 then
    if size < 3 + 4 then (0, none)
    else (3 + 4, some (.ipv4 (portAt buffer) (hostAt 4 (buffer.drop 3))))
  else if buffer.getD 0 0 = typeIpv6 then
    if size < 3 + 16 then (0, none)
    else (3 + 16, some (.ipv6 (portAt buffer) (hostAt 16 (buffer.drop 3))))
  else (0, none)

/-- The address that is sent for a pointer: null and type NONE are the same on the wire. -/
def wireAddr (addr : Option MobileAddr) : MobileAddr := addr.getD .none

theorem hostAt_append {n : Nat} (host : List.Vector UInt8 n) (t : List UInt8) :
    hostAt n (host.toList ++ t) = host := by
  apply List.Vector.ext
  intro i
  have hi : i.val < host.toList.length := by rw [host.toList_length]; exact i.isLt
  rw [hostAt, List.Vector.get_ofFn, List.getD_eq_getElem _ _ (by simp; omega),
    List.getElem_append_left hi]
  exact (List.Vector.get_eq_get_toList host i).symm

theorem portAt_cons (x : UInt8) (port : UInt16) (t : List UInt8) :
    portAt (x :: hi port.toNat :: lo port.toNat :: t) = port := by
  have hp : port.toNat < 65536 := port.toNat_lt
  simp [portAt, be16_hi_lo, Nat.mod_eq_of_lt hp]

theorem addressWrite_length (addr : Option MobileAddr) :
    1 ≤ (addressWrite addr).length ∧ (addressWrite addr).length ≤ 19 := by
  rcases addr with _ | _ | ⟨p, h⟩ | ⟨p, h⟩ <;> simp [addressWrite]

/-- Decoding undoes encoding, whatever follows. -/
theorem addressRead_write (addr : Option MobileAddr) (t : List UInt8) (size : Nat)
    (hsize : (addressWrite addr).length ≤ size) :
    addressRead (addressWrite addr ++ t) size =
      ((addressWrite addr).length, some (wireAddr addr)) := by
  rcases addr with _ | _ | ⟨p, h⟩ | ⟨p, h⟩
  · have h1 : ¬ size < 1 := by simp [addressWrite] at hsize; omega
    simp [addressRead, addressWrite, wireAddr, h1]
  · have h1 : ¬ size < 1 := by simp [addressWrite] at hsize; omega
    simp [addressRead, addressWrite, wireAddr, h1]
  · have h1 : 7 ≤ size := by simpa [addressWrite] using hsize
    simp [addressRead, addressWrite, wireAddr, typeNone, typeIpv4, portAt_cons, hostAt_append,
      show ¬ size < 1 by omega, show ¬ size < 7 by omega]
  · have h1 : 19 ≤ size := by simpa [addressWrite] using hsize
    simp [addressRead, addressWrite, wireAddr, typeNone, typeIpv4, typeIpv6, portAt_cons,
      hostAt_append, show ¬ size < 1 by omega, show ¬ size < 19 by omega]

theorem getD_append {bs t : List UInt8} {i : Nat} (hi : i < bs.length) :
    (bs ++ t).getD i 0 = bs.getD i 0 := by
  rw [List.getD_append _ _ _ _ hi]

theorem getD_drop (bs : List UInt8) (n i : Nat) : (bs.drop n).getD i 0 = bs.getD (n + i) 0 := by
  rw [List.getD_eq_getElem?_getD, List.getD_eq_getElem?_getD, List.getElem?_drop]

/-- `address_read` looks at no byte beyond the size it is given. -/
theorem addressRead_congr {bs bs' : List UInt8} {size : Nat}
    (h : ∀ i < size, bs.getD i 0 = bs'.getD i 0) : addressRead bs size = addressRead bs' size := by
  have hhost : ∀ n, 3 + n ≤ size → hostAt n (bs.drop 3) = hostAt n (bs'.drop 3) := by
    intro n hn
    unfold hostAt
    congr 1
    funext i
    rw [getD_drop, getD_drop, h _ (by omega)]
  have hport : 3 ≤ size → portAt bs = portAt bs' := by
    intro hn
    unfold portAt
    rw [h 1 (by omega), h 2 (by omega)]
  unfold addressRead
  by_cases h0 : size < 1
  · rw [if_pos h0, if_pos h0]
  · rw [if_neg h0, if_neg h0, h 0 (by omega)]
    by_cases h4 : size < 3 + 4
    · by_cases h6 : size < 3 + 16
      · simp only [if_pos h4, if_pos h6]
      · omega
    · rw [hhost 4 (by omega), hport (by omega)]
      by_cases h6 : size < 3 + 16
      · simp only [if_pos h6]
      · rw [hhost 16 (by omega)]

theorem addressRead_append {bs t : List UInt8} {size : Nat} (hsize : size ≤ bs.length) :
    addressRead (bs ++ t) size = addressRead bs size :=
  addressRead_congr fun _ hi => getD_append (Nat.lt_of_lt_of_le hi hsize)

theorem hostAt_toList {n : Nat} {bs : List UInt8} (h : n ≤ bs.length) :
    (hostAt n bs).toList = bs.take n := by
  have hsplit := hostAt_append ⟨bs.take n, List.length_take_of_le h⟩ (bs.drop n)
  rw [List.Vector.toList_mk, List.take_append_drop] at hsplit
  rw [hsplit]
  rfl

/-- An address with a port and a host is put together again from the bytes it was read from. -/
theorem addressWrite_at {bs : List UInt8} {type : UInt8} {n : Nat} (hlen : 3 + n ≤ bs.length)
    (htype : bs.getD 0 0 = type) :
    type :: hi (portAt bs).toNat :: lo (portAt bs).toNat :: (hostAt n (bs.drop 3)).toList =
      bs.take (3 + n) := by
  match bs, hlen, htype with
  | [], hlen, _ | [_], hlen, _ | [_, _], hlen, _ =>
    simp only [List.length_cons, List.length_nil] at hlen
    omega
  | c :: h :: l :: bs, hlen, htype =>
    obtain rfl : c = type := htype
    have hport : (portAt (c :: h :: l :: bs)).toNat = be16 h l := by
      rw [portAt, UInt16.toNat_ofNat']
      exact Nat.mod_eq_of_lt (be16_lt h l)
    have hhost : n ≤ bs.length := by simp at hlen; omega
    rw [hport, hi_be16, lo_be16, List.drop_succ_cons, List.drop_succ_cons, List.drop_succ_cons,
      List.drop_zero, hostAt_toList hhost, Nat.add_comm 3 n]
    rfl

/-- **What `address_read` accepts begins with an encoding**, of the address it stores. -/
theorem addressRead_sound {bs : List UInt8} {size : Nat} (hsize : size ≤ bs.length)
    (h : (addressRead bs size).1 ≠ 0) :
    ∃ addr, addressRead bs size = ((addressWrite (some addr)).length, some addr) ∧
      (addressWrite (some addr)).length ≤ size ∧
      bs.take (addressWrite (some addr)).length = addressWrite (some addr) := by
  unfold addressRead at h ⊢
  by_cases h0 : size < 1
  · rw [if_pos h0] at h
    exact absurd rfl h
  rw [if_neg h0] at h ⊢
  by_cases hnone : bs.getD 0 0 = typeNone
  · rw [if_pos hnone] at h ⊢
    refine ⟨.none, rfl, Nat.le_of_not_lt h0, ?_⟩
    cases bs with
    | nil => simp at hsize; omega
    | cons c bs =>
      obtain rfl : c = typeNone := hnone
      rfl
  rw [if_neg hnone] at h ⊢
  by_cases h4 : bs.getD 0 0 = typeIpv4
  · rw [if_pos h4] at h ⊢
    by_cases hshort : size < 3 + 4
    · rw [if_pos hshort] at h
      exact absurd rfl h
    rw [if_neg hshort] at h ⊢
    have hlong : 3 + 4 ≤ bs.length := Nat.le_trans (Nat.le_of_not_lt hshort) hsize
    have hwrite := addressWrite_at hlong h4
    refine ⟨.ipv4 (portAt bs) (hostAt 4 (bs.drop 3)), ?_, ?_, ?_⟩
    · simp [addressWrite]
    · simpa [addressWrite] using Nat.le_of_not_lt hshort
    · simpa [addressWrite] using hwrite.symm
  rw [if_neg h4] at h ⊢
  by_cases h6 : bs.getD 0 0 = typeIpv6
  · rw [if_pos h6] at h ⊢
    by_cases hshort : size < 3 + 16
    · rw [if_pos hshort] at h
      exact absurd rfl h
    rw [if_neg hshort] at h ⊢
    have hlong : 3 + 16 ≤ bs.length := Nat.le_trans (Nat.le_of_not_lt hshort) hsize
    have hwrite := addressWrite_at hlong h6
    refine ⟨.ipv6 (portAt bs) (hostAt 16 (bs.drop 3)), ?_, ?_, ?_⟩
    · simp [addressWrite]
    · simpa [addressWrite] using Nat.le_of_not_lt hshort
    · simpa [addressWrite] using hwrite.symm
  · rw [if_neg h6] at h
    exact absurd rfl h

end GBridge

/-
# The messages of the link

What each of the two programs sends is a sequence of messages: the handshake, acknowledgements, and
frames with a payload.  The first byte of a message says which it is, and the rest of it says where
it ends, so the messages of either program are a prefix code (`Lib.PrefixCode`): a text can be cut
into messages in one way at most.

The codes are put together from the pieces that `gbridge_cmd_*` write: a length of one byte or two,
as many bytes, and for all but debug lines a checksum, behind a tag (`tagged`).  The limits on the
lengths are part of the types (`AtMost`), and `packetCode_encode` and `streamCode_encode` say that
these are the frames of `Wire`.

An acknowledgement is a message of one byte.  The checksum of a stream is that of its first `length
% 256` bytes (`counted`), on both sides.
-/
import GBridge.Lib.PrefixCode
import GBridge.Wire

namespace GBridge

open Bytes PrefixCode

/-! ## 1. Payloads -/

/-- A length in one byte, at most `n`. -/
def byteCount (n : Nat) (hn : n < 256) : PrefixCode (Fin (n + 1)) UInt8 where
  encode k := [UInt8.ofNat k]
  decode
    | [] => none
    | c :: s => if h : c.toNat < n + 1 then some (⟨c.toNat, h⟩, s) else none
  decode_encode k t := by
    have hk : (UInt8.ofNat k.val).toNat = k.val :=
      UInt8.toNat_ofNat_of_lt' (lt_of_lt_of_le k.isLt hn)
    rw [List.singleton_append]
    exact (dif_pos (hk.symm ▸ k.isLt)).trans (congrArg (fun j => some (j, t)) (Fin.ext hk))
  decode_sound {s k t} h := by
    cases s with
    | nil => cases h
    | cons c s =>
      simp only [Option.dite_none_right_eq_some, Option.some.injEq, Prod.mk.injEq] at h
      obtain ⟨hc, rfl, rfl⟩ := h
      rw [UInt8.ofNat_toNat]
      rfl

/-- A length in two bytes, the high byte first. -/
def wordCount : PrefixCode (Fin (0xffff + 1)) UInt8 where
  encode k := [hi k, lo k]
  decode
    | h :: l :: s => some (⟨be16 h l, be16_lt h l⟩, s)
    | _ => none
  decode_encode k t := by
    have hk : be16 (hi k.val) (lo k.val) = k.val := by rw [be16_hi_lo, Nat.mod_eq_of_lt k.isLt]
    simp [hk]
  decode_sound {s k t} h := by
    match s with
    | [] | [_] => cases h
    | x :: y :: s =>
      obtain ⟨rfl, rfl⟩ := Prod.mk.inj (Option.some.inj h)
      rw [hi_be16, lo_be16]
      rfl

/-- A line of at most 255 bytes. -/
def lineCode : PrefixCode (AtMost 0xff UInt8) UInt8 := sized (byteCount 0xff (by decide))

/-- A packet with its checksum. -/
def packetCode : PrefixCode (AtMost maxDataSize UInt8) UInt8 :=
  (sized (byteCount maxDataSize (by decide))).checked fun packet => checksumBytes packet.1

/-- A stream with its checksum. -/
def streamCode : PrefixCode (AtMost 0xffff UInt8) UInt8 :=
  (sized wordCount).checked fun bytes => checksumBytes bytes.1

/-- What follows the first byte of the handshake. -/
def handshakeCode : PrefixCode Unit UInt8 := empty.checked fun _ => handshake.drop 1

theorem packetCode_encode (cmd : UInt8) (packet : AtMost maxDataSize UInt8) :
    cmd :: packetCode.encode packet = dataFrame cmd packet.1 := rfl

theorem streamCode_encode (cmd : UInt8) (bytes : AtMost 0xffff UInt8) :
    cmd :: streamCode.encode bytes = streamFrame cmd bytes.1 := rfl

/-! ## 2. What the adapter sends -/

namespace Atmega

/-- The messages of the adapter. -/
inductive Kind where
  | handshake
  | ackReset
  | ackDataPc
  | ackStreamPc
  | debugLine
  | data
  | stream
deriving DecidableEq

namespace Kind

/-- The first byte. -/
def tag : Kind → UInt8
  | handshake => 0x99
  | ackReset => ack Cmd.reset
  | ackDataPc => ack Cmd.dataPc
  | ackStreamPc => ack Cmd.streamPc
  | debugLine => Cmd.debugLine
  | data => Cmd.data
  | stream => Cmd.stream

def all : List Kind := [handshake, ackReset, ackDataPc, ackStreamPc, debugLine, data, stream]

theorem find_tag (k : Kind) : (all.find? fun j => j.tag = k.tag) = some k := by cases k <;> decide

/-- What a message carries. -/
def Payload : Kind → Type
  | handshake | ackReset | ackDataPc | ackStreamPc => Unit
  | debugLine => AtMost 0xff UInt8
  | data => AtMost maxDataSize UInt8
  | stream => AtMost 0xffff UInt8

/-- What follows the first byte. -/
def body : (k : Kind) → PrefixCode k.Payload UInt8
  | handshake => handshakeCode
  | ackReset | ackDataPc | ackStreamPc => empty
  | debugLine => lineCode
  | data => packetCode
  | stream => streamCode

end Kind

/-- A message of the adapter. -/
abbrev Message := Σ k : Kind, k.Payload

/-- The messages of the adapter as they stand on the line. -/
def messages : PrefixCode Message UInt8 :=
  tagged Kind.tag Kind.all Kind.find_tag Kind.body

end Atmega

/-! ## 3. What the bridge sends -/

namespace Bridge

/-- The messages of the bridge. -/
inductive Kind where
  | handshake
  | ackDebugLine
  | ackData
  | ackStream
  | dataPc
  | streamPc
deriving DecidableEq

namespace Kind

/-- The first byte. -/
def tag : Kind → UInt8
  | handshake => 0x99
  | ackDebugLine => ack Cmd.debugLine
  | ackData => ack Cmd.data
  | ackStream => ack Cmd.stream
  | dataPc => Cmd.dataPc
  | streamPc => Cmd.streamPc

def all : List Kind := [handshake, ackDebugLine, ackData, ackStream, dataPc, streamPc]

theorem find_tag (k : Kind) : (all.find? fun j => j.tag = k.tag) = some k := by cases k <;> decide

/-- What a message carries. -/
def Payload : Kind → Type
  | handshake | ackDebugLine | ackData | ackStream => Unit
  | dataPc => AtMost maxDataSize UInt8
  | streamPc => AtMost 0xffff UInt8

/-- What follows the first byte. -/
def body : (k : Kind) → PrefixCode k.Payload UInt8
  | handshake => handshakeCode
  | ackDebugLine | ackData | ackStream => empty
  | dataPc => packetCode
  | streamPc => streamCode

end Kind

/-- A message of the bridge. -/
abbrev Message := Σ k : Kind, k.Payload

/-- The messages of the bridge as they stand on the line. -/
def messages : PrefixCode Message UInt8 :=
  tagged Kind.tag Kind.all Kind.find_tag Kind.body

end Bridge

end GBridge

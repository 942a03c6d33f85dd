/-
# One byte of the payload is corrupted

Between the two programs there is a cable.  When one byte of a payload has changed on it, the
checksum is wrong, because a 16-bit sum notices the change of any one byte it covers
(`sum16_set_ne`); the receiver then resets the link.  So it is for DATA (`recv_cmd_data`), DATA_PC
(`recv_cmd_data_pc`) and STREAM_PC (`recv_cmd_stream_pc`), whose length is one byte or is tested
against 255 bytes of room.

`gbridge_recv_stream` keeps the length of a stream in `gbridge_data.size`, an `unsigned char`, so
that of a stream of `n` bytes the sum covers only the first `n % 256` (`checksumData_set_iff`).
`corruption_detected` says that this is the only way for a corrupted byte to get through: a STREAM
frame whose corrupted byte is not one of those.
-/
import GBridge.RoundTrip

namespace GBridge

open Prog Duplex Bytes

/-! ## 1. The kinds of frames -/

/-- The frames that carry a checksum. -/
inductive FrameKind where
  | data
  | stream
  | dataPc
  | streamPc
deriving DecidableEq

namespace FrameKind

/-- The longest payload the receiver admits. -/
def maxLength : FrameKind → Nat
  | data => maxDataSize
  | stream => 0x200
  | dataPc => maxDataSize
  | streamPc => 255

/-- How many bytes stand before the payload. -/
def headLength : FrameKind → Nat
  | data => 2
  | stream => 3
  | dataPc => 2
  | streamPc => 3

/-- What is sent for a payload has the property `P`.  A stream may be sent in any chunks, if the
two sides agree on what is summed of them. -/
def Sends (payload : List UInt8) (P : List UInt8 → Prop) : FrameKind → Prop
  | data => ∀ a : Atmega.World,
      Ends Atmega.sem (Atmega.putDataFrame (.ofList payload)) a fun _ a' =>
        ∃ frame, a'.tx = a.tx ++ frame ∧ P frame
  | stream => ∀ (chunks : List (List UInt8)) (a : Atmega.World), chunks.flatten = payload →
      SumsAgree chunks → a.g.connected = true →
      Ends Atmega.sem (Atmega.sendStream chunks) a fun _ a' =>
        ∃ frame, a'.tx = a.tx ++ frame ∧ P frame
  | dataPc => ∀ b : Bridge.World (List UInt8),
      Ends (Bridge.sem Bridge.queued) (Bridge.writeDataFrame (.ofList payload)) b fun _ b' =>
        ∃ frame, b'.tx = b.tx ++ frame ∧ P frame
  | streamPc => ∀ b : Bridge.World (List UInt8),
      Ends (Bridge.sem Bridge.queued) (Bridge.writeStreamFrame payload payload.length) b
        fun _ b' => ∃ frame, b'.tx = b.tx ++ frame ∧ P frame

/-- What arrives is not accepted: no packet or stream is delivered, nothing is sent, and the link
is reset.  On the adapter it may arrive in any pieces, and `n` is the length of a stream that has
been asked for. -/
def Refuses (n : Nat) (frame : List UInt8) : FrameKind → Prop
  | data => ∀ (b : Bridge.World (List UInt8)) (rest : List UInt8), b.g.connected = true →
      b.g.waitingCmd = Cmd.none → b.g.dataReady = false → b.port = frame ++ rest →
      Ends (Bridge.sem Bridge.queued) Bridge.gbridgeLoop b fun _ b' =>
        b'.g.connected = false ∧ b'.g.dataReady = false ∧ b'.tx = b.tx
  | stream => ∀ (b : Bridge.World (List UInt8)) (rest : List UInt8), b.g.connected = true →
      b.port = frame ++ rest →
      Ends (Bridge.sem Bridge.queued) (Bridge.gbridgeRecvStream 0x200) b fun r b' =>
        r.1 = -1 ∧ b'.g.connected = false ∧ b'.tx = b.tx
  | dataPc => ∀ (a : Atmega.World) (ts : List Atmega.Tick), a.g.Idle → a.g.dataReady = false →
      a.g.dataBuf.length = maxDataSize → a.rx = [] → Atmega.arrivals ts = frame →
      Atmega.UntilLoops (fun a' => a'.g.dataReady = false ∧ a'.tx = a.tx)
        (Atmega.World.Refused a.tx) ts a
  | streamPc => ∀ (m : Nat) (a : Atmega.World) (ts : List Atmega.Tick), Asked m a → n ≤ m →
      Atmega.arrivals ts = frame →
      Atmega.UntilLoops (fun a' => a'.g.streamMaxSize ≠ 0 ∧ a'.tx = a.tx)
        (Atmega.World.Refused a.tx) ts a

/-- When byte `i` of the payload arrives as `v`, this is noticed. -/
def Detects (k : FrameKind) (payload : List UInt8) (i : Nat) (v : UInt8) : Prop :=
  k.Sends payload fun frame => k.Refuses payload.length (frame.set (k.headLength + i) v)

/-! ## 2. What is sent -/

/-- The frame of a payload. -/
def frame (payload : List UInt8) : FrameKind → List UInt8
  | data => dataFrame Cmd.data payload
  | stream => streamFrame Cmd.stream payload
  | dataPc => dataFrame Cmd.dataPc payload
  | streamPc => streamFrame Cmd.streamPc payload

section Sent

variable {payload : List UInt8} {P : List UInt8 → Prop}

/-- If one knows what is sent, the property is one of that. -/
theorem sent_iff {E : Type → Type} {W α : Type} {sem : Sem E W} {p : Prog E α} {w : W}
    {tx : W → List UInt8} {frame : List UInt8}
    (h : Ends sem p w fun _ w' => tx w' = tx w ++ frame) :
    (Ends sem p w fun _ w' => ∃ frame, tx w' = tx w ++ frame ∧ P frame) ↔ P frame := by
  constructor
  · rintro ⟨⟨a, w', he⟩, hall⟩
    obtain ⟨sent, htx, hP⟩ := hall a w' he
    obtain rfl : sent = frame := List.append_cancel_left (htx.symm.trans (h.2 a w' he))
    exact hP
  · intro hP
    exact h.mono fun _ _ htx => ⟨frame, htx, hP⟩

theorem sends_iff (k : FrameKind) (hlen : payload.length ≤ k.maxLength) :
    k.Sends payload P ↔ P (k.frame payload) := by
  have hlt : payload.length ≤ maxDataSize → payload.length < 256 := fun hle =>
    Nat.lt_of_le_of_lt hle (by decide)
  cases k with
  | data =>
    have hsent : ∀ a : Atmega.World, _ ↔ P (dataFrame Cmd.data payload) := fun a =>
      sent_iff (putDataFrame_ends hlen a)
    exact ⟨fun h => (hsent idleWorld).mp (h idleWorld), fun h a => (hsent a).mpr h⟩
  | stream =>
    constructor
    · intro h
      have hone := h [payload] idleWorld (by simp) (sumsAgree_single payload) rfl
      rw [sent_iff (sendStream_ends [payload] rfl), chunkedFrame_eq (sumsAgree_single payload),
        List.flatten_singleton] at hone
      exact hone
    · rintro h chunks a rfl hagree hup
      rw [sent_iff (sendStream_ends chunks hup), chunkedFrame_eq hagree]
      exact h
  | dataPc =>
    have hsent : ∀ b : Bridge.World (List UInt8), _ ↔ P (dataFrame Cmd.dataPc payload) := fun b =>
      sent_iff (writeDataFrame_ends hlen b)
    exact ⟨fun h => (hsent idleBridge).mp (h idleBridge), fun h b => (hsent b).mpr h⟩
  | streamPc =>
    have hsent : ∀ b : Bridge.World (List UInt8), _ ↔ P (streamFrame Cmd.streamPc payload) :=
      fun b => sent_iff (writeStreamFrame_ends payload b)
    exact ⟨fun h => (hsent idleBridge).mp (h idleBridge), fun h b => (hsent b).mpr h⟩

/-- The corrupted frame: the length and the checksum are those of the payload. -/
theorem frame_set (k : FrameKind) (payload : List UInt8) {i : Nat} (hi : i < payload.length)
    (v : UInt8) : (k.frame payload).set (k.headLength + i) v =
      (k.frame payload).take k.headLength ++ (payload.set i v ++ checksumBytes payload) := by
  have hset : (payload ++ checksumBytes payload).set i v =
      payload.set i v ++ checksumBytes payload := List.set_append_left _ _ hi
  cases k <;> rw [← hset, Nat.add_comm] <;> rfl

end Sent

/-! ## 3. What is refused -/

section Refused

variable {payload : List UInt8} {i : Nat} {v : UInt8}

/-- While a packet comes in, none is there. -/
theorem dataPc_ready {len : UInt8} {body ck todo : List UInt8} {g g' : Atmega.State} {need : Nat}
    (h : (Atmega.dataPc len body).Phase g ck g' todo need) : g'.dataReady = g.dataReady := by
  cases h with
  | idle => rfl
  | under hstage => cases hstage <;> rfl

/-- While a stream comes in, it is asked for. -/
theorem streamPc_maxSize {h l : UInt8} {body ck todo : List UInt8} {g g' : Atmega.State}
    {need : Nat} (hphase : (Atmega.streamPc h l body).Phase g ck g' todo need) :
    g'.streamMaxSize = g.streamMaxSize := by
  cases hphase with
  | idle => rfl
  | under hstage => cases hstage <;> rfl

theorem take_set_length : (payload.set i v).take payload.length = payload.set i v := by
  rw [List.take_of_length_le]
  exact Nat.le_of_eq List.length_set

/-- The checksum notices a change in the bytes it covers, and in no other. -/
theorem checksumData_set_iff (hi : i < payload.length) (hv : v ≠ payload[i]) :
    (GbridgeData.ofList payload).checksumData =
        (GbridgeData.ofList (payload.set i v)).checksumData ↔ ¬ i < payload.length % 256 := by
  have hset : (GbridgeData.ofList (payload.set i v)).bytes =
      (GbridgeData.ofList payload).bytes.set i v := by
    simp only [GbridgeData.bytes, GbridgeData.ofList, List.length_set, List.take_set]
  have hlen : (GbridgeData.ofList payload).bytes.length = payload.length % 256 := by
    rw [GbridgeData.bytes, GbridgeData.ofList, UInt8.toNat_ofNat', List.length_take_of_le]
    exact Nat.mod_le _ _
  unfold GbridgeData.checksumData
  rw [hset]
  constructor
  · intro heq hlt
    exact sum16_set_ne (hlen.symm ▸ hlt) (fun h => hv (h.trans List.getElem_take)) heq.symm
  · intro hge
    rw [List.set_eq_of_length_le]
    omega

/-- The checksum of a short payload is not that of the corrupted one. -/
theorem checksum_ne (hlen : payload.length < 256) (hi : i < payload.length)
    (hv : v ≠ payload[i]) :
    be16 (Bytes.hi (GbridgeData.ofList payload).checksumData)
      (Bytes.lo (GbridgeData.ofList payload).checksumData) ≠ sum16 0 (payload.set i v) := by
  rw [be16_checksum hlen]
  exact (sum16_set_ne hi hv).symm

theorem data_refused (hlen : payload.length ≤ maxDataSize) (hi : i < payload.length)
    (hv : v ≠ payload[i]) :
    data.Refuses payload.length ((data.frame payload).set (data.headLength + i) v) := by
  have hlt : payload.length < 256 := Nat.lt_of_le_of_lt hlen (by decide)
  intro b rest hup hwait hready hport
  rw [frame_set data payload hi v] at hport
  refine (recvData_ends hup hwait hready ?_ hport).mono ?_
  · rw [List.length_set, ofNat_length_toNat hlen]
  · rintro _ b' (⟨hgood, -⟩ | ⟨-, hrefused⟩)
    · exact absurd hgood (checksum_ne hlt hi hv)
    · exact hrefused

theorem dataPc_refused (hlen : payload.length ≤ maxDataSize) (hi : i < payload.length)
    (hv : v ≠ payload[i]) :
    dataPc.Refuses payload.length ((dataPc.frame payload).set (dataPc.headLength + i) v) := by
  have hlt : payload.length < 256 := Nat.lt_of_le_of_lt hlen (by decide)
  have hsize := ofNat_length_toNat hlen
  intro a ts hidle hready hroom hrx harrive
  have hserves : (Atmega.dataPc (.ofNat payload.length) (payload.set i v)).Serves a.g
      (checksumBytes payload) _ :=
    Atmega.serves_dataPc hidle hready hroom (by rw [hsize]; exact hlen)
      (by rw [hsize, List.length_set]; omega)
  have hbad : ¬ be16 (Bytes.hi (GbridgeData.ofList payload).checksumData)
      (Bytes.lo (GbridgeData.ofList payload).checksumData) =
      sum16 0 ((payload.set i v).take (UInt8.ofNat payload.length).toNat) := by
    rw [hsize, take_set_length]
    exact checksum_ne hlt hi hv
  rw [frame_set dataPc payload hi v] at harrive
  have hcoming :
      ((dataPc.frame payload).take 2 ++ (payload.set i v ++ checksumBytes payload)) ++ [] =
      a.rx ++ Atmega.arrivals ts := by
    rw [hrx, List.append_nil, List.nil_append, harrive]
    rfl
  exact Atmega.untilLoops_refused (P := fun g' => g'.dataReady = false) hserves (Nat.le_refl 2)
    hbad (fun hphase => (dataPc_ready hphase).trans hready) .idle (by rw [hrx]; decide) hcoming rfl

theorem streamPc_refused (hlen : payload.length ≤ 255) (hi : i < payload.length)
    (hv : v ≠ payload[i]) :
    streamPc.Refuses payload.length ((streamPc.frame payload).set (streamPc.headLength + i) v) := by
  have hsize := toNat_lo_of_le hlen
  intro m a ts ha hle harrive
  have hasked := ha.size
  have hserves : (Atmega.streamPc (Bytes.hi payload.length) (Bytes.lo payload.length)
      (payload.set i v)).Serves a.g (checksumBytes payload) _ :=
    Atmega.serves_streamPc ha.idle (by omega) (by omega) (by rw [List.length_set]; omega)
      (by rw [List.length_set]; exact Nat.le_trans hle ha.room)
  have hbad : ¬ be16 (Bytes.hi (GbridgeData.ofList payload).checksumData)
      (Bytes.lo (GbridgeData.ofList payload).checksumData) =
      sum16 0 ((payload.set i v).take (Bytes.lo payload.length).toNat) := by
    rw [hsize, take_set_length]
    exact checksum_ne (by omega) hi hv
  rw [frame_set streamPc payload hi v] at harrive
  have hcoming :
      ((streamPc.frame payload).take 3 ++ (payload.set i v ++ checksumBytes payload)) ++ [] =
      a.rx ++ Atmega.arrivals ts := by
    rw [ha.rx, List.append_nil, List.nil_append, harrive]
    rfl
  refine Atmega.untilLoops_refused (P := fun g' => g'.streamMaxSize ≠ 0) hserves (Nat.le_refl 2)
    hbad (fun hphase => ?_) .idle (by rw [ha.rx]; decide) hcoming rfl
  rw [streamPc_maxSize hphase]
  omega

/-- Of a stream the checksum covers the front only. -/
theorem stream_corrupted (hlen : payload.length ≤ 0x200) (hi : i < payload.length)
    (hv : v ≠ payload[i]) {b : Bridge.World (List UInt8)} {rest : List UInt8}
    (hup : b.g.connected = true)
    (hport : b.port = (stream.frame payload).set (stream.headLength + i) v ++ rest) :
    Ends (Bridge.sem Bridge.queued) (Bridge.gbridgeRecvStream 0x200) b fun r b' =>
      ¬ i < payload.length % 256 ∧ StreamTaken (payload.set i v) rest b r b' ∨
      i < payload.length % 256 ∧ (r.1 = -1 ∧ b'.g.connected = false ∧ b'.tx = b.tx) := by
  have hbody : (payload.set i v).length = payload.length := List.length_set
  have hsize : be16 (Bytes.hi payload.length) (Bytes.lo payload.length) =
      (payload.set i v).length := by
    rw [be16_hi_lo, hbody]
    exact Nat.mod_eq_of_lt (by omega)
  rw [frame_set stream payload hi v] at hport
  refine (recvStream_ends hup hsize (by rw [hbody]; exact hlen) hport).mono fun r b' h => ?_
  rw [be16_hi_lo, Nat.mod_eq_of_lt (GbridgeData.checksumData_lt _), ne_eq,
    checksumData_set_iff hi hv, not_not] at h
  exact h

theorem stream_refused_iff (hlen : payload.length ≤ 0x200) (hi : i < payload.length)
    (hv : v ≠ payload[i]) :
    stream.Refuses payload.length ((stream.frame payload).set (stream.headLength + i) v) ↔
      i < payload.length % 256 := by
  constructor
  · intro h
    let b : Bridge.World (List UInt8) :=
      { idleBridge with port := (stream.frame payload).set (stream.headLength + i) v ++ [] }
    have hends := h b [] rfl rfl
    obtain ⟨_, b', he⟩ := hends.1
    obtain ⟨-, hdown, -⟩ := hends.2 _ b' he
    rcases (stream_corrupted (b := b) hlen hi hv rfl rfl).2 _ b' he with ⟨-, -, -, -, hg⟩ | ⟨hlt, -⟩
    · rw [hg] at hdown
      exact absurd hdown (show ¬ true = false by decide)
    · exact hlt
  · intro hlt b rest hup hport
    refine (stream_corrupted hlen hi hv hup hport).mono ?_
    rintro r b' (⟨hge, -⟩ | ⟨-, hrefused⟩)
    · exact absurd hlt hge
    · exact hrefused

end Refused

end FrameKind

/-! ## 4. Corruption is noticed -/

open FrameKind in
/-- **The corruption of one byte of a payload is noticed exactly if, in a stream, it is one of the
first `n % 256`.**  Only these are summed, on both sides.  In the other three kinds of frame that is
all of them. -/
theorem corruption_detected (k : FrameKind) (payload : List UInt8) (i : Nat) (v : UInt8)
    (hlen : payload.length ≤ k.maxLength) (hi : i < payload.length) (hv : v ≠ payload[i]) :
    k.Detects payload i v ↔ (k = stream → i < payload.length % 256) := by
  unfold Detects
  rw [sends_iff k hlen]
  cases k with
  | data => exact ⟨fun _ h => (nomatch h), fun _ => data_refused hlen hi hv⟩
  | stream =>
    rw [stream_refused_iff hlen hi hv]
    exact ⟨fun h _ => h, fun h => h rfl⟩
  | dataPc => exact ⟨fun _ h => (nomatch h), fun _ => dataPc_refused hlen hi hv⟩
  | streamPc => exact ⟨fun _ h => (nomatch h), fun _ => streamPc_refused hlen hi hv⟩

/-- A short packet; and a stream of 300 bytes, of which the first 44 are counted. -/
theorem corruption_detected_one : FrameKind.dataPc.Detects [5] 0 6 ∧
    FrameKind.stream.Detects (List.replicate 300 0) 43 1 ∧
      ¬ FrameKind.stream.Detects (List.replicate 300 0) 44 1 := by
  have hlen : (List.replicate 300 (0 : UInt8)).length = 300 := List.length_replicate
  have hle : (List.replicate 300 (0 : UInt8)).length ≤ FrameKind.stream.maxLength := by
    rw [hlen]
    decide
  have hbyte : ∀ (i : Nat) (hi : i < (List.replicate 300 (0 : UInt8)).length),
      (1 : UInt8) ≠ (List.replicate 300 0)[i] := by
    intro i hi
    rw [List.getElem_replicate]
    decide
  refine ⟨?_, ?_, ?_⟩
  · exact (corruption_detected .dataPc [5] 0 6 (by decide) (by decide) (by decide)).mpr nofun
  · have hi : 43 < (List.replicate 300 (0 : UInt8)).length := by rw [hlen]; decide
    refine (corruption_detected .stream _ 43 1 hle hi (hbyte 43 hi)).mpr fun _ => ?_
    rw [hlen]
    decide
  · have hi : 44 < (List.replicate 300 (0 : UInt8)).length := by rw [hlen]; decide
    intro h
    have hcounted := (corruption_detected .stream _ 44 1 hle hi (hbyte 44 hi)).mp h rfl
    rw [hlen] at hcounted
    exact absurd hcounted (by decide)

/-- **In a stream of 300 bytes the corruption of the last one is not noticed.** -/
theorem corruption_detected_fails :
    ¬ ∀ (k : FrameKind) (payload : List UInt8) (i : Nat) (v : UInt8)
      (hi : i < payload.length), payload.length ≤ k.maxLength → v ≠ payload[i] →
      k.Detects payload i v := by
  intro h
  let payload : List UInt8 := List.replicate 300 0
  have hlen : payload.length = 300 := List.length_replicate
  have hi : 299 < payload.length := by rw [hlen]; decide
  have hle : payload.length ≤ FrameKind.stream.maxLength := by rw [hlen]; decide
  have hone : (1 : UInt8) ≠ 0 := by decide
  have hv := fun h => hone (Eq.trans h (List.getElem_replicate hi))
  have hdetects := h .stream payload 299 1 hi hle hv
  unfold FrameKind.Detects at hdetects
  rw [FrameKind.sends_iff _ hle, FrameKind.stream_refused_iff hle hi hv, hlen] at hdetects
  exact absurd hdetects (by decide)

end GBridge

/-
# Frames, from one program to the other

Each of the four kinds of checksummed frame is followed from the function that sends it to the
function that receives it in the other program.  The two sides do not always agree on what is
summed: lengths pass through an `unsigned char` here and a 16-bit word there.  Each result below
says exactly when they do.

* `stream_roundTrip`: the adapter sums a stream chunk by chunk, each chunk modulo 256, and the
  bridge the first `n % 256` bytes of the whole; they agree if `SumsAgree`, and always for one
  chunk;
* `data_roundTrip`: a packet of up to `GBRIDGE_MAX_DATA_SIZE` bytes arrives as it is, but the
  adapter takes none that is empty, because `recv_cmd_data_pc` counts its bytes before it looks
  whether it has them all;
* `streamPc_roundTrip`: the adapter keeps a limit and a sum of its own, and takes a stream from the
  bridge exactly if it fits the limit and the two sums are the same.

Both directions are shown for all payloads, and for all ways in which the bytes may be cut up on
their way.
-/
import GBridge.Atmega.Schedule
import GBridge.Atmega.Send
import GBridge.Bridge.Receive
import GBridge.Bridge.Send

namespace GBridge

open Prog Duplex Bytes

/-! ## 1. STREAM, from the adapter to the bridge -/

section Stream

/-- The adapter sums a stream chunk by chunk, each with its length cut down to a byte; the bridge
sums the whole, with its length cut down to a byte. -/
def SumsAgree (chunks : List (List UInt8)) : Prop :=
  sum (chunks.flatMap counted) % 65536 = sum (counted chunks.flatten) % 65536

instance (chunks : List (List UInt8)) : Decidable (SumsAgree chunks) :=
  inferInstanceAs (Decidable (_ = _))

/-- The stream has been accepted: it is in the buffer, the port is read up to its end, and one
acknowledgement has been sent. -/
def StreamTaken (payload rest : List UInt8) (b : Bridge.World (List UInt8))
    (r : Int × List UInt8) (b' : Bridge.World (List UInt8)) : Prop :=
  r = ((payload.length : Int), payload) ∧ b'.port = rest ∧ b'.tx = b.tx ++ [ack Cmd.stream] ∧
    b'.g = b.g

theorem checksumData_ofList (payload : List UInt8) :
    (GbridgeData.ofList payload).checksumData = sum (counted payload) % 65536 := by
  rw [GbridgeData.checksumData, GbridgeData.bytes, GbridgeData.ofList, UInt8.toNat_ofNat',
    sum16_eq (by decide), Nat.zero_add]
  rfl

theorem sumsAgree_iff (chunks : List (List UInt8)) :
    SumsAgree chunks ↔
      Atmega.chunkSum 0 chunks = (GbridgeData.ofList chunks.flatten).checksumData := by
  rw [Atmega.chunkSum_eq (by decide), checksumData_ofList, Nat.zero_add]
  exact Iff.rfl

/-- A stream in one chunk has no part in the difference. -/
theorem sumsAgree_single (payload : List UInt8) : SumsAgree [payload] := by
  simp [SumsAgree]

theorem chunkedFrame_eq {chunks : List (List UInt8)} (h : SumsAgree chunks) :
    Atmega.chunkedFrame chunks = streamFrame Cmd.stream chunks.flatten := by
  rw [Atmega.chunkedFrame, (sumsAgree_iff chunks).mp h]
  rfl

/-- `gbridge_recv_stream` takes a stream that fits, or refuses it for its checksum. -/
theorem recvStream_ends {maxSize : Nat} {body rest : List UInt8} {hh ll h l : UInt8}
    {b : Bridge.World (List UInt8)} (hup : b.g.connected = true)
    (hlen : be16 hh ll = body.length) (hmax : body.length ≤ maxSize)
    (hport : b.port = (Cmd.stream :: hh :: ll :: (body ++ [h, l])) ++ rest) :
    Ends (Bridge.sem Bridge.queued) (Bridge.gbridgeRecvStream maxSize) b fun r b' =>
      be16 h l = (GbridgeData.ofList body).checksumData ∧ StreamTaken body rest b r b' ∨
      be16 h l ≠ (GbridgeData.ofList body).checksumData ∧
        (r.1 = -1 ∧ b'.g.connected = false ∧ b'.tx = b.tx) := by
  refine (Bridge.receives_ends (b := ack Cmd.stream)
    (fun r g => be16 h l = (GbridgeData.ofList body).checksumData ∧
      r = ((body.length : Int), body) ∧ g = b.g)
    (fun r g => be16 h l ≠ (GbridgeData.ofList body).checksumData ∧
      r.1 = -1 ∧ g.connected = false) hport ?_).mono ?_
  · intro sh after v hfeed hg hshare
    refine Bridge.wpB_gbridgeRecvStream hfeed (hg ▸ hup) hlen hmax hshare (fun hgood => ?_)
      fun hbad => ⟨rfl, ?_⟩
    · exact .inl ⟨rfl, hgood, rfl, hg⟩
    · exact .inr ⟨[], rfl, hbad, rfl, rfl⟩
  · rintro r b' (⟨hrest, htx, hgood, hr, hg⟩ | ⟨htx, hbad, hr, hdown⟩)
    · exact .inl ⟨hgood, hr, hrest, htx, hg⟩
    · exact .inr ⟨hbad, hr, hdown, htx⟩

/-- The bridge accepts what the adapter sends in chunks exactly if the sums agree. -/
theorem chunkedFrame_taken {chunks : List (List UInt8)} {rest : List UInt8}
    {b : Bridge.World (List UInt8)} (hlen : chunks.flatten.length ≤ 0x200)
    (hup : b.g.connected = true) (hport : b.port = Atmega.chunkedFrame chunks ++ rest) :
    Ends (Bridge.sem Bridge.queued) (Bridge.gbridgeRecvStream 0x200) b
      (StreamTaken chunks.flatten rest b) ↔ SumsAgree chunks := by
  have hsize : be16 (hi chunks.flatten.length) (lo chunks.flatten.length) =
      chunks.flatten.length := by
    rw [be16_hi_lo]
    exact Nat.mod_eq_of_lt (by omega)
  have hsum : be16 (hi (Atmega.chunkSum 0 chunks)) (lo (Atmega.chunkSum 0 chunks)) =
      Atmega.chunkSum 0 chunks := by
    rw [be16_hi_lo, Atmega.chunkSum_eq (by decide), Nat.mod_mod]
  have hends := recvStream_ends hup hsize hlen hport
  rw [hsum] at hends
  simp only [ne_eq, ← sumsAgree_iff] at hends
  refine Ends.iff_of_cases hends ?_
  rintro r b' ⟨-, -, -, hg⟩ ⟨-, hdown, -⟩
  rw [hg, hup] at hdown
  exact absurd hdown (by decide)

/-- The adapter emits the frame in chunks. -/
theorem sendStream_ends (chunks : List (List UInt8)) {a : Atmega.World}
    (hup : a.g.connected = true) :
    Ends Atmega.sem (Atmega.sendStream chunks) a fun _ a' =>
      a'.tx = a.tx ++ Atmega.chunkedFrame chunks :=
  Atmega.sends_ends fun _ hg hshare => Atmega.wpP_sendStream (hg ▸ hup) hshare rfl

/-- **A stream in chunks is accepted exactly if the sums agree**, and then its frame depends on the
payload only.  The bridge may be in any connected state, and anything may follow the frame.

`gbridge_cmd_stream_data` sums each chunk in a `struct gbridge_data`, whose size is an `unsigned
char`, and `gbridge_recv_stream` does the same with the whole.  One chunk always agrees. -/
theorem stream_roundTrip (chunks : List (List UInt8)) (hlen : chunks.flatten.length ≤ 0x200)
    (a : Atmega.World) (hup : a.g.connected = true) :
    Ends Atmega.sem (Atmega.sendStream chunks) a fun _ a' => ∃ frame, a'.tx = a.tx ++ frame ∧
      (SumsAgree chunks → frame = streamFrame Cmd.stream chunks.flatten) ∧
      ∀ (b : Bridge.World (List UInt8)) (rest : List UInt8), b.g.connected = true →
        b.port = frame ++ rest →
        (Ends (Bridge.sem Bridge.queued) (Bridge.gbridgeRecvStream 0x200) b
          (StreamTaken chunks.flatten rest b) ↔ SumsAgree chunks) :=
  (sendStream_ends chunks hup).mono fun _ _ htx =>
    ⟨_, htx, chunkedFrame_eq, fun _ _ hconn hport => chunkedFrame_taken hlen hconn hport⟩

/-- Two chunks of one byte each, from a link that is up. -/
theorem stream_roundTrip_two :
    Ends Atmega.sem (Atmega.sendStream [[7], [9]]) { g := { connected := true } } fun _ a' =>
      ∃ frame, a'.tx = [] ++ frame ∧
        (SumsAgree [[7], [9]] → frame = streamFrame Cmd.stream [7, 9]) ∧
        ∀ (b : Bridge.World (List UInt8)) (rest : List UInt8), b.g.connected = true →
          b.port = frame ++ rest →
          (Ends (Bridge.sem Bridge.queued) (Bridge.gbridgeRecvStream 0x200) b
            (StreamTaken [7, 9] rest b) ↔ SumsAgree [[7], [9]]) :=
  stream_roundTrip [[7], [9]] (by decide) _ rfl

/-- **Not every chunking is accepted**: two chunks of 200 bytes make a stream of 400, of which
the bridge sums the first 144 bytes. -/
theorem stream_roundTrip_fails :
    ¬ ∀ (chunks : List (List UInt8)) (a : Atmega.World), chunks.flatten.length ≤ 0x200 →
      a.g.connected = true →
      Ends Atmega.sem (Atmega.sendStream chunks) a fun _ a' => ∃ frame, a'.tx = a.tx ++ frame ∧
        ∀ (b : Bridge.World (List UInt8)) (rest : List UInt8), b.g.connected = true →
          b.port = frame ++ rest →
          Ends (Bridge.sem Bridge.queued) (Bridge.gbridgeRecvStream 0x200) b
            (StreamTaken chunks.flatten rest b) := by
  intro h
  let chunks : List (List UInt8) := [List.replicate 200 1, List.replicate 200 1]
  have hlen : chunks.flatten.length ≤ 0x200 := by decide +kernel
  have hends := h chunks { g := { connected := true } } hlen rfl
  obtain ⟨_, a', he⟩ := hends.1
  obtain ⟨frame, htx, htaken⟩ := hends.2 _ a' he
  have hframe : frame = Atmega.chunkedFrame chunks :=
    List.append_cancel_left (htx.symm.trans ((sendStream_ends chunks rfl).2 _ a' he))
  have hagree := (chunkedFrame_taken hlen rfl rfl).mp
    (htaken { g := { connected := true }, port := Atmega.chunkedFrame chunks ++ [] } [] rfl
      (by rw [hframe]))
  exact absurd hagree (by decide +kernel)

end Stream

/-! ## 2. DATA, in both directions -/

section Data

/-- The packet has been accepted: it is exposed, the port is read up to its end, and one
acknowledgement has been sent. -/
def PacketTaken (payload rest : List UInt8) (b b' : Bridge.World (List UInt8)) : Prop :=
  b'.port = rest ∧ b'.tx = b.tx ++ [ack Cmd.data] ∧ b'.g.connected = true ∧
    b'.g.dataReady = true ∧ b'.g.data.size.toNat = payload.length ∧ b'.g.data.bytes = payload

/-- The same on the adapter, where no bytes are left. -/
def PacketReceived (payload : List UInt8) (a a' : Atmega.World) : Prop :=
  a'.rx = [] ∧ a'.tx = a.tx ++ [ack Cmd.dataPc] ∧ a'.g.Idle ∧
    a'.g.dataReady = true ∧ a'.g.data.size.toNat = payload.length ∧ a'.g.data.bytes = payload

/-- What `gbridge_cmd_data` of the adapter sends, the bridge accepts. -/
def DataToBridge (payload : List UInt8) : Prop :=
  ∀ a : Atmega.World,
    Ends Atmega.sem (Atmega.putDataFrame (.ofList payload)) a fun _ a' =>
      ∃ frame, a'.tx = a.tx ++ frame ∧
        ∀ (b : Bridge.World (List UInt8)) (rest : List UInt8), b.g.connected = true →
          b.g.waitingCmd = Cmd.none → b.g.dataReady = false → b.port = frame ++ rest →
          Ends (Bridge.sem Bridge.queued) Bridge.gbridgeLoop b fun _ =>
            PacketTaken payload rest b

/-- What `gbridge_cmd_data` of the bridge sends, the adapter accepts, however it arrives.
`data_buf` is an array of `GBRIDGE_MAX_DATA_SIZE` bytes. -/
def DataToAtmega (payload : List UInt8) : Prop :=
  ∀ b : Bridge.World (List UInt8),
    Ends (Bridge.sem Bridge.queued) (Bridge.writeDataFrame (.ofList payload)) b fun _ b' =>
      ∃ frame, b'.tx = b.tx ++ frame ∧
        ∀ (a : Atmega.World) (ts : List Atmega.Tick), a.g.Idle → a.g.dataReady = false →
          a.g.dataBuf.length = maxDataSize → a.rx = [] → Atmega.arrivals ts = frame →
          Atmega.AfterLoops (PacketReceived payload a) ts a

theorem ofNat_length_toNat {payload : List UInt8} (hlen : payload.length ≤ maxDataSize) :
    (UInt8.ofNat payload.length).toNat = payload.length := by
  rw [UInt8.toNat_ofNat']
  exact Nat.mod_eq_of_lt (Nat.lt_of_le_of_lt hlen (by decide))

/-- `gbridge_loop` of the bridge takes a DATA frame, or refuses it for its checksum. -/
theorem recvData_ends {body rest : List UInt8} {len h l : UInt8} {b : Bridge.World (List UInt8)}
    (hup : b.g.connected = true) (hidle : b.g.waitingCmd = Cmd.none)
    (hready : b.g.dataReady = false) (hlen : body.length = len.toNat)
    (hport : b.port = (Cmd.data :: len :: (body ++ [h, l])) ++ rest) :
    Ends (Bridge.sem Bridge.queued) Bridge.gbridgeLoop b fun _ b' =>
      be16 h l = sum16 0 body ∧ PacketTaken body rest b b' ∨
      be16 h l ≠ sum16 0 body ∧
        (b'.g.connected = false ∧ b'.g.dataReady = false ∧ b'.tx = b.tx) := by
  refine (Bridge.receives_ends (b := ack Cmd.data)
    (fun _ g => be16 h l = sum16 0 body ∧ g = { b.g.received len body with dataReady := true })
    (fun _ g => be16 h l ≠ sum16 0 body ∧ g.connected = false ∧ g.dataReady = false)
    hport ?_).mono ?_
  · intro sh after v hfeed hg hshare
    refine Bridge.wpB_gbridgeLoop hfeed (hg ▸ hup) (hg ▸ hidle) hshare
      (fun hslow => absurd hslow (by decide)) ?_
    refine Bridge.wpB_recvCmdData hfeed (hg ▸ hup) (hg ▸ hready) hlen rfl (fun hgood => ?_)
      fun hbad => ⟨rfl, ?_⟩
    · exact .inl ⟨rfl, hgood, by rw [hg]⟩
    · exact .inr ⟨[], rfl, hbad, rfl, rfl⟩
  · rintro _ b' (⟨hrest, htx, hgood, hg⟩ | ⟨htx, hbad, hdown, hnone⟩)
    · refine .inl ⟨hgood, hrest, htx, ?_, ?_, ?_, ?_⟩
      · rw [hg]; exact hup
      · rw [hg]
      · rw [hg]; exact hlen.symm
      · rw [hg]
        show (body ++ b.g.dataBuf.drop body.length).take len.toNat = body
        rw [← hlen, List.take_left]
    · exact .inr ⟨hbad, hdown, hnone, htx⟩

/-- What the adapter writes as a packet. -/
theorem putDataFrame_ends {payload : List UInt8} (hlen : payload.length ≤ maxDataSize)
    (a : Atmega.World) :
    Ends Atmega.sem (Atmega.putDataFrame (.ofList payload)) a fun _ a' =>
      a'.tx = a.tx ++ dataFrame Cmd.data payload :=
  Atmega.sends_ends fun _ _ hshare =>
    Atmega.wpP_putDataFrame (Nat.lt_of_le_of_lt hlen (by decide)) hshare rfl

theorem dataToBridge {payload : List UInt8} (hlen : payload.length ≤ maxDataSize) :
    DataToBridge payload := by
  have hlt : payload.length < 256 := Nat.lt_of_le_of_lt hlen (by decide)
  intro a
  refine (putDataFrame_ends hlen a).mono fun _ a' htx =>
    ⟨_, htx, fun b rest hup hidle hready hport => ?_⟩
  refine (recvData_ends hup hidle hready (ofNat_length_toNat hlen).symm hport).mono ?_
  rintro _ b' (⟨-, htaken⟩ | ⟨hbad, -⟩)
  · exact htaken
  · exact absurd (be16_checksum hlt) hbad

/-- What the bridge writes as a packet. -/
theorem writeDataFrame_ends {payload : List UInt8} (hlen : payload.length ≤ maxDataSize)
    (b : Bridge.World (List UInt8)) :
    Ends (Bridge.sem Bridge.queued) (Bridge.writeDataFrame (.ofList payload)) b fun _ b' =>
      b'.tx = b.tx ++ dataFrame Cmd.dataPc payload :=
  Bridge.sends_ends fun _ _ hshare =>
    Bridge.wpB_writeDataFrame (Nat.lt_of_le_of_lt hlen (by decide)) hshare rfl

theorem dataToAtmega {payload : List UInt8} (hlen : payload.length ≤ maxDataSize)
    (hne : payload ≠ []) : DataToAtmega payload := by
  have hlt : payload.length < 256 := Nat.lt_of_le_of_lt hlen (by decide)
  have hsize := ofNat_length_toNat hlen
  have hpos : 0 < payload.length := List.length_pos_iff.mpr hne
  intro b
  refine (writeDataFrame_ends hlen b).mono fun _ b' htx => ⟨_, htx, ?_⟩
  intro a ts hidle hready hroom hrx harrive
  have hserves : (Atmega.dataPc (.ofNat payload.length) payload).Serves a.g
      (checksumBytes payload) _ :=
    Atmega.serves_dataPc hidle hready hroom (by rw [hsize]; exact hlen) (by rw [hsize]; omega)
  have hgood : be16 (hi (GbridgeData.ofList payload).checksumData)
      (lo (GbridgeData.ofList payload).checksumData) =
      sum16 0 (payload.take (UInt8.ofNat payload.length).toNat) := by
    rw [hsize, List.take_length]
    exact be16_checksum hlt
  refine Atmega.AfterLoops.mono ?_ (Atmega.afterLoops_accepted hserves (Nat.le_refl 2) hgood
    .idle (by rw [hrx]; decide) (by rw [hrx, harrive]; rfl) rfl)
  rintro a' ⟨⟨since, hg⟩, hrx', htx'⟩
  refine ⟨hrx', htx', ?_, ?_, ?_, ?_⟩
  · rw [hg]; exact ⟨hidle.connected, rfl, hidle.waiting⟩
  · rw [hg]; rfl
  · rw [hg]; exact hsize
  · rw [hg]
    show (payload ++ a.g.dataBuf.drop payload.length).take (UInt8.ofNat payload.length).toNat = _
    rw [hsize, List.take_left]

/-- An idle link, seen from the adapter. -/
def idleWorld : Atmega.World := { g := { connected := true } }

/-- The same seen from the bridge. -/
def idleBridge : Bridge.World (List UInt8) := { g := { connected := true }, port := [] }

/-- Of an empty packet the receiver takes the first byte of the checksum for its payload, and
waits for a second checksum byte that never comes. -/
theorem not_dataToAtmega_nil : ¬ DataToAtmega [] := by
  intro h
  have hends := h idleBridge
  have hwritten := writeDataFrame_ends (show ([] : List UInt8).length ≤ maxDataSize by decide)
    idleBridge
  obtain ⟨_, b', he⟩ := hends.1
  obtain ⟨frame, htx, hreceived⟩ := hends.2 _ b' he
  obtain rfl : frame = dataFrame Cmd.dataPc [] :=
    List.append_cancel_left (htx.symm.trans (hwritten.2 _ b' he))
  have hidle : idleWorld.g.Idle := ⟨rfl, rfl, rfl⟩
  let tick : Atmega.Tick := ⟨dataFrame Cmd.dataPc [], 0⟩
  have hafter := hreceived idleWorld [tick] hidle rfl List.length_replicate rfl
    (by rw [Atmega.arrivals_cons, Atmega.arrivals_nil, List.append_nil]) (hidle.notLate tick)
  have hrun : (run Atmega.answer 10 Atmega.gbridgeLoop (idleWorld.tick tick)).map
      (fun r => r.2.g.dataReady) = some false := by decide +kernel
  obtain ⟨⟨_, a'⟩, hrun, hready⟩ := Option.map_eq_some_iff.mp hrun
  obtain ⟨-, -, -, hready', -⟩ := hafter.2 _ a' (run_eval Atmega.answer_sound hrun)
  rw [show a'.g.dataReady = false from hready] at hready'
  exact absurd hready' (by decide)

/-- **A DATA packet makes its way in both directions exactly if it is not empty.**  To the bridge
every packet does.  To the adapter an empty one does not, since `recv_cmd_data_pc` stores a byte
before it looks whether it has them all. -/
theorem data_roundTrip (payload : List UInt8) (hlen : payload.length ≤ maxDataSize) :
    (DataToBridge payload ∧ DataToAtmega payload) ↔ payload ≠ [] := by
  constructor
  · rintro ⟨-, h⟩ rfl
    exact not_dataToAtmega_nil h
  · intro hne
    exact ⟨dataToBridge hlen, dataToAtmega hlen hne⟩

theorem data_roundTrip_one : (DataToBridge [5] ∧ DataToAtmega [5]) ↔ [(5 : UInt8)] ≠ [] :=
  data_roundTrip [5] (by decide)

/-- **The empty packet is lost on the adapter.** -/
theorem data_roundTrip_fails :
    ¬ ∀ payload : List UInt8, payload.length ≤ maxDataSize →
      DataToBridge payload ∧ DataToAtmega payload := by
  intro h
  exact not_dataToAtmega_nil (h [] (by decide)).2

end Data

/-! ## 3. STREAM_PC, from the bridge to the adapter -/

section StreamPc

/-- The stream has been accepted: it is in the buffer, no bytes are left, one acknowledgement has
been sent, and no further stream is asked for. -/
def StreamReceived (payload : List UInt8) (a a' : Atmega.World) : Prop :=
  a'.rx = [] ∧ a'.g.streamBuf.take payload.length = payload ∧
    a'.tx = a.tx ++ [ack Cmd.streamPc] ∧ a'.g.streamMaxSize = 0 ∧ a'.g.Idle

/-- What should become of a stream when there is room for `m` bytes: if it fits it is accepted,
if it does not the link is reset, however it arrives. -/
def StreamHandled (payload : List UInt8) (m : Nat) (frame : List UInt8) (a : Atmega.World) :
    Prop :=
  ∀ ts : List Atmega.Tick, Atmega.arrivals ts = frame →
    (1 ≤ payload.length → payload.length ≤ m →
      Atmega.AfterLoops (StreamReceived payload a) ts a) ∧
    (m < payload.length →
      Atmega.UntilLoops (fun a' => a'.g.connected = true ∧ a'.tx = a.tx)
        (Atmega.World.Refused a.tx) ts a)

/-- How many bytes of a stream of `n` bytes the adapter stores. -/
def storedSize (n : Nat) : Nat := max (n % 256) 1

/-- The two bytes it takes for the checksum of a long one. -/
def takenSum (payload : List UInt8) : UInt8 × UInt8 :=
  (payload.getD (storedSize payload.length) 0, payload.getD (storedSize payload.length + 1) 0)

/-- They happen to be the sum of what it has stored. -/
def SumTaken (payload : List UInt8) : Prop :=
  be16 (takenSum payload).1 (takenSum payload).2 = sum16 0 (counted payload)

/-- The streams that are handled so.  Of the length the adapter keeps the low byte, so that a long
stream is never taken whole; it is refused for that byte, or for the two bytes behind so many. -/
def StreamFits (payload : List UInt8) (m : Nat) : Prop :=
  payload.length ≤ 255 ∨
    m < payload.length ∧ (m = 0 ∨ m < payload.length % 256 ∨ ¬ SumTaken payload)

/-- What the bridge writes as a stream. -/
theorem writeStreamFrame_ends (payload : List UInt8) (b : Bridge.World (List UInt8)) :
    Ends (Bridge.sem Bridge.queued) (Bridge.writeStreamFrame payload payload.length) b
      fun _ b' => b'.tx = b.tx ++ streamFrame Cmd.streamPc payload := by
  have hwhole : payload.take payload.length = payload := List.take_length
  refine Bridge.sends_ends fun _ _ hshare => ?_
  exact Bridge.wpB_writeStreamFrame (Nat.le_refl _) (hwhole.symm ▸ hshare) rfl

/-- An idle adapter that has called `gbridge_recv_stream`. -/
structure Asked (m : Nat) (a : Atmega.World) : Prop where
  idle : a.g.Idle
  size : a.g.streamMaxSize = m
  room : m ≤ a.g.streamBuf.length
  rx : a.rx = []

theorem recvStream_asked {a : Atmega.World} {buffer : List UInt8} {m : Nat} (hidle : a.g.Idle)
    (hrx : a.rx = []) (hroom : m ≤ buffer.length) :
    Ends Atmega.sem (Atmega.gbridgeRecvStream buffer m) a fun _ a₁ => Asked m a₁ := by
  refine (Atmega.modify_ends _ a).mono ?_
  rintro _ a₁ rfl
  exact ⟨⟨hidle.connected, hidle.processing, hidle.waiting⟩, rfl, hroom, hrx⟩

section Asked

variable {payload : List UInt8} {m : Nat} {a : Atmega.World}

theorem toNat_lo_of_le (h : payload.length ≤ 255) : (lo payload.length).toNat = payload.length := by
  rw [toNat_lo]
  exact Nat.mod_eq_of_lt (by omega)

/-- A short stream that fits. -/
theorem stream_accepted (ha : Asked m a) (hshort : payload.length ≤ 255) (hpos : 1 ≤ payload.length)
    (hle : payload.length ≤ m) {ts : List Atmega.Tick}
    (harrive : Atmega.arrivals ts = streamFrame Cmd.streamPc payload) :
    Atmega.AfterLoops (StreamReceived payload a) ts a := by
  have hsize := toNat_lo_of_le hshort
  have hasked := ha.size
  have hserves : (Atmega.streamPc (hi payload.length) (lo payload.length) payload).Serves a.g
      (checksumBytes payload) _ :=
    Atmega.serves_streamPc ha.idle (by omega) (by omega) (by omega) (Nat.le_trans hle ha.room)
  have hgood : be16 (hi (GbridgeData.ofList payload).checksumData)
      (lo (GbridgeData.ofList payload).checksumData) =
      sum16 0 (payload.take (lo payload.length).toNat) := by
    rw [hsize, List.take_length]
    exact be16_checksum (by omega)
  refine Atmega.AfterLoops.mono ?_ (Atmega.afterLoops_accepted hserves (Nat.le_refl 2) hgood
    .idle (by rw [ha.rx]; decide) (by rw [ha.rx, harrive]; rfl) rfl)
  rintro a' ⟨⟨since, hg'⟩, hrx', htx'⟩
  refine ⟨hrx', ?_, htx', ?_, ?_⟩
  · rw [hg']
    show (payload ++ a.g.streamBuf.drop payload.length).take payload.length = payload
    exact List.take_left
  · rw [hg']; rfl
  · rw [hg']; exact ⟨ha.idle.connected, rfl, ha.idle.waiting⟩

/-- A stream whose length byte is too large. -/
theorem stream_refused (ha : Asked m a)
    (hno : m = 0 ∨ m < payload.length % 256) {ts : List Atmega.Tick}
    (harrive : Atmega.arrivals ts = streamFrame Cmd.streamPc payload) :
    Atmega.UntilLoops (fun a' => a'.g.connected = true ∧ a'.tx = a.tx)
      (Atmega.World.Refused a.tx) ts a := by
  have hserves : (Atmega.streamPc (hi payload.length) (lo payload.length) []).Serves a.g
      (payload ++ checksumBytes payload) False :=
    Atmega.serves_streamPc_refused ha.idle (by rw [ha.size, toNat_lo]; exact hno)
  have hcoming : streamFrame Cmd.streamPc payload ++ [] = a.rx ++ Atmega.arrivals ts := by
    rw [ha.rx, harrive, List.append_nil, List.nil_append]
  refine Atmega.untilLoops_refused hserves ?_ not_false hserves.connected .idle
    (by rw [ha.rx]; decide) hcoming rfl
  rw [List.length_append]
  exact Nat.le_add_left 2 _

theorem take_two_drop : ∀ (bs : List UInt8) (k : Nat), k + 2 ≤ bs.length →
    bs = bs.take k ++ ([bs.getD k 0, bs.getD (k + 1) 0] ++ bs.drop (k + 2))
  | b :: bs, k + 1, hk => by
    have hk' : k + 2 ≤ bs.length := Nat.le_of_succ_le_succ hk
    exact congrArg (b :: ·) (take_two_drop bs k hk')
  | _ :: _ :: _, 0, _ => rfl

/-- The frame of a long stream as the adapter sees it: what it stores, what it takes for the
checksum, and the rest. -/
theorem longFrame_eq (hlong : 256 ≤ payload.length) :
    streamFrame Cmd.streamPc payload =
      (Cmd.streamPc :: ([hi payload.length, lo payload.length] ++
        (payload.take (storedSize payload.length) ++
          [(takenSum payload).1, (takenSum payload).2]))) ++
        (payload.drop (storedSize payload.length + 2) ++ checksumBytes payload) := by
  have hk : storedSize payload.length + 2 ≤ payload.length := by
    unfold storedSize
    omega
  have hsplit := congrArg (· ++ checksumBytes payload) (take_two_drop payload _ hk)
  rw [streamFrame]
  refine (congrArg (fun bs => Cmd.streamPc :: hi payload.length :: lo payload.length :: bs)
    hsplit).trans ?_
  simp only [takenSum, List.append_assoc, List.cons_append, List.nil_append]

theorem long_serves (ha : Asked m a)
    (hlong : 256 ≤ payload.length) (hm : m ≠ 0) (hle : payload.length % 256 ≤ m) :
    (Atmega.streamPc (hi payload.length) (lo payload.length)
      (payload.take (storedSize payload.length))).Serves a.g
      [(takenSum payload).1, (takenSum payload).2] (SumTaken payload) := by
  have hstored : (payload.take (storedSize payload.length)).length =
      max (lo payload.length).toNat 1 := by
    rw [toNat_lo, List.length_take_of_le]
    · rfl
    · unfold storedSize
      omega
  have hasked := ha.size
  have hroom := ha.room
  have hserves : (Atmega.streamPc (hi payload.length) (lo payload.length)
      (payload.take (storedSize payload.length))).Serves a.g
      [(takenSum payload).1, (takenSum payload).2] _ :=
    Atmega.serves_streamPc ha.idle (by omega) (by rw [toNat_lo]; omega) hstored (by
      rw [hstored, toNat_lo]
      omega)
  rw [toNat_lo, List.take_take, storedSize, Nat.min_eq_left (Nat.le_max_left _ _)] at hserves
  exact hserves

/-- A long stream that arrives at once: either way its bytes are not all taken. -/
theorem long_whole (ha : Asked m a) (hlong : 256 ≤ payload.length) (hm : m ≠ 0)
    (hle : payload.length % 256 ≤ m) :
    Ends Atmega.sem Atmega.gbridgeLoop (a.tick ⟨streamFrame Cmd.streamPc payload, 0⟩)
      fun _ a' => SumTaken payload ∧ (a'.g.connected = true ∧
        a'.rx = payload.drop (storedSize payload.length + 2) ++ checksumBytes payload ∧
        a'.tx = a.tx ++ [ack Cmd.streamPc]) ∨
      ¬ SumTaken payload ∧ Atmega.World.Refused a.tx a' :=
  Atmega.loop_whole (long_serves ha hlong hm hle) (Nat.le_refl 2) rfl ha.rx
    (longFrame_eq hlong)

/-- A long stream is refused if the two bytes are not the sum. -/
theorem long_refused (ha : Asked m a) (hlong : 256 ≤ payload.length) (hm : m ≠ 0)
    (hle : payload.length % 256 ≤ m) (hbad : ¬ SumTaken payload) {ts : List Atmega.Tick}
    (harrive : Atmega.arrivals ts = streamFrame Cmd.streamPc payload) :
    Atmega.UntilLoops (fun a' => a'.g.connected = true ∧ a'.tx = a.tx)
      (Atmega.World.Refused a.tx) ts a := by
  have hcoming := (longFrame_eq hlong).symm.trans
    (show streamFrame Cmd.streamPc payload = a.rx ++ Atmega.arrivals ts by
      rw [ha.rx, harrive, List.nil_append])
  have hserves := long_serves ha hlong hm hle
  exact Atmega.untilLoops_refused hserves (Nat.le_refl 2) hbad hserves.connected .idle
    (by rw [ha.rx]; decide) hcoming rfl

/-- A long stream is not handled as it should be if there is room for it, or if the two bytes
are the sum: the calls of `gbridge_loop` are over when all of it has arrived at once. -/
theorem long_not_handled (ha : Asked m a) (hlong : 256 ≤ payload.length) (hm : m ≠ 0)
    (hle : payload.length % 256 ≤ m) (hwrong : payload.length ≤ m ∨ SumTaken payload) :
    ¬ StreamHandled payload m (streamFrame Cmd.streamPc payload) a := by
  intro h
  obtain ⟨haccepted, hrefused⟩ := h [⟨streamFrame Cmd.streamPc payload, 0⟩] (by
    rw [Atmega.arrivals_cons, Atmega.arrivals_nil, List.append_nil])
  have hlate := ha.idle.notLate ⟨streamFrame Cmd.streamPc payload, 0⟩
  have hwhole := long_whole ha hlong hm hle
  obtain ⟨_, a', he⟩ := hwhole.1
  by_cases hfits : payload.length ≤ m
  · obtain ⟨hnone, -, -, -, hup⟩ := (haccepted (by omega) hfits hlate).2 _ a' he
    rcases hwhole.2 _ a' he with ⟨-, -, hrest, -⟩ | ⟨-, hdown, -⟩
    · rw [hnone] at hrest
      exact absurd hrest.symm (by simp [checksumBytes])
    · exact absurd (hup.connected.symm.trans hdown) (by decide)
  · have htaken : SumTaken payload := hwrong.resolve_left hfits
    rcases hrefused (Nat.lt_of_not_le hfits) with hnow | ⟨-, hlater⟩
    · exact absurd (ha.idle.connected.symm.trans hnow.1) (by decide)
    · rcases hwhole.2 _ a' he with ⟨-, hup, -⟩ | ⟨hbad, -⟩
      · exact absurd (hup.symm.trans ((hlater hlate).2 _ a' he).1) (by decide)
      · exact hbad htaken

/-- **Streams are handled as they should be exactly if they fit.** -/
theorem streamHandled_iff (ha : Asked m a) :
    StreamHandled payload m (streamFrame Cmd.streamPc payload) a ↔ StreamFits payload m := by
  constructor
  · intro h
    by_cases hshort : payload.length ≤ 255
    · exact .inl hshort
    have hlong : 256 ≤ payload.length := by omega
    by_cases hm : m = 0
    · exact .inr ⟨by omega, .inl hm⟩
    by_cases hle : payload.length % 256 ≤ m
    · have hright := not_or.mp
        (mt (long_not_handled ha hlong hm hle) (not_not_intro h))
      exact .inr ⟨Nat.lt_of_not_le hright.1, .inr (.inr hright.2)⟩
    · exact .inr ⟨by omega, .inr (.inl (Nat.lt_of_not_le hle))⟩
  · intro hfits ts hts
    constructor
    · intro hpos hle
      rcases hfits with hshort | ⟨hlt, -⟩
      · exact stream_accepted ha hshort hpos hle hts
      · exact absurd hle (Nat.not_le_of_lt hlt)
    · intro hlt
      by_cases hno : m = 0 ∨ m < payload.length % 256
      · exact stream_refused ha hno hts
      obtain ⟨hm, hle⟩ := not_or.mp hno
      rcases hfits with hshort | ⟨-, hzero | hlow | hbad⟩
      · omega
      · exact absurd hzero hm
      · exact absurd hlow hle
      · exact long_refused ha (by omega) hm (Nat.le_of_not_lt hle) hbad hts

end Asked

/-- **A stream that fits is accepted and one that does not is refused, for all streams of up to
255 bytes and, of the longer ones, those that are refused for another reason.** -/
theorem streamPc_roundTrip (payload : List UInt8) (m : Nat) (b : Bridge.World (List UInt8))
    (a : Atmega.World) (buffer : List UInt8) (hidle : a.g.Idle) (hrx : a.rx = [])
    (hroom : m ≤ buffer.length) :
    Ends (Bridge.sem Bridge.queued) (Bridge.writeStreamFrame payload payload.length) b
      fun _ b' => ∃ frame, b'.tx = b.tx ++ frame ∧
        Ends Atmega.sem (Atmega.gbridgeRecvStream buffer m) a fun _ a₁ =>
          (StreamHandled payload m frame a₁ ↔ StreamFits payload m) := by
  refine (writeStreamFrame_ends payload b).mono fun _ b' htx => ⟨_, htx, ?_⟩
  exact (recvStream_asked hidle hrx hroom).mono fun _ a₁ ha => streamHandled_iff ha

theorem streamPc_roundTrip_two :
    Ends (Bridge.sem Bridge.queued) (Bridge.writeStreamFrame [7, 9] 2) idleBridge fun _ b' =>
        ∃ frame, b'.tx = [] ++ frame ∧
          Ends Atmega.sem (Atmega.gbridgeRecvStream [0, 0, 0] 3) idleWorld fun _ a₁ =>
            (StreamHandled [7, 9] 3 frame a₁ ↔ StreamFits [7, 9] 3) :=
  streamPc_roundTrip [7, 9] 3 _ idleWorld [0, 0, 0] ⟨rfl, rfl, rfl⟩ rfl (by decide)

/-- **A stream of 256 bytes is not accepted**, though there is room for it. -/
theorem streamPc_roundTrip_fails :
    ¬ ∀ (payload : List UInt8) (m : Nat) (b : Bridge.World (List UInt8)) (a : Atmega.World)
      (buffer : List UInt8), payload.length ≤ 0xFFFF → m ≤ 0xFFFF → a.g.Idle → a.rx = [] →
      m ≤ buffer.length →
      Ends (Bridge.sem Bridge.queued) (Bridge.writeStreamFrame payload payload.length) b
        fun _ b' => ∃ frame, b'.tx = b.tx ++ frame ∧
          Ends Atmega.sem (Atmega.gbridgeRecvStream buffer m) a fun _ a₁ =>
            StreamHandled payload m frame a₁ := by
  intro h
  let payload : List UInt8 := List.replicate 256 1
  have hlen : payload.length = 256 := List.length_replicate
  have hidle : idleWorld.g.Idle := ⟨rfl, rfl, rfl⟩
  have hends :=
    h payload 256 idleBridge idleWorld payload (by rw [hlen]; decide) (by decide) hidle rfl
    (Nat.le_of_eq hlen.symm)
  obtain ⟨_, b', he⟩ := hends.1
  obtain ⟨frame, htx, hasked⟩ := hends.2 _ b' he
  obtain rfl : frame = streamFrame Cmd.streamPc payload :=
    List.append_cancel_left (htx.symm.trans ((writeStreamFrame_ends payload idleBridge).2 _ b' he))
  obtain ⟨_, a₁, he₁⟩ := hasked.1
  have ha : Asked 256 a₁ :=
    (recvStream_asked hidle rfl (Nat.le_of_eq hlen.symm)).2 _ a₁ he₁
  have hfits := (streamHandled_iff ha).mp (hasked.2 _ a₁ he₁)
  rcases hfits with hshort | ⟨hlt, -⟩ <;> omega

end StreamPc

end GBridge

/-
# Every acknowledged request is answered

The adapter waits for its answer without a timeout, so a request that the bridge has taken and not
answered hangs it.  This file follows `gbridge_prot_ma_loop` through each of its handlers, on a port
that may answer anything, and says what has been written to the port at the end.

What is written is a sequence of packets (`Packet`); no two sequences are written alike
(`encodeAll_inj`), so that it makes sense to count the DATA_PC packets among them.

Each handler looks at the size of the request first (`Request.turnedAway`), and those that get
through end in `gbridge_cmd_data` with their own command byte (`wpS_reply`).  Two have more to them:
`recv_cmd_sock_send` receives a stream before it makes its call, and returns without an answer if
`gbridge_recv_stream` fails; `recv_cmd_sock_recv` sends a stream after its answer.

`answered_iff` is the result: the request is answered, exactly once and with its own command byte,
if and only if it is well formed and is not followed by a stream that announces more than the
`0x200` bytes there is room for.  All other requests are dropped in silence.
-/
import GBridge.Bridge.Spec

namespace GBridge.Bridge

open Prog Bytes

/-! ## 1. What the bridge writes -/

/-- A packet written to the port. -/
inductive Packet where
  /-- An acknowledgement, as the byte it is. -/
  | ack (b : UInt8)
  | dataPc (payload : List UInt8)
  | streamPc (payload : List UInt8)
deriving DecidableEq

namespace Packet

/-- Acknowledgements have their top bit set, and the lengths fit their fields. -/
def Wf : Packet → Prop
  | .ack b => 0x80 ≤ b
  | .dataPc payload => payload.length < 256
  | .streamPc payload => payload.length < 65536

def encode : Packet → List UInt8
  | .ack b => [b]
  | .dataPc payload => dataFrame Cmd.dataPc payload
  | .streamPc payload => streamFrame Cmd.streamPc payload

def isDataPc : Packet → Bool
  | .dataPc _ => true
  | _ => false

def encodeAll (ps : List Packet) : List UInt8 := ps.flatMap encode

@[simp] theorem encodeAll_nil : encodeAll [] = [] := rfl

@[simp] theorem encodeAll_cons (p : Packet) (ps : List Packet) :
    encodeAll (p :: ps) = p.encode ++ encodeAll ps := rfl

theorem encode_ne_nil (p : Packet) : p.encode ≠ [] := by
  cases p <;> simp [encode, dataFrame, streamFrame]

/-- What is written for a payload says where it ends. -/
theorem payload_inj {as bs xs ys : List UInt8} (hlen : as.length = bs.length)
    (h : (as ++ checksumBytes as) ++ xs = (bs ++ checksumBytes bs) ++ ys) :
    as = bs ∧ xs = ys := by
  have hsame : (as ++ checksumBytes as).length = (bs ++ checksumBytes bs).length := by
    simp [checksumBytes, hlen]
  obtain ⟨h1, h2⟩ := List.append_inj h hsame
  exact ⟨(List.append_inj h1 hlen).1, h2⟩

theorem encode_append_inj {p q : Packet} (hp : p.Wf) (hq : q.Wf) {xs ys : List UInt8}
    (h : p.encode ++ xs = q.encode ++ ys) : p = q ∧ xs = ys := by
  have hack : ∀ {b : UInt8}, 0x80 ≤ b → b ≠ Cmd.dataPc ∧ b ≠ Cmd.streamPc := by
    intro b hb
    constructor <;> rintro rfl <;> exact absurd hb (by decide)
  cases p with
  | ack b =>
    cases q with
    | ack c => simpa [encode] using h
    | dataPc bs => exact absurd (List.cons.inj h).1 (hack hp).1
    | streamPc bs => exact absurd (List.cons.inj h).1 (hack hp).2
  | dataPc as =>
    cases q with
    | ack c => exact absurd (List.cons.inj h).1.symm (hack hq).1
    | dataPc bs =>
      simp only [encode, dataFrame, List.cons_append, List.cons.injEq, true_and] at h
      have hlen : as.length = bs.length := by
        have hn := congrArg UInt8.toNat h.1
        have ha : as.length < 256 := hp
        have hb : bs.length < 256 := hq
        simp only [UInt8.toNat_ofNat'] at hn
        omega
      obtain ⟨rfl, hrest⟩ := payload_inj hlen h.2
      exact ⟨rfl, hrest⟩
    | streamPc bs => exact absurd (List.cons.inj h).1 (by decide)
  | streamPc as =>
    cases q with
    | ack c => exact absurd (List.cons.inj h).1.symm (hack hq).2
    | dataPc bs => exact absurd (List.cons.inj h).1 (by decide)
    | streamPc bs =>
      simp only [encode, streamFrame, List.cons_append, List.cons.injEq, true_and] at h
      have hlen : as.length = bs.length := by
        have hn : be16 (hi as.length) (lo as.length) = be16 (hi bs.length) (lo bs.length) := by
          rw [h.1, h.2.1]
        have ha : as.length < 65536 := hp
        have hb : bs.length < 65536 := hq
        rw [be16_hi_lo, be16_hi_lo] at hn
        omega
      obtain ⟨rfl, hrest⟩ := payload_inj hlen h.2.2
      exact ⟨rfl, hrest⟩

/-- **No two sequences of packets are written alike.** -/
theorem encodeAll_inj : ∀ {ps qs : List Packet}, (∀ p ∈ ps, p.Wf) → (∀ q ∈ qs, q.Wf) →
    encodeAll ps = encodeAll qs → ps = qs
  | [], [], _, _, _ => rfl
  | [], q :: qs, _, _, h => absurd (List.append_eq_nil_iff.mp h.symm).1 q.encode_ne_nil
  | p :: ps, [], _, _, h => absurd (List.append_eq_nil_iff.mp h).1 p.encode_ne_nil
  | p :: ps, q :: qs, hp, hq, h => by
    obtain ⟨rfl, hrest⟩ := encode_append_inj (hp p List.mem_cons_self) (hq q List.mem_cons_self) h
    rw [encodeAll_inj (fun r hr => hp r (List.mem_cons_of_mem _ hr))
      (fun r hr => hq r (List.mem_cons_of_mem _ hr)) hrest]

end Packet

/-! ## 2. What is answered, on a run -/

/-- The state in which `gbridge_prot_ma_loop` finds a request: it has been received and
acknowledged, and `data_buf` holds it in front of whatever was there before. -/
def requested (request before : List UInt8) (progress : Nat) : State :=
  { connected := true, handshakeProgress := progress, waitingCmd := Cmd.none,
    dataBuf := request ++ before, dataSize := UInt8.ofNat request.length, dataReady := true }

/-- Exactly one DATA_PC packet was written, and its first byte is the request's. -/
def AnsweredOnce (request written : List UInt8) : Prop :=
  ∃ ps, (∀ p ∈ ps, p.Wf) ∧ written = Packet.encodeAll ps ∧
    ∃ cmd body, request.head? = some cmd ∧ ps.filter Packet.isDataPc = [.dataPc (cmd :: body)]

/-- The requests the handlers do not turn away; addresses are judged by `address_read`. -/
def WellFormed : List UInt8 → Prop
  | [] => False
  | cmd :: args =>
    let addrlen := (addressRead (args.drop 1) (args.length - 1)).1
    (cmd = ProtMa.cmdOpen ∧ args.length = 5) ∨
    ((cmd = ProtMa.cmdClose ∨ cmd = ProtMa.cmdListen ∨ cmd = ProtMa.cmdAccept) ∧
      args.length = 1) ∨
    (cmd = ProtMa.cmdConnect ∧ 1 ≤ args.length ∧ 1 < addrlen ∧ args.length = 1 + addrlen) ∨
    (cmd = ProtMa.cmdSend ∧ 1 ≤ args.length ∧ addrlen ≠ 0) ∨
    (cmd = ProtMa.cmdRecv ∧ args.length = 3)

/-- The requests that are answered. -/
def Answerable (request : List UInt8) (reads : List ReadRes) : Prop :=
  WellFormed request ∧ ¬ (request.head? = some ProtMa.cmdSend ∧ Oversize 0x200 reads)

/-! ## 3. The handlers -/

/-- How a handler leaves things: a request that can be answered is answered, or the link is
down; any other is passed over in silence, and the link stays up. -/
def Settled (request : List UInt8) (reads : List ReadRes) (w : World (List ReadRes)) : Prop :=
  Answerable request reads ∧ (w.g.connected = true → AnsweredOnce request w.tx) ∨
    ¬ Answerable request reads ∧ w.g.connected = true ∧ w.tx = []

/-- One answer, and nothing else but acknowledgements and streams. -/
theorem answeredOnce {cmd : UInt8} {body : List UInt8} (args : List UInt8) (as bs : List Packet)
    (has : ∀ p ∈ as, p.Wf ∧ p.isDataPc = false) (hbs : ∀ p ∈ bs, p.Wf ∧ p.isDataPc = false)
    (hbody : (cmd :: body).length ≤ maxDataSize) :
    AnsweredOnce (cmd :: args)
      (Packet.encodeAll as ++ dataFrame Cmd.dataPc (cmd :: body) ++ Packet.encodeAll bs) := by
  have hnone : ∀ {ps : List Packet}, (∀ p ∈ ps, p.Wf ∧ p.isDataPc = false) →
      ps.filter Packet.isDataPc = [] := fun h =>
    List.filter_eq_nil_iff.mpr fun p hp => by simp [(h p hp).2]
  refine ⟨as ++ .dataPc (cmd :: body) :: bs, ?_, ?_, cmd, body, rfl, ?_⟩
  · intro p hp
    rcases List.mem_append.mp hp with h | h
    · exact (has p h).1
    · rcases List.mem_cons.mp h with rfl | h
      · exact Nat.lt_of_le_of_lt hbody (by decide)
      · exact (hbs p h).1
  · simp [Packet.encodeAll, Packet.encode]
  · rw [List.filter_append, List.filter_cons_of_pos (by rfl), hnone has, hnone hbs]
    rfl

/-- Silence is no answer. -/
theorem not_answeredOnce_nil {request : List UInt8} : ¬ AnsweredOnce request [] := by
  rintro ⟨ps, -, hwritten, cmd, body, -, hfilter⟩
  cases ps with
  | nil => exact absurd hfilter (by simp)
  | cons p ps => exact p.encode_ne_nil (List.append_eq_nil_iff.mp hwritten.symm).1

section Handlers

variable {cmd : UInt8} {args before : List UInt8} {reads : List ReadRes}
  {w : World (List ReadRes)} {d : GbridgeData}

/-- The packet the handlers are given. -/
structure Request (cmd : UInt8) (args before : List UInt8) (reads : List ReadRes)
    (d : GbridgeData) (w : World (List ReadRes)) : Prop where
  size : d.size.toNat = args.length + 1
  buffer : d.buffer = cmd :: (args ++ before)
  port : w.port = reads
  connected : w.g.connected = true
  idle : w.g.waitingCmd = Cmd.none
  silent : w.tx = []

theorem Request.size_eq (h : Request cmd args before reads d w) {n : UInt8} :
    d.size = n ↔ args.length + 1 = n.toNat := by
  rw [← h.size, UInt8.toNat_inj]

/-- A request that is turned away. -/
theorem Request.turnedAway (h : Request cmd args before reads d w)
    (hno : ¬ Answerable (cmd :: args) reads) : Settled (cmd :: args) reads w :=
  .inr ⟨hno, h.connected, h.silent⟩

/-- The end of most handlers: a call of `socket_impl_*`, and its result as an answer. -/
theorem wpS_reply (h : Request cmd args before reads d w)
    (hyes : Answerable (cmd :: args) reads) {c : SockCall} (body : c.Res → List UInt8)
    (hbody : ∀ r, (body r).length < 4) :
    wpS (do let res ← sock c; gbridgeCmdData (.ofList (cmd :: body res)); return true)
      (fun _ => Settled (cmd :: args) reads) w := by
  refine wpS_bind (wpS_sock fun r _ => wpS_bind ?_)
  have hlen : (cmd :: body r).length ≤ maxDataSize :=
    Nat.le_trans (Nat.succ_le_succ (Nat.le_of_lt (hbody r))) (by decide)
  refine wpS_gbridgeCmdData hlen h.connected h.idle fun w' _ htx => .inl ⟨hyes, fun _ => ?_⟩
  have hone := answeredOnce args [] [] (by simp) (by simp) hlen
  rw [htx, h.silent]
  simpa using hone

theorem wpS_recvCmdSockOpen (h : Request ProtMa.cmdOpen args before reads d w) :
    wpS (recvCmdSockOpen d) (fun _ => Settled (ProtMa.cmdOpen :: args) reads) w := by
  have hyes : Answerable (ProtMa.cmdOpen :: args) reads ↔ args.length = 5 := by
    simp [Answerable, WellFormed, ProtMa.cmdOpen, ProtMa.cmdClose, ProtMa.cmdConnect,
      ProtMa.cmdListen, ProtMa.cmdAccept, ProtMa.cmdSend, ProtMa.cmdRecv]
  have h6 : d.size = 6 ↔ args.length = 5 := h.size_eq.trans (by simp)
  refine wpS_ite (fun hne => h.turnedAway fun ha => hne (h6.mpr (hyes.mp ha))) fun heq => ?_
  exact wpS_reply h (hyes.mpr (h6.mp (not_not.mp heq))) _ (by simp)

theorem wpS_recvCmdSockClose (h : Request ProtMa.cmdClose args before reads d w) :
    wpS (recvCmdSockClose d) (fun _ => Settled (ProtMa.cmdClose :: args) reads) w := by
  have hyes : Answerable (ProtMa.cmdClose :: args) reads ↔ args.length = 1 := by
    simp [Answerable, WellFormed, ProtMa.cmdOpen, ProtMa.cmdClose, ProtMa.cmdConnect,
      ProtMa.cmdListen, ProtMa.cmdAccept, ProtMa.cmdSend, ProtMa.cmdRecv]
  have h2 : d.size = 2 ↔ args.length = 1 := h.size_eq.trans (by simp)
  refine wpS_ite (fun hne => h.turnedAway fun ha => hne (h2.mpr (hyes.mp ha))) fun heq => ?_
  exact wpS_reply h (hyes.mpr (h2.mp (not_not.mp heq))) (fun _ => []) (by simp)

/-- LISTEN and ACCEPT. -/
theorem wpS_recvCmdSockFlag {call : Nat → SockCall} {flag : (n : Nat) → (call n).Res → Bool}
    (hcmd : cmd = ProtMa.cmdListen ∨ cmd = ProtMa.cmdAccept)
    (h : Request cmd args before reads d w) :
    wpS (recvCmdSockFlag cmd call flag d) (fun _ => Settled (cmd :: args) reads) w := by
  have hyes : Answerable (cmd :: args) reads ↔ args.length = 1 := by
    rcases hcmd with rfl | rfl <;>
    simp [Answerable, WellFormed, ProtMa.cmdOpen, ProtMa.cmdClose, ProtMa.cmdConnect,
      ProtMa.cmdListen, ProtMa.cmdAccept, ProtMa.cmdSend, ProtMa.cmdRecv]
  have h2 : d.size = 2 ↔ args.length = 1 := h.size_eq.trans (by simp)
  refine wpS_ite (fun hne => h.turnedAway fun ha => hne (h2.mpr (hyes.mp ha))) fun heq => ?_
  exact wpS_reply h (hyes.mpr (h2.mp (not_not.mp heq))) _ (by simp)

theorem Request.lt_two (h : Request cmd args before reads d w) : d.size < 2 ↔ args.length < 1 := by
  rw [UInt8.lt_iff_toNat_lt, h.size]
  exact Nat.succ_lt_succ_iff

/-- The handlers decode the address of the request itself. -/
theorem Request.addressRead_eq (h : Request cmd args before reads d w) (hargs : 1 ≤ args.length) :
    addressRead (d.buffer.drop 2) (d.size.toNat - 2) =
      addressRead (args.drop 1) (args.length - 1) := by
  have hdrop : d.buffer.drop 2 = args.drop 1 ++ before := by
    rw [h.buffer, List.drop_succ_cons, List.drop_append_of_le_length hargs]
  have hsize : d.size.toNat - 2 = args.length - 1 := by
    rw [h.size]
    omega
  rw [hdrop, hsize]
  exact addressRead_append (by rw [List.length_drop])

theorem wpS_recvCmdSockConnect (h : Request ProtMa.cmdConnect args before reads d w) :
    wpS (recvCmdSockConnect d) (fun _ => Settled (ProtMa.cmdConnect :: args) reads) w := by
  have hyes : Answerable (ProtMa.cmdConnect :: args) reads ↔ 1 ≤ args.length ∧
      1 < (addressRead (args.drop 1) (args.length - 1)).1 ∧
        args.length = 1 + (addressRead (args.drop 1) (args.length - 1)).1 := by
    simp [Answerable, WellFormed, ProtMa.cmdOpen, ProtMa.cmdClose, ProtMa.cmdConnect,
      ProtMa.cmdListen, ProtMa.cmdAccept, ProtMa.cmdSend, ProtMa.cmdRecv]
  refine wpS_ite (fun hlt => h.turnedAway fun ha => ?_) fun hge => ?_
  · exact absurd (hyes.mp ha).1 (Nat.not_le_of_lt (h.lt_two.mp hlt))
  have hargs : 1 ≤ args.length := Nat.le_of_not_lt fun hlt => hge (h.lt_two.mpr hlt)
  rw [h.addressRead_eq hargs]
  generalize addressRead (args.drop 1) (args.length - 1) = r at hyes
  obtain ⟨addrlen, addr⟩ := r
  refine wpS_ite (fun hle => h.turnedAway fun ha => ?_) fun hgt => ?_
  · exact absurd (hyes.mp ha).2.1 (Nat.not_lt_of_le hle)
  refine wpS_ite (fun hne => h.turnedAway fun ha => hne ?_) fun heq => ?_
  · have hlen : args.length = 1 + addrlen := (hyes.mp ha).2.2
    rw [h.size]
    omega
  · have hlen : d.size.toNat = 2 + addrlen := not_not.mp heq
    rw [h.size] at hlen
    exact wpS_reply h (hyes.mpr ⟨hargs, Nat.lt_of_not_le hgt, by simp only; omega⟩) _ (by simp)

theorem wpS_recvCmdSockSend (h : Request ProtMa.cmdSend args before reads d w) :
    wpS (recvCmdSockSend d) (fun _ => Settled (ProtMa.cmdSend :: args) reads) w := by
  have hyes : Answerable (ProtMa.cmdSend :: args) reads ↔ (1 ≤ args.length ∧
      (addressRead (args.drop 1) (args.length - 1)).1 ≠ 0) ∧ ¬ Oversize 0x200 reads := by
    simp [Answerable, WellFormed, ProtMa.cmdOpen, ProtMa.cmdClose, ProtMa.cmdConnect,
      ProtMa.cmdListen, ProtMa.cmdAccept, ProtMa.cmdSend, ProtMa.cmdRecv]
  refine wpS_ite (fun hlt => h.turnedAway fun ha => ?_) fun hge => ?_
  · exact absurd (hyes.mp ha).1.1 (Nat.not_le_of_lt (h.lt_two.mp hlt))
  have hargs : 1 ≤ args.length := Nat.le_of_not_lt fun hlt => hge (h.lt_two.mpr hlt)
  rw [h.addressRead_eq hargs]
  generalize addressRead (args.drop 1) (args.length - 1) = r at hyes
  obtain ⟨addrlen, addr⟩ := r
  refine wpS_ite (fun hzero => h.turnedAway fun ha => (hyes.mp ha).1.2 hzero) fun haddr => ?_
  have hwf : 1 ≤ args.length ∧ addrlen ≠ 0 := ⟨hargs, haddr⟩
  refine wpS_bind (wpS_gbridgeRecvStream h.connected (fun r w₁ hr hfit hg htx => ?_)
    (fun r w₁ hr hover hg htx => ?_) fun r w₁ hr hfit hg htx => ?_)
  · have hyes' := hyes.mpr ⟨hwf, h.port ▸ hfit⟩
    refine wpS_ite (fun hneg => absurd hr (Int.not_le.mpr hneg)) fun _ => ?_
    refine wpS_bind (wpS_sock fun res _ => wpS_bind ?_)
    refine wpS_gbridgeCmdData (by simp [maxDataSize]) (hg ▸ h.connected) (hg ▸ h.idle)
      fun w₂ _ htx' => .inl ⟨hyes', fun _ => ?_⟩
    have hlen :
        [ProtMa.cmdSend, intByte (res >>> (8 : Nat)), intByte res].length ≤ maxDataSize := by
      simp [maxDataSize]
    have hone := answeredOnce args [.ack (ack Cmd.stream)] []
      (by simp [Packet.Wf, Packet.isDataPc]; decide) (by simp) hlen
    rw [htx', htx, h.silent]
    simpa [Packet.encode] using hone
  · refine wpS_ite (fun _ => .inr ⟨fun ha => (hyes.mp ha).2 (h.port ▸ hover), ?_, ?_⟩)
      fun hpos => absurd (hr ▸ by decide) hpos
    · exact hg ▸ h.connected
    · exact htx.trans h.silent
  · refine wpS_ite (fun _ => .inl ⟨hyes.mpr ⟨hwf, h.port ▸ hfit⟩, fun hup => ?_⟩)
      fun hpos => absurd (hr ▸ by decide) hpos
    rw [hg.connected] at hup
    exact absurd hup (by simp)

theorem wpS_recvCmdSockRecv (h : Request ProtMa.cmdRecv args before reads d w) :
    wpS (recvCmdSockRecv d) (fun _ => Settled (ProtMa.cmdRecv :: args) reads) w := by
  have hyes : Answerable (ProtMa.cmdRecv :: args) reads ↔ args.length = 3 := by
    simp [Answerable, WellFormed, ProtMa.cmdOpen, ProtMa.cmdClose, ProtMa.cmdConnect,
      ProtMa.cmdListen, ProtMa.cmdAccept, ProtMa.cmdSend, ProtMa.cmdRecv]
  have h4 : d.size = 4 ↔ args.length = 3 := h.size_eq.trans (by simp)
  refine wpS_ite (fun hne => h.turnedAway fun ha => hne (h4.mpr (hyes.mp ha))) fun heq => ?_
  have hyes' := hyes.mpr (h4.mp (not_not.mp heq))
  refine wpS_bind (wpS_sock fun r hallow => wpS_bind ?_)
  have hlen : (ProtMa.cmdRecv :: intByte (r.res >>> (8 : Nat)) :: intByte r.res ::
      addressWrite (some r.addr)).length ≤ maxDataSize := by
    have := (addressWrite_length (some r.addr)).2
    simp only [List.length_cons, maxDataSize]
    omega
  refine wpS_gbridgeCmdData hlen h.connected h.idle fun w₁ hg htx => wpS_bind ?_
  refine wpS_get (wpS_ite (fun hdown => ?_) fun _ => ?_)
  · rw [hg, h.connected] at hdown
    exact absurd hdown (by simp)
  refine wpS_ite (fun _ => .inl ⟨hyes', fun _ => ?_⟩) fun hpos => wpS_bind ?_
  · have hone := answeredOnce args [] [] (by simp) (by simp) hlen
    rw [htx, h.silent]
    simpa using hone
  · obtain ⟨hsize, hdata⟩ := hallow
    have hfit : r.res.toNat ≤ r.data.length := by omega
    refine wpS_gbridgeCmdStream hfit (hg ▸ h.connected) (hg ▸ h.idle)
      fun w₂ _ htx' => .inl ⟨hyes', fun _ => ?_⟩
    have hone := answeredOnce args [] [.streamPc (r.data.take r.res.toNat)] (by simp)
      (by simp only [List.mem_singleton, forall_eq, Packet.Wf, Packet.isDataPc, and_true]
          rw [List.length_take_of_le hfit]
          have := be16_lt (d.buffer.getD 2 0) (d.buffer.getD 3 0)
          omega) hlen
    rw [htx', htx, h.silent]
    simpa [Packet.encode] using hone

theorem wpS_handleRequest (h : Request cmd args before reads d w) :
    wpS (handleRequest d) (fun _ => Settled (cmd :: args) reads) w := by
  have hcmd : d.buffer.getD 0 0 = cmd := by
    rw [h.buffer]
    rfl
  unfold handleRequest
  rw [hcmd]
  refine wpS_ite (fun heq => ?_) fun h0 => ?_
  · subst heq; exact wpS_recvCmdSockOpen h
  refine wpS_ite (fun heq => ?_) fun h1 => ?_
  · subst heq; exact wpS_recvCmdSockClose h
  refine wpS_ite (fun heq => ?_) fun h2 => ?_
  · subst heq; exact wpS_recvCmdSockConnect h
  refine wpS_ite (fun heq => ?_) fun h3 => ?_
  · subst heq; exact wpS_recvCmdSockFlag (.inl rfl) h
  refine wpS_ite (fun heq => ?_) fun h4 => ?_
  · subst heq; exact wpS_recvCmdSockFlag (.inr rfl) h
  refine wpS_ite (fun heq => ?_) fun h5 => ?_
  · subst heq; exact wpS_recvCmdSockSend h
  refine wpS_ite (fun heq => ?_) fun h6 => ?_
  · subst heq; exact wpS_recvCmdSockRecv h
  refine h.turnedAway fun ha => ?_
  have hwf := ha.1
  simp only [WellFormed, h0, h1, h2, h3, h4, h5, h6, false_and, or_self] at hwf

end Handlers

/-! ## 4. The result -/

theorem wpS_gbridgeProtMaLoop {request before : List UInt8} {progress : Nat}
    {reads : List ReadRes} (hlen : request.length ≤ maxDataSize) :
    wpS gbridgeProtMaLoop (fun _ => Settled request reads)
      { g := requested request before progress, port := reads } := by
  have hlt : request.length < 256 := Nat.lt_of_le_of_lt hlen (by decide)
  have hsize : (UInt8.ofNat request.length).toNat = request.length := by
    rw [UInt8.toNat_ofNat', Nat.mod_eq_of_lt hlt]
  have hdone : ∀ w : World (List ReadRes), Settled request reads w →
      wpS gbridgeRecvDataDone (fun _ => Settled request reads) w := fun w h => wpS_modify h
  refine wpS_bind (wpS_get ?_)
  refine wpS_ite (fun hzero => ?_) fun hpos => wpS_bind ?_
  · refine hdone _ (.inr ⟨fun ha => ?_, rfl, rfl⟩)
    cases request with
    | nil => exact ha.1
    | cons cmd args =>
      have hzero' : (cmd :: args).length < 1 := hsize ▸ hzero
      exact absurd hzero' (by simp)
  · cases request with
    | nil => exact absurd Nat.zero_lt_one hpos
    | cons cmd args =>
      have hrequest : Request cmd args before reads (requested (cmd :: args) before progress).data
          { g := requested (cmd :: args) before progress, port := reads } :=
        ⟨hsize, rfl, rfl, rfl, rfl, rfl⟩
      exact wpre_mono (fun _ => hdone) (wpS_handleRequest hrequest)

/-- **A request is answered exactly if it is well formed and no oversized stream follows it.**
The request is any packet of at most `GBRIDGE_MAX_DATA_SIZE` bytes; the port and the socket calls
answer anything. -/
theorem answered_iff (request before : List UInt8) (progress : Nat) (reads : List ReadRes)
    (hlen : request.length ≤ maxDataSize) (w : World (List ReadRes))
    (hrun : Eval (sem scripted) gbridgeProtMaLoop
      { g := requested request before progress, port := reads } () w) :
    (w.g.connected = true → AnsweredOnce request w.tx) ↔ Answerable request reads := by
  have hsettled := wpre_eval (Spec.demonic_sound _) (wpS_gbridgeProtMaLoop hlen) hrun
  rcases hsettled with ⟨hyes, hanswered⟩ | ⟨hno, hup, hsilent⟩
  · exact ⟨fun _ => hyes, fun _ => hanswered⟩
  · refine ⟨fun h => ?_, fun hyes => absurd hyes hno⟩
    have hone := h hup
    rw [hsilent] at hone
    exact absurd hone not_answeredOnce_nil

/-- What the adapter sends to close connection 1, and the acknowledgement of the answer. -/
theorem answered_close :
    ∃ w : World (List ReadRes), w.tx = dataFrame Cmd.dataPc [ProtMa.cmdClose] ∧
      ((w.g.connected = true → AnsweredOnce [ProtMa.cmdClose, 1] w.tx) ↔
        Answerable [ProtMa.cmdClose, 1] [.bytes [ack Cmd.dataPc]]) := by
  have hrun : (run answer 10 gbridgeProtMaLoop
      { g := requested [ProtMa.cmdClose, 1] [] 0, port := [.bytes [ack Cmd.dataPc]] }).map
        (·.2.tx) = some (dataFrame Cmd.dataPc [ProtMa.cmdClose]) := by decide +kernel
  obtain ⟨⟨_, w⟩, hrun, htx⟩ := Option.map_eq_some_iff.mp hrun
  exact ⟨w, htx, answered_iff _ [] 0 _ (by decide) w (run_eval answer_sound hrun)⟩

/-- **Not every request is answered**: `mobile_impl_sock_connect(conn, NULL)` sends `02 00 00`,
and `recv_cmd_sock_connect` returns without a reply, the link up. -/
theorem answered_fails :
    ¬ ∀ (request before : List UInt8) (progress : Nat) (reads : List ReadRes)
        (w : World (List ReadRes)), request.length ≤ maxDataSize →
      Eval (sem scripted) gbridgeProtMaLoop
        { g := requested request before progress, port := reads } () w →
      w.g.connected = true → AnsweredOnce request w.tx := by
  intro h
  have hrun : (run answer 10 gbridgeProtMaLoop
      { g := requested [ProtMa.cmdConnect, 0, MobileAddr.typeNone] [] 0, port := [] }).map
        (fun r => (r.2.g.connected, r.2.tx)) = some (true, []) := by decide +kernel
  obtain ⟨⟨_, w⟩, hrun, hw⟩ := Option.map_eq_some_iff.mp hrun
  obtain ⟨hup, hsilent⟩ := Prod.mk.inj hw
  have hone := h _ [] 0 [] w (by decide) (run_eval answer_sound hrun) hup
  rw [hsilent] at hone
  exact not_answeredOnce_nil hone

end GBridge.Bridge

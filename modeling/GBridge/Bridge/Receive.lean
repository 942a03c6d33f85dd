/-
# The receivers of the bridge

The bridge receives a frame in one go: each of its reads asks for a piece with the long timeout and
gets it (`wpB_recvData`).  Behind the last piece there is one decision, the checksum; a good frame
is acknowledged, a bad one resets the link.

There is one lemma for each function, `gbridge_recv_stream`, `recv_cmd_data` and
`recv_cmd_debug_line`, with the frame as the next bytes of the script; `wpB_gbridgeLoop` adds the
byte that begins it.  `receives_ends` is the same on a port whose bytes are there.
-/
import GBridge.Bridge.Play

namespace GBridge.Bridge

open Prog Duplex Bytes

section Receive

variable {env : Env} {t : Bool} {v : Play} {b : UInt8} {after : Share UInt8 SockCall}
  {sh : List UInt8 → Share UInt8 SockCall}

/-! ## 1. Pieces -/

theorem wpB_init {Q : Unit → Play → Prop} (hstrict : env.strict = false)
    (h : Q () { v with g := v.g.init }) : wpB env t gbridgeInit Q v := by
  refine wpB_modify (fun htrue => ?_) h
  rw [hstrict] at htrue
  exact absurd htrue (by decide)

/-- `recv_data` gets the piece it asks for. -/
theorem wpB_recvData (hsh : Feed sh b after) {dst : Dst} (bs : List UInt8) {todo : List UInt8}
    {Q : Option (List UInt8) → Play → Prop} (hshare : v.share = sh (bs ++ todo))
    (h : Q (some bs) { v with g := v.g.store bs dst, share := sh todo }) :
    wpB env t (recvData dst bs.length) Q v := by
  refine wpB_bind (wpB_read hsh hshare ?_)
  show wpB env t (if bs.length ≠ bs.length then
      (do eprint "recv_data: timed out\n"; gbridgeInit; return none) else return some bs) Q _
  exact wpB_ite (fun hne => absurd rfl hne) fun _ => h

/-! ## 2. STREAM -/

/-- The end of `gbridge_recv_stream`. -/
theorem wpB_recvStreamChecksum (hsh : Feed sh (ack Cmd.stream) after) {body : List UInt8}
    {h l : UInt8} {Q : Int × List UInt8 → Play → Prop} (hshare : v.share = sh [h, l])
    (hgood : be16 h l = GbridgeData.checksumData (.ofList body) →
      Q (body.length, body) { v with share := after })
    (hbad : be16 h l ≠ GbridgeData.checksumData (.ofList body) →
      env.strict = false ∧ Q (-1, body) { v with g := v.g.init, share := sh [] }) :
    wpB env t (recvStreamChecksum body) Q v := by
  refine wpB_bind (wpB_recvData hsh [h, l] hshare ?_)
  refine wpB_ite (fun hne => ?_) fun heq => ?_
  · obtain ⟨hstrict, hq⟩ := hbad hne
    exact wpB_bind (wpB_eprint (wpB_bind (wpB_init hstrict hq)))
  · exact wpB_bind (wpB_answer hsh rfl (hgood (not_not.mp heq)))

/-- **`gbridge_recv_stream`, of a stream that fits its buffer.** -/
theorem wpB_gbridgeRecvStream (hsh : Feed sh (ack Cmd.stream) after) {maxSize : Nat}
    {body : List UInt8} {hh ll h l : UInt8} {Q : Int × List UInt8 → Play → Prop}
    (hup : v.g.connected = true) (hlen : be16 hh ll = body.length) (hmax : body.length ≤ maxSize)
    (hshare : v.share = sh (Cmd.stream :: hh :: ll :: (body ++ [h, l])))
    (hgood : be16 h l = GbridgeData.checksumData (.ofList body) →
      Q (body.length, body) { v with share := after })
    (hbad : be16 h l ≠ GbridgeData.checksumData (.ofList body) →
      env.strict = false ∧ Q (-1, body) { v with g := v.g.init, share := sh [] }) :
    wpB env t (gbridgeRecvStream maxSize) Q v := by
  refine wpB_get ?_
  rw [hup]
  refine wpB_bind (wpB_recvData hsh [Cmd.stream] hshare ?_)
  refine wpB_ite (fun hne => absurd rfl hne) fun _ => ?_
  refine wpB_bind (wpB_recvData hsh [hh, ll] rfl ?_)
  refine wpB_ite (fun hlt => absurd (hlen ▸ hmax) (Nat.not_le_of_lt hlt)) fun _ => ?_
  have hsize : be16 ([hh, ll].getD 0 0) ([hh, ll].getD 1 0) = body.length := hlen
  rw [hsize]
  refine wpB_bind (wpB_recvData hsh body rfl ?_)
  exact wpB_recvStreamChecksum hsh rfl hgood hbad

/-! ## 3. DATA and DEBUG_LINE -/

/-- The variables when the packet has been stored. -/
def State.received (g : State) (len : UInt8) (body : List UInt8) : State :=
  { g with dataSize := len, dataBuf := body ++ g.dataBuf.drop body.length }

theorem State.checksumData_received (g : State) {len : UInt8} {body : List UInt8}
    (hlen : body.length = len.toNat) :
    (g.received len body).data.checksumData = sum16 0 body := by
  rw [GbridgeData.checksumData, GbridgeData.bytes]
  show sum16 0 ((body ++ g.dataBuf.drop body.length).take len.toNat) = _
  rw [← hlen, List.take_left]

/-- **`recv_cmd_data`.** -/
theorem wpB_recvCmdData (hsh : Feed sh (ack Cmd.data) after) {body : List UInt8}
    {len h l : UInt8} {Q : Unit → Play → Prop} (hup : v.g.connected = true)
    (hready : v.g.dataReady = false)
    (hlen : body.length = len.toNat) (hshare : v.share = sh (len :: (body ++ [h, l])))
    (hgood : be16 h l = sum16 0 body →
      Q () { v with g := { v.g.received len body with dataReady := true }, share := after })
    (hbad : be16 h l ≠ sum16 0 body → env.strict = false ∧
      Q () { v with g := (v.g.received len body).init, share := sh [] }) :
    wpB env t recvCmdData Q v := by
  refine wpB_get ?_
  rw [hready]
  refine wpB_bind (wpB_recvData hsh [len] hshare (wpB_get ?_))
  show wpB env t ((recvData .dataBuf len.toNat).bind _) Q _
  rw [← hlen]
  refine wpB_bind (wpB_recvData hsh body rfl (wpB_bind (wpB_recvData hsh [h, l] rfl ?_)))
  have hsum := v.g.checksumData_received hlen
  refine wpB_get (wpB_ite (fun hne => ?_) fun heq => ?_)
  · obtain ⟨hstrict, hq⟩ := hbad fun hgood => hne (hgood.trans hsum.symm)
    exact wpB_bind (wpB_eprint (wpB_init hstrict hq))
  · have hq := hgood ((not_not.mp heq).trans hsum)
    exact wpB_bind (wpB_modify (fun _ => hup) (wpB_answer hsh rfl hq))

theorem wpB_recvCmdDebugLine (hsh : Feed sh (ack Cmd.debugLine) after) {line : List UInt8}
    {len : UInt8} {Q : Unit → Play → Prop} (hlen : line.length = len.toNat)
    (hshare : v.share = sh (len :: line)) (hprinted : v.printed ++ [line] <+: env.lines)
    (h : Q () { v with printed := v.printed ++ [line], share := after }) :
    wpB env t recvCmdDebugLine Q v := by
  refine wpB_bind (wpB_recvData hsh [len] hshare ?_)
  show wpB env t ((recvData .scratch len.toNat).bind _) Q _
  rw [← hlen]
  have hline : sh line = sh (line ++ []) := by rw [List.append_nil]
  refine wpB_bind (wpB_recvData hsh line hline (wpB_bind (wpB_answer hsh rfl ?_)))
  exact ⟨hprinted, h⟩

/-! ## 4. `gbridge_loop` -/

/-- The functions `gbridge_loop` calls when a command has come. -/
theorem wpB_gbridgeLoop (hsh : Feed sh b after) {c : UInt8} {todo : List UInt8}
    {Q : Unit → Play → Prop} (hup : v.g.connected = true) (hidle : v.g.waitingCmd = Cmd.none)
    (hshare : v.share = sh (c :: todo))
    (hnone : env.prompt = false → ∀ patience, Costs env.counted True v.patience patience →
      Q () { v with patience })
    (h : wpB env t (if c = Cmd.debugLine then recvCmdDebugLine
      else if c = Cmd.data then recvCmdData else return ()) Q { v with share := sh todo }) :
    wpB env t gbridgeLoop Q v := by
  refine wpB_get (wpB_ite (fun _ => ?_) fun hdown => absurd hup hdown)
  refine wpB_bind (wpB_poll hsh hshare hnone ?_)
  exact wpB_get (wpB_ite (fun hne => absurd hidle hne) fun _ => h)

end Receive

/-! ## 5. On a port whose bytes are there -/

/-- What a receiver does with the share is what it does with the port: it has read the frame up
to some point and sent nothing, or it has read all of it and sent the acknowledgement. -/
theorem receives_ends {α : Type} {p : Code α} {b : UInt8} {frame rest : List UInt8}
    {w : World (List UInt8)} (Q Q' : α → State → Prop) (hport : w.port = frame ++ rest)
    (h : ∀ {sh : List UInt8 → Share UInt8 SockCall} {after : Share UInt8 SockCall} {v : Play},
      Feed sh b after → v.g = w.g → v.share = sh frame →
      wpB .atOnce true p (fun a v' => v'.share = after ∧ Q a v'.g ∨
        ∃ todo, v'.share = sh todo ∧ Q' a v'.g) v) :
    Ends (sem queued) p w fun a w' =>
      w'.port = rest ∧ w'.tx = w.tx ++ [b] ∧ Q a w'.g ∨ w'.tx = w.tx ∧ Q' a w'.g := by
  let sh := fun todo : List UInt8 =>
    Share.ofScript (todo ++ rest) (Ev.mine b :: ([] : List (Ev UInt8 SockCall Unit)))
  let after := Share.ofScript rest ([] : List (Ev UInt8 SockCall Unit))
  have hfeed : Feed sh b after := feed_older b rest []
  have his : Play.Is (w.tx ++ [b]) ⟨w.g, 0, [], 0, sh frame⟩ w := by
    refine ⟨rfl, ?_, [b], rfl, rfl⟩
    show (frame ++ rest) ++ [] = w.port
    rw [List.append_nil, hport]
  refine (wpre_ends (play_tracks _) his (h (v := ⟨w.g, 0, [], 0, sh frame⟩) hfeed rfl rfl)).mono ?_
  rintro a w' ⟨v', ⟨hg, hinp, due, hout, htx⟩, ⟨hshare, hq⟩ | ⟨todo, hshare, hq⟩⟩
  · rw [hshare] at hinp hout
    obtain rfl : due = [] := List.map_eq_nil_iff.mp hout.symm
    refine .inl ⟨?_, (List.append_nil _).symm.trans htx, hg ▸ hq⟩
    rw [← hinp]
    exact List.append_nil _
  · rw [hshare] at hout
    obtain rfl : [b] = due := Share.sends_inj hout
    exact .inr ⟨List.append_cancel_right htx, hg ▸ hq⟩

end GBridge.Bridge

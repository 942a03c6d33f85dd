/-
# Waiting, on a link without faults

The adapter waits by calling `gbridge_loop`: for an acknowledgement (`wpP_waitCmd`), for a packet
(`wpP_gbridgeRecvDataWait`), for a stream (`wpP_gbridgeRecvStreamWait`).  On a link that is not
reset and on which no timeout passes each of these loops comes to an end with what is waited for.  A
call of `gbridge_loop` that does not find enough uses up patience, and every other call takes a byte
that is older than the script, or goes on with the script; so a loop has a measure (`wpP_while`).

Bytes older than the script can only be left over from the handshake (`LeftOver`).  They are thrown
away, one by one, by the first loop that meets them, for none of them is a command or the
acknowledgement that is waited for.
-/
import GBridge.Atmega.Schedule
import GBridge.Atmega.Send

namespace GBridge.Atmega

open Prog Duplex Bytes

/-! ## 1. The link -/

/-- The link is not reset, no timeout passes, and a poll that comes too early uses up patience. -/
def Env.faultless : Env := ⟨true, fun _ => True, true⟩

/-- These bytes are left over from the handshake. -/
def LeftOver (pre : List UInt8) : Prop := ∀ c ∈ pre, c ∈ handshake

/-- No byte of the handshake is a command. -/
theorem handshake_quiet : ∀ c ∈ handshake,
    c ≠ Cmd.none ∧ c ≠ Cmd.reset ∧ c ≠ Cmd.dataPc ∧ c ≠ Cmd.streamPc := by
  intro c hc
  simp only [handshake, List.mem_cons, List.not_mem_nil, or_false] at hc
  rcases hc with rfl | rfl | rfl | rfl <;> decide

theorem leftOver_nil : LeftOver [] := fun _ h => nomatch h

theorem LeftOver.tail {c : UInt8} {pre : List UInt8} (h : LeftOver (c :: pre)) : LeftOver pre :=
  fun c' hc' => h c' (List.mem_cons_of_mem _ hc')

/-- Between two calls: the link is up, nothing is under way and nothing is expected. -/
structure State.Ready (g : State) : Prop where
  idle : g.Idle
  empty : g.dataReady = false
  disarmed : g.streamMaxSize = 0
  room : g.dataBuf.length = maxDataSize

section Wait

variable {M : Type} {v : Play} {pre : List UInt8} {G : List (Ev UInt8 Result M)}

/-- A loop of `gbridge_loop`, with a measure. -/
theorem wpP_while {env : Env} {c : State → Bool} {Q : Unit → Play → Prop} (I : Nat → Play → Prop)
    (n : Nat) (h0 : I n v)
    (hstep : ∀ n v, I n v → (c v.g = true →
      wpP env true gbridgeLoop (fun _ v' => ∃ m, m < n ∧ I m v') v) ∧ (c v.g = false → Q () v)) :
    wpP env true (.whileM (do return c (← get)) gbridgeLoop) Q v := by
  refine wpre_whileM I n h0 fun n v hn => wpP_get ?_
  obtain ⟨hgo, hstop⟩ := hstep n v hn
  show if c v.g = true then _ else _
  split
  · rename_i htrue
    refine wpre_mono ?_ (hgo htrue)
    rintro _ v' ⟨m, hlt, hm⟩
    exact ⟨m, fun _ => hlt, hm⟩
  · rename_i hfalse
    exact hstop (Bool.not_eq_true _ ▸ hfalse)

/-! ## 2. Acknowledgements -/

/-- What a call of `gbridge_loop` may do while an acknowledgement is waited for: find nothing, throw
away a byte that is older, or find the acknowledgement. -/
structure AckOutcome (v : Play) (cmd : UInt8) (pre : List UInt8) (G : List (Ev UInt8 Result M))
    (Q : Unit → Play → Prop) : Prop where
  early : ∀ v', v'.g = v.g → v'.patience < v.patience → v'.share = v.share → Q () v'
  older : ∀ c pre', pre = c :: pre' → ∀ v', v'.g = v.g → v'.patience ≤ v.patience →
    v'.share = .ofScript pre' (.theirs (ack cmd) :: G) → Q () v'
  acked : pre = [] → ∀ v', v'.g = { v.g with waitingCmd := Cmd.none } → v'.share = .ofScript [] G →
    Q () v'

/-- **A call of `gbridge_loop` while an acknowledgement is waited for.** -/
theorem wpP_gbridgeLoop_ack {cmd : UInt8} {Q : Unit → Play → Prop} (hup : v.g.connected = true)
    (hproc : v.g.processingCmd = Cmd.none) (hwait : v.g.waitingCmd = cmd) (hcmd : cmd ≠ Cmd.none)
    (hack : ack cmd ≠ Cmd.none) (hpre : ack cmd ∉ pre)
    (hshare : v.share = .ofScript pre (.theirs (ack cmd) :: G)) (ho : AckOutcome v cmd pre G Q) :
    wpP .faultless true gbridgeLoop Q v := by
  have hinp : v.share.inp.length = pre.length + ((view G).1.length + 1) := by
    rw [hshare]
    simp [Share.ofScript]
  refine wpP_get (wpP_ite (fun _ => wpP_get ?_) fun hdown => absurd hup hdown)
  rw [hproc, hwait]
  refine wpP_bind ?_
  refine wpP_ite (fun hne => absurd rfl hne) fun _ => ?_
  refine wpP_ite (fun h => absurd h Bool.false_ne_true) fun _ => wpP_bind ?_
  refine wpP_ite (fun _ => wpP_expired trivial ?_) fun hnone => absurd hcmd hnone
  refine wpP_ite (fun h => absurd h Bool.false_ne_true) fun _ => ?_
  refine wpP_get (wpP_ite (fun _ => ?_) fun hne => absurd hproc hne)
  refine wpP_bind (wpP_available fun n p hle hcost => wpP_ite (fun hzero => ?_) fun hpos => ?_)
  · refine ho.early _ rfl (hcost.less rfl ?_) rfl
    rw [hinp, hzero]
    omega
  have hless : p ≤ v.patience := hcost.le
  cases pre with
  | nil =>
    refine wpP_bind (wpP_getchar (Nat.pos_of_ne_zero hpos) hshare ?_)
    refine wpP_ite (fun h => absurd h hack) fun _ => wpP_get ?_
    rw [show Play.g _ = v.g from rfl, hwait]
    refine wpP_ite (fun _ => ?_) fun hnone => absurd hcmd hnone
    refine wpP_ite (fun _ => wpP_modify (fun _ => hup) ?_) fun hne => absurd rfl hne
    exact ho.acked rfl _ rfl rfl
  | cons c pre =>
    have holder := ho.older c pre rfl
    refine wpP_bind (wpP_getchar_old (Nat.pos_of_ne_zero hpos) hshare ?_)
    refine wpP_ite (fun _ => holder _ rfl hless rfl) fun _ => wpP_get ?_
    rw [show Play.g _ = v.g from rfl, hwait]
    refine wpP_ite (fun _ => ?_) fun hnone => absurd hcmd hnone
    refine wpP_ite (fun heq => ?_) fun _ => holder _ rfl hless rfl
    exact absurd (heq ▸ List.mem_cons_self) hpre

/-- The acknowledgement of a command of the adapter is no byte of the handshake. -/
theorem LeftOver.ack_notMem (hpre : LeftOver pre) {cmd : UInt8} (h : ack cmd ∉ handshake) :
    ack cmd ∉ pre := fun hmem => h (hpre _ hmem)

/-- **`wait_cmd` comes back when it has got its acknowledgement.** -/
theorem wpP_waitCmd {cmd : UInt8} {Q : Unit → Play → Prop} (hidle : v.g.Idle)
    (hcmd : cmd ≠ Cmd.none) (hack : ack cmd ≠ Cmd.none) (hpre : ack cmd ∉ pre)
    (hshare : v.share = .ofScript pre (.theirs (ack cmd) :: G))
    (h : ∀ v' since, v'.g = { v.g with waitingCmdTime := since } → v'.share = .ofScript [] G →
      Q () v') : wpP .faultless true (waitCmd cmd) Q v := by
  obtain ⟨hup, hproc, hwait⟩ := hidle
  refine wpP_get (wpP_ite (fun _ => ?_) fun hdown => absurd hup hdown)
  -- nothing is waited for yet, so the first loop ends at once
  refine wpP_bind (wpP_while (fun n v' => n = 0 ∧ v' = v) 0 ⟨rfl, rfl⟩ ?_)
  rintro _ v ⟨rfl, rfl⟩
  rw [hwait]
  refine ⟨fun htrue => absurd htrue Bool.false_ne_true, fun _ => ?_⟩
  refine wpP_bind (wpP_timerGet fun now _ => wpP_bind (wpP_modify (fun _ => hup) ?_))
  -- what is older is thrown away, and then the acknowledgement comes
  let g : State := { v.g with waitingCmd := cmd, waitingCmdTime := now }
  refine wpP_while (fun n v' =>
    (∃ pre', n = v'.patience + pre'.length + 1 ∧ ack cmd ∉ pre' ∧ v'.g = g ∧
      v'.share = .ofScript pre' (.theirs (ack cmd) :: G)) ∨
    n = 0 ∧ v'.g = { v.g with waitingCmdTime := now } ∧ v'.share = .ofScript [] G)
    _ (.inl ⟨pre, rfl, hpre, rfl, hshare⟩) ?_
  rintro n v₁ (⟨pre', rfl, hpre', hg, hshare'⟩ | ⟨rfl, hg, hshare'⟩)
  · rw [hg]
    refine ⟨fun _ => ?_, fun hfalse => absurd hfalse (by simp [g])⟩
    refine wpP_gbridgeLoop_ack (hg ▸ hup) (hg ▸ hproc) (hg ▸ rfl) hcmd hack hpre' hshare'
      ⟨?_, ?_, ?_⟩
    · intro v₂ hg₂ hless hshare₂
      exact ⟨_, by omega, .inl ⟨pre', rfl, hpre', hg₂.trans hg, hshare₂.trans hshare'⟩⟩
    · rintro c pre'' rfl v₂ hg₂ hle hshare₂
      refine ⟨_, ?_, .inl ⟨pre'', rfl, fun hmem => hpre' (List.mem_cons_of_mem _ hmem),
        hg₂.trans hg, hshare₂⟩⟩
      rw [List.length_cons]
      omega
    · rintro rfl v₂ hg₂ hshare₂
      refine ⟨0, Nat.succ_pos _, .inr ⟨rfl, ?_, hshare₂⟩⟩
      rw [hg₂, hg, ← hwait]
  · rw [hg]
    refine ⟨fun htrue => ?_, fun _ => h v₁ now hg hshare'⟩
    have hnone : v.g.waitingCmd = cmd := beq_iff_eq.mp htrue
    exact absurd (hnone.symm.trans hwait) hcmd

/-! ## 3. Packets and streams -/

/-- Nothing is received yet, or a frame is under way, or it has been accepted. -/
theorem wpP_receiving {k : Intake} {g : State} {ck : List UInt8} {good : Prop} {c : State → Bool}
    {Q : Unit → Play → Prop} (hk : k.Serves g ck good) (hgood : good)
    (hgo : ∀ {g' todo need}, k.Phase g ck g' todo need → c g' = true)
    (hstop : ∀ since, c { k.accept (k.sum (g.started k.cmd since)) with
      processingCmd := Cmd.none } = false)
    (hg : v.g = g) (hshare : v.share = .ofScript [] ((k.cmd :: (k.head ++ (k.body ++ ck))).map
      .theirs ++ .mine (ack k.cmd) :: G))
    (h : ∀ v' since, v'.g = { k.accept (k.sum (g.started k.cmd since)) with
      processingCmd := Cmd.none } → v'.share = .ofScript [] G → Q () v') :
    wpP .faultless true (.whileM (do return c (← get)) gbridgeLoop) Q v := by
  have hfeed := feed_script (N := Result) (ack k.cmd) G
  refine wpP_while (fun n v' =>
    (∃ todo need, n = v'.patience + 1 ∧ k.Phase g ck v'.g todo need ∧
      v'.share = .ofScript [] (todo.map .theirs ++ .mine (ack k.cmd) :: G)) ∨
    n = 0 ∧ v'.share = .ofScript [] G ∧ ∃ since,
      v'.g = { k.accept (k.sum (g.started k.cmd since)) with processingCmd := Cmd.none })
    _ (.inl ⟨_, 1, rfl, hg ▸ .idle, hshare⟩) ?_
  rintro n v₁ (⟨todo, need, rfl, hphase, hshare₁⟩ | ⟨rfl, hshare₁, since, hg₁⟩)
  · refine ⟨fun _ => ?_, fun hfalse => absurd ((hgo hphase).symm.trans hfalse) (by decide)⟩
    refine wpP_gbridgeLoop_phase hfeed hk hphase hshare₁ (fun _ => trivial) ⟨?_, ?_, ?_⟩
    · intro v₂ todo₂ need₂ hphase₂ _ hless hshare₂
      exact ⟨_, Nat.succ_lt_succ (hless rfl), .inl ⟨todo₂, need₂, rfl, hphase₂, hshare₂⟩⟩
    · intro _ v₂ since hg₂ hshare₂
      exact ⟨0, Nat.succ_pos _, .inr ⟨rfl, hshare₂, since, hg₂⟩⟩
    · exact fun hbad => absurd hgood hbad
  · refine ⟨fun htrue => ?_, fun _ => h v₁ since hg₁ hshare₁⟩
    rw [hg₁, hstop since] at htrue
    exact absurd htrue Bool.false_ne_true

/-- While a DATA_PC packet comes in, none is there. -/
theorem phase_dataPc_ready {g g' : State} {len : UInt8} {body ck todo : List UInt8} {need : Nat}
    (h : (dataPc len body).Phase g ck g' todo need) : g'.dataReady = g.dataReady := by
  cases h with
  | idle => rfl
  | under hstage => cases hstage <;> rfl

/-- While a STREAM_PC packet comes in, its buffer stays armed. -/
theorem phase_streamPc_max {g g' : State} {h l : UInt8} {body ck todo : List UInt8} {need : Nat}
    (hphase : (streamPc h l body).Phase g ck g' todo need) :
    g'.streamMaxSize = g.streamMaxSize := by
  cases hphase with
  | idle => rfl
  | under hstage => cases hstage <;> rfl

/-- `gbridge_recv_data_done`, of a packet that was waited for. -/
theorem wpP_gbridgeRecvDataDone {env : Env} {Q : Unit → Play → Prop}
    (hready : State.Ready { v.g with dataReady := false })
    (h : ∀ v', v'.g.Ready → v'.share = v.share → Q () v') :
    wpP env true gbridgeRecvDataDone Q v :=
  wpP_modify (fun _ => hready.idle.connected) (h _ hready rfl)

/-- **`gbridge_recv_data_wait` comes back with the packet of the script.** -/
theorem wpP_gbridgeRecvDataWait {payload : List UInt8} {Q : Option GbridgeData → Play → Prop}
    (hready : v.g.Ready) (hlen : payload.length ≤ maxDataSize) (hne : payload ≠ [])
    (hshare : v.share = .ofScript [] ((dataFrame Cmd.dataPc payload).map .theirs ++
      .mine (ack Cmd.dataPc) :: G))
    (h : ∀ rest v', State.Ready { v'.g with dataReady := false } → v'.share = .ofScript [] G →
      Q (some ⟨UInt8.ofNat payload.length, payload ++ rest⟩) v') :
    wpP .faultless true gbridgeRecvDataWait Q v := by
  have hlt : payload.length < 256 := Nat.lt_of_le_of_lt hlen (by decide)
  have hsize : (UInt8.ofNat payload.length).toNat = payload.length := by
    rw [UInt8.toNat_ofNat']
    exact Nat.mod_eq_of_lt hlt
  have hpos : 0 < payload.length := List.length_pos_iff.mpr hne
  have hserves : (dataPc (.ofNat payload.length) payload).Serves v.g (checksumBytes payload) _ :=
    serves_dataPc hready.idle hready.empty hready.room (by rw [hsize]; exact hlen)
      (by rw [hsize]; omega)
  have hgood : be16 (hi (GbridgeData.ofList payload).checksumData)
      (lo (GbridgeData.ofList payload).checksumData) =
      sum16 0 (payload.take (UInt8.ofNat payload.length).toNat) := by
    rw [hsize, List.take_length, be16_checksum hlt]
  refine wpP_bind (wpP_receiving hserves hgood ?_ (fun _ => Bool.and_false _) rfl hshare ?_)
  · intro g' todo need hphase
    rw [hserves.connected hphase, phase_dataPc_ready hphase, hready.empty]
    rfl
  · intro v' since hg hshare'
    have hup : v'.g.connected = true := by
      rw [hg]
      exact hready.idle.connected
    have hthere : v'.g.dataReady = true := by
      rw [hg]
      rfl
    refine wpP_get (wpP_ite (fun _ => wpP_get ?_) fun hdown => absurd hup hdown)
    rw [hthere]
    have hdata : v'.g.data =
        ⟨UInt8.ofNat payload.length, payload ++ v.g.dataBuf.drop payload.length⟩ := by
      rw [hg]
      rfl
    rw [hdata]
    refine h _ v' ?_ hshare'
    rw [hg]
    refine ⟨⟨hready.idle.connected, rfl, hready.idle.waiting⟩, rfl, hready.disarmed, ?_⟩
    show (payload ++ v.g.dataBuf.drop payload.length).length = maxDataSize
    rw [List.length_append, List.length_drop, hready.room]
    omega

/-- **`gbridge_recv_stream_wait` comes back with the stream of the script.** -/
theorem wpP_gbridgeRecvStreamWait {payload buffer : List UInt8} {size : Nat}
    {Q : Bool → Play → Prop} (hready : v.g.Ready) (hpos : 1 ≤ payload.length)
    (hshort : payload.length ≤ 255) (hle : payload.length ≤ size) (hroom : size ≤ buffer.length)
    (hshare : v.share = .ofScript [] ((streamFrame Cmd.streamPc payload).map .theirs ++
      .mine (ack Cmd.streamPc) :: G))
    (h : ∀ v', v'.g.Ready → v'.g.streamBuf = payload ++ buffer.drop payload.length →
      v'.share = .ofScript [] G → Q true v') :
    wpP .faultless true (gbridgeRecvStreamWait buffer size) Q v := by
  have hsize : (lo payload.length).toNat = payload.length := by
    rw [toNat_lo]
    exact Nat.mod_eq_of_lt (Nat.lt_succ_of_le hshort)
  refine wpP_bind (wpP_modify (fun _ => hready.idle.connected) ?_)
  let g : State := { v.g with
    streamBuf := buffer, streamSize := 0, streamMaxSize := size, streamCur := 0,
    streamChecksum := 0 }
  have hserves : (streamPc (hi payload.length) (lo payload.length) payload).Serves g
      (checksumBytes payload) _ :=
    serves_streamPc ⟨hready.idle.connected, hready.idle.processing, hready.idle.waiting⟩
      (show size ≠ 0 by omega) (by rw [hsize]; exact hle) (by rw [hsize]; omega)
      (Nat.le_trans hle hroom)
  have hgood : be16 (hi (GbridgeData.ofList payload).checksumData)
      (lo (GbridgeData.ofList payload).checksumData) =
      sum16 0 (payload.take (lo payload.length).toNat) := by
    rw [hsize, List.take_length, be16_checksum (Nat.lt_succ_of_le hshort)]
  refine wpP_bind (wpP_receiving hserves hgood ?_ (fun _ => Bool.and_false _) rfl hshare ?_)
  · intro g' todo need hphase
    rw [hserves.connected hphase, phase_streamPc_max hphase]
    exact bne_iff_ne.mpr (show size ≠ 0 by omega)
  · intro v' since hg hshare'
    have hready' : v'.g.Ready := by
      rw [hg]
      exact ⟨⟨hready.idle.connected, rfl, hready.idle.waiting⟩, hready.empty, rfl, hready.room⟩
    have hbuf : v'.g.streamBuf = payload ++ buffer.drop payload.length := by
      rw [hg]
      rfl
    refine wpP_get ?_
    rw [hready'.idle.connected]
    exact h v' hready' hbuf hshare'

/-! ## 4. Sending, and waiting for the acknowledgement -/

theorem State.Ready.waited {g : State} (h : g.Ready) (since : UInt32) :
    State.Ready { g with waitingCmdTime := since } :=
  ⟨⟨h.idle.connected, h.idle.processing, h.idle.waiting⟩, h.empty, h.disarmed, h.room⟩

/-- **`gbridge_cmd_data` sends its packet and gets the acknowledgement.** -/
theorem wpP_gbridgeCmdData {payload : List UInt8} {Q : Unit → Play → Prop} (hready : v.g.Ready)
    (hlen : payload.length ≤ maxDataSize) (hpre : LeftOver pre)
    (hshare : v.share = .ofScript pre ((dataFrame Cmd.data payload).map .mine ++
      .theirs (ack Cmd.data) :: G))
    (h : ∀ v', v'.g.Ready → v'.share = .ofScript [] G → Q () v') :
    wpP .faultless true (gbridgeCmdData (.ofList payload)) Q v := by
  have hlt : payload.length < 256 := Nat.lt_of_le_of_lt hlen (by decide)
  have hsize : (GbridgeData.ofList payload).size.toNat = payload.length := by
    rw [GbridgeData.ofList, UInt8.toNat_ofNat']
    exact Nat.mod_eq_of_lt hlt
  refine wpP_get (wpP_ite (fun _ => ?_) fun hdown => absurd hready.idle.connected hdown)
  refine wpP_ite (fun _ => ?_) fun hlong => absurd (hsize ▸ hlen) hlong
  refine wpP_bind (wpP_putDataFrame hlt hshare ?_)
  refine wpP_waitCmd hready.idle (by decide) (by decide) (hpre.ack_notMem (by decide)) rfl ?_
  intro v' since hg hshare'
  exact h v' (hg ▸ hready.waited since) hshare'

/-- **`gbridge_cmd_debug_line` sends its line and gets the acknowledgement.** -/
theorem wpP_gbridgeCmdDebugLine {line : List UInt8} {Q : Unit → Play → Prop} (hready : v.g.Ready)
    (hlen : line.length ≤ 255) (hpre : LeftOver pre)
    (hshare : v.share =
      .ofScript pre ((Cmd.debugLine :: UInt8.ofNat line.length :: line).map .mine ++
      .theirs (ack Cmd.debugLine) :: G))
    (h : ∀ v', v'.g.Ready → v'.share = .ofScript [] G → Q () v') :
    wpP .faultless true (gbridgeCmdDebugLine line) Q v := by
  refine wpP_get (wpP_ite (fun _ => ?_) fun hdown => absurd hready.idle.connected hdown)
  refine wpP_ite (fun _ => ?_) fun hlong => absurd hlen hlong
  refine wpP_bind (wpP_putchar hshare (wpP_bind (wpP_putchar rfl (wpP_bind (wpP_putchars rfl ?_)))))
  refine wpP_waitCmd hready.idle (by decide) (by decide) (hpre.ack_notMem (by decide)) rfl ?_
  intro v' since hg hshare'
  exact h v' (hg ▸ hready.waited since) hshare'

/-- **A stream in one chunk goes out, and its acknowledgement comes.** -/
theorem wpP_stream {α : Type} {buffer : List UInt8} {p : Code α} {Q : α → Play → Prop}
    (hready : v.g.Ready)
    (hshare : v.share = .ofScript [] ((streamFrame Cmd.stream buffer).map .mine ++
      .theirs (ack Cmd.stream) :: G))
    (h : ∀ v', v'.g.Ready → v'.share = .ofScript [] G → wpP .faultless true p Q v') :
    wpP .faultless true (do
      gbridgeCmdStreamStart buffer.length
      gbridgeCmdStreamData buffer
      gbridgeCmdStreamFinish
      p) Q v := by
  have hup := hready.idle.connected
  have hsum : checksumAdd 0 buffer buffer.length = (GbridgeData.ofList buffer).checksumData := by
    rw [checksumAdd, GbridgeData.checksumData, GbridgeData.bytes, GbridgeData.ofList,
      UInt8.toNat_ofNat']
  have hsplit : v.share = .ofScript [] (.mine Cmd.stream :: .mine (hi buffer.length) ::
      .mine (lo buffer.length) :: (buffer.map .mine ++
        (.mine (hi (checksumAdd 0 buffer buffer.length)) ::
          .mine (lo (checksumAdd 0 buffer buffer.length)) :: .theirs (ack Cmd.stream) :: G))) := by
    rw [hshare, hsum]
    simp [streamFrame, checksumBytes]
  refine wpP_bind (wpP_get (wpP_ite (fun _ => ?_) fun hdown => absurd hup hdown))
  refine wpP_bind (wpP_putchar hsplit (wpP_bind (wpP_putchar rfl (wpP_bind (wpP_putchar rfl ?_)))))
  refine wpP_modify (fun _ => hup) (wpP_bind ?_)
  refine wpP_get (wpP_ite (fun _ => ?_) fun hdown => absurd hup hdown)
  refine wpP_bind (wpP_modify (fun _ => hup) (wpP_putchars rfl (wpP_bind ?_)))
  refine wpP_get (wpP_ite (fun _ => wpP_bind ?_) fun hdown => absurd hup hdown)
  refine wpP_get (wpP_bind (wpP_putchar rfl (wpP_putchar rfl ?_)))
  refine wpP_waitCmd ⟨hup, hready.idle.processing, hready.idle.waiting⟩ (by decide) (by decide)
    (leftOver_nil.ack_notMem (by decide)) rfl ?_
  intro v' since hg hshare'
  refine h v' ?_ hshare'
  rw [hg]
  exact ⟨⟨hup, hready.idle.processing, hready.idle.waiting⟩, hready.empty, hready.disarmed,
    hready.room⟩

end Wait

end GBridge.Atmega

/-
# What the bridge puts on the line

`main` runs from power-up on, on a port that answers what it likes, with sockets that answer what
they like.  In every state of every run of it the bytes written are whole messages and the beginning
of one more (`main_messages`).

As on the adapter a function `Speaks` if it goes on from the end of a message to the end of one.
The difference is in how a frame is written: `gbridge_cmd_data` and `gbridge_cmd_stream` write a
head, the payload and a checksum, in three calls of `sp_blocking_write`, and nothing else comes
between them (`speaks_pieces`).  Where the link is lost a function stops, but never between two of
these.

The second part is about order (`main_orderly`): nothing but handshakes is written while the link is
down, and while an acknowledgement is awaited nothing is written at all and no socket is touched.
Each function is walked through once more, with `World.Up`, `World.Idle` and `World.Rest` for what
holds before and after it.  Only `wait_cmd` sets `waiting_cmd`, and then it does nothing but call
`gbridge_loop` until it is clear again (`wpO_gbridgeLoop_waiting`).
-/
import GBridge.Bridge.Semantics
import GBridge.Messages

namespace GBridge.Bridge

open Prog Bytes

variable {σ : Type}

/-! ## 1. `main` -/

/-- `while (!gbridge_handshake(port));` -/
def awaitHandshake : Code Unit := .whileM (do return !(← gbridgeHandshake)) (pure ())

/-- `main`, once the port is open. -/
def main : Code Unit := do
  gbridgeInit
  awaitHandshake
  mainLoop

/-! ## 2. Whole messages -/

/-- From whole messages to whole messages, on this port. -/
abbrev Speaks (port : Port σ) {α : Type} (p : Code α) : Prop :=
  messages.Speaks (sem port) World.tx p

/-- The operation writes nothing. -/
def Op.Silent : {α : Type} → Op α → Prop
  | _, .write _ => False
  | _, _ => True

theorem Op.Silent.tx {port : Port σ} {α : Type} {e : Op α} (he : e.Silent) {w w' : World σ} {a : α}
    (hs : sem port α e w a w') : w'.tx = w.tx := by
  cases e with
  | write bs => exact he.elim
  | get => rw [hs.2]
  | read count ms =>
    obtain ⟨p, -, rfl⟩ := hs
    rfl
  | sock c => rw [hs.2]
  | set g | store dst bs | eprint s | ewrite bs => rw [show w' = _ from hs]

section Speaks

variable {port : Port σ} {α : Type}

theorem speaks_silent {p : Code α} (h : p.Every Op.Silent) : Speaks port p :=
  PrefixCode.Speaks.silent (P := Op.Silent) (fun _ he _ _ _ hs => he.tx hs) h

theorem speaks_cmd {e : Op α} (he : e.Silent) : Speaks port (.cmd e) :=
  speaks_silent ⟨he, fun _ => trivial⟩

theorem speaks_get {k : State → Code α} (h : ∀ g, Speaks port (k g)) :
    Speaks port (get.bind k) := .bind (speaks_cmd trivial) h

theorem speaks_modify (f : State → State) : Speaks port (modify f) :=
  speaks_get fun _ => speaks_cmd trivial

/-- Some bytes are written. -/
theorem speech_write {bs : List UInt8} {Q : Unit → World σ → Prop} {w : World σ}
    (htext : messages.Text (w.tx ++ bs)) (h : Q () { w with tx := w.tx ++ bs }) :
    wpre (messages.speech (sem port) World.tx) false (spBlockingWrite bs) Q w := by
  rintro b w' rfl
  exact ⟨htext, h⟩

/-- A message is written in one piece. -/
theorem speaks_message (m : Message) : Speaks port (spBlockingWrite (messages.encode m)) :=
  fun _ hw => speech_write (hw.word m).text (hw.word m)

/-- Or in three. -/
theorem speaks_pieces {m : Message} {as bs cs : List UInt8}
    (hm : messages.encode m = as ++ bs ++ cs) :
    Speaks port (do spBlockingWrite as; spBlockingWrite bs; spBlockingWrite cs) := by
  intro w hw
  have hall : messages.Whole (w.tx ++ as ++ bs ++ cs) := by
    have h := hw.word m
    rw [hm] at h
    simpa using h
  have htwo := hall.text.of_prefix (List.prefix_append _ _)
  have hone := htwo.of_prefix (List.prefix_append _ _)
  exact wpre_bind.mpr (speech_write hone (wpre_bind.mpr (speech_write htwo
    (speech_write hall.text hall))))

theorem speaks_sendAck {cmd : UInt8} {m : Message} (hm : messages.encode m = [ack cmd]) :
    Speaks port (sendAck cmd) := by
  have h : Speaks port (spBlockingWrite [ack cmd]) := hm ▸ speaks_message m
  exact h

/-! ### Receiving -/

theorem speaks_recvData (dst : Dst) (count : Nat) : Speaks port (recvData dst count) := by
  have hfail : Speaks port (do
      eprint "recv_data: timed out\n"; gbridgeInit; return (none : Option (List UInt8))) :=
    .bind (speaks_cmd trivial) fun _ => .bind (speaks_modify _) fun _ => .ret none
  refine .bind (speaks_cmd trivial) fun r => ?_
  cases r with
  | error code => exact hfail
  | bytes bs => exact .bind (speaks_cmd trivial) fun _ => .ite hfail (.ret _)

/-- What is done with a piece of a frame, if it has come. -/
theorem speaks_piece {dst : Dst} {count : Nat} {f : Option (List UInt8) → Code α}
    (hnone : Speaks port (f none)) (hsome : ∀ bs, Speaks port (f (some bs))) :
    Speaks port ((recvData dst count).bind f) := by
  refine .bind (speaks_recvData _ _) fun r => ?_
  cases r with
  | none => exact hnone
  | some bs => exact hsome bs

theorem speaks_recvCmdDebugLine : Speaks port recvCmdDebugLine :=
  speaks_piece (.ret ()) fun _ => speaks_piece (.ret ()) fun _ =>
    .bind (speaks_sendAck (m := ⟨.ackDebugLine, ()⟩) rfl) fun _ => speaks_cmd trivial

theorem speaks_refuse (s : String) : Speaks port (do eprint s; gbridgeInit) :=
  .bind (speaks_cmd trivial) fun _ => speaks_modify _

theorem speaks_recvCmdData : Speaks port recvCmdData := by
  refine speaks_get fun _ => .ite (speaks_refuse _) (speaks_piece (.ret ()) fun _ => ?_)
  refine speaks_get fun _ => speaks_piece (.ret ()) fun _ => speaks_piece (.ret ()) fun c => ?_
  refine speaks_get fun _ => .ite (speaks_refuse _) (.bind (speaks_modify _) fun _ => ?_)
  exact speaks_sendAck (m := ⟨.ackData, ()⟩) rfl

theorem speaks_gbridgeLoop : Speaks port gbridgeLoop := by
  refine speaks_get fun _ => .ite (.bind (speaks_cmd trivial) fun r => ?_) (.ret ())
  split
  · exact .ret ()
  · exact speaks_modify _
  · exact speaks_get fun _ => .ite (.ite (speaks_modify _) (.ret ()))
      (.ite speaks_recvCmdDebugLine (.ite speaks_recvCmdData (.ret ())))

theorem speaks_gbridgeRecvStream (maxSize : Nat) : Speaks port (gbridgeRecvStream maxSize) := by
  have hrefuse : ∀ (s : String) (buffer : List UInt8), Speaks port (do
      eprint s; gbridgeInit; return ((-1 : Int), buffer)) := fun s buffer =>
    .bind (speaks_cmd trivial) fun _ => .bind (speaks_modify _) fun _ => .ret _
  refine speaks_get fun _ => .ite (.ret _) (speaks_piece (.ret _) fun c => ?_)
  refine .ite (hrefuse _ _) (speaks_piece (.ret _) fun c => .ite (.ret _) ?_)
  refine speaks_piece (.ret _) fun buffer => speaks_piece (.ret _) fun c => ?_
  exact .ite (hrefuse _ _) (.bind (speaks_sendAck (m := ⟨.ackStream, ()⟩) rfl) fun _ => .ret _)

/-! ### Sending -/

theorem speaks_waitCmd (cmd : UInt8) : Speaks port (waitCmd cmd) := by
  have hwait : ∀ c : State → Bool, Speaks port (.whileM (do return c (← get)) gbridgeLoop) :=
    fun c => .whileM (speaks_get fun _ => .ret _) speaks_gbridgeLoop
  exact speaks_get fun _ => .ite (.bind (hwait _) fun _ => .bind (speaks_modify _) fun _ => hwait _)
    (.ret ())

/-- A packet is written whole. -/
theorem speaks_gbridgeCmdData {bs : List UInt8} (hlen : bs.length ≤ maxDataSize) :
    Speaks port (gbridgeCmdData (.ofList bs)) := by
  have hframe : messages.encode ⟨.dataPc, bs, hlen⟩ = dataFrame Cmd.dataPc bs := rfl
  rw [dataFrame_eq _ (lt_of_le_of_lt hlen (by decide))] at hframe
  exact speaks_get fun _ => .ite (.ite (.bind (speaks_pieces hframe) fun _ => speaks_waitCmd _)
    (.ret ())) (.ret ())

/-- And so is a stream: its length is a number of 16 bits, and its bytes are there. -/
theorem speaks_gbridgeCmdStream {buffer : List UInt8} {size : Nat} (hsize : size ≤ 0xffff)
    (hlen : size ≤ buffer.length) : Speaks port (gbridgeCmdStream buffer size) := by
  have htake : (buffer.take size).length ≤ 0xffff := le_trans (List.length_take_le _ _) hsize
  have hframe : messages.encode ⟨.streamPc, buffer.take size, htake⟩ =
      streamFrame Cmd.streamPc (buffer.take size) := rfl
  rw [streamFrame_eq _ hlen] at hframe
  exact speaks_get fun _ => .ite (.bind (speaks_pieces hframe) fun _ => speaks_waitCmd _) (.ret ())

/-! ### The requests -/

/-- A call of the sockets, and its reply. -/
theorem speaks_reply {c : SockCall} {bs : c.Res → List UInt8}
    (hlen : ∀ r, (bs r).length ≤ maxDataSize) :
    Speaks port (do let res ← sock c; gbridgeCmdData (.ofList (bs res)); return true) :=
  .bind (speaks_cmd trivial) fun r => .bind (speaks_gbridgeCmdData (hlen r)) fun _ => .ret true

theorem speaks_recvCmdSockRecv (recvData : GbridgeData) :
    Speaks port (recvCmdSockRecv recvData) := by
  refine .ite (.ret false) ?_
  let size := be16 (recvData.buffer.getD 2 0) (recvData.buffer.getD 3 0)
  rintro w hw
  refine wpre_bind.mpr ?_
  rintro r w' ⟨⟨hsize, hdata⟩, rfl⟩
  refine ⟨hw.text, ?_⟩
  -- of what `recv` returns no more is sent than was asked for, or than is there
  have hreply : Speaks port (do
      gbridgeCmdData (.ofList
        (ProtMa.cmdRecv :: intByte (r.res >>> (8 : Nat)) :: intByte r.res ::
          addressWrite (some r.addr)))
      if !(← gbridgeConnected) then return false
      else if r.res ≤ 0 then return true
      else
        gbridgeCmdStream r.data r.res.toNat
        return true) := by
    have haddr := (addressWrite_length (some r.addr)).2
    refine .bind (speaks_gbridgeCmdData ?_) fun _ => .bind (speaks_get fun _ => .ret _) fun c => ?_
    · simp only [List.length_cons, maxDataSize]
      omega
    refine .ite (.ret false) (.ite (.ret true) (.bind (speaks_gbridgeCmdStream ?_ ?_) fun _ =>
      .ret true))
    · have hlt := be16_lt (recvData.buffer.getD 2 0) (recvData.buffer.getD 3 0)
      omega
    · omega
  exact hreply w' hw

theorem speaks_handleRequest (recvData : GbridgeData) : Speaks port (handleRequest recvData) := by
  have hflag : ∀ cmd call flag, Speaks port (recvCmdSockFlag cmd call flag recvData) :=
    fun cmd call flag => .ite (.ret false) (speaks_reply fun _ => by simp [maxDataSize])
  refine .ite ?_ (.ite ?_ (.ite ?_ (.ite (hflag _ _ _) (.ite (hflag _ _ _)
    (.ite ?_ (.ite (speaks_recvCmdSockRecv recvData) (.ret false)))))))
  · exact .ite (.ret false) (speaks_reply fun _ => by simp [maxDataSize])
  · exact .ite (.ret false) (speaks_reply fun _ => by simp [maxDataSize])
  · exact .ite (.ret false) (.ite (.ret false) (.ite (.ret false)
      (speaks_reply fun _ => by simp [maxDataSize])))
  · refine .ite (.ret false) (.ite (.ret false) (.bind (speaks_gbridgeRecvStream _) fun r => ?_))
    exact .ite (.ret false) (speaks_reply fun _ => by simp [maxDataSize])

theorem speaks_gbridgeProtMaLoop : Speaks port gbridgeProtMaLoop := by
  refine .bind (speaks_get fun _ => .ret _) fun r => ?_
  cases r with
  | none => exact .ret ()
  | some recvData =>
    exact .ite (speaks_modify _) (.bind (speaks_handleRequest recvData) fun _ => speaks_modify _)

theorem speaks_gbridgeHandshake : Speaks port gbridgeHandshake := by
  refine speaks_get fun _ => .ite (.ret true) (.bind (speaks_message ⟨.handshake, ()⟩) fun _ => ?_)
  refine .bind (.loop (.bind (speaks_cmd trivial) fun r => ?_) (.ret ())) fun _ =>
    speaks_get fun _ => .ret _
  have hdone : Speaks port (do
      if (← get).handshakeProgress = handshake.length then
        modify fun g => { g with handshakeProgress := 0, connected := true }
        return false
      else return true) :=
    speaks_get fun _ => .ite (.bind (speaks_modify _) fun _ => .ret false) (.ret true)
  split
  · refine speaks_get fun _ => .bind (speaks_modify _) fun _ => ?_
    exact .ite (.bind (speaks_modify _) fun _ => hdone) hdone
  · exact .ret false

theorem speaks_main : Speaks port main := by
  have hwait : Speaks port awaitHandshake :=
    .whileM (.bind speaks_gbridgeHandshake fun _ => .ret _) (.ret ())
  refine .bind (speaks_modify _) fun _ => .bind hwait fun _ => ?_
  exact .whileM (speaks_get fun _ => .ret _)
    (.bind speaks_gbridgeLoop fun _ => speaks_gbridgeProtMaLoop)

end Speaks

/-- **The bridge sends whole messages.**  In every state of every run of `main`, what it has
written can be cut, in one way only, into messages and the beginning of one more; and when the
program ends nothing has begun. -/
theorem main_messages (port : Port σ) (s : σ) (p : Code Unit) (w : World σ)
    (hr : Reach (sem port) (main, .start s) (p, w)) :
    ∃ ms part, messages.Cut w.tx (∃ b, p = .ret b) ms part :=
  PrefixCode.Speaks.cut speaks_main PrefixCode.tagged_proper ⟨.handshake, ()⟩ messages.whole_nil hr

/-- The port brings the handshake and a request to close a connection. -/
def closeArrives : List ReadRes :=
  handshake.map (fun c => .bytes [c]) ++
    [.bytes [Cmd.data], .bytes [2], .bytes [ProtMa.cmdClose, 0], .bytes [0, 1]]

/-- In the middle of the reply: a handshake, an acknowledgement, and two bytes of a packet. -/
theorem main_messages_reply : ∃ p w, Reach (sem scripted) (main, .start closeArrives) (p, w) ∧
    w.tx = handshake ++ [ack Cmd.data] ++ [Cmd.dataPc, 1] ∧
      ∃ ms part, messages.Cut w.tx (∃ b, p = .ret b) ms part := by
  have hrun : (nexts answer 53 (main, .start closeArrives)).map (·.2.tx) =
      some (handshake ++ [ack Cmd.data] ++ [Cmd.dataPc, 1]) := by decide +kernel
  obtain ⟨⟨p, w⟩, hsteps, htx⟩ := Option.map_eq_some_iff.mp hrun
  have hr := nexts_reach answer_sound hsteps
  exact ⟨p, w, hr, htx, main_messages scripted closeArrives p w hr⟩

/-! ## 3. One message at a time -/

/-- When each operation may be used: something is written or done to a socket only while no
acknowledgement is awaited and the link is up, but for the handshake; and what is awaited is not
replaced. -/
def Op.Orderly : {α : Type} → Op α → World σ → Prop
  | _, .write bs, w => w.g.waitingCmd = Cmd.none ∧ (w.g.connected = true ∨ bs = handshake)
  | _, .sock _, w => w.g.waitingCmd = Cmd.none ∧ w.g.connected = true
  | _, .set g, w => w.g.waitingCmd ≠ Cmd.none →
    g.waitingCmd = w.g.waitingCmd ∨ g.waitingCmd = Cmd.none
  | _, _, _ => True

abbrev orderlySpec (port : Port σ) : Spec Op (World σ) :=
  Spec.watched (sem port) (fun e w => e.Orderly w) fun _ => True

/-- The link is up, and nothing is awaited. -/
structure World.Up (w : World σ) : Prop where
  connected : w.g.connected = true
  idle : w.g.waitingCmd = Cmd.none

/-- Nothing is awaited, and a request is there only while the link is up. -/
structure World.Idle (w : World σ) : Prop where
  idle : w.g.waitingCmd = Cmd.none
  ready : w.g.dataReady = true → w.g.connected = true

/-- Nothing is awaited, and no request is there. -/
structure World.Rest (w : World σ) : Prop where
  idle : w.g.waitingCmd = Cmd.none
  ready : w.g.dataReady = false

theorem World.Up.isIdle {w : World σ} (h : w.Up) : w.Idle := ⟨h.idle, fun _ => h.connected⟩

theorem World.Rest.isIdle {w : World σ} (h : w.Rest) : w.Idle :=
  ⟨h.idle, fun hr => absurd (h.ready.symm.trans hr) (by decide)⟩

section Orderly

variable {port : Port σ} {α : Type}

/-- The weakest precondition when every operation is watched. -/
abbrev wpO (port : Port σ) (p : Code α) (Q : α → World σ → Prop) (w : World σ) : Prop :=
  wpre (orderlySpec port) false p Q w

theorem wpO_get {k : State → Code α} {Q : α → World σ → Prop} {w : World σ}
    (h : wpO port (k w.g) Q w) : wpO port (get.bind k) Q w := by
  refine ⟨trivial, ?_⟩
  rintro b w' ⟨rfl, rfl⟩
  exact ⟨trivial, h⟩

/-- The variables are changed; what is awaited is kept or given up, or nothing was. -/
theorem wpO_modify {f : State → State} {Q : Unit → World σ → Prop} {w : World σ}
    (hok : w.g.waitingCmd ≠ Cmd.none → (f w.g).waitingCmd = w.g.waitingCmd ∨
      (f w.g).waitingCmd = Cmd.none) (h : Q () { w with g := f w.g }) :
    wpO port (modify f) Q w := by
  refine wpO_get ⟨hok, ?_⟩
  rintro b w' rfl
  exact ⟨trivial, h⟩

theorem wpO_write {bs : List UInt8} {Q : Unit → World σ → Prop} {w : World σ}
    (hidle : w.g.waitingCmd = Cmd.none) (hup : w.g.connected = true ∨ bs = handshake)
    (h : Q () { w with tx := w.tx ++ bs }) : wpO port (spBlockingWrite bs) Q w := by
  refine ⟨⟨hidle, hup⟩, ?_⟩
  rintro b w' rfl
  exact ⟨trivial, h⟩

/-- A read changes the port only. -/
theorem wpO_read {count ms : Nat} {Q : ReadRes → World σ → Prop} {w : World σ}
    (h : ∀ r s, Q r { w with port := s }) : wpO port (spBlockingRead count ms) Q w := by
  refine ⟨trivial, ?_⟩
  rintro r w' ⟨s, -, rfl⟩
  exact ⟨trivial, h r s⟩

theorem wpO_eprint {s : String} {Q : Unit → World σ → Prop} {w : World σ} (h : Q () w) :
    wpO port (eprint s) Q w := by
  refine ⟨trivial, ?_⟩
  rintro b w' rfl
  exact ⟨trivial, h⟩

/-- Where bytes are stored does not concern the link. -/
theorem wpO_store {dst : Dst} {bs : List UInt8} {Q : Unit → World σ → Prop} {w : World σ}
    (h : ∀ g o, g.connected = w.g.connected → g.waitingCmd = w.g.waitingCmd →
      g.dataReady = w.g.dataReady → Q () { w with g, overrun := o }) :
    wpO port (.cmd (.store dst bs)) Q w := by
  refine ⟨trivial, ?_⟩
  rintro b w' rfl
  refine ⟨trivial, ?_⟩
  cases dst <;> exact h _ _ rfl rfl rfl

/-! ### Receiving -/

/-- A frame is refused, and the link goes down. -/
theorem wpO_refuse {s : String} {Q : Unit → World σ → Prop} {w : World σ}
    (h : ∀ w', w'.Rest → Q () w') :
    wpO port (do eprint s; gbridgeInit) Q w :=
  wpre_bind.mpr (wpO_eprint (wpO_modify (fun _ => .inr rfl) (h _ ⟨rfl, rfl⟩)))

/-- A piece of a frame comes, and the link is still up; or it does not, and the link is down. -/
theorem wpO_recvData {dst : Dst} {count : Nat} {w : World σ} (hw : w.Up) :
    wpO port (recvData dst count) (fun r w' => if r = none then w'.Rest else
      w'.Up ∧ w'.g.dataReady = w.g.dataReady) w := by
  have hfail : ∀ w' : World σ, wpO port
      (do eprint "recv_data: timed out\n"; gbridgeInit; return (none : Option (List UInt8)))
      (fun r w'' => if r = none then w''.Rest else w''.Up ∧ w''.g.dataReady = w.g.dataReady)
      w' := fun w' =>
    wpre_bind.mpr (wpO_eprint (wpre_bind.mpr (wpO_modify (fun _ => .inr rfl) ⟨rfl, rfl⟩)))
  refine wpre_bind.mpr (wpO_read fun r s => ?_)
  cases r with
  | error code => exact hfail _
  | bytes bs =>
    refine wpre_bind.mpr (wpO_store fun g o hc hwait hready => wpre_if (fun _ => hfail _) ?_)
    exact fun _ => ⟨⟨hc.trans hw.connected, hwait.trans hw.idle⟩, hready⟩

/-- What is done with a piece of a frame. -/
theorem wpO_piece {dst : Dst} {count : Nat} {f : Option (List UInt8) → Code α}
    {Q : α → World σ → Prop} {w : World σ} (hw : w.Up)
    (hnone : ∀ w', w'.Rest → wpO port (f none) Q w')
    (hsome : ∀ bs w', w'.Up → w'.g.dataReady = w.g.dataReady → wpO port (f (some bs)) Q w') :
    wpO port ((recvData dst count).bind f) Q w := by
  refine wpre_bind.mpr (wpre_mono ?_ (wpO_recvData hw))
  intro r w' hr
  cases r with
  | none => exact hnone w' hr
  | some bs => exact hsome bs w' hr.1 hr.2

theorem wpO_sendAck {cmd : UInt8} {Q : Unit → World σ → Prop} {w : World σ} (hw : w.Up)
    (h : Q () { w with tx := w.tx ++ [ack cmd] }) : wpO port (sendAck cmd) Q w :=
  wpO_write hw.idle (.inl hw.connected) h

theorem wpO_recvCmdDebugLine {w : World σ} (hw : w.Up) :
    wpO port recvCmdDebugLine (fun _ w' => w'.Idle) w := by
  refine wpO_piece hw (fun _ h => h.isIdle) fun _ w₁ h₁ _ => ?_
  refine wpO_piece h₁ (fun _ h => h.isIdle) fun _ w₂ h₂ _ => ?_
  refine wpre_bind.mpr (wpO_sendAck h₂ ⟨trivial, ?_⟩)
  rintro b w' rfl
  exact ⟨trivial, h₂.idle, fun _ => h₂.connected⟩

theorem wpO_recvCmdData {w : World σ} (hw : w.Up) :
    wpO port recvCmdData (fun _ w' => w'.Idle) w := by
  refine wpO_get (wpre_if (fun _ => wpO_refuse fun _ h => h.isIdle) fun _ => ?_)
  refine wpO_piece hw (fun _ h => h.isIdle) fun _ w₁ h₁ _ => wpO_get ?_
  refine wpO_piece h₁ (fun _ h => h.isIdle) fun _ w₂ h₂ _ => ?_
  refine wpO_piece h₂ (fun _ h => h.isIdle) fun c w₃ h₃ _ => wpO_get ?_
  refine wpre_if (fun _ => wpO_refuse fun _ h => h.isIdle) fun _ => ?_
  have hset : World.Up { w₃ with g := { w₃.g with dataReady := true } } := ⟨h₃.1, h₃.2⟩
  exact wpre_bind.mpr (wpO_modify (fun _ => .inl rfl)
    (wpO_sendAck hset ⟨h₃.idle, fun _ => h₃.connected⟩))

/-- `gbridge_loop`, when no acknowledgement is awaited and no request is there. -/
theorem wpO_gbridgeLoop {w : World σ} (hw : w.Rest) :
    wpO port gbridgeLoop (fun _ w' => w'.Idle) w := by
  refine wpO_get (wpre_if (fun hup => ?_) fun _ => hw.isIdle)
  refine wpre_bind.mpr (wpO_read fun r s => ?_)
  have hidle : World.Idle { w with port := s } := ⟨hw.idle, fun _ => hup⟩
  split
  · exact hidle
  · exact wpO_modify (fun _ => .inl rfl)
      ⟨hw.idle, fun hr => absurd (hw.ready.symm.trans hr) (by decide)⟩
  · refine wpO_get ?_
    rw [if_neg (not_not.mpr hw.idle)]
    exact wpre_if (fun _ => wpO_recvCmdDebugLine ⟨hup, hw.idle⟩) fun _ =>
      wpre_if (fun _ => wpO_recvCmdData ⟨hup, hw.idle⟩) fun _ => hidle

/-- The state of a wait: it goes on, or it has ended with the link up. -/
def World.Waiting (cmd : UInt8) (w : World σ) : Prop := w.g.waitingCmd = cmd ∨ w.Up

/-- `gbridge_loop`, while this acknowledgement is awaited. -/
theorem wpO_gbridgeLoop_waiting {cmd : UInt8} {w : World σ} (hcmd : cmd ≠ Cmd.none)
    (hw : w.g.waitingCmd = cmd) :
    wpO port gbridgeLoop (fun _ w' => w'.Waiting cmd) w := by
  refine wpO_get (wpre_if (fun hup => ?_) fun _ => .inl hw)
  refine wpre_bind.mpr (wpO_read fun r s => ?_)
  split
  · exact .inl hw
  · exact wpO_modify (fun _ => .inl rfl) (.inl hw)
  · refine wpO_get ?_
    rw [if_pos (hw.symm ▸ hcmd)]
    exact wpre_if (fun _ => wpO_modify (fun _ => .inr rfl) (.inr ⟨hup, rfl⟩)) fun _ => .inl hw

/-! ### Sending -/

/-- **`wait_cmd` returns with the link up**, if it was up. -/
theorem wpO_waitCmd {cmd : UInt8} {w : World σ} (hcmd : cmd ≠ Cmd.none) (hw : w.Up) :
    wpO port (waitCmd cmd) (fun _ w' => w'.Up) w := by
  refine wpO_get (wpre_if (fun _ => ?_) fun hdown => absurd hw.connected hdown)
  refine wpre_bind.mpr (wlp_whileM (fun w' => w' = w) rfl ?_)
  rintro _ rfl
  refine wpO_get ?_
  rw [hw.idle]
  refine wpre_bind.mpr (wpO_modify (fun h => absurd hw.idle h) (wlp_whileM (World.Waiting cmd)
    (.inl rfl) ?_))
  intro w' hw'
  refine wpO_get ?_
  cases hwaits : w'.g.waitingCmd == cmd with
  | true => exact wpO_gbridgeLoop_waiting hcmd (beq_iff_eq.mp hwaits)
  | false => exact hw'.resolve_left (beq_eq_false_iff_ne.mp hwaits)

theorem wpO_gbridgeCmdData {data : GbridgeData} {w : World σ} (hw : w.Up) :
    wpO port (gbridgeCmdData data) (fun _ w' => w'.Up) w := by
  refine wpO_get (wpre_if (fun _ => wpre_if (fun _ => ?_) fun _ => hw) fun _ => hw)
  refine wpre_bind.mpr (wpre_bind.mpr (wpO_write hw.idle (.inl hw.connected) ?_))
  refine wpre_bind.mpr (wpO_write hw.idle (.inl hw.connected) ?_)
  exact wpO_write hw.idle (.inl hw.connected) (wpO_waitCmd (by decide) ⟨hw.1, hw.2⟩)

theorem wpO_gbridgeCmdStream {buffer : List UInt8} {size : Nat} {w : World σ} (hw : w.Up) :
    wpO port (gbridgeCmdStream buffer size) (fun _ w' => w'.Up) w := by
  refine wpO_get (wpre_if (fun _ => ?_) fun _ => hw)
  refine wpre_bind.mpr (wpre_bind.mpr (wpO_write hw.idle (.inl hw.connected) ?_))
  refine wpre_bind.mpr (wpO_write hw.idle (.inl hw.connected) ?_)
  exact wpO_write hw.idle (.inl hw.connected) (wpO_waitCmd (by decide) ⟨hw.1, hw.2⟩)

/-! ### The requests -/

/-- `gbridge_recv_stream`: if it returns a stream, the link is up. -/
theorem wpO_gbridgeRecvStream {maxSize : Nat} {w : World σ} (hw : w.Up) :
    wpO port (gbridgeRecvStream maxSize) (fun r w' => w'.g.waitingCmd = Cmd.none ∧
      (0 ≤ r.1 → w'.Up)) w := by
  have hrest : ∀ {w' : World σ} (buffer : List UInt8), w'.Rest →
      w'.g.waitingCmd = Cmd.none ∧ (0 ≤ ((-1 : Int), buffer).1 → w'.Up) :=
    fun _ h => ⟨h.idle, fun h0 => absurd (show (0 : Int) ≤ -1 from h0) (by decide)⟩
  have hrefuse : ∀ (s : String) (buffer : List UInt8) (w' : World σ), wpO port
      (do eprint s; gbridgeInit; return ((-1 : Int), buffer))
      (fun r w'' => w''.g.waitingCmd = Cmd.none ∧ (0 ≤ r.1 → w''.Up)) w' :=
    fun s buffer w' => wpre_bind.mpr (wpO_eprint (wpre_bind.mpr (wpO_modify (fun _ => .inr rfl)
      (hrest buffer ⟨rfl, rfl⟩))))
  refine wpO_get (wpre_if (fun hdown => ?_) fun _ => ?_)
  · exact absurd hw.connected (by simpa using hdown)
  refine wpO_piece hw (fun _ h => hrest _ h) fun c w₁ h₁ _ => ?_
  refine wpre_if (fun _ => hrefuse _ _ _) fun _ => ?_
  refine wpO_piece h₁ (fun _ h => hrest _ h) fun c w₂ h₂ _ => ?_
  refine wpre_if (fun _ => ⟨h₂.idle, fun _ => h₂⟩) fun _ => ?_
  refine wpO_piece h₂ (fun _ h => hrest _ h) fun buffer w₃ h₃ _ => ?_
  refine wpO_piece h₃ (fun _ h => hrest _ h) fun c w₄ h₄ _ => ?_
  refine wpre_if (fun _ => hrefuse _ _ _) fun _ => ?_
  exact wpre_bind.mpr (wpO_sendAck h₄ ⟨h₄.idle, fun _ => ⟨h₄.1, h₄.2⟩⟩)

/-- A call of the sockets, with the link up, and what is made of its result. -/
theorem wpO_sock {c : SockCall} {k : c.Res → Code α} {Q : α → World σ → Prop} {w : World σ}
    (hw : w.Up) (h : ∀ r, wpO port (k r) Q w) : wpO port ((sock c).bind k) Q w := by
  refine ⟨⟨hw.idle, hw.connected⟩, ?_⟩
  rintro r w' ⟨-, rfl⟩
  exact ⟨trivial, h r⟩

theorem wpO_reply {c : SockCall} {data : c.Res → GbridgeData} {w : World σ} (hw : w.Up) :
    wpO port (do let res ← sock c; gbridgeCmdData (data res); return true)
      (fun _ w' => w'.g.waitingCmd = Cmd.none) w :=
  wpO_sock hw fun _ => wpre_bind.mpr (wpre_mono (fun _ _ h => h.idle) (wpO_gbridgeCmdData hw))

theorem wpO_handleRequest {recvData : GbridgeData} {w : World σ} (hw : w.Up) :
    wpO port (handleRequest recvData) (fun _ w' => w'.g.waitingCmd = Cmd.none) w := by
  have hret : ∀ {b : Bool}, wpO port (.ret b) (fun _ w' => w'.g.waitingCmd = Cmd.none) w :=
    hw.idle
  have hflag : ∀ cmd call flag, wpO port (recvCmdSockFlag cmd call flag recvData)
      (fun _ w' => w'.g.waitingCmd = Cmd.none) w :=
    fun cmd call flag => wpre_if (fun _ => hret) fun _ => wpO_reply hw
  refine wpre_if (fun _ => ?_) fun _ => wpre_if (fun _ => ?_) fun _ => wpre_if (fun _ => ?_)
    fun _ => wpre_if (fun _ => hflag _ _ _) fun _ => wpre_if (fun _ => hflag _ _ _) fun _ =>
      wpre_if (fun _ => ?_) fun _ => wpre_if (fun _ => ?_) fun _ => hret
  · exact wpre_if (fun _ => hret) fun _ => wpO_reply hw
  · exact wpre_if (fun _ => hret) fun _ => wpO_reply hw
  · exact wpre_if (fun _ => hret) fun _ => wpre_if (fun _ => hret) fun _ =>
      wpre_if (fun _ => hret) fun _ => wpO_reply hw
  · refine wpre_if (fun _ => hret) fun _ => wpre_if (fun _ => hret) fun _ => ?_
    refine wpre_bind.mpr (wpre_mono ?_ (wpO_gbridgeRecvStream hw))
    rintro r w' ⟨hidle, hup⟩
    exact wpre_if (fun _ => hidle) fun hres => wpO_reply (hup (not_lt.mp hres))
  · refine wpre_if (fun _ => hret) fun _ => wpO_sock hw fun r => ?_
    refine wpre_bind.mpr (wpre_mono ?_ (wpO_gbridgeCmdData hw))
    intro _ w' hw'
    refine wpre_bind.mpr (wpO_get (wpre_if (fun _ => hw'.idle) fun _ =>
      wpre_if (fun _ => hw'.idle) fun _ => ?_))
    exact wpre_bind.mpr (wpre_mono (fun _ _ h => h.idle) (wpO_gbridgeCmdStream hw'))

theorem wpO_gbridgeProtMaLoop {w : World σ} (hw : w.Idle) :
    wpO port gbridgeProtMaLoop (fun _ w' => w'.Rest) w := by
  refine wpre_bind.mpr (wpO_get ?_)
  cases hready : w.g.dataReady with
  | false => exact ⟨hw.idle, hready⟩
  | true =>
    refine wpre_if (fun _ => wpO_modify (fun _ => .inl rfl) ⟨hw.idle, rfl⟩) fun _ => ?_
    refine wpre_bind.mpr (wpre_mono ?_ (wpO_handleRequest ⟨hw.ready hready, hw.idle⟩))
    intro _ w' hidle
    exact wpO_modify (fun _ => .inl rfl) ⟨hidle, rfl⟩

/-! ### `main` -/

theorem keepsO_get {I : World σ → Prop} {k : State → Code α}
    (h : ∀ g, Keeps (orderlySpec port) I (k g)) : Keeps (orderlySpec port) I (get.bind k) :=
  fun w hw => wpO_get (h _ w hw)

/-- What the handshake sets does not concern what is awaited, nor a request. -/
theorem keepsO_modify {f : State → State} (hwait : ∀ g, (f g).waitingCmd = g.waitingCmd)
    (hready : ∀ g, (f g).dataReady = g.dataReady) :
    Keeps (orderlySpec port) (World.Rest (σ := σ)) (modify f) := fun _ h =>
  wpO_modify (fun _ => .inl (hwait _)) ⟨(hwait _).trans h.idle, (hready _).trans h.ready⟩

theorem keepsO_gbridgeHandshake :
    Keeps (orderlySpec port) (World.Rest (σ := σ)) gbridgeHandshake := by
  have hwrite : Keeps (orderlySpec port) (World.Rest (σ := σ)) (spBlockingWrite handshake) :=
    fun w hw => wpO_write hw.idle (.inr rfl) ⟨hw.idle, hw.ready⟩
  have hread : Keeps (orderlySpec port) (World.Rest (σ := σ)) (spBlockingRead 1 timeoutMs) :=
    fun w hw => wpO_read fun _ _ => ⟨hw.idle, hw.ready⟩
  have hdone : Keeps (orderlySpec port) (World.Rest (σ := σ)) (do
      if (← get).handshakeProgress = handshake.length then
        modify fun g => { g with handshakeProgress := 0, connected := true }
        return false
      else return true) :=
    keepsO_get fun _ => .ite (.bind (keepsO_modify (fun _ => rfl) fun _ => rfl) fun _ => .ret false)
      (.ret true)
  refine keepsO_get fun _ => .ite (.ret true) (.bind hwrite fun _ => ?_)
  refine .bind (.loop (.bind hread fun r => ?_) (.ret ())) fun _ => keepsO_get fun _ => .ret _
  split
  · refine keepsO_get fun _ => .bind (keepsO_modify (fun _ => rfl) fun _ => rfl) fun _ => ?_
    exact .ite (.bind (keepsO_modify (fun _ => rfl) fun _ => rfl) fun _ => hdone) hdone
  · exact .ret false

/-- One turn of `main`: a frame comes, and the request it brought is served. -/
theorem keepsO_turn : Keeps (orderlySpec port) (World.Rest (σ := σ))
    (gbridgeLoop.bind fun _ => gbridgeProtMaLoop) := fun _ hw =>
  wpre_bind.mpr (wpre_mono (fun _ _ => wpO_gbridgeProtMaLoop) (wpO_gbridgeLoop hw))

theorem wpO_main (s : σ) : wpO port main (fun _ w => w.Rest) (.start s) := by
  refine wpre_bind.mpr (wpO_modify (fun _ => .inr rfl) (wpre_bind.mpr ?_))
  have hwait : Keeps (orderlySpec port) (World.Rest (σ := σ)) awaitHandshake :=
    .whileM (.bind keepsO_gbridgeHandshake fun _ => .ret _) (.ret ())
  have hloop : Keeps (orderlySpec port) (World.Rest (σ := σ)) mainLoop :=
    .whileM (keepsO_get fun _ => .ret _) keepsO_turn
  exact wpre_mono (fun _ w hw => hloop w hw) (hwait _ ⟨rfl, rfl⟩)

end Orderly

/-- What an orderly operation leaves as it was. -/
theorem Op.Orderly.after {port : Port σ} {α : Type} {e : Op α} {w w' : World σ} {a : α}
    (he : e.Orderly w) (hs : sem port α e w a w') :
    (w.g.waitingCmd ≠ Cmd.none → w'.tx = w.tx ∧
      (w'.g.waitingCmd = w.g.waitingCmd ∨ w'.g.waitingCmd = Cmd.none)) ∧
    (w.g.connected = false → w'.tx = w.tx ∨ w'.tx = w.tx ++ handshake) := by
  cases e with
  | write bs =>
    obtain ⟨hidle, hup⟩ := he
    rw [show w' = _ from hs]
    refine ⟨fun hne => absurd hidle hne, fun hdown => .inr ?_⟩
    rcases hup with hup | rfl
    · exact absurd (hup.symm.trans hdown) (by decide)
    · rfl
  | set g =>
    rw [show w' = _ from hs]
    exact ⟨fun hne => ⟨rfl, he hne⟩, fun _ => .inl rfl⟩
  | read count ms =>
    obtain ⟨q, -, rfl⟩ := hs
    exact ⟨fun _ => ⟨rfl, .inl rfl⟩, fun _ => .inl rfl⟩
  | store dst bs =>
    rw [show w' = _ from hs]
    have hkept : (w.g.store bs dst).waitingCmd = w.g.waitingCmd := by cases dst <;> rfl
    exact ⟨fun _ => ⟨rfl, .inl hkept⟩, fun _ => .inl rfl⟩
  | get | sock c =>
    rw [hs.2]
    exact ⟨fun _ => ⟨rfl, .inl rfl⟩, fun _ => .inl rfl⟩
  | eprint m | ewrite bs =>
    rw [show w' = _ from hs]
    exact ⟨fun _ => ⟨rfl, .inl rfl⟩, fun _ => .inl rfl⟩

/-- **One message at a time.**  In every run of `main`, while an acknowledgement is awaited nothing
is written and no socket is touched, and it stays awaited until it has come or the link is given
up; and with the link down nothing is written but the handshake. -/
theorem main_orderly (port : Port σ) (s : σ) (p p' : Code Unit) (w w' : World σ)
    (hr : Reach (sem port) (main, .start s) (p, w)) (hs : Step (sem port) (p, w) (p', w')) :
    (w.g.waitingCmd ≠ Cmd.none → w'.tx = w.tx ∧
      (w'.g.waitingCmd = w.g.waitingCmd ∨ w'.g.waitingCmd = Cmd.none)) ∧
    (w.g.connected = false → w'.tx = w.tx ∨ w'.tx = w.tx ++ handshake) ∧
    (∀ c k, p = .op (.sock c) k → w.g.connected = true ∧ w.g.waitingCmd = Cmd.none) := by
  obtain ⟨hok, -, -⟩ := watched_reach (wpO_main s) trivial hr
  rw [← and_assoc]
  refine ⟨?_, fun c k hp => (hok _ (.sock c) k hp).symm⟩
  cases p with
  | ret a => exact hs.elim
  | loop body k =>
    obtain ⟨-, rfl⟩ := hs
    exact ⟨fun _ => ⟨rfl, .inl rfl⟩, fun _ => .inl rfl⟩
  | op e k =>
    obtain ⟨b, hs, -⟩ := hs
    exact (hok _ e k rfl).after hs

/-- The adapter acknowledges the reply. -/
def closeServed : List ReadRes := closeArrives ++ [.bytes [ack Cmd.dataPc]]

/-- The acknowledgement of the reply has come, and is noted. -/
theorem main_orderly_served : ∃ p p' w w',
    Reach (sem scripted) (main, .start closeServed) (p, w) ∧ Step (sem scripted) (p, w) (p', w') ∧
      w.g.waitingCmd = Cmd.dataPc ∧ w'.g.waitingCmd = Cmd.none ∧ w'.tx = w.tx := by
  have hrun : (nexts answer 66 (main, .start closeServed)).bind (fun c =>
      (next answer c).map fun c' => (c.2.g.waitingCmd, c'.2.g.waitingCmd)) =
      some (Cmd.dataPc, Cmd.none) := by decide +kernel
  obtain ⟨⟨p, w⟩, hsteps, hrest⟩ := Option.bind_eq_some_iff.mp hrun
  obtain ⟨⟨p', w'⟩, hstep, hseen⟩ := Option.map_eq_some_iff.mp hrest
  obtain ⟨hwaiting, hidle⟩ := Prod.mk.inj hseen
  have hr := nexts_reach answer_sound hsteps
  have hs := next_step answer_sound hstep
  have hne : w.g.waitingCmd ≠ Cmd.none := by rw [hwaiting]; decide
  have hkept := (main_orderly scripted closeServed p p' w w' hr hs).1 hne
  exact ⟨p, p', w, w', hr, hs, hwaiting, hidle, hkept.1⟩

end GBridge.Bridge

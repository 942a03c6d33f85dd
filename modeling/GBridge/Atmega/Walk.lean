/-
# Through all of the adapter's code

What holds of a run of the adapter, whatever arrives and whatever the timer says, is proved by
walking through its functions; and for many properties the walk is the same.

`Carries` says what the pieces of `gbridge_loop` have to keep: the operations, a change of the
variables that gives up what is awaited or leaves it alone, and a link that is up with it (`Mild`),
the handshake, and the acknowledgements.  Where the code reads a byte or two after
`serial_available` has counted them, the two are one piece (`readByte`, `readPair`), so that a
property may depend on it.  `Sends` adds the places where the adapter sends something of its own: a
debug line, a packet, a stream, and the waits behind them.

Then every call of libmobile's and of the main loop keeps it (`Carries.gbridgeLoop`, `Sends.call`).
When a function of the source changes, it is its lemma here that changes.
-/
import GBridge.Atmega.Disarmed

namespace GBridge.Atmega

open Prog Bytes

/-! ## 1. The pieces -/

/-- What a call can be given: a size is an `unsigned` of 16 bits. -/
def ApiCall.Fits : ApiCall → Prop
  | sockSend _ buffer _ => buffer.length ≤ 0xffff
  | _ => True

/-- `mobile_impl_sock_send` between its request and its reply. -/
def putStream (buffer : List UInt8) : Code Unit := do
  gbridgeCmdStreamStart buffer.length
  gbridgeCmdStreamData buffer
  gbridgeCmdStreamFinish

/-- A request with an address in it is short. -/
theorem address_short (cmd conn : UInt8) (addr : Option MobileAddr) :
    (cmd :: conn :: addressWrite addr).length ≤ maxDataSize := by
  have haddr := (addressWrite_length addr).2
  simp only [List.length_cons, maxDataSize]
  omega

/-- An operation that sets no variable and leaves the serial port alone. -/
def Op.Still : {α : Type} → Op α → Prop
  | _, .set _ | _, .available | _, .getchar | _, .putchar _ => False
  | _, _ => True

/-- A mild change: what is awaited is given up or left alone, and a link that is up stays so. -/
def Mild (g g' : State) : Prop :=
  (g'.waitingCmd = g.waitingCmd ∧ (g.connected = true → g'.connected = true)) ∨
    g'.waitingCmd = Cmd.none

theorem Mild.same {g g' : State} (hw : g'.waitingCmd = g.waitingCmd)
    (hc : g'.connected = g.connected) : Mild g g' := .inl ⟨hw, hc.symm ▸ id⟩

/-- A byte is read, if there is one. -/
def readByte {α : Type} (p : Code α) (k : UInt8 → Code α) : Code α := do
  if (← serialAvailable) = 0 then p
  else
    let c ← serialGetchar
    k c

/-- Two bytes are read, if there are two, with something done in between. -/
def readPair {α : Type} (p : Code α) (m : UInt8 → Code Unit) (k : UInt8 → UInt8 → Code α) :
    Code α := do
  if (← serialAvailable) < 2 then p
  else
    let h ← serialGetchar
    m h
    let l ← serialGetchar
    k h l

/-- The pieces that calls are made of keep `I`. -/
structure Carries (S : Spec Op Live) (I : Live → Prop) : Prop where
  get : ∀ {α : Type} {k : State → Code α} {Q : α → Live → Prop} {w : Live}, I w →
    wpre S false (k w.g) Q w → wpre S false (get.bind k) Q w
  modify : ∀ {f : State → State}, (∀ g, Mild g (f g)) → Keeps S I (modify f)
  still : ∀ {α : Type} {e : Op α}, e.Still → Keeps S I (.cmd e)
  ack : ∀ {cmd : UInt8}, cmd = Cmd.dataPc ∨ cmd = Cmd.streamPc →
    Keeps S I (serialPutchar (ack cmd))
  reset : Keeps S I recvCmdReset
  handshake : ∀ {w : Live}, I w → w.g.connected = false →
    wpre S false doHandshake (fun _ w' => I w') w
  /-- A byte is read when there is one. -/
  byte : ∀ {α : Type} {p : Code α} {k : UInt8 → Code α}, Keeps S I p → (∀ c, Keeps S I (k c)) →
    Keeps S I (readByte p k)
  /-- Two bytes are read when there are two. -/
  pairAlone : ∀ {α : Type} {p : Code α} {k : UInt8 → UInt8 → Code α}, Keeps S I p →
    (∀ h l, Keeps S I (k h l)) → Keeps S I (readPair p (fun _ => .ret ()) k)
  pairSet : ∀ {α : Type} {p : Code α} {f : UInt8 → State → State} {k : UInt8 → UInt8 → Code α},
    Keeps S I p → (∀ h g, Mild g (f h g)) → (∀ h l, Keeps S I (k h l)) →
      Keeps S I (readPair p (fun h => Atmega.modify (f h)) k)

section Reads

variable {S : Spec Op Live} {I : Live → Prop} {α : Type}

/-- Where reading is always possible, a byte is read. -/
theorem keeps_readByte (hlook : Keeps S I serialAvailable) (hread : Keeps S I serialGetchar)
    {p : Code α} {k : UInt8 → Code α} (hp : Keeps S I p) (hk : ∀ c, Keeps S I (k c)) :
    Keeps S I (readByte p k) :=
  .bind hlook fun _ => .ite hp (.bind hread hk)

theorem keeps_readPair (hlook : Keeps S I serialAvailable) (hread : Keeps S I serialGetchar)
    {p : Code α} {m : UInt8 → Code Unit} {k : UInt8 → UInt8 → Code α} (hp : Keeps S I p)
    (hm : ∀ h, Keeps S I (m h)) (hk : ∀ h l, Keeps S I (k h l)) : Keeps S I (readPair p m k) :=
  .bind hlook fun _ => .ite hp (.bind hread fun h => .bind (hm h) fun _ => .bind hread (hk h))

end Reads

/-- And so do the places where the adapter sends something of its own and waits. -/
structure Sends (S : Spec Op Live) (I : Live → Prop) : Prop extends Carries S I where
  wait : ∀ cmd, Keeps S I (waitCmd cmd)
  line : ∀ line : List UInt8, line.length ≤ 0xff →
    Keeps S I (serialPutchars (Cmd.debugLine :: UInt8.ofNat line.length :: line))
  packet : ∀ bs : List UInt8, bs.length ≤ maxDataSize → Keeps S I (putDataFrame (.ofList bs))
  stream : ∀ buffer : List UInt8, buffer.length ≤ 0xffff → Keeps S I (putStream buffer)

/-! ## 2. `gbridge_loop` -/

namespace Carries

variable {S : Spec Op Live} {I : Live → Prop} (hS : Carries S I)

include hS

theorem reads {α : Type} {k : State → Code α} (hk : ∀ g, Keeps S I (k g)) :
    Keeps S I (Atmega.get.bind k) := fun w hw => hS.get hw (hk w.g w hw)

/-- A change of variables that have nothing to do with the link or what is awaited. -/
theorem sets {f : State → State} (hw : ∀ g, (f g).waitingCmd = g.waitingCmd)
    (hc : ∀ g, (f g).connected = g.connected) : Keeps S I (Atmega.modify f) :=
  hS.modify fun g => .same (hw g) (hc g)

theorem init : Keeps S I gbridgeInit := hS.modify fun _ => .inr rfl

/-- `case 2` of both receivers. -/
theorem recvChecksum {data : State → GbridgeData} {cmd : UInt8} {accept : State → State}
    (hcmd : cmd = Cmd.dataPc ∨ cmd = Cmd.streamPc)
    (hw : ∀ g, (accept g).waitingCmd = g.waitingCmd)
    (hc : ∀ g, (accept g).connected = g.connected) :
    Keeps S I (recvChecksum data cmd accept) := by
  refine hS.pairAlone (.ret 0) fun h l => hS.reads fun g => .ite (.ret (-1)) ?_
  exact .bind (hS.ack hcmd) fun _ => .bind (hS.sets hw hc) fun _ => .ret 1

/-- Storing a payload. -/
theorem recvBytesLoop (store : Nat → UInt8 → Op Unit) {cur : State → Nat}
    {advance : State → State} {full : State → Bool} {finish : State → State}
    (hstore : ∀ i c, (store i c).Still)
    (hadvance : ∀ g, Mild g (advance g)) (hfinish : ∀ g, Mild g (finish g)) :
    Keeps S I (recvBytesLoop store cur advance full finish) := by
  refine .loop (hS.byte (.ret false) fun c => hS.reads fun g => ?_) (.ret ())
  refine .bind (hS.still (hstore _ _)) fun _ => .bind (hS.modify hadvance) fun _ => ?_
  exact hS.reads fun g => .ite (.bind (hS.modify hfinish) fun _ => .ret false) (.ret true)

theorem recvDataPcChecksum : Keeps S I recvDataPcChecksum :=
  hS.recvChecksum (.inl rfl) (fun _ => rfl) fun _ => rfl

theorem recvDataPcBytes : Keeps S I recvDataPcBytes := by
  refine .bind (hS.recvBytesLoop .storeData (fun _ _ => trivial) (fun _ => .same rfl rfl)
    fun _ => .same rfl rfl) fun _ => ?_
  exact hS.reads fun g => .ite (.ret 0) hS.recvDataPcChecksum

theorem recvDataPcLen : Keeps S I recvDataPcLen := by
  refine hS.byte (.ret 0) fun c => ?_
  refine .bind (hS.sets (fun _ => rfl) fun _ => rfl) fun _ => .ite (.ret (-1)) ?_
  exact .bind (hS.sets (fun _ => rfl) fun _ => rfl) fun _ => hS.recvDataPcBytes

theorem recvCmdDataPc : Keeps S I recvCmdDataPc :=
  hS.reads fun _ => .ite (.ret (-1)) (.ite hS.recvDataPcLen (.ite hS.recvDataPcBytes
    (.ite hS.recvDataPcChecksum (.ret 0))))

theorem recvStreamPcChecksum : Keeps S I recvStreamPcChecksum :=
  hS.recvChecksum (.inr rfl) (fun _ => rfl) fun _ => rfl

theorem recvStreamPcBytes : Keeps S I recvStreamPcBytes := by
  refine .bind (hS.recvBytesLoop .storeStream (fun _ _ => trivial) (fun _ => .same rfl rfl)
    fun _ => .same rfl rfl) fun _ => ?_
  exact hS.reads fun g => .ite (.ret 0) hS.recvStreamPcChecksum

theorem recvStreamPcLen : Keeps S I recvStreamPcLen := by
  refine hS.pairSet (.ret 0) (fun _ _ => .same rfl rfl) fun h l => ?_
  refine .bind (hS.sets (fun _ => rfl) fun _ => rfl) fun _ => hS.reads fun g => .ite (.ret (-1)) ?_
  exact .bind (hS.sets (fun _ => rfl) fun _ => rfl) fun _ => hS.recvStreamPcBytes

theorem recvCmdStreamPc : Keeps S I recvCmdStreamPc :=
  hS.reads fun _ => .ite (.ret (-1)) (.ite hS.recvStreamPcLen (.ite hS.recvStreamPcBytes
    (.ite hS.recvStreamPcChecksum (.ret 0))))

theorem processCmd : Keeps S I processCmd := by
  refine hS.reads fun g => .bind (.ite hS.reset (.ite hS.recvCmdDataPc
    (.ite hS.recvCmdStreamPc (.ret 1)))) fun rc => ?_
  exact .ite (hS.sets (fun _ => rfl) fun _ => rfl) (.ite hS.init (.ret ()))

theorem receiveCmd : Keeps S I receiveCmd := by
  refine hS.reads fun g => .ite (hS.byte (.ret ()) fun cmd => ?_) hS.processCmd
  refine .ite (.ret ()) (hS.reads fun g => ?_)
  refine .ite (.ite (hS.modify fun _ => .inr rfl) (.ret ()))
    (.bind (hS.still trivial) fun now => ?_)
  exact .bind (hS.sets (fun _ => rfl) fun _ => rfl) fun _ => hS.processCmd

theorem timedOut (cmd : UInt8) (since : UInt32) : Keeps S I (timedOut cmd since) :=
  .ite (hS.still trivial) (.ret false)

theorem gbridgeLoopConnected : Keeps S I gbridgeLoopConnected :=
  hS.reads fun _ => .bind (hS.timedOut _ _) fun _ => .ite hS.init
    (.bind (hS.timedOut _ _) fun _ => .ite hS.init hS.receiveCmd)

/-- **`gbridge_loop` keeps what its pieces keep.** -/
theorem gbridgeLoop : Keeps S I gbridgeLoop := by
  intro w hw
  refine hS.get hw ?_
  split
  · exact hS.gbridgeLoopConnected w hw
  · rename_i hdown
    refine wpre_bind.mpr (wpre_mono ?_ (hS.handshake hw (Bool.not_eq_true _ ▸ hdown)))
    intro b w' hw'
    have hup : Keeps S I (do
        Atmega.modify fun g => { g with connected := true }
        Atmega.gbridgeLoopConnected) :=
      .bind (hS.modify fun _ => .inl ⟨rfl, fun _ => rfl⟩) fun _ => hS.gbridgeLoopConnected
    exact wpre_if (fun _ => hup w' hw') fun _ => hw'

end Carries

/-! ## 3. The calls -/

namespace Sends

variable {S : Spec Op Live} {I : Live → Prop} (hS : Sends S I)

include hS

theorem done : Keeps S I gbridgeRecvDataDone := hS.sets (fun _ => rfl) fun _ => rfl

theorem waits {c : State → Bool} :
    Keeps S I (.whileM (do return c (← Atmega.get)) gbridgeLoop) :=
  .whileM (hS.reads fun _ => .ret _) hS.gbridgeLoop

theorem cmdData {bs : List UInt8} (hlen : bs.length ≤ maxDataSize) :
    Keeps S I (gbridgeCmdData (.ofList bs)) :=
  hS.reads fun _ => .ite (.ite (.bind (hS.packet bs hlen) fun _ => hS.wait _) (.ret ())) (.ret ())

theorem cmdDebugLine (line : List UInt8) : Keeps S I (gbridgeCmdDebugLine line) := by
  refine hS.reads fun _ => .ite ?_ (.ret ())
  split
  · rename_i hlen
    have hsent : Keeps S I ((serialPutchars (Cmd.debugLine :: UInt8.ofNat line.length :: line)).bind
        fun _ => waitCmd Cmd.debugLine) := .bind (hS.line line hlen) fun _ => hS.wait _
    exact hsent
  · exact .ret ()

theorem recvDataWait : Keeps S I gbridgeRecvDataWait :=
  .bind hS.waits fun _ => hS.reads fun _ => .ite (hS.reads fun _ => .ret _) (.ret _)

/-- A call that is done with its packet. -/
theorem finish (r : Result) : Keeps S I (do gbridgeRecvDataDone; return r) :=
  .bind hS.done fun _ => .ret r

/-- A request, and what is made of its reply. -/
theorem asks {bs : List UInt8} (hlen : bs.length ≤ maxDataSize)
    {f : Option GbridgeData → Code Result} (hf : ∀ x, Keeps S I (f x)) :
    Keeps S I ((request (.ofList bs)).bind f) :=
  .bind (.bind (hS.cmdData hlen) fun _ => hS.recvDataWait) hf

theorem sockFlag (cmd : UInt8) (conn : Nat) : Keeps S I (mobileImplSockFlag cmd conn) := by
  refine hS.asks (by simp [maxDataSize]) fun x => ?_
  cases x with
  | none => exact hS.finish _
  | some recvData => exact .ite (hS.finish _) (hS.finish _)

theorem sockConnect (conn : Nat) (addr : Option MobileAddr) :
    Keeps S I (mobileImplSockConnect conn addr) := by
  refine hS.asks (address_short _ _ addr) fun x => ?_
  cases x with
  | none => exact hS.finish _
  | some recvData => exact .ite (hS.finish _) (hS.finish _)

theorem sockSend (conn : Nat) {buffer : List UInt8} (addr : Option MobileAddr)
    (hlen : buffer.length ≤ 0xffff) : Keeps S I (mobileImplSockSend conn buffer addr) := by
  refine .bind (hS.cmdData (address_short _ _ addr)) fun _ =>
    .bind (hS.reads fun _ => .ret _) fun c => .ite ?_ (hS.finish _)
  have hstream : ∀ {k : Unit → Code Result}, (∀ a, Keeps S I (k a)) →
      Keeps S I ((gbridgeCmdStreamStart buffer.length).bind fun _ =>
        (gbridgeCmdStreamData buffer).bind fun _ => gbridgeCmdStreamFinish.bind k) := by
    intro k hk
    have h := (hS.stream buffer hlen).bind hk
    simpa only [putStream, bind_eq, bind_assoc] using h
  refine hstream fun _ => .bind hS.recvDataWait fun x => ?_
  cases x with
  | none => exact hS.finish _
  | some recvData => exact .ite (hS.finish _) (hS.finish _)

theorem recvStreamWait (buffer : List UInt8) (size : Nat) :
    Keeps S I (gbridgeRecvStreamWait buffer size) :=
  .bind (hS.sets (fun _ => rfl) fun _ => rfl) fun _ => .bind hS.waits fun _ =>
    hS.reads fun _ => .ret _

theorem sockRecv (conn : Nat) (buffer : List UInt8) (size : Nat) (addr : Option MobileAddr) :
    Keeps S I (mobileImplSockRecv conn buffer size addr) := by
  refine hS.asks (by simp [maxDataSize]) fun x => ?_
  cases x with
  | none => exact hS.finish _
  | some recvData =>
    refine .ite (hS.finish _) ?_
    rcases addressRead (recvData.buffer.drop 3) ((recvData.size.toNat + 65536 - 3) % 65536)
      with ⟨recvAddrlen, recvAddr⟩
    refine .ite (hS.finish _) (.bind hS.done fun _ => .ite (.ret _) ?_)
    refine .bind (hS.recvStreamWait buffer size) fun b => ?_
    exact .ite (hS.reads fun _ => .ret _) (hS.reads fun _ => .ret _)

/-- **Every call keeps what its pieces keep.** -/
theorem call {c : ApiCall} (hc : c.Fits) : Keeps S I c.code := by
  have hreported : ∀ {p : Code Result}, Keeps S I p → Keeps S I (reported p) :=
    fun hp => .bind hp fun _ => hS.still trivial
  cases c with
  | sockOpen =>
    refine hreported (hS.asks (by simp [maxDataSize]) fun x => ?_)
    cases x with
    | none => exact hS.finish _
    | some recvData => exact .ite (hS.finish _) (hS.finish _)
  | sockClose => exact hreported (hS.asks (by simp [maxDataSize]) fun _ => hS.finish _)
  | sockConnect conn addr => exact hreported (hS.sockConnect conn addr)
  | sockListen conn => exact hreported (hS.sockFlag _ conn)
  | sockAccept conn => exact hreported (hS.sockFlag _ conn)
  | sockSend conn buffer addr => exact hreported (hS.sockSend conn addr hc)
  | sockRecv conn buffer size addr => exact hreported (hS.sockRecv conn buffer size addr)
  | debugLine line => exact hS.cmdDebugLine line
  | loop => exact hS.gbridgeLoop
  | protMaLoop =>
    refine .bind (hS.reads fun _ => .ret _) fun x => ?_
    cases x with
    | none => exact .ret ()
    | some _ => exact hS.done

end Sends

end GBridge.Atmega

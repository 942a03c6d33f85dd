/-
# `atmega328p/source/gbridge.c`

The link layer on the adapter.  Its static variables are the record `State`; its functions
are programs over the operations `Atmega.Op`, which are what it asks of `serial.c` and
`timer.c`, plus reading and writing its own variables.  Stores into the two receive buffers
are operations of their own, with their index, so that a run shows where each byte went.

Variables of type `unsigned char` and `unsigned` (16 bits on the AVR) are numbers, reduced
modulo `2 ^ 8` and `2 ^ 16` where the source's arithmetic can pass the end.
-/
import GBridge.Lib.Prog
import GBridge.Wire

namespace GBridge.Atmega

open Bytes

/-! ## 1. Variables and operations -/

/-- The static variables of `gbridge.c`.  `data.buffer` always leads to `dataBuf`, and
`streamBuf` is the memory `stream_recv.buffer` leads to. -/
structure State where
  connected : Bool := false
  handshakeProgress : Nat := 0
  processingCmd : UInt8 := Cmd.none
  processingCmdState : Nat := 0
  processingCmdTime : UInt32 := 0
  waitingCmd : UInt8 := Cmd.none
  waitingCmdTime : UInt32 := 0
  dataBuf : List UInt8 := List.replicate maxDataSize 0
  /-- `data.size` -/
  dataSize : UInt8 := 0
  dataLen : Nat := 0
  dataCur : Nat := 0
  dataReady : Bool := false
  streamBuf : List UInt8 := []
  /-- `stream_recv.size` -/
  streamSize : UInt8 := 0
  streamMaxSize : Nat := 0
  streamCur : Nat := 0
  streamChecksum : Nat := 0
deriving DecidableEq

/-- `data`, as `gbridge_recv_data` hands it out. -/
def State.data (g : State) : GbridgeData := ⟨g.dataSize, g.dataBuf⟩

/-- `stream_recv` -/
def State.streamRecv (g : State) : GbridgeData := ⟨g.streamSize, g.streamBuf⟩

/-- What a call of `gbridge_prot_ma.c` hands back to libmobile. -/
inductive Result where
  | done
  | bool (b : Bool)
  | int (n : Int)
  /-- The count, the buffer and the address behind the two pointers. -/
  | recv (n : Int) (buffer : List UInt8) (addr : Option MobileAddr)
deriving DecidableEq

/-- What the code asks of its surroundings. -/
inductive Op : Type → Type where
  /-- Read the variables. -/
  | get : Op State
  /-- Write the variables. -/
  | set (g : State) : Op Unit
  /-- `data.buffer[i] = c` -/
  | storeData (i : Nat) (c : UInt8) : Op Unit
  /-- `stream_recv.buffer[i] = c` -/
  | storeStream (i : Nat) (c : UInt8) : Op Unit
  /-- `serial_available()` -/
  | available : Op Nat
  /-- `serial_getchar()` -/
  | getchar : Op UInt8
  /-- `serial_putchar(c)` -/
  | putchar (c : UInt8) : Op Unit
  /-- `timer_get()` -/
  | timerGet : Op UInt32
  /-- `timer_get() - since > GBRIDGE_TIMEOUT_US` -/
  | expired (since : UInt32) : Op Bool
  /-- A call returns to libmobile. -/
  | returned (r : Result) : Op Unit

/-- Code of the adapter. -/
abbrev Code := Prog Op

def get : Code State := .cmd .get
def modify (f : State → State) : Code Unit := get.bind fun g => .cmd (.set (f g))
def serialAvailable : Code Nat := .cmd .available
def serialGetchar : Code UInt8 := .cmd .getchar
def serialPutchar (c : UInt8) : Code Unit := .cmd (.putchar c)
def timerGet : Code UInt32 := .cmd .timerGet
def expired (since : UInt32) : Code Bool := .cmd (.expired since)

/-- `for (i = 0; i < size; i++) serial_putchar(bs[i])` -/
def serialPutchars : List UInt8 → Code Unit
  | [] => pure ()
  | c :: cs => do serialPutchar c; serialPutchars cs

/-! ## 2. Reset and handshake -/

/-- What `gbridge_init` leaves; all other variables stay as they were. -/
def State.init (g : State) : State :=
  { g with
    connected := false, handshakeProgress := 0, waitingCmd := Cmd.none,
    processingCmd := Cmd.none, dataReady := false, dataSize := 0, streamMaxSize := 0 }

/-- `gbridge_init` -/
def gbridgeInit : Code Unit := modify State.init

/-- `do_handshake` -/
def doHandshake : Code Bool := do
  if (← serialAvailable) = 0 then return false
  else
    let c ← serialGetchar
    let g ← get
    if handshake.getD g.handshakeProgress 0 ≠ c then
      modify fun g => { g with handshakeProgress := if c = handshake.getD 0 0 then 1 else 0 }
      return false
    else
      modify fun g => { g with handshakeProgress := (g.handshakeProgress + 1) % 256 }
      if (← get).handshakeProgress ≠ handshake.length then return false
      else
        modify fun g => { g with handshakeProgress := 0 }
        -- reply handshake
        serialPutchars handshake
        return true

/-! ## 3. Receiving a frame

The three functions that take a frame return `1` when they are done with it, `-1` when the
link has to be reset and `0` when the rest has not come yet.  A `case` that falls through is
a function that ends by calling the next. -/

/-- `recv_cmd_reset` -/
def recvCmdReset : Code Int := do
  gbridgeInit
  serialPutchar (ack Cmd.reset)
  return 1

/-- `case 2` of both receivers: the checksum of what has been stored. -/
def recvChecksum (data : State → GbridgeData) (cmd : UInt8) (accept : State → State) :
    Code Int := do
  if (← serialAvailable) < 2 then return 0
  else
    let h ← serialGetchar
    let l ← serialGetchar
    if be16 h l ≠ (data (← get)).checksumData then return -1
    else
      serialPutchar (ack cmd)
      modify accept
      return 1

/-- The `while (serial_available())` of `case 1` of both receivers.  It stores before it
tests. -/
def recvBytesLoop (store : Nat → UInt8 → Op Unit) (cur : State → Nat)
    (advance : State → State) (full : State → Bool) (finish : State → State) : Code Unit :=
  .loop (do
    if (← serialAvailable) = 0 then return false
    else
      let c ← serialGetchar
      let g ← get
      .cmd (store (cur g) c)
      modify advance
      if full (← get) then
        modify finish
        return false
      else return true) (pure ())

/-- `recv_cmd_data_pc`, `case 2` -/
def recvDataPcChecksum : Code Int :=
  recvChecksum State.data Cmd.dataPc fun g => { g with dataReady := true }

/-- `recv_cmd_data_pc`, `case 1`: the payload. -/
def recvDataPcBytes : Code Int := do
  recvBytesLoop .storeData State.dataCur
    (fun g => { g with dataCur := (g.dataCur + 1) % 256 }) (fun g => g.dataLen ≤ g.dataCur)
    (fun g => { g with dataSize := UInt8.ofNat g.dataLen, processingCmdState := 2 })
  if (← get).processingCmdState = 1 then return 0
  else recvDataPcChecksum

/-- `recv_cmd_data_pc`, `case 0`: the length. -/
def recvDataPcLen : Code Int := do
  if (← serialAvailable) = 0 then return 0
  else
    let c ← serialGetchar
    modify fun g => { g with dataLen := c.toNat }
    if maxDataSize < c.toNat then return -1
    else
      modify fun g => { g with dataCur := 0, processingCmdState := 1 }
      recvDataPcBytes

/-- `recv_cmd_data_pc` -/
def recvCmdDataPc : Code Int := do
  let g ← get
  if g.dataReady then return -1
  else if g.processingCmdState = 0 then recvDataPcLen
  else if g.processingCmdState = 1 then recvDataPcBytes
  else if g.processingCmdState = 2 then recvDataPcChecksum
  else return 0

/-- `recv_cmd_stream_pc`, `case 2` -/
def recvStreamPcChecksum : Code Int :=
  recvChecksum State.streamRecv Cmd.streamPc fun g => { g with streamMaxSize := 0 }

/-- `recv_cmd_stream_pc`, `case 1`: the payload. -/
def recvStreamPcBytes : Code Int := do
  recvBytesLoop .storeStream State.streamCur
    (fun g => { g with streamCur := (g.streamCur + 1) % 65536 })
    (fun g => g.streamSize.toNat ≤ g.streamCur) (fun g => { g with processingCmdState := 2 })
  if (← get).processingCmdState = 1 then return 0
  else recvStreamPcChecksum

/-- `recv_cmd_stream_pc`, `case 0`: the length.  The size is an `unsigned char`: of the high
byte, shifted into place, nothing is left. -/
def recvStreamPcLen : Code Int := do
  if (← serialAvailable) < 2 then return 0
  else
    let h ← serialGetchar
    modify fun g => { g with streamSize := UInt8.ofNat (h.toNat <<< 8) }
    let l ← serialGetchar
    modify fun g => { g with streamSize := g.streamSize ||| l }
    let g ← get
    if g.streamMaxSize < g.streamSize.toNat then return -1
    else
      modify fun g => { g with streamCur := 0, processingCmdState := 1 }
      recvStreamPcBytes

/-- Shifted into an `unsigned char`, the high byte is gone. -/
theorem streamSize_eq {h l : UInt8} : UInt8.ofNat (h.toNat <<< 8) ||| l = l := by
  have hzero : UInt8.ofNat (h.toNat <<< 8) = 0 := by
    refine UInt8.toNat_inj.mp ?_
    rw [UInt8.toNat_ofNat', Nat.shiftLeft_eq]
    exact Nat.mul_mod_left _ _
  rw [hzero, UInt8.zero_or]

/-- `recv_cmd_stream_pc` -/
def recvCmdStreamPc : Code Int := do
  let g ← get
  if g.streamMaxSize = 0 then return -1
  else if g.processingCmdState = 0 then recvStreamPcLen
  else if g.processingCmdState = 1 then recvStreamPcBytes
  else if g.processingCmdState = 2 then recvStreamPcChecksum
  else return 0

/-! ## 4. `gbridge_loop` -/

/-- The `switch` at the end of `gbridge_loop`. -/
def recvCmd (cmd : UInt8) : Code Int :=
  if cmd = Cmd.reset then recvCmdReset
  else if cmd = Cmd.dataPc then recvCmdDataPc
  else if cmd = Cmd.streamPc then recvCmdStreamPc
  else return 1

/-- The command under way, and what is made of the receiver's result. -/
def processCmd : Code Unit := do
  let rc ← recvCmd (← get).processingCmd
  if rc = 1 then modify fun g => { g with processingCmd := Cmd.none }
  else if rc = -1 then gbridgeInit

/-- Wait until we receive a command, or go on with the one under way. -/
def receiveCmd : Code Unit := do
  if (← get).processingCmd = Cmd.none then
    if (← serialAvailable) = 0 then return ()
    else
      let cmd ← serialGetchar
      if cmd = Cmd.none then return ()
      else
        let waitingCmd := (← get).waitingCmd
        -- if `wait_cmd` has been called, process that
        if waitingCmd ≠ Cmd.none then
          if cmd = ack waitingCmd then modify fun g => { g with waitingCmd := Cmd.none }
        else
          let now ← timerGet
          modify fun g =>
            { g with processingCmd := cmd, processingCmdState := 0, processingCmdTime := now }
          processCmd
  else processCmd

/-- `cmd != GBRIDGE_CMD_NONE && timer_get() - since > GBRIDGE_TIMEOUT_US` -/
def timedOut (cmd : UInt8) (since : UInt32) : Code Bool :=
  if cmd ≠ Cmd.none then expired since else pure false

/-- Handle timeout, and then the command. -/
def gbridgeLoopConnected : Code Unit := do
  let g ← get
  if ← timedOut g.processingCmd g.processingCmdTime then gbridgeInit
  else if ← timedOut g.waitingCmd g.waitingCmdTime then gbridgeInit
  else receiveCmd

/-- `gbridge_loop` -/
def gbridgeLoop : Code Unit := do
  if (← get).connected then gbridgeLoopConnected
  else if ← doHandshake then
    modify fun g => { g with connected := true }
    gbridgeLoopConnected

/-! ## 5. Waiting, and the functions libmobile's side calls -/

/-- `gbridge_connected` -/
def gbridgeConnected : Code Bool := do return (← get).connected

/-- `gbridge_recv_data` -/
def gbridgeRecvData : Code (Option GbridgeData) := do
  let g ← get
  return if g.dataReady then some g.data else none

/-- `gbridge_recv_data_wait`: the loop leaves with a packet, or with none when the link is
lost. -/
def gbridgeRecvDataWait : Code (Option GbridgeData) := do
  .whileM (do
    let g ← get
    return g.connected && !g.dataReady) gbridgeLoop
  if (← get).connected then gbridgeRecvData else return none

/-- `gbridge_recv_data_done` -/
def gbridgeRecvDataDone : Code Unit := modify fun g => { g with dataReady := false }

/-- `gbridge_recv_stream` -/
def gbridgeRecvStream (buffer : List UInt8) (maxSize : Nat) : Code Unit :=
  modify fun g =>
    { g with
      streamBuf := buffer, streamSize := 0, streamMaxSize := maxSize, streamCur := 0,
      streamChecksum := 0 }

/-- `gbridge_recv_stream_done` -/
def gbridgeRecvStreamDone : Code Bool := do return (← get).streamMaxSize == 0

/-- `gbridge_recv_stream_wait` -/
def gbridgeRecvStreamWait (buffer : List UInt8) (maxSize : Nat) : Code Bool := do
  gbridgeRecvStream buffer maxSize
  .whileM (do
    let g ← get
    return g.connected && g.streamMaxSize != 0) gbridgeLoop
  gbridgeConnected

/-- `wait_cmd` -/
def waitCmd (cmd : UInt8) : Code Unit := do
  if (← get).connected then
    -- if a previous command is being waited on, wait
    .whileM (do return (← get).waitingCmd != Cmd.none) gbridgeLoop
    let now ← timerGet
    modify fun g => { g with waitingCmd := cmd, waitingCmdTime := now }
    .whileM (do return (← get).waitingCmd == cmd) gbridgeLoop

/-! ## 6. Sending -/

/-- `gbridge_cmd_debug_line`; the line comes without its closing zero. -/
def gbridgeCmdDebugLine (line : List UInt8) : Code Unit := do
  if (← get).connected then
    if line.length ≤ 0xff then
      serialPutchar Cmd.debugLine
      serialPutchar (UInt8.ofNat line.length)
      serialPutchars line
      waitCmd Cmd.debugLine

/-- The frame that `gbridge_cmd_data` sends. -/
def putDataFrame (data : GbridgeData) : Code Unit := do
  serialPutchar Cmd.data
  serialPutchar data.size
  serialPutchars data.bytes
  let checksum := checksumAdd 0 data.buffer data.size.toNat
  serialPutchar (hi checksum)
  serialPutchar (lo checksum)

/-- `gbridge_cmd_data` -/
def gbridgeCmdData (data : GbridgeData) : Code Unit := do
  if (← get).connected then
    if data.size.toNat ≤ maxDataSize then
      putDataFrame data
      waitCmd Cmd.data

/-- `gbridge_cmd_stream_start` -/
def gbridgeCmdStreamStart (length : Nat) : Code Unit := do
  if (← get).connected then
    serialPutchar Cmd.stream
    serialPutchar (hi length)
    serialPutchar (lo length)
    modify fun g => { g with streamChecksum := 0 }

/-- `gbridge_cmd_stream_data`: `checksum_add` gets the length as an `unsigned char`. -/
def gbridgeCmdStreamData (data : List UInt8) : Code Unit := do
  if (← get).connected then
    modify fun g => { g with streamChecksum := checksumAdd g.streamChecksum data data.length }
    serialPutchars data

/-- The checksum that `gbridge_cmd_stream_finish` sends. -/
def putStreamChecksum : Code Unit := do
  let g ← get
  serialPutchar (hi g.streamChecksum)
  serialPutchar (lo g.streamChecksum)

/-- `gbridge_cmd_stream_finish` -/
def gbridgeCmdStreamFinish : Code Unit := do
  if (← get).connected then
    putStreamChecksum
    waitCmd Cmd.stream

end GBridge.Atmega

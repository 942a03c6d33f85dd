/-
# `bridge/source/gbridge.c`

The link layer on the PC.  It reads the port with `sp_blocking_read`, which answers with the
bytes it got before the timeout, at most as many as were asked for, or with an error.  What a
read brings is stored in the buffer it was given, and that store is an operation of its own,
so that a run shows how far each buffer is filled.
-/
import GBridge.Bridge.SocketImpl

namespace GBridge.Bridge

open Bytes

/-! ## 1. Variables and operations -/

/-- The static variables of `gbridge.c`.  `dataBuf` is the memory from `data_buf` on: the array
itself holds `GBRIDGE_MAX_DATA_SIZE` bytes, and a store past its end makes the list longer. -/
structure State where
  connected : Bool := false
  handshakeProgress : Nat := 0
  waitingCmd : UInt8 := Cmd.none
  dataBuf : List UInt8 := List.replicate maxDataSize 0
  /-- `data.size` -/
  dataSize : UInt8 := 0
  dataReady : Bool := false
deriving DecidableEq

/-- `data`, as `gbridge_recv_data` hands it out. -/
def State.data (g : State) : GbridgeData := ⟨g.dataSize, g.dataBuf⟩

/-- The answer of `sp_blocking_read`. -/
inductive ReadRes where
  | bytes (bs : List UInt8)
  /-- A negative `enum sp_return`, `-(code + 1)`. -/
  | error (code : Nat)
deriving DecidableEq

/-- Where a read puts its bytes. -/
inductive Dst where
  /-- A local variable or array of the length asked for. -/
  | scratch
  /-- `&data.size` -/
  | dataSize
  /-- `data.buffer`, which is `data_buf` -/
  | dataBuf
  /-- The buffer given to `gbridge_recv_stream`, of `maxSize` bytes. -/
  | stream (maxSize : Nat)
deriving DecidableEq

/-- What the code asks of its surroundings. -/
inductive Op : Type → Type where
  /-- Read the variables. -/
  | get : Op State
  /-- Write the variables. -/
  | set (g : State) : Op Unit
  /-- `sp_blocking_read(port, …, count, ms)` -/
  | read (count ms : Nat) : Op ReadRes
  /-- The bytes of a read go to the front of its buffer. -/
  | store (dst : Dst) (bs : List UInt8) : Op Unit
  /-- `sp_blocking_write(port, …, 0)` -/
  | write (bs : List UInt8) : Op Unit
  /-- A message on the standard error output. -/
  | eprint (s : String) : Op Unit
  /-- `fwrite` of a debug line and its newline. -/
  | ewrite (bs : List UInt8) : Op Unit
  /-- A call of `socket_impl_*`. -/
  | sock (c : SockCall) : Op c.Res

/-- Code of the bridge. -/
abbrev Code := Prog Op

def get : Code State := .cmd .get
def modify (f : State → State) : Code Unit := get.bind fun g => .cmd (.set (f g))
def spBlockingRead (count ms : Nat) : Code ReadRes := .cmd (.read count ms)
def spBlockingWrite (bs : List UInt8) : Code Unit := .cmd (.write bs)
def eprint (s : String) : Code Unit := .cmd (.eprint s)

/-- What storing the bytes of a read does to the variables. -/
def State.store (g : State) (bs : List UInt8) : Dst → State
  | .scratch | .stream _ => g
  | .dataSize => { g with dataSize := bs.getD 0 g.dataSize }
  | .dataBuf => { g with dataBuf := bs ++ g.dataBuf.drop bs.length }

/-! ## 2. Reset and handshake -/

/-- What `gbridge_init` leaves. -/
def State.init (g : State) : State :=
  { g with
    connected := false, handshakeProgress := 0, waitingCmd := Cmd.none, dataReady := false,
    dataSize := 0 }

/-- `gbridge_init` -/
def gbridgeInit : Code Unit := modify State.init

/-- `gbridge_handshake`; the index is advanced inside the comparison. -/
def gbridgeHandshake : Code Bool := do
  if (← get).connected then return true
  else
    spBlockingWrite handshake
    .loop (do
      match ← spBlockingRead 1 timeoutMs with
      | .bytes [c] =>
        let progress := (← get).handshakeProgress
        modify fun g => { g with handshakeProgress := (progress + 1) % 256 }
        if c ≠ handshake.getD progress 0 then
          modify fun g => { g with handshakeProgress := if c = handshake.getD 0 0 then 1 else 0 }
        if (← get).handshakeProgress = handshake.length then
          modify fun g => { g with handshakeProgress := 0, connected := true }
          return false
        else return true
      | _ => return false) (pure ())
    return (← get).connected

/-! ## 3. Receiving a frame -/

/-- `recv_data`: all the bytes, or the link is reset. -/
def recvData (dst : Dst) (count : Nat) : Code (Option (List UInt8)) := do
  match ← spBlockingRead count timeoutMs with
  | .bytes bs =>
    .cmd (.store dst bs)
    if bs.length ≠ count then
      eprint "recv_data: timed out\n"
      gbridgeInit
      return none
    else return some bs
  | .error _ =>
    eprint "recv_data: timed out\n"
    gbridgeInit
    return none

/-- `send_ack` -/
def sendAck (cmd : UInt8) : Code Unit := spBlockingWrite [ack cmd]

/-- `recv_cmd_debug_line` -/
def recvCmdDebugLine : Code Unit := do
  match ← recvData .scratch 1 with
  | none => return ()
  | some length =>
    match ← recvData .scratch (length.getD 0 0).toNat with
    | none => return ()
    | some string =>
      sendAck Cmd.debugLine
      .cmd (.ewrite string)

/-- The end of `recv_cmd_data`: the checksum. -/
def recvDataChecksum : Code Unit := do
  match ← recvData .scratch 2 with
  | none => return ()
  | some c =>
    if be16 (c.getD 0 0) (c.getD 1 0) ≠ (← get).data.checksumData then
      eprint "recv_cmd_data: invalid checksum\n"
      gbridgeInit
    else
      modify fun g => { g with dataReady := true }
      sendAck Cmd.data

/-- `recv_cmd_data` -/
def recvCmdData : Code Unit := do
  if (← get).dataReady then
    eprint "recv_cmd_data: double receive\n"
    gbridgeInit
  else
    match ← recvData .dataSize 1 with
    | none => return ()
    | some _ =>
      match ← recvData .dataBuf (← get).dataSize.toNat with
      | none => return ()
      | some _ => recvDataChecksum

/-- `gbridge_loop` -/
def gbridgeLoop : Code Unit := do
  if (← get).connected then
    match ← spBlockingRead 1 100 with
    | .bytes [] => return ()
    | .error _ => modify fun g => { g with connected := false }
    | .bytes (cmd :: _) =>
      let waitingCmd := (← get).waitingCmd
      if waitingCmd ≠ Cmd.none then
        if cmd = ack waitingCmd then modify fun g => { g with waitingCmd := Cmd.none }
      else if cmd = Cmd.debugLine then recvCmdDebugLine
      else if cmd = Cmd.data then recvCmdData

/-- `gbridge_connected` -/
def gbridgeConnected : Code Bool := do return (← get).connected

/-- `gbridge_recv_data` -/
def gbridgeRecvData : Code (Option GbridgeData) := do
  let g ← get
  return if g.dataReady then some g.data else none

/-- `gbridge_recv_data_done` -/
def gbridgeRecvDataDone : Code Unit := modify fun g => { g with dataReady := false }

/-- The end of `gbridge_recv_stream`: the checksum, over a struct whose size is an
`unsigned char`. -/
def recvStreamChecksum (buffer : List UInt8) : Code (Int × List UInt8) := do
  match ← recvData .scratch 2 with
  | none => return (-1, buffer)
  | some c =>
    let data : GbridgeData := ⟨UInt8.ofNat buffer.length, buffer⟩
    if be16 (c.getD 0 0) (c.getD 1 0) ≠ data.checksumData then
      eprint "recv_stream: invalid checksum\n"
      gbridgeInit
      return (-1, buffer)
    else
      sendAck Cmd.stream
      return (buffer.length, buffer)

/-- `gbridge_recv_stream`: the result, and the bytes read into the buffer. -/
def gbridgeRecvStream (maxSize : Nat) : Code (Int × List UInt8) := do
  if !(← get).connected then return (-1, [])
  else
    match ← recvData .scratch 1 with
    | none => return (-1, [])
    | some c =>
      if c.getD 0 0 ≠ Cmd.stream then
        eprint "recv_stream: unexpected byte\n"
        gbridgeInit
        return (-1, [])
      else
        match ← recvData .scratch 2 with
        | none => return (-1, [])
        | some c =>
          let size := be16 (c.getD 0 0) (c.getD 1 0)
          if maxSize < size then return (-1, [])
          else
            match ← recvData (.stream maxSize) size with
            | none => return (-1, [])
            | some buffer => recvStreamChecksum buffer

/-! ## 4. Sending -/

/-- `wait_cmd` -/
def waitCmd (cmd : UInt8) : Code Unit := do
  if (← get).connected then
    .whileM (do return (← get).waitingCmd != Cmd.none) gbridgeLoop
    modify fun g => { g with waitingCmd := cmd }
    .whileM (do return (← get).waitingCmd == cmd) gbridgeLoop

/-- The frame that `gbridge_cmd_data` writes. -/
def writeDataFrame (data : GbridgeData) : Code Unit := do
  let checksum := data.checksumData
  spBlockingWrite [Cmd.dataPc, data.size]
  spBlockingWrite data.bytes
  spBlockingWrite [hi checksum, lo checksum]

/-- `gbridge_cmd_data` -/
def gbridgeCmdData (data : GbridgeData) : Code Unit := do
  if (← get).connected then
    if data.size.toNat ≤ maxDataSize then
      writeDataFrame data
      waitCmd Cmd.dataPc

/-- The frame that `gbridge_cmd_stream` writes: the struct it sums has an 8-bit size, the frame
a 16-bit one. -/
def writeStreamFrame (buffer : List UInt8) (size : Nat) : Code Unit := do
  let checksum := GbridgeData.checksumData ⟨UInt8.ofNat size, buffer⟩
  spBlockingWrite [Cmd.streamPc, hi size, lo size]
  spBlockingWrite (buffer.take size)
  spBlockingWrite [hi checksum, lo checksum]

/-- `gbridge_cmd_stream` -/
def gbridgeCmdStream (buffer : List UInt8) (size : Nat) : Code Unit := do
  if (← get).connected then
    writeStreamFrame buffer size
    waitCmd Cmd.streamPc

end GBridge.Bridge

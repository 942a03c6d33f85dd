/-
# `bridge/source/gbridge_prot_ma.c`, and the loop of `bridge/source/main.c`

The request handlers.  Each takes a request packet apart, makes its `socket_impl_*` call and
answers with a packet of its own; `gbridge_prot_ma_loop` picks the handler and ignores what
it returns.
-/
import GBridge.Bridge.Gbridge

namespace GBridge.Bridge

open Bytes

/-- An `int` cut down to a byte. -/
def intByte (n : Int) : UInt8 := UInt8.ofNat (n % 256).toNat

/-- A `bool` stored in a byte. -/
def boolByte (b : Bool) : UInt8 := if b then 1 else 0

def sock (c : SockCall) : Code c.Res := .cmd (.sock c)

/-- `recv_cmd_sock_open` -/
def recvCmdSockOpen (recvData : GbridgeData) : Code Bool := do
  if recvData.size ≠ 6 then return false
  else
    let b := fun i => recvData.buffer.getD i 0
    let res ← sock (.open (b 1).toNat (b 2) (b 3) (be16 (b 4) (b 5)))
    gbridgeCmdData (.ofList [ProtMa.cmdOpen, boolByte res])
    return true

/-- `recv_cmd_sock_close` -/
def recvCmdSockClose (recvData : GbridgeData) : Code Bool := do
  if recvData.size ≠ 2 then return false
  else
    sock (.close (recvData.buffer.getD 1 0).toNat)
    gbridgeCmdData (.ofList [ProtMa.cmdClose])
    return true

/-- `recv_cmd_sock_connect` -/
def recvCmdSockConnect (recvData : GbridgeData) : Code Bool := do
  if recvData.size < 2 then return false
  else
    let (recvAddrlen, recvAddr) :=
      addressRead (recvData.buffer.drop 2) (recvData.size.toNat - 2)
    if recvAddrlen ≤ 1 then return false
    else if recvData.size.toNat ≠ 2 + recvAddrlen then return false
    else
      let res ← sock (.connect (recvData.buffer.getD 1 0).toNat recvAddr)
      gbridgeCmdData (.ofList [ProtMa.cmdConnect, intByte res])
      return true

/-- `recv_cmd_sock_listen` and `recv_cmd_sock_accept`: one call, and its `bool` as reply. -/
def recvCmdSockFlag (cmd : UInt8) (call : Nat → SockCall) (flag : (n : Nat) → (call n).Res → Bool)
    (recvData : GbridgeData) : Code Bool := do
  if recvData.size ≠ 2 then return false
  else
    let conn := (recvData.buffer.getD 1 0).toNat
    let res ← sock (call conn)
    gbridgeCmdData (.ofList [cmd, boolByte (flag conn res)])
    return true

/-- `recv_cmd_sock_listen` -/
def recvCmdSockListen (recvData : GbridgeData) : Code Bool :=
  recvCmdSockFlag ProtMa.cmdListen .listen (fun _ res => res) recvData

/-- `recv_cmd_sock_accept` -/
def recvCmdSockAccept (recvData : GbridgeData) : Code Bool :=
  recvCmdSockFlag ProtMa.cmdAccept .accept (fun _ res => res) recvData

/-- `recv_cmd_sock_send` -/
def recvCmdSockSend (recvData : GbridgeData) : Code Bool := do
  if recvData.size < 2 then return false
  else
    let (recvAddrlen, recvAddr) :=
      addressRead (recvData.buffer.drop 2) (recvData.size.toNat - 2)
    if recvAddrlen = 0 then return false
    else
      let (streamRes, recvBuffer) ← gbridgeRecvStream 0x200
      if streamRes < 0 then return false
      else
        let res ← sock (.send (recvData.buffer.getD 1 0).toNat (recvBuffer.take streamRes.toNat)
          recvAddr)
        gbridgeCmdData (.ofList [ProtMa.cmdSend, intByte (res >>> (8 : Nat)), intByte res])
        return true

/-- `recv_cmd_sock_recv`: the reply, and the bytes after it as a stream. -/
def recvCmdSockRecv (recvData : GbridgeData) : Code Bool := do
  if recvData.size ≠ 4 then return false
  else
    let size := be16 (recvData.buffer.getD 2 0) (recvData.buffer.getD 3 0)
    let r ← sock (.recv (recvData.buffer.getD 1 0).toNat (some size) (some .none))
    gbridgeCmdData (.ofList
      (ProtMa.cmdRecv :: intByte (r.res >>> (8 : Nat)) :: intByte r.res ::
        addressWrite (some r.addr)))
    if !(← gbridgeConnected) then return false
    else if r.res ≤ 0 then return true
    else
      gbridgeCmdStream r.data r.res.toNat
      return true

/-- The `switch` of `gbridge_prot_ma_loop`. -/
def handleRequest (recvData : GbridgeData) : Code Bool :=
  let cmd := recvData.buffer.getD 0 0
  if cmd = ProtMa.cmdOpen then recvCmdSockOpen recvData
  else if cmd = ProtMa.cmdClose then recvCmdSockClose recvData
  else if cmd = ProtMa.cmdConnect then recvCmdSockConnect recvData
  else if cmd = ProtMa.cmdListen then recvCmdSockListen recvData
  else if cmd = ProtMa.cmdAccept then recvCmdSockAccept recvData
  else if cmd = ProtMa.cmdSend then recvCmdSockSend recvData
  else if cmd = ProtMa.cmdRecv then recvCmdSockRecv recvData
  else pure false

/-- `gbridge_prot_ma_loop` -/
def gbridgeProtMaLoop : Code Unit := do
  match ← gbridgeRecvData with
  | none => return ()
  | some recvData =>
    if recvData.size.toNat < 1 then gbridgeRecvDataDone
    else
      let _ ← handleRequest recvData
      gbridgeRecvDataDone

/-- The loop of `main`, once connected. -/
def mainLoop : Code Unit :=
  .whileM gbridgeConnected (do gbridgeLoop; gbridgeProtMaLoop)

end GBridge.Bridge

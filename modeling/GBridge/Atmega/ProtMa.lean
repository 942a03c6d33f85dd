/-
# `atmega328p/source/gbridge_prot_ma.c`

The remote socket calls: each builds a request packet, sends it, waits for the reply packet
and takes it apart.  Only the first `size` bytes of the packet under construction are ever
sent, so it is built as the list of these bytes.
-/
import GBridge.Atmega.Gbridge

namespace GBridge.Atmega

open Bytes

/-- `gbridge_prot_ma_loop` -/
def gbridgeProtMaLoop : Code Unit := do
  match ← gbridgeRecvData with
  | none => return ()
  | some _ => gbridgeRecvDataDone

/-- A 16-bit value read as an `int16_t`. -/
def int16 (n : Nat) : Int := if n < 32768 then n else (n : Int) - 65536

/-- A byte read as a `char`, which is signed on the AVR. -/
def char (b : UInt8) : Int := if b.toNat < 128 then b.toNat else (b.toNat : Int) - 256

/-- Send a request and wait for its reply, as every call but `mobile_impl_sock_send` does. -/
def request (data : GbridgeData) : Code (Option GbridgeData) := do
  gbridgeCmdData data
  gbridgeRecvDataWait

/-- `mobile_impl_sock_open` -/
def mobileImplSockOpen (conn : Nat) (type addrtype : UInt8) (bindport : Nat) : Code Result := do
  match ← request (.ofList
      [ProtMa.cmdOpen, UInt8.ofNat conn, type, addrtype, hi bindport, lo bindport]) with
  | some recvData =>
    if recvData.size = 2 ∧ recvData.buffer.getD 0 0 = ProtMa.cmdOpen then
      gbridgeRecvDataDone
      return .bool (recvData.buffer.getD 1 0 != 0)
    else
      gbridgeRecvDataDone
      return .bool false
  | none =>
    gbridgeRecvDataDone
    return .bool false

/-- `mobile_impl_sock_close`: the checks of the reply all lead to the same place. -/
def mobileImplSockClose (conn : Nat) : Code Result := do
  let _ ← request (.ofList [ProtMa.cmdClose, UInt8.ofNat conn])
  gbridgeRecvDataDone
  return .done

/-- `mobile_impl_sock_connect` -/
def mobileImplSockConnect (conn : Nat) (addr : Option MobileAddr) : Code Result := do
  match ← request (.ofList (ProtMa.cmdConnect :: UInt8.ofNat conn :: addressWrite addr)) with
  | some recvData =>
    if recvData.size = 2 ∧ recvData.buffer.getD 0 0 = ProtMa.cmdConnect then
      gbridgeRecvDataDone
      return .int (char (recvData.buffer.getD 1 0))
    else
      gbridgeRecvDataDone
      return .int (-1)
  | none =>
    gbridgeRecvDataDone
    return .int (-1)

/-- `mobile_impl_sock_listen` and `mobile_impl_sock_accept` differ in the command only. -/
def mobileImplSockFlag (cmd : UInt8) (conn : Nat) : Code Result := do
  match ← request (.ofList [cmd, UInt8.ofNat conn]) with
  | some recvData =>
    if recvData.size = 2 ∧ recvData.buffer.getD 0 0 = cmd then
      gbridgeRecvDataDone
      return .bool (recvData.buffer.getD 1 0 != 0)
    else
      gbridgeRecvDataDone
      return .bool false
  | none =>
    gbridgeRecvDataDone
    return .bool false

/-- `mobile_impl_sock_listen` -/
def mobileImplSockListen (conn : Nat) : Code Result := mobileImplSockFlag ProtMa.cmdListen conn

/-- `mobile_impl_sock_accept` -/
def mobileImplSockAccept (conn : Nat) : Code Result := mobileImplSockFlag ProtMa.cmdAccept conn

/-- `mobile_impl_sock_send`; `size` is the length of the buffer. -/
def mobileImplSockSend (conn : Nat) (buffer : List UInt8) (addr : Option MobileAddr) :
    Code Result := do
  gbridgeCmdData (.ofList (ProtMa.cmdSend :: UInt8.ofNat conn :: addressWrite addr))
  if ← gbridgeConnected then
    gbridgeCmdStreamStart buffer.length
    gbridgeCmdStreamData buffer
    gbridgeCmdStreamFinish
    match ← gbridgeRecvDataWait with
    | some recvData =>
      if recvData.size = 3 ∧ recvData.buffer.getD 0 0 = ProtMa.cmdSend then
        gbridgeRecvDataDone
        return .int (int16 (be16 (recvData.buffer.getD 1 0) (recvData.buffer.getD 2 0)))
      else
        gbridgeRecvDataDone
        return .int (-1)
    | none =>
      gbridgeRecvDataDone
      return .int (-1)
  else
    gbridgeRecvDataDone
    return .int (-1)

/-- `mobile_impl_sock_recv`.  The buffer and the address are what the two pointers lead to
before the call; what they lead to after it is part of the result.  The size the address is
read with is computed in `int` and passed as `unsigned`. -/
def mobileImplSockRecv (conn : Nat) (buffer : List UInt8) (size : Nat)
    (addr : Option MobileAddr) : Code Result := do
  match ← request (.ofList [ProtMa.cmdRecv, UInt8.ofNat conn, hi size, lo size]) with
  | some recvData =>
    if recvData.size < 2 ∨ recvData.buffer.getD 0 0 ≠ ProtMa.cmdRecv then
      gbridgeRecvDataDone
      return .recv (-1) buffer addr
    else
      let res := int16 (be16 (recvData.buffer.getD 1 0) (recvData.buffer.getD 2 0))
      let (recvAddrlen, recvAddr) :=
        addressRead (recvData.buffer.drop 3) ((recvData.size.toNat + 65536 - 3) % 65536)
      -- `*addr` is written even when the length does not match after all
      let addr := addr.map fun a => recvAddr.getD a
      if recvAddrlen = 0 ∨ recvData.size.toNat ≠ recvAddrlen + 3 then
        gbridgeRecvDataDone
        return .recv (-1) buffer addr
      else
        gbridgeRecvDataDone
        if res ≤ 0 then return .recv res buffer addr
        else if ← gbridgeRecvStreamWait buffer size then
          return .recv res (← get).streamBuf addr
        else return .recv (-1) (← get).streamBuf addr
  | none =>
    gbridgeRecvDataDone
    return .recv (-1) buffer addr

end GBridge.Atmega

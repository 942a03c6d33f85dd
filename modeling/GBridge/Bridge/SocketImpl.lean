/-
# `bridge/source/socket_impl.c`

The sockets of the bridge, as on a POSIX system.  `SockCall` is the interface
`gbridge_prot_ma.c` calls; the functions behind it are programs over the operations `OsOp`,
the calls they make of the operating system, with the two-slot table `state->sockets` read and
written by operations of their own.  An assertion is an operation too: it has no successor
when it fails.
-/
import GBridge.Lib.Prog
import GBridge.Wire

namespace GBridge.Bridge

open Bytes

/-! ## 1. The interface -/

/-- `MOBILE_MAX_CONNECTIONS` -/
def maxConnections : Nat := 2

/-- What `socket_impl_recv` leaves: its result, the buffer and the address.  For a null pointer
the address is of no account. -/
structure RecvRes where
  res : Int
  data : List UInt8 := []
  addr : MobileAddr := .none
deriving DecidableEq

/-- A call of `socket_impl_*`.  `none` is the null pointer; of the buffer of `recv` only the
size matters, of its address what it holds before. -/
inductive SockCall where
  | open (conn : Nat) (type addrtype : UInt8) (bindport : Nat)
  | close (conn : Nat)
  | connect (conn : Nat) (addr : Option MobileAddr)
  | listen (conn : Nat)
  | accept (conn : Nat)
  | send (conn : Nat) (data : List UInt8) (addr : Option MobileAddr)
  | recv (conn : Nat) (data : Option Nat) (addr : Option MobileAddr)
deriving DecidableEq

/-- The type of a call's result. -/
@[reducible] def SockCall.Res : SockCall → Type
  | .open .. | .listen _ | .accept _ => Bool
  | .close _ => Unit
  | .connect .. | .send .. => Int
  | .recv .. => RecvRes

/-! ## 2. The operating system -/

/-- `MOBILE_SOCKTYPE_TCP` -/
def socktypeTcp : UInt8 := 0
/-- `MOBILE_SOCKTYPE_UDP` -/
def socktypeUdp : UInt8 := 1

/-- `AF_INET` and `AF_INET6` -/
inductive Family where
  | inet
  | inet6
deriving DecidableEq

/-- `SOCK_STREAM` and `SOCK_DGRAM` -/
inductive SockType where
  | stream
  | dgram
deriving DecidableEq

/-- `struct sockaddr`, with the port as it stands in memory. -/
inductive SockAddr where
  | inet (port : UInt16) (host : List.Vector UInt8 4)
  | inet6 (port : UInt16) (host : List.Vector UInt8 16)
  /-- Of another family. -/
  | other
deriving DecidableEq

/-- The options set on a new socket. -/
inductive SockOpt where
  | reuseaddr
  | nodelay
deriving DecidableEq

/-- What `recvfrom` does: its result, the bytes and the source address. -/
structure RecvFrom where
  len : Int
  data : List UInt8 := []
  addr : SockAddr := .other
  addrlen : Nat := 0
deriving DecidableEq

/-- What `socket_impl.c` asks of its surroundings. -/
inductive OsOp : Type → Type where
  /-- `state->sockets[conn]` -/
  | slot (conn : Nat) : OsOp Int
  /-- `state->sockets[conn] = sock` -/
  | setSlot (conn : Nat) (sock : Int) : OsOp Unit
  /-- `assert(c)` -/
  | assert (c : Bool) : OsOp Unit
  | socket (domain : Family) (type : SockType) : OsOp Int
  | close (sock : Int) : OsOp Int
  | fcntlGetfl (sock : Int) : OsOp Int
  | fcntlSetfl (sock : Int) (flags : Int) : OsOp Int
  | setsockopt (sock : Int) (opt : SockOpt) : OsOp Int
  | bind (sock : Int) (addr : SockAddr) : OsOp Int
  | connect (sock : Int) (addr : Option SockAddr) (addrlen : Nat) : OsOp Int
  | listen (sock : Int) (backlog : Nat) : OsOp Int
  | accept (sock : Int) : OsOp Int
  /-- `poll` on one descriptor, for input or for output. -/
  | poll (sock : Int) (output : Bool) (delay : Nat) : OsOp Int
  | sendto (sock : Int) (data : List UInt8) (addr : Option SockAddr) (addrlen : Nat) : OsOp Int
  | recvfrom (sock : Int) (size : Nat) (peek : Bool) : OsOp RecvFrom
  /-- `getsockopt(SO_ERROR)` -/
  | sockError (sock : Int) : OsOp Int
  /-- `getsockopt(SO_TYPE)`: fails, or the type. -/
  | sockType (sock : Int) : OsOp (Option SockType)
  /-- `socket_geterror()` -/
  | geterror : OsOp Int
  /-- `socket_seterror(e)` -/
  | seterror (e : Int) : OsOp Unit
  /-- A line on the standard error output. -/
  | eprint (s : String) : OsOp Unit

/-- Code of `socket_impl.c` and `socket.c`. -/
abbrev OsCode := Prog OsOp

/-- `EWOULDBLOCK` -/
def ewouldblock : Int := 11
/-- `EINPROGRESS` -/
def einprogress : Int := 115
/-- `EALREADY` -/
def ealready : Int := 114

/-- `O_NONBLOCK` -/
def oNonblock : Nat := 2048

/-- `htons` on a little-endian machine. -/
def htons (n : UInt16) : UInt16 := n <<< 8 ||| n >>> 8

/-- `ntohs` -/
def ntohs (n : UInt16) : UInt16 := n <<< 8 ||| n >>> 8

def osAssert (c : Bool) : OsCode Unit := .cmd (.assert c)
def socketClose (sock : Int) : OsCode Unit := (Prog.cmd (.close sock)).bind fun _ => .ret ()
def socketPerror (s : String) : OsCode Unit := .cmd (.eprint s)

/-! ## 3. `socket.c` -/

/-- `socket_setblocking`: the flags go out and come back with `O_NONBLOCK` changed. -/
def socketSetblocking (sock : Int) (flag : Bool) : OsCode Int := do
  let flags ← .cmd (.fcntlGetfl sock)
  if flags = -1 then
    socketPerror "fcntl"
    return -1
  else
    let cleared := flags.toNat - (flags.toNat &&& oNonblock)
    let flags : Int := if flag then cleared else (cleared ||| oNonblock : Nat)
    if (← .cmd (.fcntlSetfl sock flags)) = -1 then
      socketPerror "fcntl"
      return -1
    else return 0

/-- `socket_hasdata` -/
def socketHasdata (sock : Int) (delay : Nat) : OsCode Int := do
  let rc ← .cmd (.poll sock false delay)
  if rc = -1 then socketPerror "poll"
  return rc

/-- `socket_isconnected` -/
def socketIsconnected (sock : Int) (delay : Nat) : OsCode Int := do
  let rc ← .cmd (.poll sock true delay)
  if rc = -1 then socketPerror "poll"
  if rc ≤ 0 then return rc
  else
    let err ← .cmd (.sockError sock)
    .cmd (.seterror err)
    if err ≠ 0 then return -1 else return 1

/-! ## 4. `socket_impl.c` -/

/-- `sizeof(struct sockaddr_in)` -/
def sizeofSockaddrIn : Nat := 16

/-- `sizeof(struct sockaddr_in6)` -/
def sizeofSockaddrIn6 : Nat := 28

/-- `convert_sockaddr`: the address it returns, and the length it stores. -/
def convertSockaddr : Option MobileAddr → Option SockAddr × Nat
  | some (.ipv4 port host) => (some (.inet (htons port) host), sizeofSockaddrIn)
  | some (.ipv6 port host) => (some (.inet6 (htons port) host), sizeofSockaddrIn6)
  | _ => (none, 0)

/-- `socket_impl_init` -/
def socketImplInit : OsCode Unit := do
  .cmd (.setSlot 0 (-1))
  .cmd (.setSlot 1 (-1))

/-- The `setsockopt` and `bind` half of `socket_impl_open`, on a socket that exists. -/
def socketImplSetup (sock : Int) (type addrtype : UInt8) (bindport : Nat) : OsCode Bool := do
  -- set SO_REUSEADDR so that we can bind to the same port again after
  if (← .cmd (.setsockopt sock .reuseaddr)) = -1 then
    socketPerror "setsockopt"
    socketClose sock
    return false
  else
    -- set TCP_NODELAY to aid sending packets immediately, reducing latency
    let rc ← if type = socktypeTcp then .cmd (.setsockopt sock .nodelay) else pure 0
    if rc = -1 then
      socketPerror "setsockopt"
      socketClose sock
      return false
    else
      let port := htons (UInt16.ofNat bindport)
      let addr : SockAddr :=
        if addrtype = MobileAddr.typeIpv4 then .inet port (.replicate 4 0)
        else .inet6 port (.replicate 16 0)
      if (← .cmd (.bind sock addr)) = -1 then
        socketPerror "bind"
        socketClose sock
        return false
      else return true

/-- `socket_impl_open` -/
def socketImplOpen (conn : Nat) (type addrtype : UInt8) (bindport : Nat) : OsCode Bool := do
  osAssert ((← .cmd (.slot conn)) = -1)
  osAssert (type = socktypeTcp ∨ type = socktypeUdp)
  osAssert (addrtype = MobileAddr.typeIpv4 ∨ addrtype = MobileAddr.typeIpv6)
  let sockType := if type = socktypeTcp then .stream else .dgram
  let sockAddrtype := if addrtype = MobileAddr.typeIpv4 then .inet else .inet6
  let sock ← .cmd (.socket sockAddrtype sockType)
  if sock = -1 then
    socketPerror "socket"
    return false
  else if (← socketSetblocking sock false) = -1 then
    socketClose sock
    return false
  else if ← socketImplSetup sock type addrtype bindport then
    .cmd (.setSlot conn sock)
    return true
  else return false

/-- `socket_impl_close` -/
def socketImplClose (conn : Nat) : OsCode Unit := do
  osAssert ((← .cmd (.slot conn)) ≠ -1)
  socketClose (← .cmd (.slot conn))
  .cmd (.setSlot conn (-1))

/-- `socket_impl_connect` -/
def socketImplConnect (conn : Nat) (addr : Option MobileAddr) : OsCode Int := do
  let sock ← .cmd (.slot conn)
  osAssert (sock ≠ -1)
  let (sockAddr, addrlen) := convertSockaddr addr
  if (← .cmd (.connect sock sockAddr addrlen)) ≠ -1 then return 1
  else
    let err ← .cmd .geterror
    -- if the connection is in progress, block at most 100ms to see if it's enough for it to
    -- connect
    if err = ewouldblock ∨ err = einprogress ∨ err = ealready then
      let rc ← socketIsconnected sock 100
      if 0 < rc then return 1
      else if rc = 0 then return 0
      else
        let err ← .cmd .geterror
        .cmd (.seterror err)
        socketPerror "Could not connect"
        return -1
    else
      .cmd (.seterror err)
      socketPerror "Could not connect"
      return -1

/-- `socket_impl_listen` -/
def socketImplListen (conn : Nat) : OsCode Bool := do
  let sock ← .cmd (.slot conn)
  osAssert (sock ≠ -1)
  if (← .cmd (.listen sock 1)) = -1 then
    socketPerror "listen"
    return false
  else return true

/-- `socket_impl_accept` -/
def socketImplAccept (conn : Nat) : OsCode Bool := do
  let sock ← .cmd (.slot conn)
  osAssert (sock ≠ -1)
  if (← socketHasdata sock 0) ≤ 0 then return false
  else
    let newsock ← .cmd (.accept sock)
    if newsock = -1 then
      socketPerror "accept"
      return false
    else if (← socketSetblocking newsock false) = -1 then return false
    else
      socketClose sock
      .cmd (.setSlot conn newsock)
      return true

/-- `socket_impl_send` -/
def socketImplSend (conn : Nat) (data : List UInt8) (addr : Option MobileAddr) :
    OsCode Int := do
  let sock ← .cmd (.slot conn)
  osAssert (sock ≠ -1)
  let (sockAddr, addrlen) := convertSockaddr addr
  let len ← .cmd (.sendto sock data sockAddr addrlen)
  if len = -1 then
    -- if the socket is blocking, we just haven't sent anything
    if (← .cmd .geterror) = ewouldblock then return 0
    else
      socketPerror "send"
      return -1
  else return len

/-- What `socket_impl_recv` makes of a length of 0: the remote of a stream has disconnected, while
a datagram may well be of no bytes. -/
def socketGone (sock : Int) (len : Int) : OsCode (Option Int) := do
  if len ≠ 0 then return none
  else
    match ← .cmd (.sockType sock) with
    | none =>
      socketPerror "getsockopt"
      return some (-1)
    | some .stream => return some (-2)
    | some .dgram => return none

/-- The source address as `socket_impl_recv` stores it; another family leaves it alone. -/
def storedAddr (addr : Option MobileAddr) (r : RecvFrom) : Option MobileAddr :=
  addr.map fun addr =>
    if r.addrlen = 0 then addr
    else match r.addr with
      | .inet port host => .ipv4 (ntohs port) host
      | .inet6 port host => .ipv6 (ntohs port) host
      | .other => addr

/-- What `socket_impl_recv` leaves when it has not stored an address. -/
def RecvRes.noAddr (res : Int) (data : List UInt8) (addr : Option MobileAddr) : RecvRes :=
  { res, data, addr := addr.getD .none }

/-- The end of `socket_impl_recv`, when `recvfrom` has not failed. -/
def socketImplRecvDone (sock : Int) (data : Option Nat) (addr : Option MobileAddr)
    (r : RecvFrom) : OsCode RecvRes := do
  match ← socketGone sock r.len with
  | some res => return .noAddr res r.data addr
  | none =>
    if data.isNone then return .noAddr 0 [] addr
    else return { res := r.len, data := r.data, addr := (storedAddr addr r).getD .none }

/-- `socket_impl_recv` -/
def socketImplRecv (conn : Nat) (data : Option Nat) (addr : Option MobileAddr) :
    OsCode RecvRes := do
  let sock ← .cmd (.slot conn)
  osAssert (sock ≠ -1)
  -- make sure at least one byte is in the buffer
  if (← socketHasdata sock 0) ≤ 0 then return .noAddr 0 [] addr
  else
    let r ← .cmd (match data with
      | some size => .recvfrom sock size false
      | none => .recvfrom sock 1 true)
    if r.len = -1 then
      if (← .cmd .geterror) = ewouldblock then return .noAddr 0 [] addr
      else
        socketPerror "recv"
        return .noAddr (-1) [] addr
    else socketImplRecvDone sock data addr r

/-- The function behind a call. -/
def SockCall.code : (c : SockCall) → OsCode c.Res
  | .open conn type addrtype bindport => socketImplOpen conn type addrtype bindport
  | .close conn => socketImplClose conn
  | .connect conn addr => socketImplConnect conn addr
  | .listen conn => socketImplListen conn
  | .accept conn => socketImplAccept conn
  | .send conn data addr => socketImplSend conn data addr
  | .recv conn data addr => socketImplRecv conn data addr

end GBridge.Bridge

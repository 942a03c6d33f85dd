/-
# What is seen of the operating system

The functions of `socket_impl.c` run on an operating system that is never modelled as a whole.  Each
module that looks at them keeps a part of it only: the handles that are open (`Handles`), their
status flags (`Sockets`), what has gone wrong (`Asserts`), what `recvfrom` reports and `sendto` is
called with (`ReplyTo`).  Such a part is an `OsView`, and `OsView.sem` is the operating system as
far as it is seen that way.

What the views share is said here once:

* `state->sockets` is read and written where the view keeps it.  An access past its end, which is
  one with `conn >= MOBILE_MAX_CONNECTIONS`, has no answer: a run is not followed beyond it.  A view
  that goes on says so (`tableSem`, which takes note of it);
* a failing `assert` has no answer either, for it calls `abort`;
* a call of which the view says nothing answers what it likes and leaves what is seen as it is.
-/
import GBridge.Bridge.SocketImpl

namespace GBridge.Bridge

open Prog

/-- A part of the operating system and of the table, and what the calls do to it. -/
structure OsView (W : Type) where
  /-- `state->sockets` -/
  sockets : W → List Int
  /-- Another table is put in its place. -/
  file : W → List Int → W
  /-- `state->sockets[conn]` -/
  slot (conn : Nat) (w : W) (sock : Int) (w' : W) : Prop :=
    (sockets w)[conn]? = some sock ∧ w' = w
  /-- `state->sockets[conn] = sock` -/
  setSlot (conn : Nat) (sock : Int) (w w' : W) : Prop :=
    conn < (sockets w).length ∧ w' = file w ((sockets w).set conn sock)
  /-- `assert(c)` -/
  assert (c : Bool) (w w' : W) : Prop := c = true ∧ w' = w
  /-- `socket` and `accept` -/
  opens (w : W) (sock : Int) (w' : W) : Prop := w' = w
  close (sock : Int) (w w' : W) : Prop := w' = w
  fcntlGetfl (sock : Int) (w : W) (rc : Int) (w' : W) : Prop := w' = w
  fcntlSetfl (sock flags : Int) (w : W) (rc : Int) (w' : W) : Prop := w' = w
  sendto (sock : Int) (data : List UInt8) (addr : Option SockAddr) (addrlen : Nat) (w w' : W) :
    Prop := w' = w
  recvfrom (w : W) (r : RecvFrom) (w' : W) : Prop := w' = w

/-- The operating system, as far as it is seen. -/
def OsView.sem {W : Type} (v : OsView W) : Sem OsOp W
  | _, .slot conn, w, sock, w' => v.slot conn w sock w'
  | _, .setSlot conn sock, w, _, w' => v.setSlot conn sock w w'
  | _, .assert c, w, _, w' => v.assert c w w'
  | _, .socket _ _, w, sock, w' => v.opens w sock w'
  | _, .accept _, w, sock, w' => v.opens w sock w'
  | _, .close sock, w, _, w' => v.close sock w w'
  | _, .fcntlGetfl sock, w, rc, w' => v.fcntlGetfl sock w rc w'
  | _, .fcntlSetfl sock flags, w, rc, w' => v.fcntlSetfl sock flags w rc w'
  | _, .sendto sock data addr addrlen, w, _, w' => v.sendto sock data addr addrlen w w'
  | _, .recvfrom _ _ _, w, r, w' => v.recvfrom w r w'
  | _, _, w, _, w' => w' = w

end GBridge.Bridge

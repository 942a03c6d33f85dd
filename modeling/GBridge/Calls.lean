/-
# The calls made on the adapter, and what should come of them

Libmobile calls the seven functions `mobile_impl_sock_*`, and `mobile_impl_debug_log` sends lines
with `gbridge_cmd_debug_line`; between the calls the adapter runs its main loop (`Job`, `session`).

What should come of the calls is said twice.

* `expected` is the purpose: each call leads to one call of `socket_impl_*`, which is the same call,
  and returns what that returned.  The results are those of an `Oracle`, which may answer anything
  that is `Proper`.
* `script` is the traffic by which it comes about, byte by byte and in one order.  It is only a
  tool, and `notes_script` says that its notes are those expected.

The script is what both programs are compared with, so it has to be fit to be played by two parties:
the turn passes from one to the other with a byte on the line only (`turns_script`), and the first
event and the last one are the adapter's (`head_script`, `last_script`).
-/
import GBridge.Atmega.ProtMa
import GBridge.Bridge.ProtMa
import GBridge.Lib.Duplex

namespace GBridge

open Bytes Duplex
open Atmega (Result)
open Bridge (SockCall intByte boolByte)

/-! ## 1. Calls -/

/-- A call made on the adapter. -/
inductive MobileCall where
  /-- `gbridge_cmd_debug_line` -/
  | debugLine (line : List UInt8)
  /-- `mobile_impl_sock_open` -/
  | open (conn : Nat) (type addrtype : UInt8) (bindport : Nat)
  /-- `mobile_impl_sock_close` -/
  | close (conn : Nat)
  /-- `mobile_impl_sock_connect` -/
  | connect (conn : Nat) (addr : Option MobileAddr)
  /-- `mobile_impl_sock_listen` -/
  | listen (conn : Nat)
  /-- `mobile_impl_sock_accept` -/
  | accept (conn : Nat)
  /-- `mobile_impl_sock_send` -/
  | send (conn : Nat) (buffer : List UInt8) (addr : Option MobileAddr)
  /-- `mobile_impl_sock_recv`: what the two pointers lead to before the call, and the size. -/
  | recv (conn : Nat) (buffer : List UInt8) (size : Nat) (addr : Option MobileAddr)

/-- The code of a call. -/
def MobileCall.code : MobileCall → Atmega.Code Result
  | .debugLine line => do
    Atmega.gbridgeCmdDebugLine line
    return .done
  | .open conn type addrtype bindport => Atmega.mobileImplSockOpen conn type addrtype bindport
  | .close conn => Atmega.mobileImplSockClose conn
  | .connect conn addr => Atmega.mobileImplSockConnect conn addr
  | .listen conn => Atmega.mobileImplSockListen conn
  | .accept conn => Atmega.mobileImplSockAccept conn
  | .send conn buffer addr => Atmega.mobileImplSockSend conn buffer addr
  | .recv conn buffer size addr => Atmega.mobileImplSockRecv conn buffer size addr

/-- What the program of the adapter does next. -/
inductive Job where
  /-- A pass of the main loop in which libmobile calls nothing. -/
  | pass
  | call (c : MobileCall)

def Job.code : Job → Atmega.Code Unit
  | .pass => do
    Atmega.gbridgeLoop
    Atmega.gbridgeProtMaLoop
  | .call c => do
    let r ← c.code
    .cmd (.returned r)

/-- The program of the adapter, for a sequence of calls with passes of the main loop between
them. -/
def session : List Job → Atmega.Code Unit
  | [] => return ()
  | j :: js => do
    j.code
    session js

/-- The calls of a sequence. -/
def Job.call? : Job → Option MobileCall
  | .pass => none
  | .call c => some c

/-! ## 2. What is expected -/

/-- What is asked of a call: a connection number that fits its byte, a line that fits its length
byte, an address to connect to, no more to send than the bridge has room for, and no more to
receive than the adapter has. -/
def MobileCall.Proper : MobileCall → Prop
  | .debugLine line => line.length ≤ 255
  | .open conn _ _ bindport => conn < 256 ∧ bindport < 65536
  | .close conn | .listen conn | .accept conn => conn < 256
  | .connect conn addr => conn < 256 ∧ wireAddr addr ≠ .none
  | .send conn buffer _ => conn < 256 ∧ buffer.length ≤ 0x200
  | .recv conn buffer size _ => conn < 256 ∧ 1 ≤ size ∧ size ≤ 255 ∧ size ≤ buffer.length

/-- The results of the calls of `socket_impl_*`, first, second and so on. -/
abbrev Oracle : Type := Nat → (c : SockCall) → c.Res

/-- What is asked of a result of `socket_impl_*`: that it fits the bytes it is sent in, and that
`recv` brings no more than was asked for, and all it says it brings. -/
def Proper : (c : SockCall) → c.Res → Prop
  | .connect _ _, r => -128 ≤ r ∧ r < 128
  | .send _ _ _, r => -32768 ≤ r ∧ r < 32768
  | .recv _ size _, r => -32768 ≤ r.res ∧ r.res ≤ size.getD 0 ∧ r.res ≤ r.data.length
  | _, _ => True

namespace MobileCall

/-- The call of `socket_impl_*` that a call should lead to. -/
def sock : MobileCall → Option SockCall
  | .debugLine _ => none
  | .open conn type addrtype bindport => some (.open conn type addrtype bindport)
  | .close conn => some (.close conn)
  | .connect conn addr => some (.connect conn (some (wireAddr addr)))
  | .listen conn => some (.listen conn)
  | .accept conn => some (.accept conn)
  | .send conn buffer addr => some (.send conn buffer (some (wireAddr addr)))
  | .recv conn _ size _ => some (.recv conn (some size) (some .none))

/-- What a call should return, given what `socket_impl_*` returns. -/
def result (o : (c : SockCall) → c.Res) : MobileCall → Result
  | .debugLine _ => .done
  | .open conn type addrtype bindport => .bool (o (.open conn type addrtype bindport))
  | .close _ => .done
  | .connect conn addr => .int (o (.connect conn (some (wireAddr addr))))
  | .listen conn => .bool (o (.listen conn))
  | .accept conn => .bool (o (.accept conn))
  | .send conn buffer addr => .int (o (.send conn buffer (some (wireAddr addr))))
  | .recv conn buffer size addr =>
    let r := o (.recv conn (some size) (some .none))
    .recv r.res (r.data.take r.res.toNat ++ buffer.drop r.res.toNat) (addr.map fun _ => r.addr)

/-- The line a call should print. -/
def line : MobileCall → Option (List UInt8)
  | .debugLine line => some line
  | _ => none

/-- How many calls of `socket_impl_*` a call leads to. -/
def socks (c : MobileCall) : Nat := c.sock.toList.length

end MobileCall

/-- What should be seen of some calls when `n` calls of `socket_impl_*` have been made before:
for each of them its `socket_impl_*` call, if it has one, and what it returns. -/
def expected (oracle : Oracle) (n : Nat) : List MobileCall → List (Result ⊕ SockCall)
  | [] => []
  | c :: cs =>
    c.sock.toList.map .inr ++ .inl (c.result (oracle n)) :: expected oracle (n + c.socks) cs

/-- The debug lines that should be printed. -/
def lines (cs : List MobileCall) : List (List UInt8) := cs.filterMap MobileCall.line

/-! ## 3. The traffic

The script of a call is written from the side of the adapter, with what follows it as the last
argument. -/

/-- An event of the script. -/
abbrev Event : Type := Ev UInt8 Result SockCall

/-- The adapter sends a packet, and the bridge acknowledges it. -/
def sent (cmd : UInt8) (frame : List UInt8) (G : List Event) : List Event :=
  frame.map .mine ++ .theirs (ack cmd) :: G

/-- The bridge sends a packet, and the adapter acknowledges it. -/
def got (cmd : UInt8) (frame : List UInt8) (G : List Event) : List Event :=
  frame.map .theirs ++ .mine (ack cmd) :: G

/-- The packet of a debug line. -/
def lineFrame (line : List UInt8) : List UInt8 :=
  Cmd.debugLine :: UInt8.ofNat line.length :: line

/-- The reply to a call of `socket_impl_*`. -/
def reply : (c : SockCall) → c.Res → List UInt8
  | .open .., r => [ProtMa.cmdOpen, boolByte r]
  | .close _, _ => [ProtMa.cmdClose]
  | .connect .., r => [ProtMa.cmdConnect, intByte r]
  | .listen _, r => [ProtMa.cmdListen, boolByte r]
  | .accept _, r => [ProtMa.cmdAccept, boolByte r]
  | .send .., r => [ProtMa.cmdSend, intByte (r >>> (8 : Nat)), intByte r]
  | .recv .., r =>
    ProtMa.cmdRecv :: intByte (r.res >>> (8 : Nat)) :: intByte r.res :: addressWrite (some r.addr)

/-- The bytes that were received follow as a stream, if there are any. -/
def streamed (r : Bridge.RecvRes) (G : List Event) : List Event :=
  if r.res ≤ 0 then G else got Cmd.streamPc (streamFrame Cmd.streamPc (r.data.take r.res.toNat)) G

/-- A request goes out. -/
def asked (request : List UInt8) (G : List Event) : List Event :=
  sent Cmd.data (dataFrame Cmd.data request) G

/-- `socket_impl_*` is called, and the reply comes back. -/
def answered (o : (c : SockCall) → c.Res) (c : SockCall) (G : List Event) : List Event :=
  .noted c :: got Cmd.dataPc (dataFrame Cmd.dataPc (reply c (o c))) G

/-- The traffic of a call. -/
def MobileCall.traffic (o : (c : SockCall) → c.Res) : MobileCall → List Event → List Event
  | .debugLine line, G => sent Cmd.debugLine (lineFrame line) G
  | .open conn type addrtype bindport, G =>
    asked [ProtMa.cmdOpen, UInt8.ofNat conn, type, addrtype, hi bindport, lo bindport]
      (answered o (.open conn type addrtype bindport) G)
  | .close conn, G => asked [ProtMa.cmdClose, UInt8.ofNat conn] (answered o (.close conn) G)
  | .connect conn addr, G =>
    asked (ProtMa.cmdConnect :: UInt8.ofNat conn :: addressWrite addr)
      (answered o (.connect conn (some (wireAddr addr))) G)
  | .listen conn, G => asked [ProtMa.cmdListen, UInt8.ofNat conn] (answered o (.listen conn) G)
  | .accept conn, G => asked [ProtMa.cmdAccept, UInt8.ofNat conn] (answered o (.accept conn) G)
  | .send conn buffer addr, G =>
    asked (ProtMa.cmdSend :: UInt8.ofNat conn :: addressWrite addr)
      (sent Cmd.stream (streamFrame Cmd.stream buffer)
        (answered o (.send conn buffer (some (wireAddr addr))) G))
  | .recv conn _ size _, G =>
    asked [ProtMa.cmdRecv, UInt8.ofNat conn, hi size, lo size]
      (answered o (.recv conn (some size) (some .none))
        (streamed (o (.recv conn (some size) (some .none))) G))

/-- The script of some calls. -/
def script (oracle : Oracle) (n : Nat) : List MobileCall → List Event
  | [] => []
  | c :: cs =>
    c.traffic (oracle n) (.note (c.result (oracle n)) :: script oracle (n + c.socks) cs)

/-! ## 4. What the script is good for -/

section Script

variable {cmd : UInt8} {frame : List UInt8} {G : List Event} {o : (c : SockCall) → c.Res}
  {c : SockCall} {r : Bridge.RecvRes}

theorem notes_bytes {G : List Event} : ∀ {bytes : List Event}, (∀ e ∈ bytes, e.isByte = true) →
    notes (bytes ++ G) = notes G
  | [], _ => rfl
  | e :: bytes, h => by
    have ih := notes_bytes (G := G) fun e he => h e (List.mem_cons_of_mem _ he)
    cases e with
    | mine b => exact ih
    | theirs b => exact ih
    | note n => exact absurd (h _ List.mem_cons_self) (by simp [Ev.isByte])
    | noted m => exact absurd (h _ List.mem_cons_self) (by simp [Ev.isByte])

@[simp] theorem notes_sent : notes (sent cmd frame G) = notes G :=
  notes_bytes (G := .theirs (ack cmd) :: G) (by simp [Ev.isByte])

@[simp] theorem notes_got : notes (got cmd frame G) = notes G :=
  notes_bytes (G := .mine (ack cmd) :: G) (by simp [Ev.isByte])

@[simp] theorem notes_streamed : notes (streamed r G) = notes G := by
  unfold streamed
  split <;> simp

theorem notes_traffic (call : MobileCall) :
    notes (call.traffic o G) = call.sock.toList.map .inr ++ notes G := by
  cases call <;> simp [MobileCall.traffic, MobileCall.sock, asked, answered, notes]

/-- **The notes of the script are what is expected.** -/
theorem notes_script (oracle : Oracle) :
    ∀ (cs : List MobileCall) (n : Nat), notes (script oracle n cs) = expected oracle n cs
  | [], _ => rfl
  | c :: cs, n => by
    rw [script, expected, notes_traffic, notes, notes_script oracle cs]

theorem turns_bytes {G : List Event} (hG : Turns G) : ∀ (bytes : List Event),
    (∀ e ∈ bytes, e.isByte = true) → Turns (bytes ++ G)
  | [], _ => hG
  | e :: bytes, h => by
    have ih := turns_bytes hG bytes fun e he => h e (List.mem_cons_of_mem _ he)
    exact List.isChain_cons.mpr ⟨fun _ _ => .inr (h e List.mem_cons_self), ih⟩

theorem turns_sent (hG : Turns G) : Turns (sent cmd frame G) :=
  turns_bytes (turns_bytes hG [.theirs (ack cmd)] (by simp [Ev.isByte])) _ (by simp [Ev.isByte])

theorem turns_got (hG : Turns G) : Turns (got cmd frame G) :=
  turns_bytes (turns_bytes hG [.mine (ack cmd)] (by simp [Ev.isByte])) _ (by simp [Ev.isByte])

theorem turns_streamed (hG : Turns G) : Turns (streamed r G) := by
  unfold streamed
  split
  · exact hG
  · exact turns_got hG

/-- The turn does not pass with a call of `socket_impl_*`: the reply comes from the same side. -/
theorem turns_answered (hG : Turns G) : Turns (answered o c G) := by
  refine List.isChain_cons.mpr ⟨?_, turns_got hG⟩
  intro e he
  obtain rfl : Ev.theirs Cmd.dataPc = e := by simpa [got, dataFrame] using he
  exact .inl rfl

theorem turns_traffic (hG : Turns G) (call : MobileCall) : Turns (call.traffic o G) := by
  cases call with
  | debugLine line => exact turns_sent hG
  | send conn buffer addr => exact turns_sent (turns_sent (turns_answered hG))
  | recv conn buffer size addr => exact turns_sent (turns_answered (turns_streamed hG))
  | _ => exact turns_sent (turns_answered hG)

/-- A call begins with a byte of the adapter. -/
theorem head_traffic (call : MobileCall) : ∀ e ∈ (call.traffic o G).head?, e.ours = true := by
  intro e he
  cases call <;>
  · simp only [MobileCall.traffic, asked, sent, dataFrame, lineFrame, List.map_cons,
      List.cons_append, List.head?_cons, Option.mem_some_iff] at he
    rw [← he]
    rfl

theorem head_script (oracle : Oracle) (n : Nat) (cs : List MobileCall) :
    ∀ e ∈ (script oracle n cs).head?, e.ours = true := by
  cases cs with
  | nil => exact fun e he => nomatch he
  | cons c cs => exact head_traffic c

/-- **In the script the turn passes only with a byte.** -/
theorem turns_script (oracle : Oracle) :
    ∀ (cs : List MobileCall) (n : Nat), Turns (script oracle n cs)
  | [], _ => .nil
  | c :: cs, n => by
    refine turns_traffic (List.isChain_cons.mpr ⟨?_, turns_script oracle cs _⟩) c
    intro e he
    exact .inl (head_script oracle _ cs e he).symm

theorem suffix_sent : G <:+ sent cmd frame G :=
  ⟨frame.map .mine ++ [.theirs (ack cmd)], by simp [sent]⟩

theorem suffix_got : G <:+ got cmd frame G :=
  ⟨frame.map .theirs ++ [.mine (ack cmd)], by simp [got]⟩

theorem suffix_answered : G <:+ answered o c G := suffix_got.trans (List.suffix_cons _ _)

theorem suffix_streamed : G <:+ streamed r G := by
  unfold streamed
  split
  · exact List.suffix_refl G
  · exact suffix_got

/-- The traffic of a call comes before what follows it. -/
theorem suffix_traffic (call : MobileCall) : G <:+ call.traffic o G := by
  cases call with
  | debugLine line => exact suffix_sent
  | send conn buffer addr => exact (suffix_answered.trans suffix_sent).trans suffix_sent
  | recv conn buffer size addr => exact (suffix_streamed.trans suffix_answered).trans suffix_sent
  | _ => exact suffix_answered.trans suffix_sent

/-- **The last event of the script is one of the adapter.** -/
theorem last_script (oracle : Oracle) :
    ∀ (cs : List MobileCall) (n : Nat), ∀ e ∈ (script oracle n cs).getLast?, e.ours = true
  | [], _, _, he => nomatch he
  | c :: cs, n, e, he => by
    obtain ⟨p, hp⟩ := suffix_traffic (o := oracle n)
      (G := .note (c.result (oracle n)) :: script oracle (n + c.socks) cs) c
    rw [script, ← hp, List.getLast?_append_of_ne_nil _ (List.cons_ne_nil _ _)] at he
    cases hrest : script oracle (n + c.socks) cs with
    | nil =>
      obtain rfl : Ev.note (c.result (oracle n)) = e := by simpa [hrest] using he
      rfl
    | cons e' G =>
      rw [hrest, List.getLast?_cons_cons, ← hrest] at he
      exact last_script oracle cs _ e he

end Script

end GBridge

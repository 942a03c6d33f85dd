/-
# The adapter among its surroundings

On the serial port of `Semantics` nothing moves while a call of `gbridge_loop` runs.  Here it does:
bytes may arrive each time the code looks whether any have, and the timer says what it likes each
time it is read (`Surroundings`).  A store past the end of its buffer and a `serial_getchar` with
nothing to read are noted as faults.  A timeout that has passed is noted as well (`late`).

What the receiver does with the bytes is said once and for all by `Line.next`: the next thing it
does, as a function of its variables and of what is unread, with a byte at a time where it takes a
byte at a time.  There is one function for each stage of a command: the length byte or bytes, a byte
of the payload, the checksum; and `nextByte` and `nextChecksum` serve both kinds of packet.

`Turns` is any number of such steps with arrivals in between.  Every call of `gbridge_loop` will be
seen to be that, or to end in a timeout.  What follows about the adapter is then said of one step
and carried over to all runs.
-/
import GBridge.Atmega.Semantics

namespace GBridge.Atmega

open Prog Bytes

/-! ## 1. The surroundings -/

/-- What arrives each time the code looks, and what the timer says each time it is read. -/
structure Surroundings where
  arrive : Nat → List UInt8
  clock : Nat → UInt32

/-- The variables, the serial port, and what has been seen of the run. -/
structure Live where
  g : State
  /-- The bytes that have arrived and have not been read. -/
  rx : List UInt8 := []
  /-- The bytes sent, oldest first. -/
  tx : List UInt8 := []
  /-- How often `serial_available` has been called. -/
  looks : Nat := 0
  /-- How often the timer has been read. -/
  reads : Nat := 0
  /-- What has arrived in these looks. -/
  heard : List UInt8 := []
  /-- A timeout has been found to have passed. -/
  late : Bool := false
  /-- The size given to the latest `gbridge_recv_stream`. -/
  limit : Nat := 0
  /-- A store went past the end of its buffer, or a byte was read where there was none. -/
  fault : Bool := false
  /-- What the calls of libmobile have returned, oldest first. -/
  results : List Result := []

/-- Bytes arrive. -/
def Live.hear (w : Live) (bs : List UInt8) : Live :=
  { w with rx := w.rx ++ bs, heard := w.heard ++ bs }

/-- What an operation answers and does. -/
def liveAnswer (env : Surroundings) : {β : Type} → Op β → Live → β × Live
  | _, .get, w => (w.g, w)
  | _, .set g, w => ((), { w with g })
  | _, .storeData i c, w =>
    ((), { w with g := w.g.storeData i c, fault := w.fault || maxDataSize ≤ i })
  | _, .storeStream i c, w =>
    ((), { w with g := w.g.storeStream i c, fault := w.fault || w.limit ≤ i })
  | _, .available, w =>
    let w := { w.hear (env.arrive w.looks) with looks := w.looks + 1 }
    (w.rx.length, w)
  | _, .getchar, w =>
    match w.rx with
    | [] => (0, { w with fault := true })
    | c :: rx => (c, { w with rx })
  | _, .putchar c, w => ((), { w with tx := w.tx ++ [c] })
  | _, .timerGet, w => (env.clock w.reads, { w with reads := w.reads + 1 })
  | _, .expired since, w =>
    let passed := timeoutUs < env.clock w.reads - since
    (passed, { w with reads := w.reads + 1, late := w.late || passed })
  | _, .returned r, w => ((), { w with results := w.results ++ [r] })

/-- The operations in these surroundings. -/
def live (env : Surroundings) : Sem Op Live := fun _ e w b w' => liveAnswer env e w = (b, w')

/-- What is computed is a run. -/
theorem live_eval {env : Surroundings} {α : Type} {fuel : Nat} {p : Code α} {w w' : Live} {a : α}
    (h : run (fun _ e w => some (liveAnswer env e w)) fuel p w = some (a, w')) :
    Eval (live env) p w a w' :=
  @run_eval _ Live α (live env) Live _ id (fun _ _ _ _ _ h => Option.some.inj h) fuel p w w' a h

/-! ## 2. What the receiver does next -/

/-- What a step of the receiver reads and writes: the variables and the two ends of the line. -/
structure Line where
  g : State
  rx : List UInt8
  tx : List UInt8

def Live.line (w : Live) : Line := ⟨w.g, w.rx, w.tx⟩

namespace Line

/-- A byte while the link is down. -/
def nextHandshake (l : Line) : Option Line :=
  match l.rx with
  | [] => none
  | c :: rx =>
    if handshake.getD l.g.handshakeProgress 0 ≠ c then
      some { l with
        rx, g := { l.g with handshakeProgress := if c = handshake.getD 0 0 then 1 else 0 } }
    else if (l.g.handshakeProgress + 1) % 256 ≠ handshake.length then
      some { l with rx, g := { l.g with handshakeProgress := (l.g.handshakeProgress + 1) % 256 } }
    else
      some ⟨{ l.g with handshakeProgress := 0, connected := true }, rx, l.tx ++ handshake⟩

/-- A byte while no command is under way. -/
def nextCommand (now : UInt32) (l : Line) : Option Line :=
  match l.rx with
  | [] => none
  | c :: rx =>
    if c = Cmd.none then some { l with rx }
    else if l.g.waitingCmd ≠ Cmd.none then
      if c = ack l.g.waitingCmd then
        some { l with rx, g := { l.g with waitingCmd := Cmd.none } }
      else some { l with rx }
    else
      some { l with
        rx, g := { l.g with
          processingCmd := c, processingCmdState := 0, processingCmdTime := now } }

/-- The link is reset. -/
def reset (l : Line) : Line := { l with g := l.g.init }

/-- The two bytes of a checksum. -/
def nextChecksum (l : Line) (data : GbridgeData) (accepted : State) : Option Line :=
  match l.rx with
  | h :: lo :: rx =>
    if be16 h lo ≠ data.checksumData then some { l.reset with rx }
    else
      some ⟨{ accepted with processingCmd := Cmd.none }, rx, l.tx ++ [ack l.g.processingCmd]⟩
  | _ => none

/-- A byte of a payload. -/
def nextByte (l : Line) (put : UInt8 → State) (full : State → Bool) (finish : State → State) :
    Option Line :=
  match l.rx with
  | [] => none
  | c :: rx => some { l with rx, g := if full (put c) then finish (put c) else put c }

/-- The length of a DATA_PC packet. -/
def nextDataLen (l : Line) : Option Line :=
  match l.rx with
  | [] => none
  | c :: rx =>
    if maxDataSize < c.toNat then some { l with rx, g := { l.g with dataLen := c.toNat }.init }
    else
      some { l with
        rx, g := { l.g with dataLen := c.toNat, dataCur := 0, processingCmdState := 1 } }

/-- A byte of a DATA_PC packet is stored. -/
def putData (g : State) (c : UInt8) : State :=
  { g.storeData g.dataCur c with dataCur := (g.dataCur + 1) % 256 }

/-- All of a DATA_PC packet is stored. -/
def fullData (g : State) : Bool := g.dataLen ≤ g.dataCur

def finishData (g : State) : State :=
  { g with dataSize := UInt8.ofNat g.dataLen, processingCmdState := 2 }

def nextDataPc (l : Line) : Option Line :=
  if l.g.dataReady then some l.reset
  else if l.g.processingCmdState = 0 then l.nextDataLen
  else if l.g.processingCmdState = 1 then l.nextByte (putData l.g) fullData finishData
  else if l.g.processingCmdState = 2 then
    l.nextChecksum l.g.data { l.g with dataReady := true }
  else none

/-- The length of a STREAM_PC packet. -/
def nextStreamLen (l : Line) : Option Line :=
  match l.rx with
  | h :: lo :: rx =>
    let size := UInt8.ofNat (h.toNat <<< 8) ||| lo
    if l.g.streamMaxSize < size.toNat then
      some { l with rx, g := { l.g with streamSize := size }.init }
    else
      some { l with
        rx, g := { l.g with streamSize := size, streamCur := 0, processingCmdState := 1 } }
  | _ => none

/-- A byte of a STREAM_PC packet is stored. -/
def putStream (g : State) (c : UInt8) : State :=
  { g.storeStream g.streamCur c with streamCur := (g.streamCur + 1) % 65536 }

/-- All of a STREAM_PC packet is stored. -/
def fullStream (g : State) : Bool := g.streamSize.toNat ≤ g.streamCur

def finishStream (g : State) : State := { g with processingCmdState := 2 }

def nextStreamPc (l : Line) : Option Line :=
  if l.g.streamMaxSize = 0 then some l.reset
  else if l.g.processingCmdState = 0 then l.nextStreamLen
  else if l.g.processingCmdState = 1 then l.nextByte (putStream l.g) fullStream finishStream
  else if l.g.processingCmdState = 2 then
    l.nextChecksum l.g.streamRecv { l.g with streamMaxSize := 0 }
  else none

/-- What the receiver does next, if anything; `now` is what the timer says if it is read. -/
def next (now : UInt32) (l : Line) : Option Line :=
  if !l.g.connected then l.nextHandshake
  else if l.g.processingCmd = Cmd.none then l.nextCommand now
  else if l.g.processingCmd = Cmd.reset then
    some { l.reset with tx := l.tx ++ [ack Cmd.reset] }
  else if l.g.processingCmd = Cmd.dataPc then l.nextDataPc
  else if l.g.processingCmd = Cmd.streamPc then l.nextStreamPc
  else some { l with g := { l.g with processingCmd := Cmd.none } }

/-- A timeout is armed. -/
def Armed (l : Line) : Prop :=
  l.g.connected = true ∧ (l.g.processingCmd ≠ Cmd.none ∨ l.g.waitingCmd ≠ Cmd.none)

end Line

/-- A number of steps of the receiver, with these bytes arriving meanwhile. -/
inductive Turns (l : Line) : Nat → List UInt8 → Line → Prop
  | refl : Turns l 0 [] l
  | next {n : Nat} {bs : List UInt8} {l₁ l₂ : Line} (now : UInt32) : Turns l n bs l₁ →
    l₁.next now = some l₂ → Turns l (n + 1) bs l₂
  | hear {n : Nat} {bs : List UInt8} {l₁ : Line} (more : List UInt8) : Turns l n bs l₁ →
    Turns l n (bs ++ more) { l₁ with rx := l₁.rx ++ more }

theorem Turns.trans {l l₁ l₂ : Line} {n m : Nat} {bs bs' : List UInt8} (h : Turns l n bs l₁)
    (h' : Turns l₁ m bs' l₂) : Turns l (n + m) (bs ++ bs') l₂ := by
  induction h' with
  | refl => rwa [Nat.add_zero, List.append_nil]
  | next now _ hnext ih => exact .next now ih hnext
  | hear more _ ih => rw [← List.append_assoc]; exact .hear more ih

end GBridge.Atmega

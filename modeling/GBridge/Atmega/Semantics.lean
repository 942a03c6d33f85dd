/-
# The adapter on its serial port

Between the interrupt handlers and the link layer there are two queues.  Here they are lists:
`rx` holds the bytes that have arrived and have not been read, `tx` everything that was sent.
The timer stands still during a call of `gbridge_loop`; between two calls bytes arrive and time
passes (`Tick`).
-/
import GBridge.Atmega.ProtMa

namespace GBridge.Atmega

open Prog

/-! ## 1. The world -/

/-- The variables of the link layer, the serial port and the timer. -/
structure World where
  g : State
  /-- The bytes that have arrived and have not been read. -/
  rx : List UInt8 := []
  /-- The bytes sent, oldest first. -/
  tx : List UInt8 := []
  now : UInt32 := 0
  /-- What the calls of libmobile have returned, oldest first. -/
  results : List Result := []
deriving DecidableEq

/-- `data.buffer[i] = c` -/
def State.storeData (g : State) (i : Nat) (c : UInt8) : State :=
  { g with dataBuf := g.dataBuf.set i c }

/-- `stream_recv.buffer[i] = c` -/
def State.storeStream (g : State) (i : Nat) (c : UInt8) : State :=
  { g with streamBuf := g.streamBuf.set i c }

/-- What the operations do. -/
def answer : (β : Type) → Op β → World → Option (β × World)
  | _, .get, w => some (w.g, w)
  | _, .set g, w => some ((), { w with g })
  | _, .storeData i c, w => some ((), { w with g := w.g.storeData i c })
  | _, .storeStream i c, w => some ((), { w with g := w.g.storeStream i c })
  | _, .available, w => some (w.rx.length, w)
  | _, .getchar, w =>
    match w.rx with
    | [] => none
    | c :: rx => some (c, { w with rx })
  | _, .putchar c, w => some ((), { w with tx := w.tx ++ [c] })
  | _, .timerGet, w => some (w.now, w)
  | _, .expired since, w => some (timeoutUs < w.now - since, w)
  | _, .returned r, w => some ((), { w with results := w.results ++ [r] })

/-- The same as a relation.  A `serial_getchar` with nothing to read has no answer. -/
def sem : Sem Op World := fun β e w b w' => answer β e w = some (b, w')

theorem answer_sound (β : Type) (e : Op β) (w : World) (b : β) (w' : World)
    (h : answer β e w = some (b, w')) : sem β e w b w' := h

theorem modify_ends (f : State → State) (w : World) :
    Ends sem (modify f) w fun _ w' => w' = { w with g := f w.g } := by
  constructor
  · exact ⟨(), _, _, _, rfl, _, _, rfl, rfl, rfl⟩
  · rintro _ w' ⟨g, w₁, hget, _, w₂, hset, -, rfl⟩
    obtain ⟨rfl, rfl⟩ := Prod.mk.inj (Option.some.inj hget)
    exact (Prod.mk.inj (Option.some.inj hset)).2.symm

/-! ## 2. Calls of `gbridge_loop`, and what happens between them -/

/-- What has arrived when a call of `gbridge_loop` begins, and the time it is. -/
structure Tick where
  arrived : List UInt8
  now : UInt32

def World.tick (w : World) (t : Tick) : World :=
  { w with rx := w.rx ++ t.arrived, now := t.now }

/-- Neither of the two timeouts has passed. -/
def World.NotLate (w : World) : Prop :=
  (w.g.processingCmd ≠ Cmd.none → w.now - w.g.processingCmdTime ≤ timeoutUs) ∧
    (w.g.waitingCmd ≠ Cmd.none → w.now - w.g.waitingCmdTime ≤ timeoutUs)

/-- A call of `gbridge_loop` after each tick: every call comes to an end, and after the last one
`Q` holds.  A schedule on which a call finds that a timeout has passed is not followed any
further. -/
def AfterLoops (Q : World → Prop) : List Tick → World → Prop
  | [], w => Q w
  | t :: ts, w =>
    (w.tick t).NotLate → Ends sem gbridgeLoop (w.tick t) fun _ w₁ => AfterLoops Q ts w₁

/-- The same for something that holds at the start or after one of the calls; until then `P`
does. -/
def UntilLoops (P Q : World → Prop) : List Tick → World → Prop
  | [], w => Q w
  | t :: ts, w =>
    Q w ∨ P w ∧
      ((w.tick t).NotLate → Ends sem gbridgeLoop (w.tick t) fun _ w₁ => UntilLoops P Q ts w₁)

theorem AfterLoops.mono {Q Q' : World → Prop} (hQ : ∀ w, Q w → Q' w) :
    ∀ {ts : List Tick} {w : World}, AfterLoops Q ts w → AfterLoops Q' ts w
  | [], _, h => hQ _ h
  | _ :: _, _, h => fun hlate => (h hlate).mono fun _ _ h₁ => AfterLoops.mono hQ h₁

theorem UntilLoops.now {P Q : World → Prop} {ts : List Tick} {w : World} (h : Q w) :
    UntilLoops P Q ts w := by
  cases ts with
  | nil => exact h
  | cons t ts => exact .inl h

/-- All that arrives. -/
def arrivals (ts : List Tick) : List UInt8 := ts.flatMap Tick.arrived

@[simp] theorem arrivals_nil : arrivals [] = [] := rfl

@[simp] theorem arrivals_cons (t : Tick) (ts : List Tick) :
    arrivals (t :: ts) = t.arrived ++ arrivals ts := rfl

/-- The link is up and nothing is under way. -/
structure State.Idle (g : State) : Prop where
  connected : g.connected = true
  processing : g.processingCmd = Cmd.none
  waiting : g.waitingCmd = Cmd.none

/-- In a world in which nothing is under way no timeout can pass. -/
theorem State.Idle.notLate {w : World} (h : w.g.Idle) (t : Tick) : (w.tick t).NotLate :=
  ⟨fun hne => absurd h.processing hne, fun hne => absurd h.waiting hne⟩

end GBridge.Atmega

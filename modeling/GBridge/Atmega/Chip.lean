/-
# The adapter on its registers

In `Live` the link layer talks to two queues.  Here it talks to `serial.c`: `serial_putchar`,
`serial_getchar` and `serial_available` are the programs of `Serial` and `SerialReceive`, taken step
by step, and the interrupt handlers may run between any two steps of anything.

A state of the chip (`Running`) is the program that is left to run, whether it is inside one of the
three functions, and the memory.  There are three kinds of steps:

* a handler runs: `USART_UDRE_vect`, `USART_RX_vect` or `TIMER0_OVF_vect`; or the USART can take a
  byte again;
* the program does something that is one step, on the variables of `gbridge.c` or with the timer;
* it calls one of the three functions, takes a step of it, or comes back from it with its result.

`Operated` are the memories between two calls, from power-up on.  `ok` picks the runs that are
looked at, by a condition on each step; the one that is used is `Running.SbiOnFilled`.  Runs that
are written down as lists of interrupts are computed by `Running.nexts`.
-/
import GBridge.Atmega.SerialReceive
import GBridge.Atmega.Timer
import GBridge.Atmega.Ready

namespace GBridge.Atmega

open Prog

/-! ## 1. The memory and the handlers -/

/-- The variables of `gbridge.c`, the two halves of the serial port, and the timer. -/
structure Chip where
  g : State
  sending : Tx
  receiving : Rx
  /-- `micros` -/
  micros : UInt32
  /-- What the calls of libmobile have returned, oldest first. -/
  results : List Result

/-- What comes between two steps of the program. -/
inductive Interrupt where
  /-- `USART_UDRE_vect` -/
  | transmit
  /-- `UDR0` can take a byte again. -/
  | ready
  /-- `USART_RX_vect`, with the byte in `UDR0` and whether an error flag is set. -/
  | receive (c : UInt8) (error : Bool)
  /-- `TIMER0_OVF_vect` -/
  | timer

namespace Chip

/-- What a handler does, if it can run. -/
def interrupt (w : Chip) : Interrupt → Option Chip
  | .transmit => (w.sending.step .interrupt).map fun s => { w with sending := s }
  | .ready => (w.sending.step .ready).map fun s => { w with sending := s }
  | .receive c error =>
    (w.receiving.step (.interrupt c error)).map fun s => { w with receiving := s }
  | .timer => some { w with micros := timerIsr w.micros }

/-- What an operation does that is one step. -/
def answer : {β : Type} → Op β → Chip → Option (β × Chip)
  | _, .get, w => some (w.g, w)
  | _, .set g, w => some ((), { w with g })
  | _, .storeData i c, w => some ((), { w with g := w.g.storeData i c })
  | _, .storeStream i c, w => some ((), { w with g := w.g.storeStream i c })
  | _, .timerGet, w => some (w.micros, w)
  | _, .expired since, w => some (timeoutUs < w.micros - since, w)
  | _, .returned r, w => some ((), { w with results := w.results ++ [r] })
  | _, .available, _ | _, .getchar, _ | _, .putchar _, _ => none

/-- One of the three functions is called. -/
def enter : {β : Type} → Op β → Chip → Option Chip
  | _, .putchar c, w => (w.sending.step (.call c)).map fun s => { w with sending := s }
  | _, .getchar, w => (w.receiving.step .getchar).map fun s => { w with receiving := s }
  | _, .available, w => (w.receiving.step .available).map fun s => { w with receiving := s }
  | _, _, _ => none

/-- A step of it. -/
def proceed : {β : Type} → Op β → Chip → Option Chip
  | _, .putchar _, w => (w.sending.step .main).map fun s => { w with sending := s }
  | _, .getchar, w | _, .available, w =>
    (w.receiving.step .main).map fun s => { w with receiving := s }
  | _, _, _ => none

/-- It has returned, with this result. -/
def leave : {β : Type} → Op β → Chip → Option β
  | _, .putchar _, w => if w.sending.pc = .idle then some () else none
  | _, .getchar, w => if w.receiving.pc = .idle then w.receiving.returned.getLast? else none
  | _, .available, w =>
    if w.receiving.pc = .idle then (w.receiving.reports.getLast?).map (·.value.toNat) else none
  | _, _, _ => none

end Chip

/-! ## 2. Runs -/

/-- The program that is left, and the memory. -/
structure Running where
  code : Code Unit
  /-- The program is inside the function that `code` begins with. -/
  inside : Bool
  chip : Chip

/-- One step. -/
inductive Running.Step : Running → Running → Prop
  | interrupt {p : Code Unit} {b : Bool} {w w' : Chip} (i : Interrupt) :
    w.interrupt i = some w' → Step ⟨p, b, w⟩ ⟨p, b, w'⟩
  | round {body : Code Bool} {k : Code Unit} {w : Chip} :
    Step ⟨.loop body k, false, w⟩ ⟨body.bind fun b => if b then .loop body k else k, false, w⟩
  | operate {β : Type} {e : Op β} {k : β → Code Unit} {w w' : Chip} {b : β} :
    w.answer e = some (b, w') → Step ⟨.op e k, false, w⟩ ⟨k b, false, w'⟩
  | enter {β : Type} {e : Op β} {k : β → Code Unit} {w w' : Chip} :
    w.enter e = some w' → Step ⟨.op e k, false, w⟩ ⟨.op e k, true, w'⟩
  | proceed {β : Type} {e : Op β} {k : β → Code Unit} {w w' : Chip} :
    w.proceed e = some w' → Step ⟨.op e k, true, w⟩ ⟨.op e k, true, w'⟩
  | leave {β : Type} {e : Op β} {k : β → Code Unit} {w : Chip} {b : β} :
    w.leave e = some b → Step ⟨.op e k, true, w⟩ ⟨k b, false, w⟩

/-- The states that a run passes through in which `ok` holds of every step. -/
abbrev Running.Reach (ok : Running → Running → Prop) : Running → Running → Prop :=
  Relation.ReflTransGen fun s s' => s.Step s' ∧ ok s s'

/-- The memory after power-up and `gbridge_init`. -/
def Chip.start (g : State) (tx rx : Vector UInt8 serialBufferSize) (i : Fin serialBufferSize)
    (udre0 : Bool) (micros : UInt32) : Chip :=
  { g := g.init, sending := .start tx i udre0, receiving := .start rx, micros, results := [] }

/-- The memory between two calls. -/
inductive Operated (ok : Running → Running → Prop) : Chip → Prop
  | start (g : State) (tx rx : Vector UInt8 serialBufferSize) (i : Fin serialBufferSize)
    (udre0 : Bool) (micros : UInt32) : Operated ok (.start g tx rx i udre0 micros)
  | call {w w' : Chip} (c : ApiCall) : c.Fits → Operated ok w →
    Running.Reach ok ⟨c.code, false, w⟩ ⟨.ret (), false, w'⟩ → Operated ok w'

/-- The `sbi` is not taken on a ring that the handler has emptied since the head advanced. -/
def Running.SbiOnFilled (s s' : Running) : Prop :=
  s.chip.sending.pc = .sbi → s'.chip.sending.pc = .idle →
    serialBufferIsempty s.chip.sending.usart.serialTx = false

instance (s s' : Running) : Decidable (s.SbiOnFilled s') :=
  inferInstanceAs (Decidable (_ → _ → _))

/-! ## 3. Runs that are computed -/

namespace Running

/-- The next step: of a handler, or of the program. -/
def next : Option Interrupt → Running → Option Running
  | some i, ⟨p, b, w⟩ => (w.interrupt i).map (⟨p, b, ·⟩)
  | none, ⟨.ret _, _, _⟩ | none, ⟨.loop _ _, true, _⟩ => none
  | none, ⟨.loop body k, false, w⟩ =>
    some ⟨body.bind fun b => if b then .loop body k else k, false, w⟩
  | none, ⟨.op e k, false, w⟩ =>
    ((w.answer e).map fun r => ⟨k r.1, false, r.2⟩).or ((w.enter e).map (⟨.op e k, true, ·⟩))
  | none, ⟨.op e k, true, w⟩ =>
    ((w.leave e).map fun b => ⟨k b, false, w⟩).or ((w.proceed e).map (⟨.op e k, true, ·⟩))

/-- One step after the other, as long as `ok` holds. -/
def nexts (ok : Running → Running → Bool) : List (Option Interrupt) → Running → Option Running
  | [], s => some s
  | i :: is, s => (s.next i).bind fun s' => if ok s s' then s'.nexts ok is else none

theorem next_step {i : Option Interrupt} {s s' : Running} (h : s.next i = some s') : s.Step s' := by
  obtain ⟨p, b, w⟩ := s
  cases i with
  | some i =>
    obtain ⟨w', hw, rfl⟩ := Option.map_eq_some_iff.mp h
    exact .interrupt i hw
  | none =>
    cases p with
    | ret a => cases h
    | loop body k =>
      cases b with
      | true => cases h
      | false =>
        cases h
        exact .round
    | op e k =>
      cases b with
      | false =>
        rcases Option.or_eq_some_iff.mp h with h | ⟨-, h⟩
        · obtain ⟨⟨b, w'⟩, hw, rfl⟩ := Option.map_eq_some_iff.mp h
          exact .operate hw
        · obtain ⟨w', hw, rfl⟩ := Option.map_eq_some_iff.mp h
          exact .enter hw
      | true =>
        rcases Option.or_eq_some_iff.mp h with h | ⟨-, h⟩
        · obtain ⟨b, hb, rfl⟩ := Option.map_eq_some_iff.mp h
          exact .leave hb
        · obtain ⟨w', hw, rfl⟩ := Option.map_eq_some_iff.mp h
          exact .proceed hw

theorem nexts_reach {ok : Running → Running → Prop} {t : Running → Running → Bool}
    (hok : ∀ s s', t s s' = true → ok s s') : ∀ {is : List (Option Interrupt)} {s s' : Running},
      s.nexts t is = some s' → Reach ok s s'
  | [], s, s', h => by
    cases h
    exact .refl
  | i :: is, s, s', h => by
    obtain ⟨s₁, h₁, h⟩ := Option.bind_eq_some_iff.mp h
    obtain ⟨ht, h⟩ := Option.ite_none_right_eq_some.mp h
    exact .head ⟨next_step h₁, hok _ _ ht⟩ (nexts_reach hok h)

/-- The memory when the call has returned. -/
def returned : Running → Option Chip
  | ⟨.ret _, false, w⟩ => some w
  | _ => none

theorem returned_eq {s : Running} {w : Chip} (h : s.returned = some w) :
    s = ⟨.ret (), false, w⟩ := by
  obtain ⟨p, b, w⟩ := s
  cases p with
  | ret a =>
    cases b with
    | false =>
      cases h
      rfl
    | true => cases h
  | op | loop => cases h

end Running

/-- What the calls of a list leave, each with its handlers. -/
def Chip.calls (t : Running → Running → Bool) :
    List ({ c : ApiCall // c.Fits } × List (Option Interrupt)) → Chip → Option Chip
  | [], w => some w
  | (c, is) :: cs, w =>
    ((Running.nexts t is ⟨c.1.code, false, w⟩).bind Running.returned).bind (Chip.calls t cs)

theorem Operated.calls {ok : Running → Running → Prop} {t : Running → Running → Bool}
    (hok : ∀ s s', t s s' = true → ok s s') :
    ∀ {cs : List ({ c : ApiCall // c.Fits } × List (Option Interrupt))} {w w' : Chip},
      Operated ok w → w.calls t cs = some w' → Operated ok w'
  | [], w, w', h, hrun => by
    cases hrun
    exact h
  | (c, is) :: cs, w, w', h, hrun => by
    obtain ⟨w₁, h₁, hrun⟩ := Option.bind_eq_some_iff.mp hrun
    obtain ⟨s, hs, hret⟩ := Option.bind_eq_some_iff.mp h₁
    rw [Running.returned_eq hret] at hs
    exact Operated.calls hok (.call c.1 c.2 h (Running.nexts_reach hok hs)) hrun

end GBridge.Atmega

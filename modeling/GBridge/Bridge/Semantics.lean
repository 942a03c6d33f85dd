/-
# The bridge on a serial port

The link layer of the bridge runs against a port that is a parameter: a relation that says what
`sp_blocking_read` may answer.  Two ports are used.  `scripted` answers what a list says, which
may be anything `libserialport` documents, short reads and errors included, so that all lists
together are all behaviours of a port.  `queued` is a port on which nothing times out: a read
takes its bytes off the front of a queue.

The world records what is written to the port, and whether a store ever ran past the end of its
buffer.
-/
import GBridge.Bridge.ProtMa

namespace GBridge.Bridge

open Prog

variable {σ : Type}

/-! ## 1. Ports -/

/-- What a port may answer to a read of so many bytes, and what becomes of it. -/
abbrev Port (σ : Type) := (count ms : Nat) → σ → ReadRes → σ → Prop

/-- Never more bytes than asked for. -/
def ReadRes.Fits (r : ReadRes) (count : Nat) : Prop :=
  match r with
  | .bytes bs => bs.length ≤ count
  | .error _ => True

instance (r : ReadRes) (count : Nat) : Decidable (r.Fits count) := by
  cases r <;> unfold ReadRes.Fits <;> infer_instance

/-- What is assumed of the library: a read brings at most what was asked for. -/
def Port.Fitting (port : Port σ) : Prop :=
  ∀ (count ms : Nat) (s s' : σ) (r : ReadRes), port count ms s r s' → r.Fits count

/-- The answers are given by a list. -/
def scripted : Port (List ReadRes) := fun count _ s r s' => s = r :: s' ∧ r.Fits count

theorem scripted_fitting : Port.Fitting scripted := fun _ _ _ _ _ h => h.2

/-- The bytes are there: a read takes them off the front. -/
def queued : Port (List UInt8) := fun count _ rx r rx' =>
  r = .bytes (rx.take count) ∧ rx' = rx.drop count

/-! ## 2. The world -/

/-- The variables of the link layer, the port, and what has been seen of the run. -/
structure World (σ : Type) where
  g : State
  port : σ
  /-- The bytes written to the port, oldest first. -/
  tx : List UInt8 := []
  /-- A store went past the end of its buffer. -/
  overrun : Bool := false
deriving DecidableEq

/-- Do so many bytes run past the end of the buffer? -/
def Dst.overrun : Dst → Nat → Bool
  | .scratch, _ => false
  | .dataSize, n => 1 < n
  | .dataBuf, n => maxDataSize < n
  | .stream maxSize, n => maxSize < n

/-- What a call of `socket_impl_*` may answer: anything, except that `recv` does not return more
bytes than it was asked for or than it stored. -/
def SockCall.Allows : (c : SockCall) → c.Res → Prop
  | .recv _ (some size) _, r => r.res ≤ size ∧ r.res ≤ r.data.length
  | _, _ => True

/-- What the operations do. -/
def sem (port : Port σ) : Sem Op (World σ)
  | _, .get, w, g, w' => g = w.g ∧ w' = w
  | _, .set g, w, _, w' => w' = { w with g }
  | _, .read count ms, w, r, w' => ∃ p, port count ms w.port r p ∧ w' = { w with port := p }
  | _, .store dst bs, w, _, w' =>
    w' = { w with g := w.g.store bs dst, overrun := w.overrun || dst.overrun bs.length }
  | _, .write bs, w, _, w' => w' = { w with tx := w.tx ++ bs }
  | _, .eprint _, w, _, w' => w' = w
  | _, .ewrite _, w, _, w' => w' = w
  | _, .sock c, w, r, w' => c.Allows r ∧ w' = w

/-! ## 3. Sequences of calls -/

/-- The functions of the link layer that are called from outside it, and the request loop. -/
inductive Call where
  | init
  | handshake
  | loop
  | recvDataDone
  | recvStream (maxSize : Nat)
  | cmdData (data : GbridgeData)
  | cmdStream (buffer : List UInt8) (size : Nat)
  | protMaLoop

/-- The call, its result thrown away. -/
def Call.code : Call → Code Unit
  | .init => gbridgeInit
  | .handshake => gbridgeHandshake.bind fun _ => .ret ()
  | .loop => gbridgeLoop
  | .recvDataDone => gbridgeRecvDataDone
  | .recvStream maxSize => (gbridgeRecvStream maxSize).bind fun _ => .ret ()
  | .cmdData data => gbridgeCmdData data
  | .cmdStream buffer size => gbridgeCmdStream buffer size
  | .protMaLoop => gbridgeProtMaLoop

/-- One call after the other. -/
def session : List Call → Code Unit
  | [] => .ret ()
  | c :: cs => c.code.bind fun _ => session cs

/-- The program has just been started. -/
def World.start (port : σ) : World σ := { g := {}, port }

/-! ## 4. Running it -/

/-- A result for a call of `socket_impl_*`, the same every time. -/
def SockCall.sample : (c : SockCall) → c.Res
  | .open .. | .listen _ | .accept _ => true
  | .close _ => ()
  | .connect .. => 1
  | .send _ data _ => (data.length : Int)
  | .recv _ size _ => { res := size.getD 0, data := List.replicate (size.getD 0) 0 }

theorem SockCall.allows_sample (c : SockCall) : c.Allows c.sample := by
  cases c with
  | recv conn size addr => cases size <;> simp [SockCall.Allows, SockCall.sample]
  | _ => trivial

/-- The scripted port, executed. -/
def answer : (β : Type) → Op β → World (List ReadRes) → Option (β × World (List ReadRes))
  | _, .get, w => some (w.g, w)
  | _, .set g, w => some ((), { w with g })
  | _, .read count _, w =>
    match w.port with
    | [] => none
    | r :: s => if r.Fits count then some (r, { w with port := s }) else none
  | _, .store dst bs, w =>
    some ((), { w with g := w.g.store bs dst, overrun := w.overrun || dst.overrun bs.length })
  | _, .write bs, w => some ((), { w with tx := w.tx ++ bs })
  | _, .eprint _, w => some ((), w)
  | _, .ewrite _, w => some ((), w)
  | _, .sock c, w => some (c.sample, w)

theorem answer_sound (β : Type) (e : Op β) (w : World (List ReadRes)) (b : β)
    (w' : World (List ReadRes)) (h : answer β e w = some (b, w')) : sem scripted β e w b w' := by
  cases e with
  | get => simp only [answer, Option.some.injEq, Prod.mk.injEq] at h; exact ⟨h.1.symm, h.2.symm⟩
  | read count ms =>
    cases hs : w.port with
    | nil => simp [answer, hs] at h
    | cons r s =>
      simp only [answer, hs, Option.ite_none_right_eq_some, Option.some.injEq,
        Prod.mk.injEq] at h
      obtain ⟨hfit, rfl, rfl⟩ := h
      exact ⟨s, ⟨hs, hfit⟩, rfl⟩
  | sock c =>
    simp only [answer, Option.some.injEq, Prod.mk.injEq] at h
    obtain ⟨rfl, rfl⟩ := h
    exact ⟨c.allows_sample, rfl⟩
  | set g | store dst bs | write bs | eprint s | ewrite bs =>
    simp only [answer, Option.some.injEq, Prod.mk.injEq] at h
    exact h.2.symm

end GBridge.Bridge

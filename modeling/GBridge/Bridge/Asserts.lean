/-
# The bridge and requests that make no sense

The functions of `socket_impl.c` state what they expect with `assert`: `socket_impl_open` a free
slot and types that it knows, the others a slot in use.  None of it is looked at before they are
called.  The connection number and the two types come from the packet as they are, so that a packet
can name a third connection, close one that is not open, or open one twice.

Here the functions run over a table that takes note when it is accessed past its end or when an
assertion fails (`Table.fault`).  The bridge gets through every sequence of requests that are
`Admissible` when they come (`survives_admissible`), and not through every sequence
(`survives_fails`).

The table has its two slots and no fault (`Table.Sound`) before and after each function, whatever
the operating system answers.  A function is walked through down to its assertions; behind them it
does nothing to the table but to its own slot, so that the rest is one lemma (`wpT_safe`).
-/
import GBridge.Bridge.Grammar
import GBridge.Bridge.OsView

namespace GBridge.Bridge

open Prog

/-! ## 1. The table, and what can go wrong with it -/

/-- `state->sockets`, and whether something has gone wrong. -/
structure Table where
  sockets : List Int
  /-- The table was accessed past its end, or an assertion failed. -/
  fault : Bool := false
deriving DecidableEq

/-- What the operations of `socket_impl.c` do to the table.  The operating system answers what it
likes.  After a fault the run goes on, so that no fault is missed. -/
def tableSem : Sem OsOp Table := OsView.sem {
  sockets := Table.sockets
  file := fun t sockets => { t with sockets }
  slot := fun conn t sock t' => (t.sockets[conn]? = some sock ∧ t' = t) ∨
    (t.sockets.length ≤ conn ∧ t' = { t with fault := true })
  setSlot := fun conn sock t t' =>
    (conn < t.sockets.length ∧ t' = { t with sockets := t.sockets.set conn sock }) ∨
      (t.sockets.length ≤ conn ∧ t' = { t with fault := true })
  assert := fun c t t' => t' = { t with fault := t.fault || !c } }

/-- Behind the calls of the bridge stand the functions of `socket_impl.c`. -/
def implemented : Serve Table := fun c t r t' => Eval tableSem c.code t r t'

/-- The assertions of `socket_impl.c`, and that the slot is one of the table. -/
def SockCall.Admissible (sockets : List Int) : SockCall → Prop
  | .open conn type addrtype _ => conn < maxConnections ∧ sockets[conn]? = some (-1) ∧
    (type = socktypeTcp ∨ type = socktypeUdp) ∧
    (addrtype = MobileAddr.typeIpv4 ∨ addrtype = MobileAddr.typeIpv6)
  | .close conn | .connect conn _ | .listen conn | .accept conn | .send conn _ _
  | .recv conn _ _ => conn < maxConnections ∧ sockets[conn]? ≠ some (-1)

/-- What a request asks for may be done. -/
def Ask.Admissible (sockets : List Int) : Ask → Prop
  | .nothing => True
  | .call c => c.Admissible sockets
  | .send conn addr => ∀ payload, (SockCall.send conn payload addr).Admissible sockets

/-- The tables that a sequence of requests can leave, each of them meeting `ok` when it comes. -/
inductive Requested (ok : List Int → Ask → Prop) : Table → Prop
  | init {a b : Int} {t : Table} :
    Eval tableSem socketImplInit ⟨[a, b], false⟩ () t → Requested ok t
  | request {t : Table} (packet before : List UInt8) (progress : Nat) (reads : List ReadRes)
    {v : World (List ReadRes) × Table} : Requested ok t → packet.length ≤ maxDataSize →
    ok t.sockets (asks (inBuffer packet before)) →
    Eval (semFor implemented) gbridgeProtMaLoop (acknowledged packet before progress reads, t) ()
      v →
    Requested ok v.2

/-- The bridge gets through every sequence of such requests: nothing goes wrong at any moment of
any of them. -/
def Survives (ok : List Int → Ask → Prop) : Prop :=
  ∀ t, Requested ok t → ∀ (packet before : List UInt8) (progress : Nat) (reads : List ReadRes),
    packet.length ≤ maxDataSize → ok t.sockets (asks (inBuffer packet before)) →
    ∀ p v, Reach (semFor implemented)
      (gbridgeProtMaLoop, (acknowledged packet before progress reads, t)) (p, v) →
    v.2.fault = false

/-! ## 2. The functions of `socket_impl.c` -/

section Functions

variable {α : Type} {t : Table} {conn : Nat}

/-- The table has its two entries, and nothing has gone wrong. -/
structure Table.Sound (t : Table) : Prop where
  size : t.sockets.length = maxConnections
  fault : t.fault = false

/-- The weakest precondition over the table. -/
abbrev wpT (p : OsCode α) (Q : α → Table → Prop) (t : Table) : Prop :=
  wpre (Spec.demonic tableSem) false p Q t

/-- An operation that cannot go wrong. -/
def OsOp.Safe : {β : Type} → OsOp β → Prop
  | _, .slot conn => conn < maxConnections
  | _, .setSlot conn _ => conn < maxConnections
  | _, .assert c => c = true
  | _, _ => True

/-- Operations that cannot go wrong keep the table sound. -/
theorem wpT_safe {p : OsCode α} (hp : p.Every OsOp.Safe) (ht : t.Sound) :
    wpT p (fun _ t' => t'.Sound) t := by
  refine hp.keeps (fun e t he ht b t' hs => ?_) t ht
  cases e with
  | slot conn =>
    rcases hs with ⟨-, rfl⟩ | ⟨hlong, -⟩
    · exact ht
    · exact absurd (ht.size ▸ hlong) (Nat.not_le_of_lt he)
  | setSlot conn sock =>
    rcases hs with ⟨-, rfl⟩ | ⟨hlong, -⟩
    · exact ⟨(List.length_set ..).trans ht.size, ht.fault⟩
    · exact absurd (ht.size ▸ hlong) (Nat.not_le_of_lt he)
  | assert c =>
    obtain rfl : c = true := he
    obtain rfl : t' = _ := hs
    exact ⟨ht.size, by simp [ht.fault]⟩
  | _ =>
    obtain rfl : t' = t := hs
    exact ht

theorem wpT_slot {β : Type} {f : Int → OsCode β} {Q : β → Table → Prop} (ht : t.Sound)
    (hconn : conn < maxConnections)
    (h : ∀ sock, t.sockets[conn]? = some sock → wpT (f sock) Q t) :
    wpT ((Prog.cmd (.slot conn)).bind f) Q t := by
  rintro sock t' (⟨hslot, rfl⟩ | ⟨hlong, -⟩)
  · exact h sock hslot
  · exact absurd (ht.size ▸ hlong) (Nat.not_le_of_lt hconn)

theorem wpT_assert {β : Type} {c : Bool} {f : Unit → OsCode β} {Q : β → Table → Prop}
    (hc : c = true) (h : wpT (f ()) Q t) : wpT ((osAssert c).bind f) Q t := by
  rintro _ _ rfl
  subst hc
  simpa using h

/-- The functions that want their slot to be in use. -/
theorem wpT_inUse {β : Type} {f : Int → OsCode β} (ht : t.Sound)
    (hc : conn < maxConnections ∧ t.sockets[conn]? ≠ some (-1))
    (hf : ∀ sock, (f sock).Every OsOp.Safe) :
    wpT (do let sock ← .cmd (.slot conn); osAssert (sock ≠ -1); f sock)
      (fun _ t' => t'.Sound) t := by
  refine wpT_slot ht hc.1 fun sock hslot => wpT_assert (decide_eq_true ?_) (wpT_safe (hf sock) ht)
  rintro rfl
  exact hc.2 hslot

attribute [local simp]
  socketSetblocking socketImplSetup socketHasdata socketIsconnected socketPerror
  socketClose cmd OsOp.Safe

theorem safe_setblocking (sock : Int) (flag : Bool) :
    (socketSetblocking sock flag).Every OsOp.Safe := by
  simp

theorem safe_setup (sock : Int) (type addrtype : UInt8) (bindport : Nat) :
    (socketImplSetup sock type addrtype bindport).Every OsOp.Safe := by
  simp

theorem safe_gone (sock len : Int) : (socketGone sock len).Every OsOp.Safe := by
  unfold socketGone
  refine .ite trivial ⟨trivial, fun type => ?_⟩
  rcases type with _ | _ | _ <;> simp

theorem safe_hasdata (sock : Int) (delay : Nat) : (socketHasdata sock delay).Every OsOp.Safe := by
  simp

theorem safe_isconnected (sock : Int) (delay : Nat) :
    (socketIsconnected sock delay).Every OsOp.Safe := by
  simp

theorem safe_recvDone (sock : Int) (data : Option Nat) (addr : Option MobileAddr)
    (r : RecvFrom) : (socketImplRecvDone sock data addr r).Every OsOp.Safe := by
  refine (safe_gone _ _).bind fun gone => ?_
  cases gone with
  | some res => trivial
  | none => exact .ite trivial trivial

theorem wpT_open {type addrtype : UInt8} {bindport : Nat} (ht : t.Sound)
    (hc : (SockCall.open conn type addrtype bindport).Admissible t.sockets) :
    wpT (socketImplOpen conn type addrtype bindport) (fun _ t' => t'.Sound) t := by
  obtain ⟨hconn, hfree, htype, haddrtype⟩ := hc
  refine wpT_slot ht hconn fun sock hslot => wpT_assert (decide_eq_true ?_) ?_
  · exact Option.some.inj (hslot.symm.trans hfree)
  refine wpT_assert (decide_eq_true htype) (wpT_assert (decide_eq_true haddrtype) (wpT_safe ?_ ht))
  refine ⟨trivial, fun sock => .ite ?_ ((safe_setblocking sock false).bind fun rc => .ite ?_ ?_)⟩
  · simp [socketPerror, cmd, OsOp.Safe]
  · simp [socketClose, cmd, OsOp.Safe]
  · refine (safe_setup sock type addrtype bindport).bind fun ok => .ite ?_ trivial
    exact ⟨hconn, fun _ => trivial⟩

theorem wpT_closeCall (ht : t.Sound) (hc : (SockCall.close conn).Admissible t.sockets) :
    wpT (socketImplClose conn) (fun _ t' => t'.Sound) t := by
  refine wpT_inUse ht hc fun sock => ⟨hc.1, fun sock => ?_⟩
  simp [socketClose, cmd, OsOp.Safe, hc.1]

theorem wpT_code {c : SockCall} (ht : t.Sound) (hc : c.Admissible t.sockets) :
    wpT c.code (fun _ t' => t'.Sound) t := by
  cases c with
  | «open» conn type addrtype bindport => exact wpT_open ht hc
  | close conn => exact wpT_closeCall ht hc
  | connect conn addr =>
    refine wpT_inUse ht hc fun sock => ⟨trivial, fun rc => .ite trivial ⟨trivial, fun err => ?_⟩⟩
    refine .ite ((safe_isconnected sock 100).bind fun rc => ?_) ?_
    · simp [socketPerror, cmd, OsOp.Safe]
    · simp [socketPerror, cmd, OsOp.Safe]
  | listen conn =>
    refine wpT_inUse ht hc fun sock => ?_
    simp [socketPerror, cmd, OsOp.Safe]
  | accept conn =>
    refine wpT_inUse ht hc fun sock => (safe_hasdata sock 0).bind fun rc => .ite trivial ?_
    refine ⟨trivial, fun newsock => .ite ?_ ((safe_setblocking newsock false).bind fun rc => ?_)⟩
    · simp [socketPerror, cmd, OsOp.Safe]
    · simp [socketClose, cmd, OsOp.Safe, hc.1]
  | send conn data addr =>
    refine wpT_inUse ht hc fun sock => ?_
    simp [socketPerror, cmd, OsOp.Safe]
  | recv conn data addr =>
    refine wpT_inUse ht hc fun sock => (safe_hasdata sock 0).bind fun rc => .ite trivial ?_
    refine Every.bind ?_ fun r => .ite ?_ (safe_recvDone sock data addr r)
    · cases data <;> exact ⟨trivial, fun _ => trivial⟩
    · simp [socketPerror, cmd, OsOp.Safe]

end Functions

/-! ## 3. The result -/

section Result

variable {t : Table}

theorem sound_init {a b : Int} (h : Eval tableSem socketImplInit ⟨[a, b], false⟩ () t) :
    t.Sound := by
  have hsafe : socketImplInit.Every OsOp.Safe := by
    simp [socketImplInit, cmd, OsOp.Safe, maxConnections]
  exact wpre_eval (Q := fun _ t' => t'.Sound) (Spec.demonic_sound _) (wpT_safe hsafe ⟨rfl, rfl⟩) h

/-- An admissible request keeps the table sound. -/
theorem needs_sound (ht : t.Sound) {a : Ask} (ha : a.Admissible t.sockets)
    (w : World (List ReadRes)) : a.Needs implemented Table.Sound t w := by
  have hcall : ∀ (c : SockCall) (r : c.Res) (t' : Table), c.Admissible t.sockets →
      implemented c t r t' → t'.Sound := fun c r t' hc he =>
    wpre_eval (Q := fun _ t' => t'.Sound) (Spec.demonic_sound _) (wpT_code ht hc) he
  cases a with
  | nothing => exact ht
  | call c => exact fun r t' he => hcall c r t' ha he
  | send conn addr =>
    refine wpre_mono (fun stream _ _ => ?_) (wpre_true (fun _ _ _ _ _ => trivial) _ w)
    split
    · exact ht
    · exact fun r t' he => hcall _ r t' (ha _) he

/-- At every moment of an admissible request the table is sound. -/
theorem wpFor_sound (ht : t.Sound) (packet before : List UInt8) (progress : Nat)
    (reads : List ReadRes) (ha : (asks (inBuffer packet before)).Admissible t.sockets) :
    wpFor implemented Table.Sound gbridgeProtMaLoop (fun _ v => v.2.Sound)
      (acknowledged packet before progress reads, t) :=
  wpFor_gbridgeProtMaLoop ht (fun _ h => h) rfl (needs_sound ht ha _)

theorem sound_requested (h : Requested (fun sockets a => a.Admissible sockets) t) : t.Sound := by
  induction h with
  | init he => exact sound_init he
  | request packet before progress reads _ _ ha he ih =>
    exact wpre_eval (Q := fun _ v => v.2.Sound) (Spec.guarded_sound _ _)
      (wpFor_sound ih packet before progress reads ha) he

/-- **The bridge gets through every sequence of requests that are admissible when they come**, on
every port and with any answers of the operating system: `state->sockets` is not accessed past its
end and no assertion of `socket_impl.c` fails.  A request is admissible if it names a slot of the
table, free for `socket_impl_open` and in use for the others, and types that `socket_impl_open`
knows. -/
theorem survives_admissible (t : Table)
    (ht : Requested (fun sockets a => a.Admissible sockets) t) (packet before : List UInt8)
    (progress : Nat) (reads : List ReadRes) (_ : packet.length ≤ maxDataSize)
    (ha : (asks (inBuffer packet before)).Admissible t.sockets) (p : Code Unit)
    (v : World (List ReadRes) × Table) (hreach : Reach (semFor implemented)
      (gbridgeProtMaLoop, (acknowledged packet before progress reads, t)) (p, v)) :
    v.2.fault = false := by
  have hsound := sound_requested ht
  exact (guarded_reach (wpFor_sound hsound packet before progress reads ha) hsound hreach).fault

/-- The table after `socket_impl_init`. -/
theorem requested_start (ok : List Int → Ask → Prop) : Requested ok ⟨[-1, -1], false⟩ :=
  .init (a := 0) (b := 0) ⟨(), _, .inl ⟨by decide, rfl⟩, (), _, .inl ⟨by decide, rfl⟩, rfl, rfl⟩

/-- To open a TCP socket for IPv4 in the first slot is admissible at the beginning. -/
theorem survives_open :
    ¬ ∃ p v, Reach (semFor implemented) (gbridgeProtMaLoop,
      (acknowledged [ProtMa.cmdOpen, 0, 0, 1, 0, 80] [] 0 [], ⟨[-1, -1], false⟩)) (p, v) ∧
      v.2.fault = true := by
  rintro ⟨p, v, hreach, hfault⟩
  have hsound := survives_admissible _ (requested_start _) [ProtMa.cmdOpen, 0, 0, 1, 0, 80] [] 0 []
    (by decide) ⟨by decide, rfl, .inl rfl, .inl rfl⟩ p v hreach
  exact absurd (hfault.symm.trans hsound) (by decide)

/-- **Not every request is gone through**: to close connection 255 reaches past the end of the
table. -/
theorem survives_fails : ¬ Survives fun _ _ => True := by
  intro h
  have hclose : wpre (Spec.angelic tableSem) true (socketImplClose 255)
      (fun _ t => t.fault = true) ⟨[-1, -1], false⟩ :=
    ⟨0, _, .inr ⟨by decide, rfl⟩, (), _, rfl, 0, _, .inr ⟨by decide, rfl⟩, 0, _, rfl,
      (), _, .inr ⟨by decide, rfl⟩, rfl⟩
  obtain ⟨r, t, heval, hfault⟩ := angelic_exists hclose
  obtain ⟨p, hcall⟩ := sock_reach implemented (c := .close 255)
    (w := acknowledged [ProtMa.cmdClose, 255] [] 0 []) heval
  obtain ⟨p', hreach⟩ := protMaLoop_reach (w := acknowledged [ProtMa.cmdClose, 255] [] 0 []) rfl
    (by decide) hcall
  have hsound :=
    h _ (requested_start _) [ProtMa.cmdClose, 255] [] 0 [] (by decide) trivial p' _ hreach
  exact absurd (hfault.symm.trans hsound) (by decide)

end Result

end GBridge.Bridge

/-
# Asking whether a connection is alive

Libmobile calls `mobile_impl_sock_recv` with a null buffer and no size to learn whether a connection
is alive.  `socket_impl_recv` knows what to do with a null pointer: it peeks.  But what goes over
the wire is the size alone, and `recv_cmd_sock_recv` calls `socket_impl_recv` with a buffer of its
own and size 0.

What the two reads return is computed on a socket that is known as far as `recvfrom` sees it
(`Sock`): the peek tells whether the connection is alive (`received_peek`), the read of no bytes
whether there is nothing to be read (`received_zero`). A read of no bytes from a stream returns 0,
which `socket_impl_recv` takes for the end of the stream; and it throws a datagram away.  So the
answer is right exactly while there is nothing to be read (`transparent_iff`).

That such a read returns 0 is what is assumed of the operating system here, also where an error is
waiting; a system that reports the error instead gives the right answer in that case.
-/
import GBridge.Pair

namespace GBridge

open Prog
open Atmega (Result)
open Bridge

/-! ## 1. Sockets -/

structure Datagram where
  data : List UInt8
  addr : SockAddr
  addrlen : Nat
deriving DecidableEq

/-- A socket, as `recvfrom` finds it. -/
inductive Sock where
  /-- The bytes that have come, whether the remote has closed its end, and an error to report. -/
  | stream (bytes : List UInt8) (ended : Bool) (error : Option Int)
  /-- The datagrams that have come, and an error to be reported. -/
  | dgram (queue : List Datagram) (error : Option Int)
deriving DecidableEq

namespace Sock

/-- `SO_TYPE` -/
def type : Sock → SockType
  | stream .. => .stream
  | dgram .. => .dgram

/-- `poll` for input finds something. -/
def readable : Sock → Bool
  | stream bytes ended error => !bytes.isEmpty || ended || error.isSome
  | dgram queue error => !queue.isEmpty || error.isSome

/-- What there is to be read. -/
def unread : Sock → List UInt8 × List Datagram
  | stream bytes _ _ => (bytes, [])
  | dgram queue _ => ([], queue)

/-- `recvfrom` on a socket that does not block: the answer, `errno` and the socket after.  A
datagram is taken as a whole, whatever there is room for.

A read of no bytes from a stream returns 0 and does nothing, also where an error is waiting.  This
is assumed of the operating system; there are some that report the error first. -/
def recvfrom (size : Nat) (peek : Bool) : Sock → RecvFrom × Int × Sock
  | stream bytes ended error =>
    if size = 0 then ({ len := 0 }, 0, stream bytes ended error)
    else if bytes ≠ [] then
      ({ len := min size bytes.length, data := bytes.take size }, 0,
        stream (if peek then bytes else bytes.drop size) ended error)
    else match error with
      | some e => ({ len := -1 }, e, stream bytes ended none)
      | none =>
        if ended then ({ len := 0 }, 0, stream bytes ended error)
        else ({ len := -1 }, ewouldblock, stream bytes ended error)
  | dgram queue (some e) => ({ len := -1 }, e, dgram queue none)
  | dgram [] none => ({ len := -1 }, ewouldblock, dgram [] none)
  | dgram (d :: queue) none =>
    (⟨min size d.data.length, d.data.take size, d.addr, d.addrlen⟩, 0,
      dgram (if peek then d :: queue else queue) none)

/-- **Nothing is there to be read**, and no error of a stream. -/
def Quiet : Sock → Prop
  | stream bytes _ error => bytes = [] ∧ error = none
  | dgram queue error => queue = [] ∨ error ≠ none

end Sock

/-- An entry of the table, its socket and `errno`. -/
structure Inbox where
  handle : Int
  sock : Sock
  errno : Int := 0
deriving DecidableEq

/-- What `socket_impl_recv` is answered; it polls for input only, and makes no other calls. -/
def Inbox.answer : (β : Type) → OsOp β → Inbox → Option (β × Inbox)
  | _, .slot _, w => some (w.handle, w)
  | _, .assert c, w => if c then some ((), w) else none
  | _, .poll _ _ _, w => some (if w.sock.readable then 1 else 0, w)
  | _, .recvfrom _ size peek, w =>
    let (r, errno, sock) := w.sock.recvfrom size peek
    some (r, { w with sock, errno })
  | _, .sockType _, w => some (some w.sock.type, w)
  | _, .geterror, w => some (w.errno, w)
  | _, .eprint _, w => some ((), w)
  | _, _, _ => none

def inbox : Sem OsOp Inbox := fun β e w b w' => w.answer β e = some (b, w')

/-- The program is computed; there are no loops in it. -/
def Inbox.runs {α : Type} (w : Inbox) (p : OsCode α) : Option (α × Inbox) :=
  run (fun β e w => w.answer β e) 0 p w

theorem runs_bind {α β : Type} {w : Inbox} {p : OsCode α} {f : α → OsCode β} :
    w.runs (p.bind f) = (w.runs p).bind fun r => r.2.runs (f r.1) := run_bind

/-- What a call of `socket_impl_recv` returns, and the inbox after. -/
def Inbox.received (w : Inbox) (conn : Nat) (data : Option Nat) (addr : Option MobileAddr) :
    Option (RecvRes × Inbox) :=
  w.runs (socketImplRecv conn data addr)

/-- There is one run, and it is the one that is computed. -/
theorem eval_received {w w₁ w' : Inbox} {conn : Nat} {data : Option Nat} {addr : Option MobileAddr}
    {r r₁ : RecvRes} (h : w.received conn data addr = some (r, w')) :
    Eval inbox (socketImplRecv conn data addr) w r₁ w₁ ↔ r₁ = r ∧ w₁ = w' := by
  have hrun : run (fun β e w => w.answer β e) 0 (socketImplRecv conn data addr) w =
      some (r, w') := h
  have hans : ∀ (β : Type) (e : OsOp β) (v : Inbox) (b : β) (v' : Inbox),
      v.answer β e = some (b, v') → inbox β e (id v) b (id v') := fun _ _ _ _ _ h => h
  have heval : Eval inbox (socketImplRecv conn data addr) w r w' := run_eval hans hrun
  constructor
  · intro h₁
    refine eval_unique (fun β e w b b' w₁ w₂ hs hs' => ?_) h₁ heval
    exact Prod.mk.inj (Option.some.inj (hs.symm.trans hs'))
  · rintro ⟨rfl, rfl⟩
    exact heval

/-! ## 2. What a probe returns -/

section Probe

variable {w : Inbox} {conn : Nat} {addr : Option MobileAddr}

/-- The result for a failed `recvfrom`. -/
def failed (e : Int) : Int := if e = ewouldblock then 0 else -1

/-- What a peek tells of the socket. -/
def Sock.alive : Sock → Int
  | .stream bytes ended error =>
    if bytes ≠ [] then 0 else match error with
      | some e => failed e
      | none => if ended then -2 else 0
  | .dgram _ error => match error with
    | some e => failed e
    | none => 0

/-- What a read of no bytes makes of it. -/
def Sock.drained : Sock → Int
  | .stream bytes ended error => if (Sock.stream bytes ended error).readable then -2 else 0
  | .dgram _ error => match error with
    | some e => failed e
    | none => 0

/-- `recvfrom`, as `socket_impl_recv` calls it. -/
def Sock.receive (sock : Sock) : Option Nat → RecvFrom × Int × Sock
  | some size => sock.recvfrom size false
  | none => sock.recvfrom 1 true

/-- What `socket_impl_recv` returns when it has received something. -/
def recvResult (type : SockType) (errno : Int) (data : Option Nat) (addr : Option MobileAddr)
    (r : RecvFrom) : RecvRes :=
  if r.len = -1 then .noAddr (failed errno) [] addr
  else if r.len = 0 ∧ type = .stream then .noAddr (-2) r.data addr
  else if data.isNone then .noAddr 0 [] addr
  else { res := r.len, data := r.data, addr := (storedAddr addr r).getD .none }

theorem runs_hasdata {sock : Int} {delay : Nat} :
    w.runs (socketHasdata sock delay) = some (if w.sock.readable then 1 else 0, w) := by
  cases hready : w.sock.readable <;>
    simp [socketHasdata, Inbox.runs, run, Inbox.answer, Prog.cmd, hready]

theorem runs_gone {sock len : Int} : w.runs (socketGone sock len) =
    some (if len = 0 ∧ w.sock.type = .stream then some (-2) else none, w) := by
  unfold socketGone
  by_cases hlen : len = 0
  · cases htype : w.sock.type <;> simp [Inbox.runs, run, Inbox.answer, Prog.cmd, htype, hlen]
  · simp [Inbox.runs, run, hlen]

/-- What `socket_impl_recv` does when it has called `recvfrom`. -/
theorem runs_recvfrom {sock : Int} {data : Option Nat} {r : RecvFrom} :
    w.runs (do
      if r.len = -1 then
        if (← .cmd .geterror) = ewouldblock then return .noAddr 0 [] addr
        else
          socketPerror "recv"
          return .noAddr (-1) [] addr
      else socketImplRecvDone sock data addr r) =
      some (recvResult w.sock.type w.errno data addr r, w) := by
  unfold recvResult
  by_cases hlen : r.len = -1
  · rw [if_pos hlen, if_pos hlen, failed]
    by_cases hblock : w.errno = ewouldblock <;>
      simp [Inbox.runs, run, Inbox.answer, Prog.cmd, socketPerror, hblock]
  · rw [if_neg hlen, if_neg hlen, socketImplRecvDone, bind_eq, runs_bind, runs_gone,
      Option.bind_some]
    by_cases hgone : r.len = 0 ∧ w.sock.type = .stream
    · rw [if_pos hgone, if_pos hgone]
      rfl
    · rw [if_neg hgone, if_neg hgone]
      cases data <;> rfl

theorem received_eq {data : Option Nat} (hopen : w.handle ≠ -1) :
    w.received conn data addr = some (if w.sock.readable then
      (recvResult (w.sock.receive data).2.2.type (w.sock.receive data).2.1 data addr
        (w.sock.receive data).1,
        { w with sock := (w.sock.receive data).2.2, errno := (w.sock.receive data).2.1 })
    else (.noAddr 0 [] addr, w)) := by
  have hassert : w.runs (osAssert (w.handle ≠ -1)) = some ((), w) := by
    simp [osAssert, Inbox.runs, run, Inbox.answer, Prog.cmd, hopen]
  show w.runs ((osAssert (w.handle ≠ -1)).bind fun _ => (socketHasdata w.handle 0).bind _) = _
  rw [runs_bind, hassert, Option.bind_some, runs_bind, runs_hasdata, Option.bind_some]
  cases hready : w.sock.readable with
  | false => rfl
  | true => cases data <;> exact runs_recvfrom

/-- A peek sees one byte of those that are there. -/
theorem min_one_succ (n : Nat) : min 1 ((n : Int) + 1) = 1 := by omega

attribute [local simp] Sock.readable Sock.receive Sock.recvfrom Sock.type Sock.alive Sock.drained
  Sock.unread Sock.Quiet recvResult RecvRes.noAddr min_one_succ

/-- **What a peek returns**: 0 as long as the connection is alive, -2 at the end of a stream and -1
for an error.  It leaves alone what there is to be read. -/
theorem received_peek (conn : Nat) (addr : Option MobileAddr) (hopen : w.handle ≠ -1) :
    ∃ r w', w.received conn none addr = some (r, w') ∧ r.res = w.sock.alive ∧
      w'.sock.unread = w.sock.unread := by
  have hneg : ∀ n : Nat, min 1 (n : Int) ≠ -1 := by omega
  rw [received_eq hopen]
  obtain ⟨handle, sock, errno⟩ := w
  cases sock with
  | stream bytes ended error =>
    rcases bytes with _ | ⟨b, bytes⟩ <;> rcases error with _ | e <;> cases ended <;> simp
  | dgram queue error =>
    rcases error with _ | e <;> rcases queue with _ | ⟨d, queue⟩ <;> simp [hneg]

/-- **What a read of no bytes returns**, and when it leaves alone what there is to be read. -/
theorem received_zero (conn : Nat) (addr : Option MobileAddr) (hopen : w.handle ≠ -1) :
    ∃ r w', w.received conn (some 0) addr = some (r, w') ∧ r.res = w.sock.drained ∧
      (w'.sock.unread = w.sock.unread ↔ w.sock.type = .dgram → w.sock.Quiet) := by
  rw [received_eq hopen]
  obtain ⟨handle, sock, errno⟩ := w
  cases sock with
  | stream bytes ended error =>
    rcases bytes with _ | ⟨b, bytes⟩ <;> rcases error with _ | e <;> cases ended <;> simp
  | dgram queue error =>
    rcases error with _ | e <;> rcases queue with _ | ⟨d, queue⟩ <;> simp

/-- The two agree exactly while there is nothing to be read. -/
theorem drained_eq_alive (s : Sock) :
    (s.drained = s.alive ∧ (s.type = .dgram → s.Quiet)) ↔ s.Quiet := by
  have hfailed : ∀ e, failed e ≠ -2 := by
    intro e
    unfold failed
    split <;> decide
  cases s with
  | stream bytes ended error =>
    rcases bytes with _ | ⟨b, bytes⟩ <;> rcases error with _ | e <;> cases ended <;>
      simp [Ne.symm (hfailed _)]
  | dgram queue error => rcases error with _ | e <;> simp

end Probe

/-! ## 3. The probe -/

/-- A probe made on the adapter, over a faultless link and with the socket like this, returns `res`
and leaves the socket like that. -/
def Probed (conn : Nat) (addr : Option MobileAddr) (w : Inbox) (res : Int) (w' : Inbox) : Prop :=
  ∃ (oracle : Oracle) (r : RecvRes),
    Eval inbox (socketImplRecv conn (some 0) (some .none)) w r w' ∧
    (∀ n, oracle n (.recv conn (some 0) (some .none)) = r) ∧
    ∃ a b rx fly k σ, Atmega.State.Ready a ∧ Bridge.State.Ready b ∧ rx ++ fly = surplus k ∧
      Runs oracle (start [.call (.recv conn [] 0 addr)] a b rx fly) σ ∧ σ.left.1 = .ret () ∧
      ∃ buffer addr', Sum.inl (Result.recv res buffer addr') ∈ σ.log

/-- The same question put to the bridge itself. -/
def Peeked (conn : Nat) (addr : Option MobileAddr) (w : Inbox) (res : Int) : Prop :=
  ∃ r w', Eval inbox (socketImplRecv conn none addr) w r w' ∧ r.res = res

/-- **A probe returns what the bridge would answer, and takes nothing away.** -/
def Transparent (conn : Nat) (addr : Option MobileAddr) (w : Inbox) : Prop :=
  (∃ res w', Probed conn addr w res w') ∧
    ∀ res w', Probed conn addr w res w' → Peeked conn addr w res ∧ w'.sock.unread = w.sock.unread

theorem recvfrom_honest (s : Sock) (size : Nat) (peek : Bool) {r : RecvFrom} {errno : Int}
    {s' : Sock} (h : s.recvfrom size peek = (r, errno, s')) :
    -1 ≤ r.len ∧ r.len ≤ size ∧ r.len ≤ r.data.length := by
  -- as much as there is room for
  have htaken : ∀ bytes : List UInt8, -1 ≤ min (size : Int) bytes.length ∧
      min (size : Int) bytes.length ≤ size ∧
      min (size : Int) bytes.length ≤ (bytes.take size).length := by
    intro bytes
    rw [List.length_take]
    omega
  have hfail : (-1 : Int) ≤ -1 ∧ (-1 : Int) ≤ size ∧ (-1 : Int) ≤ ([] : List UInt8).length :=
    ⟨Int.le_refl _, by omega, by decide⟩
  have hnone : (-1 : Int) ≤ 0 ∧ (0 : Int) ≤ size ∧ (0 : Int) ≤ ([] : List UInt8).length :=
    ⟨by decide, Int.natCast_nonneg _, by decide⟩
  unfold Sock.recvfrom at h
  split at h
  · split at h
    · cases h
      exact hnone
    split at h
    · cases h
      exact htaken _
    split at h
    · cases h
      exact hfail
    split at h
    · cases h
      exact hnone
    · cases h
      exact hfail
  · cases h
    exact hfail
  · cases h
    exact hfail
  · cases h
    exact htaken _

/-- The inbox keeps to what is documented of `recvfrom`. -/
theorem inbox_honest (β : Type) (e : OsOp β) (w : Inbox) (b : β) (w' : Inbox)
    (h : inbox β e w b w') : e.Honest b := by
  cases e with
  | recvfrom s size peek =>
    obtain ⟨rfl, -⟩ := Prod.mk.inj (Option.some.inj h)
    exact recvfrom_honest w.sock size peek rfl
  | sendto s data addr addrlen => cases h
  | _ => trivial

/-- `socket_impl_recv` always returns this. -/
def recvOracle (r : RecvRes) : Oracle
  | _, .recv _ _ _ => r
  | n, c => quietOracle n c

section Transparent

variable {w w' : Inbox} {conn : Nat} {addr : Option MobileAddr}

/-- What the bridge returns of a read of no bytes fits into the reply. -/
theorem probe_answered {oracle : Oracle} {r : RecvRes} (addr : Option MobileAddr)
    (hconn : conn < 256)
    (hr : Eval inbox (socketImplRecv conn (some 0) (some .none)) w r w')
    (horacle : ∀ n, oracle n (.recv conn (some 0) (some .none)) = r) :
    Answered oracle 0 (calls [.call (.recv conn [] 0 addr)]) := by
  refine ⟨⟨hconn, by decide, Nat.zero_le _⟩, ?_, trivial⟩
  intro s hs
  obtain rfl : SockCall.recv conn (some 0) (some .none) = s := Option.some.inj hs
  rw [horacle]
  have hcode : Eval inbox (SockCall.recv conn (some 0) (some .none)).code w r w' := hr
  have hproper : Proper (.recv conn (some 0) (some .none)) r :=
    proper_of_eval inbox_honest (fun _ _ _ h => nomatch h) hcode
  have hle : r.res ≤ (0 : Nat) := hproper.2.1
  exact ⟨hproper, Int.le_trans hle (by decide)⟩

/-- **The wire carries the size, and the bridge reads no bytes into a buffer of its own**: the
result of a probe is that of such a read. -/
theorem probed_iff (hconn : conn < 256) {res : Int} : Probed conn addr w res w' ↔
    ∃ r : RecvRes, Eval inbox (socketImplRecv conn (some 0) (some .none)) w r w' ∧ r.res = res := by
  constructor
  · rintro ⟨oracle, r, hr, horacle, a, b, rx, fly, k, σ, ha, hb, hk, hrun, hret, buffer, addr',
      hmem⟩
    have hcs := probe_answered addr hconn hr horacle
    rw [log_of_ret (runs_onScript (start_onScript hcs ha hb hk) hrun) hret] at hmem
    have hres : res = (oracle 0 (.recv conn (some 0) (some .none))).res := by
      rcases List.mem_cons.mp hmem with h | hmem
      · cases h
      · exact (Result.recv.inj (Sum.inl.inj (List.mem_singleton.mp hmem))).1
    rw [horacle] at hres
    exact ⟨r, hr, hres.symm⟩
  · rintro ⟨r, hr, rfl⟩
    have horacle : ∀ n, recvOracle r n (.recv conn (some 0) (some .none)) = r := fun _ => rfl
    have ha : Atmega.State.Ready { connected := true } := adapter_ready (g := {}) rfl
    have hb : Bridge.State.Ready { connected := true } := bridge_ready {}
    have hcs := probe_answered addr hconn hr horacle
    have hsurplus : ([] : List UInt8) ++ [] = surplus 0 := rfl
    obtain ⟨σ, hrun, hret, hlog, -⟩ := runs_end (start_onScript hcs ha hb hsurplus)
    refine ⟨recvOracle r, r, hr, horacle, _, _, [], [], 0, σ, ha, hb, rfl, hrun, hret, ?_⟩
    rw [hlog]
    exact ⟨_, _, List.mem_cons_of_mem _ List.mem_cons_self⟩

/-- A probe is transparent where a read of no bytes does what a peek does. -/
theorem transparent_drained (hconn : conn < 256) (hopen : w.handle ≠ -1) :
    Transparent conn addr w ↔
      w.sock.drained = w.sock.alive ∧ (w.sock.type = .dgram → w.sock.Quiet) := by
  obtain ⟨r, w₁, hzero, hres, hkept⟩ := received_zero conn (some .none) hopen
  obtain ⟨r', w₂, hpeek, hres', -⟩ := received_peek conn addr hopen
  have hprobed : ∀ res w', Probed conn addr w res w' ↔ res = w.sock.drained ∧ w' = w₁ := by
    intro res w'
    rw [probed_iff hconn, ← hres]
    constructor
    · rintro ⟨r'', hr'', rfl⟩
      obtain ⟨rfl, rfl⟩ := (eval_received hzero).mp hr''
      exact ⟨rfl, rfl⟩
    · rintro ⟨rfl, rfl⟩
      exact ⟨r, (eval_received hzero).mpr ⟨rfl, rfl⟩, rfl⟩
  have hpeeked : ∀ res, Peeked conn addr w res ↔ res = w.sock.alive := by
    intro res
    rw [← hres']
    constructor
    · rintro ⟨r'', w'', hr'', rfl⟩
      rw [((eval_received hpeek).mp hr'').1]
    · rintro rfl
      exact ⟨r', w₂, (eval_received hpeek).mpr ⟨rfl, rfl⟩, rfl⟩
  rw [← hkept]
  constructor
  · rintro ⟨-, htransparent⟩
    obtain ⟨h, hunread⟩ := htransparent _ _ ((hprobed _ _).mpr ⟨rfl, rfl⟩)
    exact ⟨(hpeeked _).mp h, hunread⟩
  · rintro ⟨hsame, hunread⟩
    refine ⟨⟨_, _, (hprobed _ _).mpr ⟨rfl, rfl⟩⟩, ?_⟩
    intro res w' h
    obtain ⟨rfl, rfl⟩ := (hprobed _ _).mp h
    exact ⟨(hpeeked _).mpr hsame, hunread⟩

/-- **A probe is transparent exactly while there is nothing to be read.**

On the adapter `mobile_impl_sock_recv` is called with a null buffer and no size; over the link the
bridge calls `socket_impl_recv` with a buffer and size 0.  The answer should be that of
`socket_impl_recv` with a null buffer, and the datagrams should be left where they are. -/
theorem transparent_iff (hconn : conn < 256) (hopen : w.handle ≠ -1) :
    Transparent conn addr w ↔ w.sock.Quiet :=
  (transparent_drained hconn hopen).trans (drained_eq_alive w.sock)

end Transparent

/-- An idle connection, with a null address, and one that the remote has closed. -/
theorem transparent_idle : Transparent 0 none { handle := 3, sock := .stream [] false none } ∧
    Transparent 1 (some .none) { handle := 4, sock := .stream [] true none } :=
  ⟨(transparent_iff (w := { handle := 3, sock := .stream [] false none }) (by decide)
    (by decide)).mpr ⟨rfl, rfl⟩,
    (transparent_iff (w := { handle := 4, sock := .stream [] true none }) (by decide)
      (by decide)).mpr ⟨rfl, rfl⟩⟩

/-- **A byte that waits makes a live connection look closed.** -/
theorem probe_wrong : ¬ ∀ (conn : Nat) (addr : Option MobileAddr) (w : Inbox), conn < 256 →
    w.handle ≠ -1 → Transparent conn addr w := by
  intro h
  have hbyte := h 0 none { handle := 3, sock := .stream [65] false none } (by decide) (by decide)
  obtain ⟨hres, -⟩ := (transparent_drained (by decide) (by decide)).mp hbyte
  exact absurd hres (by decide)

end GBridge

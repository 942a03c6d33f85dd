/-
# Who owns the socket handles

`socket_impl.c` keeps the handles of the open connections in `state->sockets`.  Here its
functions run on an operating system that is known only by what it says of handles: `socket`
and `accept` answer with a handle that is not open, or fail, `close` closes one, and every
other call answers what it likes.

`Owned` is what should hold whenever a function returns: the open handles are exactly those in
the table.  Inside a function a handle may be out of the table for a while, which is what the
list in `Held` is for; opening puts a handle there, closing takes it away, and filing it in the
table moves it over.

`socket_impl_accept` drops a handle when `socket_setblocking` fails on it.  So `HandlesKept`
fails as it stands (`handlesKept_fails`), and holds when no `fcntl` fails inside an accept
(`handles_kept`).
-/
import GBridge.Bridge.OsView

namespace GBridge.Bridge

open Prog

/-! ## 1. The operating system, as far as handles go -/

/-- The table, and the handles obtained and not closed yet. -/
structure OsWorld where
  /-- `state->sockets` -/
  sockets : List Int
  handles : List Int
  /-- A handle was closed that was not open. -/
  closedTwice : Bool
deriving DecidableEq

/-- A new handle differs from every handle still open. -/
def OsWorld.Opens (w : OsWorld) (sock : Int) (w' : OsWorld) : Prop :=
  (sock = -1 ∧ w' = w) ∨
    (sock ≠ -1 ∧ sock ∉ w.handles ∧ w' = { w with handles := sock :: w.handles })

/-- What the calls may answer; `fcntlFails` says whether `fcntl` may fail.  An access to the
table past its end and a failing assertion have no answer. -/
def osSem (fcntlFails : Bool) : Sem OsOp OsWorld := OsView.sem {
  sockets := OsWorld.sockets
  file := fun w sockets => { w with sockets }
  opens := OsWorld.Opens
  close := fun sock w w' =>
    w' = { w with
      handles := w.handles.erase sock
      closedTwice := w.closedTwice || !w.handles.contains sock }
  fcntlGetfl := fun _ w rc w' => (rc = -1 → fcntlFails = true) ∧ w' = w
  fcntlSetfl := fun _ _ w rc w' => (rc = -1 → fcntlFails = true) ∧ w' = w }

/-- The entries of the table that stand for a handle. -/
def live (sockets : List Int) : List Int := sockets.filter (· ≠ -1)

/-- **What should hold whenever a function returns**: the open handles are the entries of the
table, no handle stands there twice, and none was closed twice. -/
structure Owned (w : OsWorld) : Prop where
  same : w.handles.Perm (live w.sockets)
  distinct : (live w.sockets).Nodup
  once : w.closedTwice = false

/-- Did the call return `false` or a negative result? -/
def SockCall.failed : (c : SockCall) → c.Res → Bool
  | .open .., ok => !ok
  | .close _, _ => false
  | .connect .., rc => rc < 0
  | .listen _, ok => !ok
  | .accept _, ok => !ok
  | .send .., rc => rc < 0
  | .recv .., r => r.res < 0

/-- The states in which some sequence of calls after `socket_impl_init` can return;
`fcntlFails` says in which of them `fcntl` may fail. -/
inductive Served (fcntlFails : SockCall → Bool) : OsWorld → Prop
  | init {a b : Int} {w : OsWorld} :
    Eval (osSem true) socketImplInit ⟨[a, b], [], false⟩ () w → Served fcntlFails w
  | call {w w' : OsWorld} {c : SockCall} {r : c.Res} :
    Served fcntlFails w → Eval (osSem (fcntlFails c)) c.code w r w' → Served fcntlFails w'

/-- Handles are neither leaked nor closed twice, and a call that fails leaves the table alone. -/
def HandlesKept (fcntlFails : SockCall → Bool) : Prop :=
  (∀ w, Served fcntlFails w → Owned w) ∧
    ∀ (w w' : OsWorld) (c : SockCall) (r : c.Res), Served fcntlFails w →
      Eval (osSem (fcntlFails c)) c.code w r w' → c.failed r = true → w'.sockets = w.sockets

/-! ## 2. Handles on their way into the table and out of it -/

/-- The open handles are those of the table and those in `extra`. -/
structure Held (extra : List Int) (w : OsWorld) : Prop where
  same : w.handles.Perm (extra ++ live w.sockets)
  nodup : w.handles.Nodup
  once : w.closedTwice = false

theorem held_nil {w : OsWorld} : Held [] w ↔ Owned w :=
  ⟨fun h => ⟨h.same, h.same.nodup_iff.mp h.nodup, h.once⟩,
    fun h => ⟨h.same, h.same.nodup_iff.mpr h.distinct, h.once⟩⟩

theorem live_cons (x : Int) (s : List Int) : live (x :: s) = live [x] ++ live s := by
  rw [live, live, live, ← List.filter_append, List.singleton_append]

/-- Emptying a slot takes its handle out of the table, if it holds one. -/
theorem live_set_neg : ∀ {s : List Int} {i : Nat} {h : Int}, s[i]? = some h →
    (live s).Perm (live [h] ++ live (s.set i (-1)))
  | [], _, _, hs => by simp at hs
  | x :: s, 0, h, hs => by
    obtain rfl : x = h := by simpa using hs
    rw [live_cons]
    exact List.Perm.refl _
  | x :: s, i + 1, h, hs => by
    have ih : (live s).Perm (live [h] ++ live (s.set i (-1))) :=
      live_set_neg (by simpa using hs)
    have hcomm : (live [x] ++ live [h]).Perm (live [h] ++ live [x]) := List.perm_append_comm
    have hswap := hcomm.append_right (live (s.set i (-1)))
    rw [List.append_assoc, List.append_assoc] at hswap
    rw [List.set_cons_succ, live_cons x s, live_cons x (s.set i (-1))]
    exact (ih.append_left (live [x])).trans hswap

/-- Filling a slot puts the new handle into the table. -/
theorem live_set {s : List Int} {i : Nat} (hi : i < s.length) (h : Int) :
    (live (s.set i h)).Perm (live [h] ++ live (s.set i (-1))) := by
  have hslot : (s.set i h)[i]? = some h := by simp [hi]
  have hneg := live_set_neg hslot
  rwa [List.set_set] at hneg

theorem live_single {h : Int} (hne : h ≠ -1) : live [h] = [h] := by simp [live, hne]

/-- A handle is opened. -/
theorem Held.opens {extra : List Int} {w w' : OsWorld} {sock : Int} (hw : Held extra w)
    (h : w.Opens sock w') (hne : sock ≠ -1) :
    Held (sock :: extra) w' ∧ w'.sockets = w.sockets := by
  rcases h with ⟨h1, -⟩ | ⟨-, hnew, rfl⟩
  · exact absurd h1 hne
  · exact ⟨⟨hw.same.cons sock, List.nodup_cons.mpr ⟨hnew, hw.nodup⟩, hw.once⟩, rfl⟩

theorem OsWorld.Opens.eq_of_neg {w w' : OsWorld} {sock : Int} (h : w.Opens sock w')
    (hneg : sock = -1) : w' = w := by
  rcases h with ⟨-, h⟩ | ⟨hne, -⟩
  · exact h
  · exact absurd hneg hne

/-- A handle outside the table is closed. -/
theorem Held.close {extra : List Int} {w : OsWorld} {sock : Int} (hw : Held (sock :: extra) w) :
    Held extra { w with
      handles := w.handles.erase sock
      closedTwice := w.closedTwice || !w.handles.contains sock } := by
  have hmem : sock ∈ w.handles := hw.same.mem_iff.mpr (by simp)
  refine ⟨?_, hw.nodup.erase sock, by simp [hw.once, hmem]⟩
  simpa using hw.same.erase sock

/-- A handle outside the table is filed in an empty slot. -/
theorem Held.file {w : OsWorld} {conn : Nat} {sock : Int} (hw : Held [sock] w) (hne : sock ≠ -1)
    (hslot : w.sockets[conn]? = some (-1)) :
    Held [] { w with sockets := w.sockets.set conn sock } := by
  have hlt : conn < w.sockets.length := (List.getElem?_eq_some_iff.mp hslot).1
  refine ⟨hw.same.trans ?_, hw.nodup, hw.once⟩
  have hset := live_set hlt sock
  have hneg := live_set_neg hslot
  rw [live_single hne] at hset
  rw [show live [(-1 : Int)] = [] from rfl, List.nil_append] at hneg
  exact (hneg.append_left [sock]).trans hset.symm

/-- The handle in a slot is closed and the slot filled with what is at hand: a handle outside
the table, or nothing. -/
theorem Held.replace {w : OsWorld} {conn : Nat} {old sock : Int} (hw : Held (live [sock]) w)
    (hslot : w.sockets[conn]? = some old) (hne : old ≠ -1) :
    Held [] { w with
      sockets := w.sockets.set conn sock
      handles := w.handles.erase old
      closedTwice := w.closedTwice || !w.handles.contains old } := by
  have hlt : conn < w.sockets.length := (List.getElem?_eq_some_iff.mp hslot).1
  have hneg := live_set_neg hslot
  rw [live_single hne] at hneg
  have hsame : w.handles.Perm (old :: (live [sock] ++ live (w.sockets.set conn (-1)))) := by
    exact hw.same.trans ((hneg.append_left _).trans List.perm_middle)
  have hmem : old ∈ w.handles := hsame.mem_iff.mpr (by simp)
  refine ⟨?_, hw.nodup.erase old, by simp [hw.once, hmem]⟩
  have herase := hsame.erase old
  rw [List.erase_cons_head] at herase
  exact herase.trans (live_set hlt sock).symm


/-! ## 3. The functions -/

section Functions

variable {b : Bool} {w : OsWorld} {conn : Nat}

/-- The weakest precondition on this operating system. -/
abbrev wpOs (b : Bool) {α : Type} (p : OsCode α) (Q : α → OsWorld → Prop) (w : OsWorld) : Prop :=
  wpre (Spec.demonic (osSem b)) false p Q w

attribute [local simp] socketSetblocking socketImplSetup socketImplOpen socketImplClose
  socketImplAccept socketImplConnect socketImplListen socketImplSend socketImplRecv socketGone
  socketHasdata socketIsconnected socketPerror socketClose osAssert osSem OsView.sem

/-- `socket_setblocking` fails only if `fcntl` does. -/
theorem wpOs_setblocking {sock : Int} {flag : Bool} {Q : Int → OsWorld → Prop}
    (h : ∀ rc, (rc = -1 → b = true) → Q rc w) : wpOs b (socketSetblocking sock flag) Q w := by
  simp only [socketSetblocking, socketPerror, bind_eq, pure_eq, wpre_bind, wpre_cmd, wpre_ite,
    wpre_ret, Spec.demonic_pre, osSem, OsView.sem, and_imp, forall_eq_apply_imp_iff, forall_eq,
    forall_const]
  intro rc hrc
  split
  · exact h (-1) fun _ => hrc ‹_›
  · intro rc hrc
    split
    · exact h (-1) fun _ => hrc ‹_›
    · exact h 0 (by simp)

/-- Whatever fails on a new socket, it is closed. -/
theorem wpOs_setup {sock : Int} {type addrtype : UInt8} {bindport : Nat} (hw : Held [sock] w) :
    wpOs b (socketImplSetup sock type addrtype bindport)
      (fun ok w' => w'.sockets = w.sockets ∧ Held (if ok then [sock] else []) w') w := by
  simp only [socketImplSetup, socketPerror, socketClose, bind_eq, pure_eq, wpre_bind, wpre_cmd,
    wpre_ite, wpre_ret, Spec.demonic_pre, osSem, OsView.sem, forall_eq, forall_const, true_and]
  have hclose := hw.close
  intro rc
  split
  · exact hclose
  · split
    · intro rc
      split
      · exact hclose
      · intro rc
        split
        · exact hclose
        · exact hw
    · rw [if_neg (by decide)]
      intro rc
      split
      · exact hclose
      · exact hw

/-- What a function that may change the table guarantees. -/
def Kept (w : OsWorld) (failed : Bool) (w' : OsWorld) : Prop :=
  Owned w' ∧ (failed = true → w'.sockets = w.sockets)

theorem Kept.refl (hw : Owned w) (failed : Bool) : Kept w failed w := ⟨hw, fun _ => rfl⟩

theorem wpOs_open {type addrtype : UInt8} {bindport : Nat} (hw : Owned w) :
    wpOs b (socketImplOpen conn type addrtype bindport) (fun ok => Kept w (!ok)) w := by
  simp only [socketImplOpen, socketPerror, socketClose, osAssert, bind_eq, pure_eq, wpre_bind,
    wpre_cmd, wpre_ite, wpre_ret, Spec.demonic_pre, osSem, OsView.sem, and_imp, forall_eq,
    forall_const]
  rintro old _ hslot rfl _ hold rfl _ - rfl _ - rfl sock w₁ hopens
  obtain rfl : old = -1 := of_decide_eq_true hold
  split
  · rename_i hneg
    rw [hopens.eq_of_neg hneg]
    exact Kept.refl hw _
  · rename_i hne
    obtain ⟨hheld, hsockets⟩ := (held_nil.mpr hw).opens hopens hne
    apply wpOs_setblocking
    intro rc _
    split
    · exact ⟨held_nil.mp hheld.close, fun _ => hsockets⟩
    · refine wpre_mono ?_ (wpOs_setup hheld)
      rintro ok w₂ ⟨hsame, hheld₂⟩
      cases ok with
      | true =>
        rintro _ - rfl
        rw [hsockets] at hsame
        rw [← hsame] at hslot
        exact ⟨held_nil.mp (hheld₂.file hne hslot), by simp⟩
      | false => exact ⟨held_nil.mp hheld₂, fun _ => hsame.trans hsockets⟩

theorem wpOs_closeCall (hw : Owned w) :
    wpOs b (socketImplClose conn) (fun _ => Kept w false) w := by
  simp only [socketImplClose, socketClose, osAssert, bind_eq, wpre_bind, wpre_cmd,
    wpre_ret, Spec.demonic_pre, osSem, OsView.sem, and_imp, forall_eq, forall_const]
  rintro old _ hslot rfl _ hold rfl sock _ hslot' rfl _ - rfl
  obtain rfl : old = sock := Option.some.inj (hslot.symm.trans hslot')
  exact ⟨held_nil.mp (Held.replace (held_nil.mpr hw) hslot (of_decide_eq_true hold)), by simp⟩

/-- The handle of a new connection takes the place of the listening one, if `fcntl` does not
fail on it. -/
theorem wpOs_accept (hw : Owned w) :
    wpOs false (socketImplAccept conn) (fun ok => Kept w (!ok)) w := by
  simp only [socketImplAccept, socketHasdata, socketPerror, socketClose, osAssert, bind_eq, pure_eq,
    wpre_bind, wpre_cmd, wpre_ite, wpre_ret, Spec.demonic_pre, osSem, OsView.sem, and_imp,
    forall_eq, forall_const, ite_self]
  rintro old _ hslot rfl _ hold rfl rc
  split
  · exact Kept.refl hw _
  · intro sock w₁ hopens
    split
    · rename_i hneg
      rw [hopens.eq_of_neg hneg]
      exact Kept.refl hw _
    · rename_i hne
      obtain ⟨hheld, hsockets⟩ := (held_nil.mpr hw).opens hopens hne
      apply wpOs_setblocking
      intro rc hrc
      rw [if_neg fun h => absurd (hrc h) (by simp)]
      rintro _ - rfl
      rw [← hsockets] at hslot
      rw [← live_single hne] at hheld
      exact ⟨held_nil.mp (hheld.replace hslot (of_decide_eq_true hold)), by simp⟩

/-- The other calls do not touch the table, and close nothing. -/
theorem wpOs_connect {addr : Option MobileAddr} :
    wpOs b (socketImplConnect conn addr) (fun _ w' => w' = w) w := by
  simp only [socketImplConnect, socketIsconnected, socketPerror, osAssert, bind_eq, pure_eq,
    wpre_bind, wpre_cmd, wpre_ite, wpre_ret, Spec.demonic_pre, osSem, OsView.sem, and_imp,
    forall_eq, forall_const, ite_self]
  rintro _ _ - rfl _ - rfl
  rfl

theorem wpOs_listen : wpOs b (socketImplListen conn) (fun _ w' => w' = w) w := by
  simp only [socketImplListen, socketPerror, osAssert, bind_eq, pure_eq, wpre_bind, wpre_cmd,
    wpre_ite, wpre_ret, Spec.demonic_pre, osSem, OsView.sem, and_imp, forall_eq, forall_const,
    ite_self]
  rintro _ _ - rfl _ - rfl
  rfl

theorem wpOs_send {data : List UInt8} {addr : Option MobileAddr} :
    wpOs b (socketImplSend conn data addr) (fun _ w' => w' = w) w := by
  simp only [socketImplSend, socketPerror, osAssert, bind_eq, pure_eq, wpre_bind, wpre_cmd,
    wpre_ite, wpre_ret, Spec.demonic_pre, osSem, OsView.sem, and_imp, forall_eq, forall_const,
    ite_self]
  rintro _ _ - rfl _ - rfl
  rfl

theorem wpOs_gone {sock len : Int} : wpOs b (socketGone sock len) (fun _ w' => w' = w) w := by
  simp only [socketGone, socketPerror, bind_eq, pure_eq, wpre_bind, wpre_cmd, wpre_ite, wpre_ret,
    Spec.demonic_pre, osSem, OsView.sem, forall_eq]
  split
  · trivial
  · intro type
    rcases type with _ | _ | _
    · exact fun _ _ h => h
    · rfl
    · rfl

theorem wpOs_recvDone {sock : Int} {data : Option Nat} {addr : Option MobileAddr}
    {r : RecvFrom} : wpOs b (socketImplRecvDone sock data addr r) (fun _ w' => w' = w) w := by
  refine wpre_bind.mpr (wpre_mono ?_ wpOs_gone)
  rintro gone _ rfl
  cases gone with
  | some res => rfl
  | none => simp only [pure_eq, wpre_ite, wpre_ret, ite_self]

theorem wpOs_recv {data : Option Nat} {addr : Option MobileAddr} :
    wpOs b (socketImplRecv conn data addr) (fun _ w' => w' = w) w := by
  cases data with
  | none | some size =>
    simp only [socketImplRecv, socketHasdata, socketPerror, osAssert, bind_eq, pure_eq, wpre_bind,
      wpre_cmd, wpre_ite, wpre_ret, Spec.demonic_pre, osSem, OsView.sem, and_imp, forall_eq,
      forall_const, ite_self]
    rintro sock _ - rfl _ - rfl rc
    split
    · rfl
    · intro r
      split
      · rfl
      · exact wpOs_recvDone

end Functions

/-! ## 4. Every sequence of calls -/

/-- **Every call keeps the handles**, if no `fcntl` fails inside an accept. -/
theorem wpOs_code {b : Bool} {w : OsWorld} (hw : Owned w) (c : SockCall)
    (hc : ∀ conn, c = .accept conn → b = false) :
    wpOs b c.code (fun r => Kept w (c.failed r)) w := by
  have hframe : ∀ {α : Type} {p : OsCode α} {failed : α → Bool},
      wpOs b p (fun _ w' => w' = w) w → wpOs b p (fun r => Kept w (failed r)) w := by
    intro α p failed h
    refine wpre_mono ?_ h
    rintro r _ rfl
    exact Kept.refl hw _
  cases c with
  | «open» conn type addrtype bindport => exact wpOs_open hw
  | close conn => exact wpOs_closeCall hw
  | connect conn addr => exact hframe wpOs_connect
  | listen conn => exact hframe wpOs_listen
  | accept conn =>
    obtain rfl := hc conn rfl
    exact wpOs_accept hw
  | send conn data addr => exact hframe wpOs_send
  | recv conn data addr => exact hframe wpOs_recv

theorem owned_init {a b : Int} {w : OsWorld}
    (h : Eval (osSem true) socketImplInit ⟨[a, b], [], false⟩ () w) : Owned w := by
  obtain ⟨_, _, ⟨-, rfl⟩, _, _, ⟨-, rfl⟩, -, rfl⟩ := h
  exact ⟨List.Perm.refl _, List.nodup_nil, rfl⟩

/-- **Handles are neither leaked nor closed twice** in any sequence of calls, however they go, if no
`fcntl` fails inside an accept: whenever a call returns, the open handles are those in
`state->sockets`, each in one slot, and a call that fails leaves the table as it was. -/
theorem handles_kept (mayFail : SockCall → Bool)
    (haccept : ∀ conn, mayFail (.accept conn) = false) :
    HandlesKept mayFail := by
  have hstep : ∀ {w w' : OsWorld} {c : SockCall} {r : c.Res}, Owned w →
      Eval (osSem (mayFail c)) c.code w r w' → Kept w (c.failed r) w' := by
    intro w w' c r hw he
    refine wpre_eval (Q := fun r => Kept w (c.failed r)) (Spec.demonic_sound _)
      (wpOs_code hw c ?_) he
    rintro conn rfl
    exact haccept conn
  have howned : ∀ w, Served mayFail w → Owned w := by
    intro w h
    induction h with
    | init he => exact owned_init he
    | call _ he ih => exact (hstep ih he).1
  exact ⟨howned, fun w w' c r hs he => (hstep (howned w hs) he).2⟩

/-- In which calls `fcntl` may fail: all but the accepts. -/
def exceptAccept : SockCall → Bool
  | .accept _ => false
  | _ => true

theorem handles_kept_exceptAccept : HandlesKept exceptAccept :=
  handles_kept exceptAccept fun _ => rfl

/-! ## 5. The handle that is dropped -/

/-- **Not every sequence of calls keeps the handles.**  Slot 0 is opened with handle 3; an accept
on it gets handle 4, and the first `fcntl` on that fails.  The accept returns `false`, and 4 stays
open without an entry in the table. -/
theorem handlesKept_fails : ¬ HandlesKept fun _ => true := by
  intro h
  have hopen : wpre (Spec.angelic (osSem true)) true (socketImplOpen 0 socktypeTcp 1 0)
      (fun _ w => w = ⟨[3, -1], [3], false⟩) ⟨[-1, -1], [], false⟩ :=
    ⟨-1, _, ⟨rfl, rfl⟩, (), _, ⟨rfl, rfl⟩, (), _, ⟨rfl, rfl⟩, (), _, ⟨rfl, rfl⟩,
      3, _, .inr ⟨by decide, by decide, rfl⟩, 0, _, ⟨by decide, rfl⟩, 0, _, ⟨by decide, rfl⟩,
      0, _, rfl, 0, _, rfl, 0, _, rfl, (), _, ⟨by decide, rfl⟩, rfl⟩
  have haccept : wpre (Spec.angelic (osSem true)) true (socketImplAccept 0)
      (fun _ w => w = ⟨[3, -1], [4, 3], false⟩) ⟨[3, -1], [3], false⟩ := by
    refine ⟨3, _, ⟨rfl, rfl⟩, (), _, ⟨rfl, rfl⟩, 1, _, rfl,
      4, _, .inr ⟨by decide, by decide, rfl⟩, -1, _, ⟨fun _ => rfl, rfl⟩, ?_⟩
    exact (wpre_bind (p := socketPerror "fcntl")).mpr ⟨(), _, rfl, rfl⟩
  have hinit : Served (fun _ => true) ⟨[-1, -1], [], false⟩ :=
    .init (a := 0) (b := 0) ⟨(), _, ⟨by decide, rfl⟩, (), _, ⟨by decide, rfl⟩, rfl, rfl⟩
  obtain ⟨ok, _, heval, rfl⟩ := angelic_exists hopen
  have hserved := hinit.call (c := .open 0 socktypeTcp 1 0) heval
  obtain ⟨ok', _, heval', rfl⟩ := angelic_exists haccept
  have hsame := (h.1 _ (hserved.call (c := .accept 0) heval')).same
  exact absurd hsame.length_eq (by decide)

end GBridge.Bridge

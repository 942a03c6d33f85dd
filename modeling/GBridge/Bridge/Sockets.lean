/-
# What the bridge does to its sockets

`Handles` counts the handles.  Here the operating system also keeps the status flags of each open
handle (`kernel`), so that it can be said which calls may put the bridge to sleep: `connect`,
`accept`, `sendto` and `recvfrom` do on a handle without `O_NONBLOCK`.

Whatever the calls of `socket_impl_*` are and however the operating system answers them:

* a handle is only used while it is open, nothing that may block is done to a handle without
  `O_NONBLOCK`, and no `poll` waits for more than 100 milliseconds (`socket_calls_safe`).
  `socket_impl_open` and `socket_impl_accept` call `socket_setblocking` before they file a handle in
  the table;
* what is asked of one connection leaves the other one alone (`socket_calls_apart`);
* `socket_impl_stop` closes what is left, once (`stop_closes_all`).

The first two rest on one invariant of `state->sockets`, `Os.Sound`: every handle in it is open and
does not block, and none is in it twice.  Each call keeps it, one lemma for each function; inside a
call it may be broken at the slot of the connection (`Os.SoundBut`).  That a call keeps to its own
connection is part of what each lemma says (`Os.Apart`).  For the third the handles are counted as
in `Handles`.

The connection number is a slot of the table throughout, that is less than `MOBILE_MAX_CONNECTIONS`.
A call with another one comes to an access past the end of the table, and is not followed any
further.
-/
import GBridge.Bridge.Handles

namespace GBridge.Bridge

open Prog

/-! ## 1. The operating system, with the flags of each handle -/

/-- The table, and the status flags of each handle that is open. -/
structure Os where
  /-- `state->sockets` -/
  sockets : List Int
  flags : Int → Option Nat

namespace Os

/-- The flags of a handle are changed, or it is closed. -/
def put (w : Os) (sock : Int) (flags : Option Nat) : Os :=
  { w with flags := Function.update w.flags sock flags }

def IsOpen (w : Os) (sock : Int) : Prop := ∃ flags, w.flags sock = some flags

/-- `O_NONBLOCK` is set. -/
def Nonblocking (w : Os) (sock : Int) : Prop :=
  ∃ flags, w.flags sock = some flags ∧ flags &&& oNonblock = oNonblock

/-- A new handle differs from every handle that is open; its flags may be any. -/
def Opens (w : Os) (sock : Int) (w' : Os) : Prop :=
  (sock = -1 ∧ w' = w) ∨ (sock ≠ -1 ∧ w.flags sock = none ∧ ∃ flags, w' = w.put sock (some flags))

theorem Nonblocking.isOpen {w : Os} {sock : Int} (h : w.Nonblocking sock) : w.IsOpen sock := by
  obtain ⟨flags, hflags, -⟩ := h
  exact ⟨flags, hflags⟩

@[simp] theorem put_sockets (w : Os) (sock : Int) (flags : Option Nat) :
    (w.put sock flags).sockets = w.sockets := rfl

@[simp] theorem put_flags_self (w : Os) (sock : Int) (flags : Option Nat) :
    (w.put sock flags).flags sock = flags := Function.update_self ..

theorem put_flags_of_ne (w : Os) {sock other : Int} (flags : Option Nat) (h : other ≠ sock) :
    (w.put sock flags).flags other = w.flags other := Function.update_of_ne h ..

end Os

/-- What the calls may answer.  `fcntl` may fail; it reads the flags of an open handle and sets
them.  An access to the table past its end and a failing assertion have no answer. -/
def kernel : Sem OsOp Os := OsView.sem {
  sockets := Os.sockets
  file := fun w sockets => { w with sockets }
  opens := Os.Opens
  close := fun sock w w' => w' = w.put sock none
  fcntlGetfl := fun sock w rc w' =>
    (rc = -1 ∨ ∃ flags : Nat, w.flags sock = some flags ∧ rc = flags) ∧ w' = w
  fcntlSetfl := fun sock flags w rc w' =>
    (rc = -1 ∧ w' = w) ∨ (rc ≠ -1 ∧ w.IsOpen sock ∧ w' = w.put sock (some flags.toNat)) }

/-- The handle a call is about. -/
def OsOp.handle : {β : Type} → OsOp β → Option Int
  | _, .slot _ | _, .setSlot .. | _, .assert _ | _, .socket .. | _, .geterror | _, .seterror _
  | _, .eprint _ => none
  | _, .close sock | _, .fcntlGetfl sock | _, .fcntlSetfl sock _ | _, .setsockopt sock _
  | _, .bind sock _ | _, .connect sock _ _ | _, .listen sock _ | _, .accept sock
  | _, .poll sock _ _ | _, .sendto sock _ _ _ | _, .recvfrom sock _ _ | _, .sockError sock
  | _, .sockType sock => some sock

/-- The calls that sleep on a handle without `O_NONBLOCK`. -/
def OsOp.MayBlock : {β : Type} → OsOp β → Prop
  | _, .connect .. | _, .accept _ | _, .sendto .. | _, .recvfrom .. => True
  | _, _ => False

/-- How long `poll` may sleep, in milliseconds. -/
def OsOp.delay : {β : Type} → OsOp β → Nat
  | _, .poll _ _ delay => delay
  | _, _ => 0

/-- The connection a call is about. -/
def SockCall.conn : SockCall → Nat
  | .open conn .. | .close conn | .connect conn _ | .listen conn | .accept conn | .send conn ..
  | .recv conn .. => conn

/-- The states in which some sequence of calls after `socket_impl_init` can return. -/
inductive Serviced : Os → Prop
  | init {a b : Int} {flags : Int → Option Nat} {w : Os} :
    Eval kernel socketImplInit ⟨[a, b], flags⟩ () w → Serviced w
  | call {w w' : Os} {c : SockCall} {r : c.Res} :
    Serviced w → Eval kernel c.code w r w' → Serviced w'

/-! ## 2. What holds between the calls -/

/-- Every handle in the table is open and does not block, and none stands there twice. -/
structure Os.Sound (w : Os) : Prop where
  nonblocking : ∀ (i : Nat) (sock : Int), w.sockets[i]? = some sock → sock ≠ -1 →
    w.Nonblocking sock
  distinct : ∀ (i j : Nat) (sock : Int), w.sockets[i]? = some sock → w.sockets[j]? = some sock →
    sock ≠ -1 → i = j

/-- The same, but for one connection. -/
structure Os.SoundBut (conn : Nat) (w : Os) : Prop where
  nonblocking : ∀ (i : Nat) (sock : Int), i ≠ conn → w.sockets[i]? = some sock → sock ≠ -1 →
    w.Nonblocking sock
  distinct : ∀ (i j : Nat) (sock : Int), i ≠ conn → j ≠ conn → w.sockets[i]? = some sock →
    w.sockets[j]? = some sock → sock ≠ -1 → i = j

/-- The other connections are as they were. -/
structure Os.Apart (conn : Nat) (w w' : Os) : Prop where
  slot : ∀ i : Nat, i ≠ conn → w'.sockets[i]? = w.sockets[i]?
  flags : ∀ (i : Nat) (sock : Int), i ≠ conn → w.sockets[i]? = some sock → sock ≠ -1 →
    w'.flags sock = w.flags sock

/-- A handle that is open, and is not that of another connection. -/
structure Os.Own (conn : Nat) (w : Os) (sock : Int) : Prop where
  isOpen : w.IsOpen sock
  other : ∀ i : Nat, i ≠ conn → w.sockets[i]? ≠ some sock

/-- When each call may be made, on behalf of this connection. -/
structure OsOp.Harmless (conn : Nat) {β : Type} (e : OsOp β) (w : Os) : Prop where
  own : ∀ sock, e.handle = some sock → w.Own conn sock
  nonblocking : e.MayBlock → ∀ sock, e.handle = some sock → w.Nonblocking sock
  delay : e.delay ≤ 100

namespace Os

variable {conn : Nat} {w w' : Os} {sock : Int}

theorem Apart.refl (conn : Nat) (w : Os) : w.Apart conn w :=
  ⟨fun _ _ => rfl, fun _ _ _ _ _ => rfl⟩

/-- Only a handle has changed that is not that of another connection. -/
theorem Apart.put (h : w.Apart conn w') (hsock : ∀ i : Nat, i ≠ conn → w'.sockets[i]? ≠ some sock)
    (flags : Option Nat) : w.Apart conn (w'.put sock flags) := by
  refine ⟨h.slot, fun i other hi hother hne => ?_⟩
  have hdiff : other ≠ sock := by
    rintro rfl
    exact hsock i hi ((h.slot i hi).trans hother)
  rw [put_flags_of_ne _ _ hdiff]
  exact h.flags i other hi hother hne

/-- Only the slot of this connection has changed. -/
theorem Apart.set (h : w.Apart conn w') (sock : Int) :
    w.Apart conn { w' with sockets := w'.sockets.set conn sock } := by
  refine ⟨fun i hi => ?_, h.flags⟩
  rw [← h.slot i hi]
  exact List.getElem?_set_ne hi.symm

/-- The handle of a connection is its own. -/
theorem Sound.own (h : w.Sound) (hslot : w.sockets[conn]? = some sock) (hne : sock ≠ -1) :
    w.Own conn sock :=
  ⟨(h.nonblocking conn sock hslot hne).isOpen, fun i hi hother =>
    hi (h.distinct i conn sock hother hslot hne)⟩

theorem Sound.but (h : w.Sound) (conn : Nat) : w.SoundBut conn :=
  ⟨fun i sock _ => h.nonblocking i sock, fun i j sock _ _ => h.distinct i j sock⟩

/-- A new handle is not that of a connection. -/
theorem SoundBut.fresh (h : w.SoundBut conn) (hne : sock ≠ -1) (hnew : w.flags sock = none)
    (i : Nat) (hi : i ≠ conn) : w.sockets[i]? ≠ some sock := by
  intro hslot
  obtain ⟨flags, hflags⟩ := (h.nonblocking i sock hi hslot hne).isOpen
  exact absurd (hnew.symm.trans hflags) (by simp)

/-- Only a handle has changed that is not that of another connection. -/
theorem SoundBut.put (h : w.SoundBut conn) (hsock : ∀ i : Nat, i ≠ conn → w.sockets[i]? ≠ some sock)
    (flags : Option Nat) : (w.put sock flags).SoundBut conn := by
  refine ⟨fun i other hi hslot hne => ?_, h.distinct⟩
  have hdiff : other ≠ sock := by
    rintro rfl
    exact hsock i hi hslot
  obtain ⟨old, hold, hbit⟩ := h.nonblocking i other hi hslot hne
  exact ⟨old, (w.put_flags_of_ne _ hdiff).trans hold, hbit⟩

/-- The slot is filled, or emptied. -/
theorem SoundBut.file (h : w.SoundBut conn) (hsock : ∀ i : Nat, i ≠ conn →
    w.sockets[i]? = some sock → sock = -1) (hnon : sock ≠ -1 → w.Nonblocking sock) :
    Sound { w with sockets := w.sockets.set conn sock } := by
  have hother : ∀ {i : Nat} {other : Int}, i ≠ conn →
      (w.sockets.set conn sock)[i]? = some other → w.sockets[i]? = some other :=
    fun hi hslot => (List.getElem?_set_ne hi.symm).symm.trans hslot
  have hself : ∀ {other : Int}, (w.sockets.set conn sock)[conn]? = some other → other = sock := by
    intro other hslot
    rw [List.getElem?_set_self'] at hslot
    obtain ⟨_, -, hsame⟩ := Option.map_eq_some_iff.mp hslot
    exact hsame.symm
  constructor
  · intro i other hslot hne
    by_cases hi : i = conn
    · subst hi
      obtain rfl := hself hslot
      exact hnon hne
    · exact h.nonblocking i other hi (hother hi hslot) hne
  · intro i j other hslot hslot' hne
    by_cases hi : i = conn
    · by_cases hj : j = conn
      · exact hi.trans hj.symm
      · subst hi
        obtain rfl := hself hslot
        exact absurd (hsock j hj (hother hj hslot')) hne
    · by_cases hj : j = conn
      · subst hj
        obtain rfl := hself hslot'
        exact absurd (hsock i hi (hother hi hslot)) hne
      · exact h.distinct i j other hi hj (hother hi hslot) (hother hj hslot') hne

/-- A handle that is in no slot has changed. -/
theorem Sound.put (h : w.Sound) (hsock : ∀ i : Nat, w.sockets[i]? ≠ some sock)
    (flags : Option Nat) : (w.put sock flags).Sound := by
  refine ⟨fun i other hslot hne => ?_, h.distinct⟩
  have hdiff : other ≠ sock := by
    rintro rfl
    exact hsock i hslot
  obtain ⟨old, hold, hbit⟩ := h.nonblocking i other hslot hne
  exact ⟨old, (w.put_flags_of_ne _ hdiff).trans hold, hbit⟩

/-- An empty slot is no connection. -/
theorem SoundBut.sound (h : w.SoundBut conn) (hslot : w.sockets[conn]? = some (-1)) :
    w.Sound := by
  have hne : ∀ {i : Nat} {sock : Int}, w.sockets[i]? = some sock → sock ≠ -1 → i ≠ conn := by
    rintro i sock hi hsock rfl
    exact hsock (Option.some.inj (hi.symm.trans hslot))
  refine ⟨fun i sock hi hsock => h.nonblocking i sock (hne hi hsock) hi hsock, ?_⟩
  intro i j sock hi hj hsock
  exact h.distinct i j sock (hne hi hsock) (hne hj hsock) hi hj hsock

end Os

/-! ## 3. The functions -/

section Functions

variable {conn : Nat} {w₀ w : Os} {α β : Type} {Q : α → Os → Prop}

/-- What is watched while a call for this connection runs that has begun in `w₀`. -/
abbrev harmlessSpec (conn : Nat) (w₀ : Os) : Spec OsOp Os :=
  Spec.watched kernel (fun e w => e.Harmless conn w) fun w => w₀.Apart conn w

abbrev wpKernel (conn : Nat) (w₀ : Os) {α : Type} (p : OsCode α) (Q : α → Os → Prop) (w : Os) :
    Prop :=
  wpre (harmlessSpec conn w₀) false p Q w

/-- The call neither opens nor closes a handle, sets no flags and does not write to the table. -/
def OsOp.Quiet : {β : Type} → OsOp β → Prop
  | _, .setSlot .. | _, .socket .. | _, .accept _ | _, .close _ | _, .fcntlSetfl .. => False
  | _, _ => True

theorem OsOp.Quiet.same {e : OsOp β} (he : e.Quiet) {w' : Os} {b : β}
    (hs : kernel β e w b w') : w' = w := by
  cases e with
  | setSlot | socket | accept | close | fcntlSetfl => exact he.elim
  | slot | assert | fcntlGetfl => exact hs.2
  | _ => exact hs

/-- What may be done to this handle, and to no other. -/
structure OsOp.On (sock : Int) {β : Type} (e : OsOp β) : Prop where
  quiet : e.Quiet
  handle : ∀ other, e.handle = some other → other = sock
  delay : e.delay ≤ 100

theorem on_self {e : OsOp β} {sock : Int} (hq : e.Quiet) (h : e.handle = some sock)
    (hdelay : e.delay ≤ 100) : e.On sock :=
  ⟨hq, fun _ hother => Option.some.inj (hother.symm.trans h), hdelay⟩

theorem on_none {e : OsOp β} {sock : Int} (hq : e.Quiet) (h : e.handle = none)
    (hdelay : e.delay ≤ 100) : e.On sock :=
  ⟨hq, fun _ hother => absurd (hother.symm.trans h) (by simp), hdelay⟩

/-- The program uses this handle only, and changes nothing. -/
abbrev Uses (sock : Int) (p : OsCode α) : Prop := p.Every (OsOp.On sock)

/-- **What is done to the handle of a connection, and changes nothing.** -/
theorem wpKernel_on {p : OsCode α} {sock : Int} (hp : Uses sock p) (hown : w.Own conn sock)
    (hnon : w.Nonblocking sock) (hw : w₀.Apart conn w) :
    wpKernel conn w₀ p (fun _ w' => w' = w) w := by
  refine Every.keeps (I := fun w' => w' = w) ?_ hp w rfl
  rintro γ e _ he rfl
  refine ⟨⟨fun other h => ?_, fun _ other h => ?_, he.delay⟩, fun b w' hs => ?_⟩
  · rwa [he.handle other h]
  · rwa [he.handle other h]
  · rw [he.quiet.same hs]
    exact ⟨hw, rfl⟩

/-- A call that is about no handle and changes nothing. -/
theorem wpKernel_quiet {e : OsOp β} {k : β → OsCode α} (hw : w₀.Apart conn w) (he : e.Quiet)
    (hnone : e.handle = none) (hdelay : e.delay ≤ 100)
    (h : ∀ b, kernel β e w b w → wpKernel conn w₀ (k b) Q w) :
    wpKernel conn w₀ ((Prog.cmd e).bind k) Q w := by
  have hsafe : e.Harmless conn w := by
    refine ⟨fun sock hsock => ?_, fun _ sock hsock => ?_, hdelay⟩
    · rw [hnone] at hsock
      cases hsock
    · rw [hnone] at hsock
      cases hsock
  refine ⟨hsafe, fun b w' hs => ?_⟩
  obtain rfl := he.same hs
  exact ⟨hw, h b hs⟩

/-- A call on a handle of this connection that changes nothing, and does not block. -/
theorem wpKernel_look {e : OsOp β} {k : β → OsCode α} {sock : Int} (hw : w₀.Apart conn w)
    (hown : w.Own conn sock) (he : e.On sock) (hnon : ¬ e.MayBlock)
    (h : ∀ b, kernel β e w b w → wpKernel conn w₀ (k b) Q w) :
    wpKernel conn w₀ ((Prog.cmd e).bind k) Q w := by
  refine ⟨⟨fun other hother => ?_, fun hblock => absurd hblock hnon, he.delay⟩, fun b w' hs => ?_⟩
  · rwa [he.handle other hother]
  · obtain rfl := he.quiet.same hs
    exact ⟨hw, h b hs⟩

/-- The beginning of most functions: the handle of the connection, which has to be there. -/
theorem wpKernel_slot {k : Int → OsCode α} (hw : w₀.Apart conn w)
    (h : ∀ sock, w.sockets[conn]? = some sock → sock ≠ -1 → wpKernel conn w₀ (k sock) Q w) :
    wpKernel conn w₀ (do let sock ← .cmd (.slot conn); osAssert (sock ≠ -1); k sock) Q w := by
  refine wpKernel_quiet hw trivial rfl (Nat.zero_le _) fun sock hslot => ?_
  refine wpKernel_quiet hw trivial rfl (Nat.zero_le _) fun _ hne => ?_
  exact h sock hslot.1 (of_decide_eq_true hne.1)

theorem wpKernel_perror {s : String} {k : Unit → OsCode α} (hw : w₀.Apart conn w)
    (h : wpKernel conn w₀ (k ()) Q w) : wpKernel conn w₀ ((socketPerror s).bind k) Q w :=
  wpKernel_quiet hw trivial rfl (Nat.zero_le _) fun _ _ => h

/-- A handle of this connection is closed. -/
theorem wpKernel_socketClose {sock : Int} {k : Unit → OsCode α} (hw : w₀.Apart conn w)
    (hown : w.Own conn sock) (h : wpKernel conn w₀ (k ()) Q (w.put sock none)) :
    wpKernel conn w₀ ((socketClose sock).bind k) Q w := by
  refine wpre_bind.mpr ⟨⟨?_, fun hblock => hblock.elim, Nat.zero_le _⟩, ?_⟩
  · rintro _ ⟨⟩
    exact hown
  · rintro _ w' rfl
    exact ⟨hw.put hown.other none, h⟩

/-- Bits that have been set are set. -/
theorem and_of_or (m n : Nat) : (m ||| n) &&& n = n := by
  refine Nat.eq_of_testBit_eq fun i => ?_
  rw [Nat.testBit_and, Nat.testBit_or]
  cases n.testBit i <;> simp

/-- `socket_setblocking(sock, 0)`: it fails, or the handle does not block any more. -/
theorem wpKernel_setblocking {sock : Int} {k : Int → OsCode α} (hw : w₀.Apart conn w)
    (hown : w.Own conn sock) (hfail : wpKernel conn w₀ (k (-1)) Q w)
    (hok : ∀ flags, flags &&& oNonblock = oNonblock →
      wpKernel conn w₀ (k 0) Q (w.put sock (some flags))) :
    wpKernel conn w₀ ((socketSetblocking sock false).bind k) Q w := by
  have hon : OsOp.On sock (.fcntlGetfl sock) := on_self trivial rfl (Nat.zero_le _)
  refine wpre_bind.mpr (wpKernel_look hw hown hon id fun flags _ =>
    wpre_if (fun _ => ?_) fun _ => ?_)
  · exact wpKernel_perror hw hfail
  · refine ⟨⟨?_, fun hblock => hblock.elim, Nat.zero_le _⟩, ?_⟩
    · rintro _ ⟨⟩
      exact hown
    · rintro rc w' (⟨rfl, rfl⟩ | ⟨hrc, -, rfl⟩)
      · exact ⟨hw, wpKernel_perror hw hfail⟩
      · refine ⟨hw.put hown.other _, wpre_if (fun h => absurd h hrc) fun _ => ?_⟩
        exact hok _ (and_of_or _ oNonblock)

/-- The rest of the opening: on failure the new handle is closed. -/
theorem wpKernel_setup {sock : Int} {type addrtype : UInt8} {bindport : Nat} {k : Bool → OsCode α}
    (hw : w₀.Apart conn w) (hown : w.Own conn sock)
    (hfail : wpKernel conn w₀ (k false) Q (w.put sock none)) (hok : wpKernel conn w₀ (k true) Q w) :
    wpKernel conn w₀ ((socketImplSetup sock type addrtype bindport).bind k) Q w := by
  have hon : ∀ opt, OsOp.On sock (.setsockopt sock opt) := fun _ =>
    on_self trivial rfl (Nat.zero_le _)
  have hbind : ∀ addr, OsOp.On sock (.bind sock addr) := fun _ =>
    on_self trivial rfl (Nat.zero_le _)
  have hclose : ∀ s, wpKernel conn w₀ (do socketPerror s; socketClose sock; return false)
      (fun ok w' => wpKernel conn w₀ (k ok) Q w') w := fun s =>
    wpKernel_perror hw (wpKernel_socketClose hw hown hfail)
  have hlast : ∀ addr, wpKernel conn w₀ (do
      if (← .cmd (.bind sock addr)) = -1 then
        socketPerror "bind"
        socketClose sock
        return false
      else return true) (fun ok w' => wpKernel conn w₀ (k ok) Q w') w := fun addr =>
    wpKernel_look hw hown (hbind addr) id fun _ _ => wpre_if (fun _ => hclose _) fun _ => hok
  refine wpre_bind.mpr (wpKernel_look hw hown (hon _) id fun _ _ => wpre_if (fun _ => hclose _) ?_)
  refine fun _ => wpre_if (fun _ => ?_) fun _ => ?_
  · exact wpKernel_look hw hown (hon _) id fun _ _ => wpre_if (fun _ => hclose _) fun _ => hlast _
  · exact hlast _

theorem wpKernel_open {type addrtype : UInt8} {bindport : Nat} (hs : w.Sound) :
    wpKernel conn w (socketImplOpen conn type addrtype bindport) (fun _ w' => w'.Sound) w := by
  have hw := Os.Apart.refl conn w
  refine wpKernel_quiet hw trivial rfl (Nat.zero_le _) fun old hslot => ?_
  refine wpKernel_quiet hw trivial rfl (Nat.zero_le _) fun _ hold => ?_
  refine wpKernel_quiet hw trivial rfl (Nat.zero_le _) fun _ _ => ?_
  refine wpKernel_quiet hw trivial rfl (Nat.zero_le _) fun _ _ => ?_
  obtain rfl : old = -1 := of_decide_eq_true hold.1
  refine ⟨⟨fun _ h => (by cases h), fun h => h.elim, Nat.zero_le _⟩, ?_⟩
  rintro sock w₁ (⟨rfl, rfl⟩ | ⟨hne, hnew, flags, rfl⟩)
  · exact ⟨hw, wpKernel_perror hw hs⟩
  · have hfresh := (hs.but conn).fresh hne hnew
    have hw₁ : w.Apart conn (w.put sock (some flags)) := hw.put hfresh _
    have hown : (w.put sock (some flags)).Own conn sock := ⟨⟨flags, w.put_flags_self _ _⟩, hfresh⟩
    have hbut := (hs.but conn).put hfresh (some flags)
    refine ⟨hw₁, wpre_if (fun h => absurd h hne) fun _ => ?_⟩
    refine wpKernel_setblocking hw₁ hown ?_ fun flags' hbit => ?_
    · exact wpKernel_socketClose hw₁ hown ((hbut.put hfresh none).sound hslot.1)
    · have hnon : ((w.put sock (some flags)).put sock (some flags')).Nonblocking sock :=
        ⟨flags', Os.put_flags_self .., hbit⟩
      have hw₂ := hw₁.put hfresh (some flags')
      have hbut₂ := hbut.put hfresh (some flags')
      refine wpre_if (fun h => absurd h (by decide)) fun _ => ?_
      refine wpKernel_setup hw₂ ⟨hnon.isOpen, hfresh⟩ ?_ ?_
      · exact (hbut₂.put hfresh none).sound hslot.1
      · refine ⟨⟨fun _ h => (by cases h), fun h => h.elim, Nat.zero_le _⟩, ?_⟩
        rintro _ w₃ ⟨-, rfl⟩
        exact ⟨hw₂.set sock, hbut₂.file (fun i hi h => absurd h (hfresh i hi)) fun _ => hnon⟩

theorem uses_self {e : OsOp β} {sock : Int} (hq : e.Quiet) (h : e.handle = some sock)
    (hdelay : e.delay ≤ 100) : Uses sock (.cmd e) :=
  ⟨on_self hq h hdelay, fun _ => trivial⟩

theorem uses_none {e : OsOp β} {sock : Int} (hq : e.Quiet) (h : e.handle = none)
    (hdelay : e.delay ≤ 100) : Uses sock (.cmd e) :=
  ⟨on_none hq h hdelay, fun _ => trivial⟩

theorem uses_perror (sock : Int) (s : String) : Uses sock (socketPerror s) :=
  uses_none trivial rfl (Nat.zero_le _)

theorem uses_hasdata (sock : Int) : Uses sock (socketHasdata sock 0) :=
  .bind (uses_self trivial rfl (Nat.zero_le _)) fun _ =>
    .ite (.bind (uses_perror _ _) fun _ => trivial) trivial

theorem wpKernel_close (hs : w.Sound) :
    wpKernel conn w (socketImplClose conn) (fun _ w' => w'.Sound) w := by
  have hw := Os.Apart.refl conn w
  refine wpKernel_quiet hw trivial rfl (Nat.zero_le _) fun old hslot => ?_
  refine wpKernel_quiet hw trivial rfl (Nat.zero_le _) fun _ hold => ?_
  refine wpKernel_quiet hw trivial rfl (Nat.zero_le _) fun sock hslot' => ?_
  obtain rfl : old = sock := Option.some.inj (hslot.1.symm.trans hslot'.1)
  have hown := hs.own hslot.1 (of_decide_eq_true hold.1)
  refine wpKernel_socketClose hw hown
    ⟨⟨fun _ h => (by cases h), fun h => h.elim, Nat.zero_le _⟩, ?_⟩
  rintro _ w₁ ⟨-, rfl⟩
  refine ⟨(hw.put hown.other none).set _, ?_⟩
  exact ((hs.but conn).put hown.other none).file (fun _ _ _ => rfl) fun h => absurd rfl h

/-- The handle that listens is closed when the new one does not block. -/
theorem wpKernel_accept (hs : w.Sound) :
    wpKernel conn w (socketImplAccept conn) (fun _ w' => w'.Sound) w := by
  have hw := Os.Apart.refl conn w
  refine wpKernel_slot hw fun old hslot hold => ?_
  have hown := hs.own hslot hold
  have hnon := hs.nonblocking conn old hslot hold
  refine wpre_bind.mpr (wpre_mono ?_ (wpKernel_on (uses_hasdata old) hown hnon hw))
  intro rc w' hsame
  rw [hsame]
  refine wpre_if (fun _ => hs) fun _ => ?_
  refine ⟨⟨fun other h => ?_, fun _ other h => ?_, Nat.zero_le _⟩, ?_⟩
  · cases h
    exact hown
  · cases h
    exact hnon
  rintro sock w₁ (⟨rfl, rfl⟩ | ⟨hne, hnew, flags, rfl⟩)
  · exact ⟨hw, wpKernel_perror hw hs⟩
  have hbut := hs.but conn
  have hfresh := hbut.fresh hne hnew
  have hw₁ : w.Apart conn (w.put sock (some flags)) := hw.put hfresh _
  have hself : ∀ i : Nat, w.sockets[i]? ≠ some sock := by
    intro i hi
    obtain ⟨_, hflags⟩ := (hs.nonblocking i sock hi hne).isOpen
    rw [hnew] at hflags
    cases hflags
  refine ⟨hw₁, wpre_if (fun h => absurd h hne) fun _ => ?_⟩
  refine wpKernel_setblocking hw₁ ⟨⟨flags, w.put_flags_self _ _⟩, hfresh⟩ ?_ ?_
  · exact hs.put hself _
  intro flags' hbit
  have hnon₂ : ((w.put sock (some flags)).put sock (some flags')).Nonblocking sock :=
    ⟨flags', Os.put_flags_self .., hbit⟩
  have hw₂ := hw₁.put hfresh (some flags')
  have hdiff : old ≠ sock := by
    rintro rfl
    exact hself conn hslot
  have hold₂ : ((w.put sock (some flags)).put sock (some flags')).Own conn old := by
    obtain ⟨flags₀, hflags₀⟩ := hown.isOpen
    refine ⟨⟨flags₀, ?_⟩, hown.other⟩
    rw [Os.put_flags_of_ne _ _ hdiff, Os.put_flags_of_ne _ _ hdiff, hflags₀]
  refine wpre_if (fun h => absurd h (by decide)) fun _ => ?_
  refine wpKernel_socketClose hw₂ hold₂
    ⟨⟨fun _ h => (by cases h), fun h => h.elim, Nat.zero_le _⟩, ?_⟩
  rintro _ w₃ ⟨-, rfl⟩
  have hbut₃ := ((hbut.put hfresh (some flags)).put hfresh (some flags')).put hown.other none
  refine ⟨(hw₂.put hown.other none).set sock, hbut₃.file (fun i hi h => absurd h (hfresh i hi)) ?_⟩
  intro _
  exact ⟨flags', (Os.put_flags_of_ne _ _ hdiff.symm).trans (Os.put_flags_self ..), hbit⟩

/-! ### The calls that only use the handle of their connection -/

/-- After the slot is read, everything is done to its handle and leaves the world as it is. -/
theorem wpKernel_uses {k : Int → OsCode α} (hs : w.Sound)
    (hk : ∀ sock, Uses sock (k sock)) :
    wpKernel conn w (do let sock ← .cmd (.slot conn); osAssert (sock ≠ -1); k sock)
      (fun _ w' => w'.Sound) w := by
  have hw := Os.Apart.refl conn w
  refine wpKernel_slot hw fun sock hslot hne => ?_
  refine wpre_mono ?_ (wpKernel_on (hk sock) (hs.own hslot hne)
    (hs.nonblocking conn sock hslot hne) hw)
  intro _ w' hsame
  rwa [hsame]

theorem uses_isconnected (sock : Int) :
    Uses sock (socketIsconnected sock 100) := by
  have hrest : ∀ rc : Int, Uses sock (do
      if rc ≤ 0 then return rc
      else
        let err ← .cmd (.sockError sock)
        .cmd (.seterror err)
        if err ≠ 0 then return (-1 : Int) else return 1) := fun rc =>
    .ite trivial (.bind (uses_self trivial rfl (Nat.zero_le _)) fun _ =>
      .bind (uses_none trivial rfl (Nat.zero_le _)) fun _ => .ite trivial trivial)
  exact .bind (uses_self trivial rfl (Nat.le_refl _)) fun rc =>
    .ite (.bind (uses_perror _ _) fun _ => hrest rc) (hrest rc)

theorem wpKernel_connect {addr : Option MobileAddr} (hs : w.Sound) :
    wpKernel conn w (socketImplConnect conn addr) (fun _ w' => w'.Sound) w := by
  refine wpKernel_uses hs fun sock => ?_
  have hfail : ∀ err : Int, Uses sock (do
      .cmd (.seterror err)
      socketPerror "Could not connect"
      return (-1 : Int)) := fun err =>
    .bind (uses_none trivial rfl (Nat.zero_le _)) fun _ => .bind (uses_perror _ _) fun _ => trivial
  refine .bind (uses_self trivial rfl (Nat.zero_le _)) fun rc => .ite trivial ?_
  refine .bind (uses_none trivial rfl (Nat.zero_le _)) fun err => .ite ?_ (hfail err)
  refine .bind (uses_isconnected sock) fun rc => .ite trivial (.ite trivial ?_)
  exact .bind (uses_none trivial rfl (Nat.zero_le _)) fun err => hfail err

theorem wpKernel_listen (hs : w.Sound) :
    wpKernel conn w (socketImplListen conn) (fun _ w' => w'.Sound) w :=
  wpKernel_uses hs fun _ => .bind (uses_self trivial rfl (Nat.zero_le _)) fun _ =>
    .ite (.bind (uses_perror _ _) fun _ => trivial) trivial

theorem wpKernel_send {data : List UInt8} {addr : Option MobileAddr} (hs : w.Sound) :
    wpKernel conn w (socketImplSend conn data addr) (fun _ w' => w'.Sound) w :=
  wpKernel_uses hs fun _ => .bind (uses_self trivial rfl (Nat.zero_le _)) fun _ =>
    .ite (.bind (uses_none trivial rfl (Nat.zero_le _)) fun _ =>
      .ite trivial (.bind (uses_perror _ _) fun _ => trivial)) trivial

theorem uses_gone (sock len : Int) : Uses sock (socketGone sock len) := by
  refine .ite trivial (.bind (uses_self trivial rfl (Nat.zero_le _)) fun type => ?_)
  rcases type with _ | _ | _
  · exact .bind (uses_perror _ _) fun _ => trivial
  · trivial
  · trivial

theorem wpKernel_recv {data : Option Nat} {addr : Option MobileAddr} (hs : w.Sound) :
    wpKernel conn w (socketImplRecv conn data addr) (fun _ w' => w'.Sound) w := by
  refine wpKernel_uses hs fun sock => .bind (uses_hasdata sock) fun _ => .ite trivial ?_
  have hrest : ∀ r : RecvFrom, Uses sock (do
      if r.len = -1 then
        if (← .cmd .geterror) = ewouldblock then return .noAddr 0 [] addr
        else
          socketPerror "recv"
          return .noAddr (-1) [] addr
      else socketImplRecvDone sock data addr r) := by
    intro r
    refine .ite ?_ (.bind (uses_gone sock r.len) fun gone => ?_)
    · exact .bind (uses_none trivial rfl (Nat.zero_le _)) fun _ =>
        .ite trivial (.bind (uses_perror _ _) fun _ => trivial)
    · cases gone with
      | none => exact .ite trivial trivial
      | some res => trivial
  cases data with
  | none | some size => exact .bind (uses_self trivial rfl (Nat.zero_le _)) hrest

/-- **Every call is safe, and leaves the table sound.** -/
theorem wpKernel_code (hs : w.Sound) (c : SockCall) :
    wpKernel c.conn w c.code (fun _ w' => w'.Sound) w := by
  cases c with
  | «open» conn type addrtype bindport => exact wpKernel_open hs
  | close conn => exact wpKernel_close hs
  | connect conn addr => exact wpKernel_connect hs
  | listen conn => exact wpKernel_listen hs
  | accept conn => exact wpKernel_accept hs
  | send conn data addr => exact wpKernel_send hs
  | recv conn data addr => exact wpKernel_recv hs

end Functions

theorem Serviced.sound {w : Os} (h : Serviced w) : w.Sound := by
  induction h with
  | init he =>
    obtain ⟨_, _, ⟨-, rfl⟩, _, _, ⟨-, rfl⟩, -, rfl⟩ := he
    have hempty : ∀ {i : Nat} {sock : Int}, ([-1, -1] : List Int)[i]? = some sock → sock = -1 := by
      intro i sock hi
      have hmem := List.mem_of_getElem? hi
      simpa using hmem
    exact ⟨fun i sock hi hne => absurd (hempty hi) hne,
      fun i j sock hi _ hne => absurd (hempty hi) hne⟩
  | call _ he ih =>
    exact wpre_eval (Q := fun _ w' => Os.Sound w') (Spec.watched_sound _ _ _)
      (wpKernel_code ih _) he

/-! ## 4. In every state of every call -/

/-- **A handle is only used while it is open, and nothing puts the bridge to sleep.**  In every
state of every call, after any calls, whatever the operating system answers: the handle that is used
next is open, it does not block if the call might, and no `poll` waits for more than 100
milliseconds.

The connections are those below `MOBILE_MAX_CONNECTIONS`: a call with another one has no states
beyond its first access to `state->sockets` past the end. -/
theorem socket_calls_safe (w : Os) (h : Serviced w) (c : SockCall) (p : OsCode c.Res) (w' : Os)
    (hr : Reach kernel (c.code, w) (p, w')) (β : Type) (e : OsOp β) (k : β → OsCode c.Res)
    (hp : p = .op e k) : e.delay ≤ 100 ∧ ∀ sock, e.handle = some sock →
      w'.IsOpen sock ∧ (e.MayBlock → w'.Nonblocking sock) := by
  obtain ⟨hok, -, -⟩ := watched_reach (wpKernel_code h.sound c) (Os.Apart.refl _ _) hr
  have hsafe := hok β e k hp
  exact ⟨hsafe.delay, fun sock hsock => ⟨(hsafe.own sock hsock).isOpen,
    fun hblock => hsafe.nonblocking hblock sock hsock⟩⟩

/-- **What is asked of one connection leaves the other one alone.**  In every state of every call
the other slots hold what they held, their handles are open as they were and with the same flags,
and they are not used.  The connections are again those below `MOBILE_MAX_CONNECTIONS`. -/
theorem socket_calls_apart (w : Os) (h : Serviced w) (c : SockCall) (p : OsCode c.Res) (w' : Os)
    (hr : Reach kernel (c.code, w) (p, w')) (i : Nat) (hi : i ≠ c.conn) :
    w'.sockets[i]? = w.sockets[i]? ∧ ∀ sock, w.sockets[i]? = some sock → sock ≠ -1 →
      w'.flags sock = w.flags sock ∧ ∀ (β : Type) (e : OsOp β) (k : β → OsCode c.Res),
        p = .op e k → e.handle ≠ some sock := by
  obtain ⟨hok, -, hapart⟩ := watched_reach (wpKernel_code h.sound c) (Os.Apart.refl _ _) hr
  refine ⟨hapart.slot i hi, fun sock hsock hne => ⟨hapart.flags i sock hi hsock hne, ?_⟩⟩
  intro β e k hp hhandle
  exact ((hok β e k hp).own sock hhandle).other i hi ((hapart.slot i hi).trans hsock)

/-- A free slot can be opened with a handle that is not open yet. -/
theorem kernel_opens (w : Os) (conn : Nat) (sock : Int) (hslot : w.sockets[conn]? = some (-1))
    (hne : sock ≠ -1) (hnew : w.flags sock = none) :
    ∃ ok, Eval kernel (socketImplOpen conn socktypeTcp MobileAddr.typeIpv4 0) w ok
      { (w.put sock (some 0)).put sock (some oNonblock) with
        sockets := w.sockets.set conn sock } := by
  have hlt : conn < w.sockets.length := (List.getElem?_eq_some_iff.mp hslot).1
  have hopen : wpre (Spec.angelic kernel) true
      (socketImplOpen conn socktypeTcp MobileAddr.typeIpv4 0) (fun _ w' =>
        w' = { (w.put sock (some 0)).put sock (some oNonblock) with
          sockets := w.sockets.set conn sock }) w := by
    refine ⟨-1, _, ⟨hslot, rfl⟩, (), _, ⟨rfl, rfl⟩, (), _, ⟨rfl, rfl⟩, (), _, ⟨rfl, rfl⟩,
      sock, _, .inr ⟨hne, hnew, 0, rfl⟩, ?_⟩
    refine wpre_if (fun h => absurd h hne) fun _ => ?_
    refine ⟨0, _, ⟨.inr ⟨0, w.put_flags_self _ _, rfl⟩, rfl⟩, 0, _,
      .inr ⟨by decide, ⟨0, w.put_flags_self _ _⟩, rfl⟩, ?_⟩
    exact ⟨0, _, rfl, 0, _, rfl, 0, _, rfl, (), _, ⟨hlt, rfl⟩, rfl⟩
  obtain ⟨ok, w', heval, rfl⟩ := angelic_exists hopen
  exact ⟨ok, heval⟩

/-- Slot 0 holds handle 3 and slot 1 handle 4. -/
theorem serviced_two : ∃ w, Serviced w ∧ w.sockets = [3, 4] := by
  have hinit : Serviced ⟨[-1, -1], fun _ => none⟩ :=
    .init (a := 0) (b := 0) ⟨(), _, ⟨by decide, rfl⟩, (), _, ⟨by decide, rfl⟩, rfl, rfl⟩
  obtain ⟨ok, hfirst⟩ := kernel_opens ⟨[-1, -1], fun _ => none⟩ 0 3 rfl (by decide) rfl
  have hone := hinit.call (c := .open 0 socktypeTcp MobileAddr.typeIpv4 0) hfirst
  obtain ⟨ok', hsecond⟩ := kernel_opens {
    ((⟨[-1, -1], fun _ => none⟩ : Os).put 3 (some 0)).put 3 (some oNonblock) with
      sockets := [3, -1] } 1 4 rfl (by decide) rfl
  exact ⟨_, hone.call (c := .open 1 socktypeTcp MobileAddr.typeIpv4 0) hsecond, rfl⟩

/-- A connect on slot 0. -/
theorem socket_calls_safe_connect : ∃ w k, Serviced w ∧
    Reach kernel ((SockCall.connect 0 none).code, w) (.op (.connect 3 none 0) k, w) ∧
      w.Nonblocking 3 := by
  obtain ⟨w, hw, hsockets⟩ := serviced_two
  have hslot : w.sockets[0]? = some 3 := by rw [hsockets]; rfl
  have hr : Reach kernel ((SockCall.connect 0 none).code, w) (.op (.connect 3 none 0) _, w) :=
    .head (b := (_, w)) ⟨3, ⟨hslot, rfl⟩, rfl⟩ (.head ⟨(), ⟨rfl, rfl⟩, rfl⟩ .refl)
  exact ⟨w, _, hw, hr, ((socket_calls_safe w hw (.connect 0 none) _ w hr _ _ _ rfl).2 3 rfl).2
    trivial⟩

/-- Slot 1 is being closed. -/
theorem socket_calls_apart_close : ∃ w p w', Serviced w ∧
    Reach kernel ((SockCall.close 1).code, w) (p, w') ∧ w'.flags 4 = none ∧
      w'.sockets[0]? = some 3 ∧ w'.flags 3 = w.flags 3 := by
  obtain ⟨w, hw, hsockets⟩ := serviced_two
  have hslot : w.sockets[1]? = some 4 := by rw [hsockets]; rfl
  have hzero : w.sockets[0]? = some 3 := by rw [hsockets]; rfl
  have hr : Reach kernel ((SockCall.close 1).code, w) (_, w.put 4 none) :=
    .head (b := (_, w)) ⟨4, ⟨hslot, rfl⟩, rfl⟩ (.head (b := (_, w)) ⟨(), ⟨rfl, rfl⟩, rfl⟩
      (.head (b := (_, w)) ⟨4, ⟨hslot, rfl⟩, rfl⟩
        (.head (b := (_, w.put 4 none)) ⟨0, rfl, rfl⟩ .refl)))
  obtain ⟨hkept, hflags⟩ := socket_calls_apart w hw (.close 1) _ _ hr 0 (by decide)
  exact ⟨w, _, _, hw, hr, w.put_flags_self _ _, hkept.trans hzero,
    (hflags 3 hzero (by decide)).1⟩

/-! ## 5. `socket_impl_stop` -/

/-- `if (state->sockets[i] != -1) socket_close(state->sockets[i])` -/
def closeSlot (i : Nat) : OsCode Unit := do
  if (← .cmd (.slot i)) ≠ -1 then socketClose (← .cmd (.slot i))

/-- `socket_impl_stop`; the table is left as it is. -/
def socketImplStop : OsCode Unit := do
  closeSlot 0
  closeSlot 1

section Stop

variable {b : Bool} {w : OsWorld}

/-- The handle of a slot is closed, if there is one. -/
theorem closeSlot_sure {i : Nat} {sock : Int} {rest : List Int} {Q : Unit → OsWorld → Prop}
    (hslot : w.sockets[i]? = some sock) (hheld : w.handles.Perm (Bridge.live [sock] ++ rest))
    (honce : w.closedTwice = false)
    (h : ∀ w', w'.sockets = w.sockets → w'.handles.Perm rest → w'.closedTwice = false → Q () w') :
    wpre (Spec.sure (osSem b)) true (closeSlot i) Q w := by
  refine ⟨⟨sock, w, hslot, rfl⟩, ?_⟩
  rintro sock' w₁ ⟨hsame, hw₁⟩
  obtain rfl : sock = sock' := Option.some.inj (hslot.symm.trans hsame)
  rw [hw₁]
  refine wpre_if (fun hne => ?_) fun hempty => ?_
  · refine ⟨⟨sock, w, hslot, rfl⟩, ?_⟩
    rintro sock' w₂ ⟨hsame, hw₂⟩
    obtain rfl : sock = sock' := Option.some.inj (hslot.symm.trans hsame)
    rw [hw₂]
    rw [live_single hne] at hheld
    have hmem : sock ∈ w.handles := hheld.mem_iff.mpr (by simp)
    refine ⟨⟨0, _, rfl⟩, ?_⟩
    rintro _ _ rfl
    refine h _ rfl ?_ (by simp [honce, hmem])
    simpa using hheld.erase sock
  · obtain rfl : sock = -1 := not_not.mp hempty
    exact h w rfl hheld honce

theorem Served.owned {mayFail : SockCall → Bool}
    (haccept : ∀ conn, mayFail (.accept conn) = false) (h : Served mayFail w) : Owned w := by
  induction h with
  | init he => exact owned_init he
  | @call w w' c r _ he ih =>
    have hcode : wpOs (mayFail c) c.code (fun r => Kept w (c.failed r)) w := by
      refine wpOs_code ih c ?_
      rintro conn rfl
      exact haccept conn
    exact (wpre_eval (Q := fun r => Kept w (c.failed r)) (Spec.demonic_sound _) hcode he).1

/-- No call changes how many slots there are. -/
theorem Served.slots {mayFail : SockCall → Bool} (h : Served mayFail w) :
    ∃ x y, w.sockets = [x, y] := by
  suffices hlength : w.sockets.length = 2 from List.length_eq_two.mp hlength
  have hop : ∀ {β : Type} (e : OsOp β) (b : Bool) (w w' : OsWorld) (r : β),
      osSem b β e w r w' → w'.sockets.length = w.sockets.length := by
    intro β e b w w' r hs
    cases e with
    | setSlot conn sock =>
      obtain ⟨-, rfl⟩ := hs
      exact List.length_set
    | socket | accept =>
      rcases hs with ⟨-, rfl⟩ | ⟨-, -, rfl⟩
      · rfl
      · rfl
    | slot | assert | fcntlGetfl | fcntlSetfl => rw [hs.2]
    | _ => rw [show w' = _ from hs]
  induction h with
  | init he =>
    obtain ⟨_, _, ⟨-, rfl⟩, _, _, ⟨-, rfl⟩, -, rfl⟩ := he
    rfl
  | @call w w' c r _ he ih =>
    have hkeeps : Keeps (Spec.demonic (osSem (mayFail c))) (fun w' => w'.sockets.length = 2)
        c.code :=
      Every.keeps (P := fun _ => True) (fun e w _ hw r w' hs => (hop e _ w w' r hs).trans hw)
        (every_of_forall (fun _ => trivial) _)
    exact wpre_eval (Q := fun _ w' => w'.sockets.length = 2) (Spec.demonic_sound _) (hkeeps w ih) he

end Stop

/-- **From `socket_impl_init` to `socket_impl_stop` every handle that is obtained is closed, and
only once**, whatever the calls in between are and however they go, if no `fcntl` fails inside an
accept.  The calls in between are on connections below `MOBILE_MAX_CONNECTIONS`, since none with
another one returns. -/
theorem stop_closes_all (mayFail : SockCall → Bool)
    (haccept : ∀ conn, mayFail (.accept conn) = false) (b : Bool) (w : OsWorld)
    (h : Served mayFail w) :
    Ends (osSem b) socketImplStop w fun _ w' => w'.handles = [] ∧ w'.closedTwice = false := by
  obtain ⟨x, y, hslots⟩ := h.slots
  have howned := h.owned haccept
  have hheld : w.handles.Perm (live [x] ++ live [y]) := by
    have hsame := howned.same
    rwa [hslots, live_cons] at hsame
  have hx : w.sockets[0]? = some x := by rw [hslots]; rfl
  have hy : w.sockets[1]? = some y := by rw [hslots]; rfl
  rw [← List.append_nil (live [y])] at hheld
  refine sure_ends (wpre_bind.mpr (closeSlot_sure hx hheld howned.once ?_))
  intro w₁ hsockets₁ hheld₁ honce₁
  refine closeSlot_sure (hsockets₁ ▸ hy) hheld₁ honce₁ ?_
  intro w₂ _ hheld₂ honce₂
  exact ⟨hheld₂.eq_nil, honce₂⟩

/-- One connection has been opened. -/
theorem stop_closes_all_one : ∃ w, Served exceptAccept w ∧ w.handles = [3] ∧
    Ends (osSem true) socketImplStop w fun _ w' => w'.handles = [] ∧ w'.closedTwice = false := by
  have hinit : Served exceptAccept ⟨[-1, -1], [], false⟩ :=
    .init (a := 0) (b := 0) ⟨(), _, ⟨by decide, rfl⟩, (), _, ⟨by decide, rfl⟩, rfl, rfl⟩
  have hopen : wpre (Spec.angelic (osSem true)) true (socketImplOpen 0 socktypeTcp 1 0)
      (fun _ w => w = ⟨[3, -1], [3], false⟩) ⟨[-1, -1], [], false⟩ :=
    ⟨-1, _, ⟨rfl, rfl⟩, (), _, ⟨rfl, rfl⟩, (), _, ⟨rfl, rfl⟩, (), _, ⟨rfl, rfl⟩,
      3, _, .inr ⟨by decide, by decide, rfl⟩, 0, _, ⟨by decide, rfl⟩, 0, _, ⟨by decide, rfl⟩,
      0, _, rfl, 0, _, rfl, 0, _, rfl, (), _, ⟨by decide, rfl⟩, rfl⟩
  obtain ⟨ok, _, heval, rfl⟩ := angelic_exists hopen
  have hserved := hinit.call (c := .open 0 socktypeTcp 1 0) heval
  exact ⟨_, hserved, rfl, stop_closes_all exceptAccept (fun _ => rfl) true _ hserved⟩

end GBridge.Bridge

/-
# The bridge as one program

In `Semantics` a call of `socket_impl_*` is one step that answers what it likes.  Here the code of
`socket_impl.c` and `socket.c` is put in its place, down to the calls of the operating system
(`wholeOp`), and `main` becomes one program over the port and the kernel (`wholeMain`).

Every run of it is a run of `main` as before, with one call of `socket_impl.c` perhaps under way,
and the tables that the calls work on are those of `Sockets` (`whole_reach`).  For this the results
of the calls have to be such as `main` may rely on; what `recvfrom` returns is taken for granted,
and that `socket_impl_recv` passes it on is shown (`allows_code`).  So what holds of `main` holds of
the whole, and so does what holds of the calls:

* `bridge_refines`: the refinement;
* `bridge_safe`: whole messages on the port, sockets used only in between, and no handle used that
  is closed or would put the bridge to sleep.

The connection number of a request is not looked at before the table is accessed with it.  What
comes of an access past its end is undefined: `wholeSem` does not go on after one, and `strayingSem`
goes on with anything, so that `bridge_safe` can say up to where it holds.
-/
import GBridge.Lib.Expand
import GBridge.Bridge.Sockets
import GBridge.Bridge.Transmit

namespace GBridge.Bridge

open Prog

variable {σ : Type}

/-! ## 1. The program -/

/-- What the whole program asks of its surroundings. -/
inductive WholeOp (β : Type) : Type where
  /-- Of the variables and the port. -/
  | link (e : Op β)
  /-- Of the operating system, and of the table of the sockets. -/
  | os (e : OsOp β)

/-- Code of the whole bridge. -/
abbrev WholeCode := Prog WholeOp

/-- The code of `socket_impl.c`, as a part of the whole. -/
abbrev wholeSocket {α : Type} (p : OsCode α) : WholeCode α := expand (fun e => .cmd (.os e)) p

/-- What stands for an operation: a call of `socket_impl_*` is its code. -/
def wholeOp : {β : Type} → Op β → WholeCode β
  | _, .sock c => wholeSocket c.code
  | _, .get => .cmd (.link .get)
  | _, .set g => .cmd (.link (.set g))
  | _, .read count ms => .cmd (.link (.read count ms))
  | _, .store dst bs => .cmd (.link (.store dst bs))
  | _, .write bs => .cmd (.link (.write bs))
  | _, .eprint s => .cmd (.link (.eprint s))
  | _, .ewrite bs => .cmd (.link (.ewrite bs))

/-- `main`, once the port is open and the sockets are initialised. -/
def wholeMain : WholeCode Unit := expand wholeOp main

/-- What is relied on of `recvfrom`: it returns no more bytes than it was asked for, and no more
than it has stored. -/
def OsOp.Fits : {β : Type} → OsOp β → β → Prop
  | _, .recvfrom _ size _, r => r.len ≤ size ∧ r.len ≤ r.data.length
  | _, _, _ => True

/-- The operating system. -/
def fittingKernel : Sem OsOp Os := fun β e w b w' => kernel β e w b w' ∧ e.Fits b

/-- The port and the operating system.  An access to the table past its end has no answer, as in
`kernel`: a run is not followed beyond it. -/
def wholeSem (port : Port σ) : Sem WholeOp (World σ × Os)
  | _, .link e, v, b, v' => sem port _ e v.1 b v'.1 ∧ v'.2 = v.2
  | _, .os e, v, b, v' => fittingKernel _ e v.2 b v'.2 ∧ v'.1 = v.1

/-- The table is accessed past its end. -/
def WholeOp.Stray : {β : Type} → WholeOp β → Prop
  | _, .os (.slot conn) => maxConnections ≤ conn
  | _, .os (.setSlot conn _) => maxConnections ≤ conn
  | _, _ => False

/-- The same, when such an access is let through: it answers anything, nothing is known of the
memory after it, and it is noted that there has been one. -/
def strayingSem (port : Port σ) : Sem WholeOp ((World σ × Os) × Bool) :=
  Sem.marked (wholeSem port) WholeOp.Stray

/-- After `socket_impl_init`; nothing has been done with the port. -/
structure Started (v : World σ × Os) : Prop where
  port : ∃ s, v.1 = .start s
  sockets : ∃ (a b : Int) (flags : Int → Option Nat),
    Eval kernel socketImplInit ⟨[a, b], flags⟩ () v.2

/-! ## 2. A call of `socket_impl.c` -/

section Call

variable {α β : Type} {w : Os}

/-- What the operating system answers is of no account. -/
theorem wpFits_any {p : OsCode β} {f : β → OsCode α} {Q : α → Os → Prop}
    (h : ∀ b w', wpre (Spec.demonic fittingKernel) false (f b) Q w') :
    wpre (Spec.demonic fittingKernel) false (p.bind f) Q w :=
  wpre_seq (fun _ _ => True) (wpre_true (fun _ _ _ _ _ => trivial) p w) fun b w' _ => h b w'

/-- What `recvfrom` answers fits. -/
theorem wpFits_recvfrom {sock : Int} {size : Nat} {peek : Bool} {f : RecvFrom → OsCode α}
    {Q : α → Os → Prop} (h : ∀ (r : RecvFrom) (w' : Os), r.len ≤ (size : Int) →
      r.len ≤ (r.data.length : Int) → wpre (Spec.demonic fittingKernel) false (f r) Q w') :
    wpre (Spec.demonic fittingKernel) false ((Prog.cmd (.recvfrom sock size peek)).bind f) Q w :=
  fun r w' hs => h r w' hs.2.1 hs.2.2

/-- What is returned when the remote has gone is an error. -/
theorem wpFits_gone (sock len : Int) :
    wpre (Spec.demonic fittingKernel) false (socketGone sock len)
      (fun gone _ => ∀ res, gone = some res → res ≤ 0) w := by
  refine wpre_if (fun _ res hres => by cases hres) fun _ => wpFits_any fun type _ => ?_
  cases type with
  | none =>
    refine wpFits_any fun _ _ res hres => ?_
    cases hres
    decide
  | some type =>
    cases type with
    | stream =>
      intro res hres
      cases hres
      decide
    | dgram =>
      intro res hres
      cases hres

/-- `socket_impl_recv` returns no more bytes than it was asked for, and no more than it has
stored. -/
theorem wpFits_recv (conn size : Nat) (addr : Option MobileAddr) :
    wpre (Spec.demonic fittingKernel) false (socketImplRecv conn (some size) addr)
      (fun r _ => r.res ≤ (size : Int) ∧ r.res ≤ (r.data.length : Int)) w := by
  have hzero : ∀ res : Int, res ≤ 0 → ∀ n : Nat, res ≤ (n : Int) := fun res hres n =>
    le_trans hres (Int.natCast_nonneg n)
  refine wpFits_any fun sock _ => wpFits_any fun _ _ => wpFits_any fun rc _ => ?_
  refine wpre_if (fun _ => ⟨hzero 0 (le_refl _) _, hzero 0 (le_refl _) _⟩) fun _ => ?_
  refine wpFits_recvfrom fun r _ hsize hdata => ?_
  refine wpre_if (fun _ => wpFits_any fun err _ => ?_) fun _ => ?_
  · refine wpre_if (fun _ => ⟨hzero 0 (le_refl _) _, hzero 0 (le_refl _) _⟩) fun _ => ?_
    exact wpFits_any fun _ _ => ⟨hzero (-1) (by decide) _, hzero (-1) (by decide) _⟩
  · refine wpre_seq _ (wpFits_gone sock r.len) fun gone _ hgone => ?_
    cases gone with
    | some res => exact ⟨hzero res (hgone res rfl) _, hzero res (hgone res rfl) _⟩
    | none => exact ⟨hsize, hdata⟩

/-- **What is taken for granted of the results of `socket_impl.c` is so.** -/
theorem allows_code {c : SockCall} {r : c.Res} {w' : Os}
    (h : Eval fittingKernel c.code w r w') : c.Allows r := by
  cases c with
  | recv conn data addr =>
    cases data with
    | none => trivial
    | some size =>
      exact wpre_eval (Q := fun (r : RecvRes) _ => r.res ≤ (size : Int) ∧
        r.res ≤ (r.data.length : Int)) (Spec.demonic_sound _) (wpFits_recv conn size addr) h
  | _ => trivial

/-- A run of the kernel that fits is a run of the kernel. -/
theorem kernel_reach {p p' : OsCode α} {w' : Os} (h : Reach fittingKernel (p, w) (p', w')) :
    Reach kernel (p, w) (p', w') :=
  reach_view (f := id) (fun _ _ _ _ _ hs => hs.1) h

end Call

/-! ## 3. Runs of the whole -/

section Runs

variable {port : Port σ} {v v' : World σ × Os}

/-- Inside a call only the operating system is asked, and the table. -/
theorem wholeSocket_reach {α : Type} {p : OsCode α} {q : WholeCode α}
    (hr : Reach (wholeSem port) (wholeSocket p, v) (q, v')) :
    ∃ r, q = wholeSocket r ∧ Reach fittingKernel (p, v.2) (r, v'.2) ∧ v'.1 = v.1 := by
  obtain ⟨r, hq, hreach⟩ := relabel_reach hr
  refine ⟨r, hq, reach_view (f := Prod.snd) (fun _ _ _ _ _ hs => hs.1) hreach, ?_⟩
  exact reach_keeps (I := fun u => u.1 = v.1) (fun _ _ _ _ _ h hs => hs.2.trans h) rfl hreach

/-- A call that comes to its end. -/
theorem wholeSocket_eval {α : Type} {p : OsCode α} {a : α}
    (h : Eval (wholeSem port) (wholeSocket p) v a v') :
    Eval fittingKernel p v.2 a v'.2 ∧ v'.1 = v.1 := by
  obtain ⟨r, hq, hreach, hsame⟩ := wholeSocket_reach (eval_reach h)
  cases r with
  | ret b =>
    obtain rfl : a = b := Prog.ret.inj hq
    exact ⟨reach_eval hreach, hsame⟩
  | op | loop => cases hq

/-- An operation of the whole is one of `main`. -/
theorem wholeOp_eval {β : Type} {e : Op β} {b : β} (h : Eval (wholeSem port) (wholeOp e) v b v') :
    sem port β e v.1 b v'.1 ∧ (Serviced v.2 → Serviced v'.2) := by
  cases e with
  | sock c =>
    obtain ⟨heval, hsame⟩ := wholeSocket_eval h
    have hkernel : Eval kernel c.code v.2 b v'.2 := reach_eval (kernel_reach (eval_reach heval))
    exact ⟨⟨allows_code heval, hsame⟩, fun hserviced => hserviced.call hkernel⟩
  | get | set g | read count ms | store dst bs | write bs | eprint s | ewrite bs =>
    obtain ⟨_, _, ⟨hlink, hos⟩, rfl, rfl⟩ := h
    exact ⟨hlink, fun hserviced => hos ▸ hserviced⟩

/-- Between two operations of `main`. -/
theorem wholeMain_between {p p' : Code Unit} (hv : Serviced v.2)
    (hr : Reach ((wholeSem port).expanded wholeOp) (p, v) (p', v')) :
    Reach (sem port) (p, v.1) (p', v'.1) ∧ Serviced v'.2 :=
  ⟨reach_view (f := Prod.fst) (fun _ _ _ _ _ hs => (wholeOp_eval hs).1) hr,
    reach_keeps (I := fun u => Serviced u.2) (fun _ _ _ _ _ h hs => (wholeOp_eval hs).2 h) hv hr⟩

/-- Where a run of the whole is: between two operations of `main`, or inside a call of
`socket_impl.c` that `main` has come to. -/
inductive Whole (port : Port σ) (w : World σ) : WholeCode Unit × (World σ × Os) → Prop
  | between {p : Code Unit} {v : World σ × Os} : Reach (sem port) (main, w) (p, v.1) →
    Serviced v.2 → Whole port w (expand wholeOp p, v)
  | inside {c : SockCall} {k : c.Res → Code Unit} {r : OsCode c.Res} {o : Os}
    {v : World σ × Os} : Reach (sem port) (main, w) (.op (.sock c) k, v.1) → Serviced o →
    Reach kernel (c.code, o) (r, v.2) → (∀ a, r ≠ .ret a) →
    Whole port w ((wholeSocket r).bind fun b => expand wholeOp (k b), v)

theorem whole_reach {c : WholeCode Unit × (World σ × Os)} (hv : Serviced v.2)
    (hr : Reach (wholeSem port) (wholeMain, v) c) : Whole port v.1 c := by
  cases expand_reach hr with
  | between hmain =>
    obtain ⟨hreach, hserviced⟩ := wholeMain_between hv hmain
    exact .between hreach hserviced
  | @inside β e k r v₁ v₂ hmain hin =>
    obtain ⟨hreach, hserviced⟩ := wholeMain_between hv hmain
    by_cases hret : ∃ b, r = .ret b
    · -- the operation is done, but the next one has not begun
      obtain ⟨b, rfl⟩ := hret
      obtain ⟨hop, hnext⟩ := wholeOp_eval (reach_eval hin)
      exact .between (hreach.tail ⟨b, hop, rfl⟩) (hnext hserviced)
    · cases e with
      | sock c =>
        obtain ⟨r', rfl, hcall, hsame⟩ := wholeSocket_reach hin
        refine .inside (hsame ▸ hreach) hserviced (kernel_reach hcall) ?_
        rintro a rfl
        exact hret ⟨a, rfl⟩
      | get | set g | read count ms | store dst bs | write bs | eprint s | ewrite bs =>
        rcases cmd_reach hin with ⟨rfl, rfl⟩ | ⟨b, rfl, -⟩
        · exact .between hreach hserviced
        · exact absurd ⟨b, rfl⟩ hret

end Runs

/-! ## 4. What holds of it -/

/-- What holds in every state. -/
structure WholeSafe (c : WholeCode Unit × (World σ × Os)) : Prop where
  /-- Whole messages have been written, and the beginning of one more. -/
  messages : ∃ ms part, messages.Cut c.2.1.tx (∃ b, c.1 = .ret b) ms part
  /-- The operating system is only asked while the link is up and no acknowledgement is awaited. -/
  orderly : ∀ (β : Type) (e : OsOp β) (k : β → WholeCode Unit), c.1 = .op (.os e) k →
    c.2.1.g.connected = true ∧ c.2.1.g.waitingCmd = Cmd.none
  /-- A handle is only used while it is open, and nothing puts the bridge to sleep. -/
  asked : ∀ (β : Type) (e : OsOp β) (k : β → WholeCode Unit), c.1 = .op (.os e) k →
    e.delay ≤ 100 ∧ ∀ sock, e.handle = some sock →
      c.2.2.IsOpen sock ∧ (e.MayBlock → c.2.2.Nonblocking sock)

section Safe

variable {port : Port σ} {s : σ} {w : World σ}

/-- What `main` has written, wherever it is. -/
theorem main_cut {p : Code Unit} {q : WholeCode Unit}
    (hr : Reach (sem port) (main, .start s) (p, w)) (hq : (∃ b, q = .ret b) → ∃ b, p = .ret b) :
    ∃ ms part, messages.Cut w.tx (∃ b, q = .ret b) ms part := by
  obtain ⟨htext, hwhole⟩ := speaks_main.reach messages.whole_nil hr
  refine PrefixCode.tagged_proper.cut htext ⟨.handshake, ()⟩ fun hret => ?_
  obtain ⟨b, hb⟩ := hq hret
  exact hwhole b hb

/-- Each function of `socket_impl.c` begins with an operation. -/
theorem code_ne_ret (c : SockCall) (a : c.Res) : c.code ≠ .ret a := by
  have hop : ∃ (γ : Type) (e : OsOp γ) (k : γ → OsCode c.Res), c.code = .op e k := by
    cases c <;> exact ⟨_, _, _, rfl⟩
  obtain ⟨γ, e, k, hcode⟩ := hop
  intro hret
  rw [hcode] at hret
  cases hret

/-- Inside a call the operating system is asked what the call has come to. -/
theorem wholeSocket_asks {α β : Type} {r : OsCode α} {f : α → WholeCode Unit} {e : OsOp β}
    {k : β → WholeCode Unit} (hr : ∀ a, r ≠ .ret a)
    (h : (wholeSocket r).bind f = .op (.os e) k) : ∃ k', r = .op e k' := by
  cases r with
  | ret a => exact absurd rfl (hr a)
  | loop => cases h
  | op e' k' =>
    cases h
    exact ⟨k', rfl⟩

/-- Inside a call. -/
theorem safe_inside {c : SockCall} {k : c.Res → Code Unit} {r : OsCode c.Res} {o o' : Os}
    (hmain : Reach (sem port) (main, .start s) (.op (.sock c) k, w)) (ho : Serviced o)
    (hcall : Reach kernel (c.code, o) (r, o')) (hr : ∀ a, r ≠ .ret a) :
    WholeSafe ((wholeSocket r).bind fun b => expand wholeOp (k b), (w, o')) := by
  constructor
  · refine main_cut hmain ?_
    rintro ⟨b, hb⟩
    cases r with
    | ret a => exact absurd rfl (hr a)
    | op | loop => cases hb
  · intro β e k' hk
    obtain ⟨hok, -, -⟩ := watched_reach (wpO_main s) trivial hmain
    exact (hok _ (.sock c) k rfl).symm
  · intro β e k' hk
    obtain ⟨k₁, rfl⟩ := wholeSocket_asks hr hk
    obtain ⟨hok, -, -⟩ := watched_reach (wpKernel_code ho.sound c) (Os.Apart.refl _ _) hcall
    have hharmless := hok β e k₁ rfl
    exact ⟨hharmless.delay, fun sock hsock => ⟨(hharmless.own sock hsock).isOpen,
      fun hblock => hharmless.nonblocking hblock sock hsock⟩⟩

/-- Between two operations of `main`. -/
theorem safe_between {p : Code Unit} {o : Os} (hmain : Reach (sem port) (main, .start s) (p, w))
    (ho : Serviced o) : WholeSafe (expand wholeOp p, (w, o)) := by
  cases p with
  | ret b =>
    refine ⟨main_cut hmain fun _ => ⟨b, rfl⟩, ?_, ?_⟩
    · intro β e k hk
      cases hk
    · intro β e k hk
      cases hk
  | loop body k =>
    refine ⟨main_cut hmain ?_, ?_, ?_⟩
    · rintro ⟨b, hb⟩
      cases hb
    · intro β e k hk
      cases hk
    · intro β e k hk
      cases hk
  | op e k =>
    cases e with
    | sock c => exact safe_inside hmain ho .refl (code_ne_ret c)
    | get | set g | read count ms | store dst bs | write bs | eprint s | ewrite bs =>
      refine ⟨main_cut hmain ?_, ?_, ?_⟩
      · rintro ⟨b, hb⟩
        cases hb
      · intro β e k hk
        cases hk
      · intro β e k hk
        cases hk

theorem Whole.safe {c : WholeCode Unit × (World σ × Os)} (h : Whole port (.start s) c) :
    WholeSafe c := by
  cases h with
  | between hmain ho => exact safe_between hmain ho
  | inside hmain ho hcall hr => exact safe_inside hmain ho hcall hr

end Safe

/-! ## 5. A run -/

/-- An operating system on which nothing fails but a second `socket`. -/
def osAnswer : (β : Type) → OsOp β → Os → Option (β × Os)
  | _, .slot conn, w => (w.sockets[conn]?).map (·, w)
  | _, .setSlot conn sock, w =>
    if conn < w.sockets.length then some ((), { w with sockets := w.sockets.set conn sock })
    else none
  | _, .assert c, w => if c then some ((), w) else none
  | _, .socket .., w | _, .accept _, w =>
    if w.flags 3 = none then some (3, w.put 3 (some 0)) else some (-1, w)
  | _, .close sock, w => some (0, w.put sock none)
  | _, .fcntlGetfl sock, w => some (((w.flags sock).map Int.ofNat).getD (-1), w)
  | _, .fcntlSetfl sock flags, w =>
    if w.flags sock = none then some (-1, w) else some (0, w.put sock (some flags.toNat))
  | _, .setsockopt .., w | _, .bind .., w | _, .connect .., w | _, .listen .., w | _, .poll .., w
  | _, .sendto .., w | _, .sockError _, w | _, .geterror, w => some (0, w)
  | _, .recvfrom .., w => some ({ len := 0 }, w)
  | _, .sockType _, w => some (none, w)
  | _, .seterror _, w | _, .eprint _, w => some ((), w)

theorem osAnswer_opens {w w' : Os} {sock : Int}
    (h : (if w.flags 3 = none then some ((3 : Int), w.put 3 (some 0)) else some (-1, w)) =
      some (sock, w')) : w.Opens sock w' := by
  split at h
  · rename_i hfree
    cases h
    exact Or.inr ⟨by decide, hfree, 0, rfl⟩
  · cases h
    exact Or.inl ⟨rfl, rfl⟩

theorem osAnswer_sound (β : Type) (e : OsOp β) (w : Os) (b : β) (w' : Os)
    (h : osAnswer β e w = some (b, w')) : fittingKernel β e w b w' := by
  cases e with
  | slot conn =>
    obtain ⟨sock, hslot, heq⟩ := Option.map_eq_some_iff.mp h
    cases heq
    exact ⟨⟨hslot, rfl⟩, trivial⟩
  | setSlot conn sock =>
    obtain ⟨hlt, heq⟩ := Option.ite_none_right_eq_some.mp h
    cases heq
    exact ⟨⟨hlt, rfl⟩, trivial⟩
  | assert c =>
    obtain ⟨hc, heq⟩ := Option.ite_none_right_eq_some.mp h
    cases heq
    exact ⟨⟨hc, rfl⟩, trivial⟩
  | socket | accept => exact ⟨osAnswer_opens h, trivial⟩
  | close sock =>
    cases h
    exact ⟨rfl, trivial⟩
  | fcntlGetfl sock =>
    cases h
    refine ⟨⟨?_, rfl⟩, trivial⟩
    cases hflags : w.flags sock with
    | none => exact Or.inl rfl
    | some flags => exact Or.inr ⟨flags, rfl, rfl⟩
  | fcntlSetfl sock flags =>
    rw [osAnswer] at h
    split at h
    · cases h
      exact ⟨Or.inl ⟨rfl, rfl⟩, trivial⟩
    · rename_i hopen
      cases h
      exact ⟨Or.inr ⟨by decide, Option.ne_none_iff_exists'.mp hopen, rfl⟩, trivial⟩
  | recvfrom sock size peek =>
    cases h
    exact ⟨rfl, Int.natCast_nonneg _, Int.natCast_nonneg _⟩
  | _ =>
    cases h
    exact ⟨rfl, trivial⟩

/-- The scripted port, and this operating system. -/
def wholeAnswer : (β : Type) → WholeOp β → World (List ReadRes) × Os →
    Option (β × (World (List ReadRes) × Os))
  | _, .link e, v => (answer _ e v.1).map fun r => (r.1, r.2, v.2)
  | _, .os e, v => (osAnswer _ e v.2).map fun r => (r.1, v.1, r.2)

theorem wholeAnswer_sound (β : Type) (e : WholeOp β) (v : World (List ReadRes) × Os) (b : β)
    (v' : World (List ReadRes) × Os) (h : wholeAnswer β e v = some (b, v')) :
    wholeSem scripted β e v b v' := by
  cases e with
  | link e =>
    obtain ⟨⟨b, w⟩, hw, heq⟩ := Option.map_eq_some_iff.mp h
    cases heq
    exact ⟨answer_sound β e v.1 b w hw, rfl⟩
  | os e =>
    obtain ⟨⟨b, w⟩, hw, heq⟩ := Option.map_eq_some_iff.mp h
    cases heq
    exact ⟨osAnswer_sound β e v.2 b w hw, rfl⟩

/-- The handle that the operating system is asked about next. -/
def WholeCode.handle : WholeCode Unit → Option Int
  | .op (.os e) _ => e.handle
  | _ => none

theorem WholeCode.handle_eq {q : WholeCode Unit} {sock : Int}
    (h : WholeCode.handle q = some sock) : ∃ (β : Type) (e : OsOp β) (k : β → WholeCode Unit),
      q = .op (.os e) k ∧ e.handle = some sock := by
  cases q with
  | ret | loop => cases h
  | op e k =>
    cases e with
    | link e => cases h
    | os e => exact ⟨_, e, k, rfl, h⟩

/-- The port brings the handshake and a request to open a connection. -/
def openArrives : List ReadRes :=
  handshake.map (fun c => .bytes [c]) ++
    [.bytes [Cmd.data], .bytes [6], .bytes [ProtMa.cmdOpen, 0, 0, 1, 0, 80], .bytes [0, 81]]

/-- Both connections are free. -/
def powerOn : World (List ReadRes) × Os := (.start openArrives, ⟨[-1, -1], fun _ => none⟩)

theorem powerOn_started : Started powerOn :=
  ⟨⟨openArrives, rfl⟩, -1, -1, fun _ => none, (), _, ⟨by decide, rfl⟩, (), _, ⟨by decide, rfl⟩,
    rfl, rfl⟩

/-- The new handle is about to be bound. -/
theorem powerOn_binds : ∃ c, Reach (wholeSem scripted) (wholeMain, powerOn) c ∧
    WholeCode.handle c.1 = some 3 ∧ c.2.2.flags 3 = some oNonblock := by
  have hrun : (nexts wholeAnswer 59 (wholeMain, powerOn)).map (fun c =>
      (WholeCode.handle c.1, c.2.2.flags 3)) = some (some 3, some oNonblock) := by decide +kernel
  obtain ⟨c, hsteps, hseen⟩ := Option.map_eq_some_iff.mp hrun
  obtain ⟨hhandle, hflags⟩ := Prod.mk.inj hseen
  exact ⟨c, nexts_reach wholeAnswer_sound hsteps, hhandle, hflags⟩

/-! ## 6. The results -/

/-- **The whole bridge does what `main` does**: with the code of `socket_impl.c` in the place of its
calls, down to the operating system, every run is a run of `main` in which a call may be under way,
on a table that calls have left.

The runs are those in which `state->sockets` is not accessed past its end.  A packet that names a
connection from `MOBILE_MAX_CONNECTIONS` on leads to such an access, and what comes after it is not
covered; nor is there anything after an assertion has failed. -/
theorem bridge_refines (port : Port σ) (v : World σ × Os) (hv : Started v)
    (c : WholeCode Unit × (World σ × Os)) (hr : Reach (wholeSem port) (wholeMain, v) c) :
    ∃ s, v.1 = .start s ∧ Whole port (.start s) c := by
  obtain ⟨s, hs⟩ := hv.port
  obtain ⟨a, b, flags, hinit⟩ := hv.sockets
  exact ⟨s, hs, hs ▸ whole_reach (.init hinit) hr⟩

theorem bridge_refines_binds : ∃ c, Reach (wholeSem scripted) (wholeMain, powerOn) c ∧
    WholeCode.handle c.1 = some 3 ∧ ∃ s, powerOn.1 = .start s ∧ Whole scripted (.start s) c := by
  obtain ⟨c, hr, hhandle, -⟩ := powerOn_binds
  exact ⟨c, hr, hhandle, bridge_refines scripted powerOn powerOn_started c hr⟩

/-- **The whole bridge is safe**, whatever the port and the operating system answer: in every state
of every run in which the table has not been accessed past its end.  A packet that names a
connection from `MOBILE_MAX_CONNECTIONS` on makes the functions of `socket_impl.c` do so, and
nothing is said of what comes then.  A run in which an assertion fails ends there. -/
theorem bridge_safe (port : Port σ) (v : World σ × Os) (hv : Started v) (p : WholeCode Unit)
    (v' : World σ × Os)
    (hr : Reach (strayingSem port) (wholeMain, (v, false)) (p, (v', false))) :
    WholeSafe (p, v') := by
  obtain ⟨s, hs⟩ := hv.port
  obtain ⟨a, b, flags, hinit⟩ := hv.sockets
  have hreach : Reach (wholeSem port) (wholeMain, v) (p, v') := marked_reach hr rfl
  have hwhole : Whole port (.start s) (p, v') := hs ▸ whole_reach (.init hinit) hreach
  exact hwhole.safe

theorem bridge_safe_binds : ∃ p v',
    Reach (strayingSem scripted) (wholeMain, (powerOn, false)) (p, (v', false)) ∧
    WholeCode.handle p = some 3 ∧ v'.1.g.connected = true ∧ v'.2.IsOpen 3 := by
  obtain ⟨⟨p, v'⟩, hr, hhandle, -⟩ := powerOn_binds
  obtain ⟨β, e, k, hq, he⟩ := WholeCode.handle_eq hhandle
  have hsafe := bridge_safe scripted powerOn powerOn_started p v' (reach_marked hr)
  exact ⟨p, v', reach_marked hr, hhandle, (hsafe.orderly β e k hq).1,
    ((hsafe.asked β e k hq).2 3 he).1⟩

end GBridge.Bridge

/-
# Replying to where something came from

What `recvfrom` reports as the source is turned into a `struct mobile_addr` by `socket_impl_recv`,
sent to the adapter, stored there by `mobile_impl_sock_recv`, sent back with the next
`mobile_impl_sock_send` and turned into a `struct sockaddr` again by `socket_impl_send`.

`answering` is a program of the adapter that does so: it calls `mobile_impl_sock_recv` and goes on
with the address it was given, whatever else it does.  On the bridge it is enough to see the table
of the sockets, what `recvfrom` reports and what `sendto` is called with (`tap`).

* `recv_report` and `recv_evals`: `socket_impl_recv` hands on a report of at least one byte with its
  source, and every such report can be received on an open slot;
* `send_ends`: `socket_impl_send` comes to its end on an open slot, and has called `sendto` once,
  with what `convert_sockaddr` makes of the address; of an address that was stored this is the
  source again (`convertSockaddr_mobile`);
* `replyTo_kept` puts them together over the link, where the log of the two machines (`expected`)
  says that the address arrives and comes back as it was.
-/
import GBridge.Bridge.OsView
import GBridge.Pair

namespace GBridge

open Prog
open Atmega (Result)
open Bridge

/-! ## 1. Addresses of sockets -/

/-- `htons` undoes `ntohs`. -/
theorem htons_ntohs (n : UInt16) : htons (ntohs n) = n := by
  apply UInt16.eq_of_toBitVec_eq
  ext i hi
  have hover : n.toBitVec.getLsbD (8 + (8 + i)) = false := BitVec.getLsbD_of_ge _ _ (by omega)
  by_cases hlow : i < 8
  · have hword : 8 + i < 16 := by omega
    simp [htons, ntohs, hlow, hword, hover]
  · have hback : 8 + (i - 8) = i := by omega
    have hfar : i - 8 < 8 := by omega
    have hword : ¬ 8 + i < 16 := by omega
    simp [htons, ntohs, hlow, hword, hback, hfar, hover, BitVec.getLsbD_eq_getElem hi]

namespace Bridge

/-- The length of an address of one of the two families. -/
def SockAddr.len : SockAddr → Nat
  | .inet .. => sizeofSockaddrIn
  | .inet6 .. => sizeofSockaddrIn6
  | .other => 0

/-- A source, as it is handed on. -/
def SockAddr.mobile : SockAddr → MobileAddr
  | .inet port host => .ipv4 (ntohs port) host
  | .inet6 port host => .ipv6 (ntohs port) host
  | .other => .none

/-- A source is stored as it is. -/
theorem storedAddr_mobile {src : SockAddr} {r : RecvFrom} {addr : MobileAddr} (hsrc : src ≠ .other)
    (haddr : r.addr = src) (hlen : r.addrlen = src.len) :
    storedAddr (some addr) r = some src.mobile := by
  cases src with
  | inet port host =>
    have hne : r.addrlen ≠ 0 := hlen ▸ (by decide : sizeofSockaddrIn ≠ 0)
    simp [storedAddr, hne, haddr, SockAddr.mobile]
  | inet6 port host =>
    have hne : r.addrlen ≠ 0 := hlen ▸ (by decide : sizeofSockaddrIn6 ≠ 0)
    simp [storedAddr, hne, haddr, SockAddr.mobile]
  | other => exact absurd rfl hsrc

/-- **`convert_sockaddr` gives back the source**, and its length. -/
theorem convertSockaddr_mobile {src : SockAddr} (hsrc : src ≠ .other) :
    convertSockaddr (some src.mobile) = (some src, src.len) := by
  cases src with
  | inet port host => simp [SockAddr.mobile, SockAddr.len, convertSockaddr, htons_ntohs]
  | inet6 port host => simp [SockAddr.mobile, SockAddr.len, convertSockaddr, htons_ntohs]
  | other => exact absurd rfl hsrc

/-! ## 2. The two functions -/

/-- The table, what `recvfrom` has reported, and what `sendto` has been called with. -/
structure Tap where
  /-- `state->sockets` -/
  sockets : List Int
  reports : List RecvFrom
  sent : List (Int × List UInt8 × Option SockAddr × Nat)

/-- An operating system that keeps this.  It answers what it likes. -/
def tap : Sem OsOp Tap := OsView.sem {
  sockets := Tap.sockets
  file := fun w sockets => { w with sockets }
  sendto := fun sock data addr addrlen w w' =>
    w' = { w with sent := w.sent ++ [(sock, data, addr, addrlen)] }
  recvfrom := fun w r w' => w' = { w with reports := w.reports ++ [r] } }

section Functions

variable {conn size : Nat} {sock : Int} {addr : MobileAddr} {rep : RecvFrom} {w w' : Tap}

/-- What `socket_impl_recv` makes of a report. -/
def RecvFrom.handedOn (addr : MobileAddr) (rep : RecvFrom) : RecvRes :=
  ⟨rep.len, rep.data, (storedAddr (some addr) rep).getD .none⟩

theorem handedOn_mobile {src : SockAddr} (hsrc : src ≠ .other) (haddr : rep.addr = src)
    (hlen : rep.addrlen = src.len) : rep.handedOn addr = ⟨rep.len, rep.data, src.mobile⟩ := by
  rw [RecvFrom.handedOn, storedAddr_mobile hsrc haddr hlen]
  rfl

/-- The weakest precondition on this operating system. -/
abbrev wpTap {α : Type} (p : OsCode α) (Q : α → Tap → Prop) (w : Tap) : Prop :=
  wpre (Spec.demonic tap) false p Q w

theorem wpTap_hasdata {α : Type} {f : Int → OsCode α} {Q : α → Tap → Prop}
    (h : ∀ rc, wpTap (f rc) Q w) : wpTap ((socketHasdata sock 0).bind f) Q w := by
  refine wpre_bind.mpr ?_
  rintro rc _ rfl
  refine wpre_if (fun _ => ?_) fun _ => h rc
  rintro _ _ rfl
  exact h rc

/-- Only a length of 0 may mean that the remote has gone. -/
theorem wpTap_gone {α : Type} {len : Int} {f : Option Int → OsCode α} {Q : α → Tap → Prop}
    (h : ∀ gone, (len ≠ 0 → gone = none) → wpTap (f gone) Q w) :
    wpTap ((socketGone sock len).bind f) Q w := by
  refine wpre_bind.mpr (wpre_if (fun _ => h none fun _ => rfl) fun hzero => ?_)
  rintro type _ rfl
  rcases type with _ | _ | _
  · rintro _ _ rfl
    exact h _ fun hne => absurd hne hzero
  · exact h _ fun hne => absurd hne hzero
  · exact h _ fun _ => rfl

/-- **`socket_impl_recv` calls `recvfrom` at most once**, and hands on a report of at least one
byte. -/
theorem wpTap_recv : wpTap (socketImplRecv conn (some size) (some addr)) (fun r w' =>
    w'.reports = w.reports ∨ ∃ rep, w'.reports = w.reports ++ [rep] ∧
      (1 ≤ rep.len → r = rep.handedOn addr)) w := by
  rintro sock _ ⟨-, rfl⟩
  rintro _ _ ⟨-, rfl⟩
  refine wpTap_hasdata fun rc => wpre_if (fun _ => .inl rfl) fun _ => ?_
  rintro rep _ rfl
  refine wpre_if (fun hfailed => ?_) fun _ => ?_
  · -- an error is no report of a byte
    have hno : ¬ 1 ≤ rep.len := by rw [hfailed]; decide
    rintro err _ rfl
    refine wpre_if (fun _ => .inr ⟨rep, rfl, fun hsome => absurd hsome hno⟩) fun _ => ?_
    rintro _ _ rfl
    exact .inr ⟨rep, rfl, fun hsome => absurd hsome hno⟩
  · refine wpTap_gone fun gone hgone => ?_
    cases gone with
    | none => exact .inr ⟨rep, rfl, fun _ => rfl⟩
    | some res =>
      refine .inr ⟨rep, rfl, fun hsome => ?_⟩
      exact absurd (hgone (by omega)) (by simp)

/-- What is received is what has been reported. -/
theorem recv_report {r : RecvRes}
    (h : Eval tap (socketImplRecv conn (some size) (some addr)) w r w')
    (hreport : w'.reports = w.reports ++ [rep]) (hsome : 1 ≤ rep.len) : r = rep.handedOn addr := by
  rcases wpre_eval (Spec.demonic_sound tap) wpTap_recv h with hsame | ⟨got, hgot, hr⟩
  · rw [hsame] at hreport
    simp at hreport
  · obtain rfl : got = rep := by simpa using hgot.symm.trans hreport
    exact hr hsome

/-- On an open slot whatever is reported of at least one byte can be received. -/
theorem recv_evals (hslot : w.sockets[conn]? = some sock) (hne : sock ≠ -1) (hsome : 1 ≤ rep.len) :
    ∃ w', Eval tap (socketImplRecv conn (some size) (some addr)) w (rep.handedOn addr) w' ∧
      w'.reports = w.reports ++ [rep] := by
  have hrecv : wpre (Spec.angelic tap) true (socketImplRecv conn (some size) (some addr))
      (fun r w' => r = rep.handedOn addr ∧ w'.reports = w.reports ++ [rep]) w := by
    refine ⟨sock, w, ⟨hslot, rfl⟩, (), w, ⟨decide_eq_true hne, rfl⟩, 1, w, rfl, rep, _, rfl, ?_⟩
    refine wpre_if (fun hfailed => by omega) fun _ => wpre_bind.mpr ?_
    exact wpre_if (fun _ => ⟨rfl, rfl⟩) fun hzero => by omega
  obtain ⟨_, w', heval, rfl, hreport⟩ := angelic_exists hrecv
  exact ⟨w', heval, hreport⟩

/-- **On an open slot `socket_impl_send` comes to its end**, and has called `sendto` once, with what
`convert_sockaddr` makes of the address. -/
theorem send_ends {data : List UInt8} {addr : Option MobileAddr}
    (hslot : w.sockets[conn]? = some sock) (hne : sock ≠ -1) :
    Ends tap (socketImplSend conn data addr) w fun _ w' =>
      w'.sent = w.sent ++ [(sock, data, convertSockaddr addr)] := by
  refine sure_ends ⟨⟨sock, w, hslot, rfl⟩, ?_⟩
  rintro sock' _ ⟨hsame, rfl⟩
  obtain rfl : sock = sock' := Option.some.inj (hslot.symm.trans hsame)
  refine ⟨⟨(), _, decide_eq_true hne, rfl⟩, ?_⟩
  rintro _ _ ⟨-, rfl⟩
  refine ⟨⟨0, _, rfl⟩, ?_⟩
  rintro len _ rfl
  refine wpre_if (fun _ => ⟨⟨0, _, rfl⟩, ?_⟩) fun _ => rfl
  rintro err _ rfl
  refine wpre_if (fun _ => rfl) fun _ => ⟨⟨(), _, rfl⟩, ?_⟩
  rintro _ _ rfl
  rfl

end Functions

end Bridge

/-! ## 3. The program of the adapter -/

/-- `mobile_impl_sock_recv` is called, and the program goes on with what it stores in `*addr`. -/
def answering (conn : Nat) (buffer : List UInt8) (size : Nat) (addr : MobileAddr)
    (js : MobileAddr → List Job) : Atmega.Code Unit := do
  let r ← Atmega.mobileImplSockRecv conn buffer size (some addr)
  .cmd (.returned r)
  match r with
  | .recv _ _ (some addr) => session (js addr)
  | _ => return ()

/-- What is expected of some calls comes before what is expected of those that follow. -/
theorem expected_append (oracle : Oracle) (cs' : List MobileCall) :
    ∀ (cs : List MobileCall) (n : Nat),
    ∃ m, expected oracle n (cs ++ cs') = expected oracle n cs ++ expected oracle m cs'
  | [], n => ⟨n, rfl⟩
  | c :: cs, n => by
    obtain ⟨m, hm⟩ := expected_append oracle cs' cs (n + c.socks)
    refine ⟨m, ?_⟩
    rw [List.cons_append, expected, expected, hm, List.append_assoc, List.cons_append]

section Answering

variable {oracle : Oracle} {conn conn' size : Nat} {buffer data : List UInt8} {addr : MobileAddr}
  {js before after : MobileAddr → List Job} {src : SockAddr} {a : Atmega.State} {b : Bridge.State}
  {rx fly : List UInt8} {k : Nat} {σ : System} {rep : RecvFrom} {w w' : Tap}

/-- The call, and those that follow when the bridge has stored this address. -/
def answeringCalls (conn : Nat) (buffer : List UInt8) (size : Nat) (addr : MobileAddr)
    (js : MobileAddr → List Job) (stored : MobileAddr) : List MobileCall :=
  .recv conn buffer size (some addr) :: calls (js stored)

/-- The program plays the script of these calls. -/
theorem wpP_answering {v : Atmega.Play} {pre : List UInt8} {r : RecvRes}
    (hr : oracle 0 (.recv conn (some size) (some .none)) = r)
    (hcs : Answered oracle 0 (answeringCalls conn buffer size addr js r.addr))
    (hready : v.g.Ready) (hpre : Atmega.LeftOver pre)
    (hshare : v.share = .ofScript pre
      (script oracle 0 (answeringCalls conn buffer size addr js r.addr))) :
    Atmega.wpP .faultless true (answering conn buffer size addr js) (fun _ v' => v'.share.out = [])
      v := by
  obtain ⟨hc, ho, hcs⟩ := hcs
  refine Atmega.wpP_bind (wpP_call hc ho hready hpre hshare ?_)
  intro v₁ hready₁ hshare₁
  refine Atmega.wpP_bind (Atmega.wpP_returned hshare₁ ?_)
  rw [MobileCall.result, hr]
  exact wpP_session hcs hready₁ Atmega.leftOver_nil rfl

/-- In what is expected, the address that is stored and the call that it is sent back with stand in
this order. -/
theorem expected_answering {r : RecvRes}
    (hr : oracle 0 (.recv conn (some size) (some .none)) = r) :
    [Sum.inr (.recv conn (some size) (some .none)),
      .inl (.recv r.res (r.data.take r.res.toNat ++ buffer.drop r.res.toNat) (some r.addr)),
      .inr (.send conn' data (some r.addr))].Sublist
        (expected oracle 0 (answeringCalls conn buffer size addr
          (fun addr => before addr ++ .call (.send conn' data (some addr)) :: after addr)
          r.addr)) := by
  have hcalls : calls (before r.addr ++ .call (.send conn' data (some r.addr)) :: after r.addr) =
      calls (before r.addr) ++ .send conn' data (some r.addr) :: calls (after r.addr) := by
    simp [calls, Job.call?]
  obtain ⟨m, hm⟩ := expected_append oracle (.send conn' data (some r.addr) :: calls (after r.addr))
    (calls (before r.addr)) (0 + MobileCall.socks (.recv conn buffer size (some addr)))
  rw [answeringCalls, hcalls, expected, MobileCall.result, hr, hm]
  refine .cons_cons _ (.cons_cons _ (List.singleton_sublist.mpr (List.mem_append_right _ ?_)))
  exact List.mem_cons_self

/-- **The reply goes where the request came from.**  Let `recvfrom` report at least one byte from
`src` in the first call of `socket_impl_recv`, which any open slot allows, and let the program call
`mobile_impl_sock_send` with the address it was given.  The link stays up, everything comes to pass,
and on any open slot `socket_impl_send`, called with what was stored, comes to its end and has
called `sendto` once, with `src` and its length. -/
theorem replyTo_kept (hsrc : src ≠ .other) (hresults : ∀ n s, Proper s (oracle n s))
    (hconn : conn < 256) (hsize : size < 65536) (hroom : size ≤ buffer.length)
    (hcalls : ∀ stored, ∀ c ∈ calls (before stored ++ .call (.send conn' data (some stored)) ::
      after stored), c.Proper)
    (hfrom : Eval tap (socketImplRecv conn (some size) (some .none)) w
      (oracle 0 (.recv conn (some size) (some .none))) w')
    (hreport : w'.reports = w.reports ++ [rep]) (haddr : rep.addr = src)
    (hlen : rep.addrlen = src.len) (hsome : 1 ≤ rep.len) (hfits : rep.len ≤ 255)
    (ha : a.Ready) (hb : b.Ready) (hsurplus : rx ++ fly = surplus k)
    (hrun : Runs oracle (startWith (answering conn buffer size addr fun stored =>
      before stored ++ .call (.send conn' data (some stored)) :: after stored) a b rx fly) σ) :
    ∃ stored log bytes, [Sum.inr (.recv conn (some size) (some .none)),
        .inl (.recv rep.len bytes (some stored)),
        .inr (.send conn' data (some stored))].Sublist log ∧
      (σ.left.2.connected = true ∧ σ.right.2.g.connected = true) ∧ σ.log <+: log ∧
      (σ.left.1 = .ret () → σ.log = log) ∧
      (∃ σ', Runs oracle σ σ' ∧ σ'.left.1 = .ret () ∧ σ'.log = log) ∧
      (∀ (w : Tap) (sock : Int), w.sockets[conn]? = some sock → sock ≠ -1 →
        ∃ w', Eval tap (SockCall.recv conn (some size) (some .none)).code w
          ⟨rep.len, rep.data, stored⟩ w' ∧ w'.reports = w.reports ++ [rep]) ∧
      ∀ (w : Tap) (sock : Int), w.sockets[conn']? = some sock → sock ≠ -1 →
        Ends tap (SockCall.send conn' data (some stored)).code w fun _ w' =>
          w'.sent = w.sent ++ [(sock, data, some src, src.len)] := by
  have hmobile := @handedOn_mobile .none rep src hsrc haddr hlen
  have hr : oracle 0 (.recv conn (some size) (some .none)) = ⟨rep.len, rep.data, src.mobile⟩ :=
    (recv_report hfrom hreport hsome).trans hmobile
  have hcs : Answered oracle 0 (answeringCalls conn buffer size addr (fun stored => before stored ++
      .call (.send conn' data (some stored)) :: after stored) src.mobile) := by
    refine ⟨⟨hconn, hsize, hroom⟩, ?_, answered_proper hresults _ (hcalls _)⟩
    intro s hs
    obtain rfl : SockCall.recv conn (some size) (some .none) = s := Option.some.inj hs
    refine ⟨hresults _ _, ?_⟩
    rw [hr]
    exact hfits
  have hstart := startWith_onScript hcs
    (fun _ _ hready hpre hshare => wpP_answering hr hcs hready hpre hshare) ha hb hsurplus
  obtain ⟨hadapter, hbridge, -⟩ :=
    runs_connected hstart hrun ha.idle.connected ⟨hb.connected, List.nil_prefix⟩
  have hσ := runs_onScript hstart hrun
  obtain ⟨σ', hrun', hret', hlog', -⟩ := runs_end hσ
  refine ⟨src.mobile, _, _, expected_answering hr, ⟨hadapter, hbridge⟩, log_expected hσ,
    log_of_ret hσ, ⟨σ', hrun', hret', hlog'⟩, ?_, ?_⟩
  · intro w sock hslot hne
    obtain ⟨w', heval, hreport'⟩ := @recv_evals conn size sock .none rep w hslot hne hsome
    exact ⟨w', hmobile ▸ heval, hreport'⟩
  · intro w sock hslot hne
    have hends := @send_ends conn' sock w data (some src.mobile) hslot hne
    rw [convertSockaddr_mobile hsrc] at hends
    exact hends

end Answering

/-- A datagram of one byte comes from port 53 of 8.8.8.8. -/
def nameServer : SockAddr := .inet 0x3500 ⟨[8, 8, 8, 8], rfl⟩

/-- Whoever has room for a byte receives it; all else is quiet. -/
def nameServerOracle : Oracle
  | _, .recv _ (some (_ + 1)) _ => ⟨1, [65], nameServer.mobile⟩
  | n, c => quietOracle n c

/-- The byte is received, and answered with another one. -/
theorem replyTo_kept_nameServer : ∃ σ stored, Runs nameServerOracle
      (startWith (answering 0 [0] 1 .none fun stored => [.call (.send 0 [66] (some stored))])
        { connected := true } { connected := true } [] []) σ ∧ σ.left.1 = .ret () ∧
    .inr (.send 0 [66] (some stored)) ∈ σ.log ∧
    Ends tap (SockCall.send 0 [66] (some stored)).code ⟨[3, -1], [], []⟩ fun _ w' =>
      w'.sent = [(3, [66], some (.inet 0x3500 ⟨[8, 8, 8, 8], rfl⟩), 16)] := by
  have hfrom : Eval tap (socketImplRecv 0 (some 1) (some .none)) ⟨[3, -1], [], []⟩
      ⟨1, [65], nameServer.mobile⟩ ⟨[3, -1], [⟨1, [65], nameServer, 16⟩], []⟩ :=
    ⟨3, _, ⟨rfl, rfl⟩, (), _, ⟨rfl, rfl⟩, 1, _, rfl, ⟨1, [65], nameServer, 16⟩, _, rfl, rfl, rfl⟩
  have hresults : ∀ n s, Proper s (nameServerOracle n s) := by
    intro n s
    cases s with
    | recv conn data addr =>
      rcases data with _ | _ | size
      · exact quiet_proper n _
      · exact quiet_proper n _
      · have hroom : (1 : Int) ≤ (size + 1 : Nat) := by omega
        have hlow : (-32768 : Int) ≤ 1 := by decide
        exact ⟨hlow, hroom, Int.le_refl 1⟩
    | _ => exact quiet_proper n _
  have hcalls : ∀ stored,
      ∀ c ∈ calls ([] ++ [Job.call (.send 0 [66] (some stored))]), c.Proper := by
    simp [calls, Job.call?, MobileCall.Proper]
  have hsurplus : ([] : List UInt8) ++ [] = surplus 0 := rfl
  obtain ⟨stored, log, bytes, hlog, -, -, -, ⟨σ, hrun, hret, rfl⟩, -, hsend⟩ :=
    @replyTo_kept nameServerOracle 0 0 1 [0] [66] .none (fun _ => []) (fun _ => []) nameServer
      _ _ _ _
      _ _ _ _ _ (by decide) hresults (by decide) (by decide) (by decide) hcalls hfrom rfl rfl rfl
      (by decide) (by decide) (adapter_ready (g := {}) rfl) (bridge_ready {}) hsurplus .refl
  exact ⟨σ, stored, hrun, hret, hlog.subset (by simp), hsend ⟨[3, -1], [], []⟩ 3 rfl (by decide)⟩

end GBridge

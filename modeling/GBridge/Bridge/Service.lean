/-
# The request loop, and what stands behind it

`gbridge_prot_ma_loop` takes a request packet apart and makes a call of `socket_impl.c`.  Its seven
handlers are written out one by one.  Here they are seen to do one thing: `asks` says what a packet
asks for, a call, a call with a stream before it or nothing, and `Ask.perform` does it
(`handleRequest_eq`).

What stands behind the calls is a parameter: `semFor` gives the bridge a world of its own for them,
which nothing but a call can change.  So a property of that world is proved of the calls alone: the
functions of the link layer make none (`NotSock`), and what is left is what a request asks for
(`Ask.Needs`, `wpFor_gbridgeProtMaLoop`).  `Grammar` notes the calls there, `Asserts` runs
`socket_impl.c` over its table.
-/
import GBridge.Bridge.Spec

namespace GBridge.Bridge

open Prog Bytes

/-! ## 1. What a request asks for -/

/-- What a request packet asks of the bridge. -/
inductive Ask where
  | nothing
  /-- A call. -/
  | call (c : SockCall)
  /-- A call of `socket_impl_send`, of the stream that is to follow. -/
  | send (conn : Nat) (addr : Option MobileAddr)
deriving DecidableEq

/-- The request, read off its packet. -/
def asks (d : GbridgeData) : Ask :=
  let b := fun i => d.buffer.getD i 0
  let conn := (b 1).toNat
  let addr := addressRead (d.buffer.drop 2) (d.size.toNat - 2)
  if b 0 = ProtMa.cmdOpen then
    if d.size ≠ 6 then .nothing else .call (.open conn (b 2) (b 3) (be16 (b 4) (b 5)))
  else if b 0 = ProtMa.cmdClose then
    if d.size ≠ 2 then .nothing else .call (.close conn)
  else if b 0 = ProtMa.cmdConnect then
    if d.size < 2 then .nothing
    else if addr.1 ≤ 1 then .nothing
    else if d.size.toNat ≠ 2 + addr.1 then .nothing else .call (.connect conn addr.2)
  else if b 0 = ProtMa.cmdListen then
    if d.size ≠ 2 then .nothing else .call (.listen conn)
  else if b 0 = ProtMa.cmdAccept then
    if d.size ≠ 2 then .nothing else .call (.accept conn)
  else if b 0 = ProtMa.cmdSend then
    if d.size < 2 then .nothing else if addr.1 = 0 then .nothing else .send conn addr.2
  else if b 0 = ProtMa.cmdRecv then
    if d.size ≠ 4 then .nothing
    else .call (.recv conn (some (be16 (b 2) (b 3))) (some .none))
  else .nothing

/-- What a handler does with the result of its call. -/
def SockCall.reply : (c : SockCall) → c.Res → Code Bool
  | .open .., res => do
    gbridgeCmdData (.ofList [ProtMa.cmdOpen, boolByte res])
    return true
  | .close _, _ => do
    gbridgeCmdData (.ofList [ProtMa.cmdClose])
    return true
  | .connect .., res => do
    gbridgeCmdData (.ofList [ProtMa.cmdConnect, intByte res])
    return true
  | .listen _, res => do
    gbridgeCmdData (.ofList [ProtMa.cmdListen, boolByte res])
    return true
  | .accept _, res => do
    gbridgeCmdData (.ofList [ProtMa.cmdAccept, boolByte res])
    return true
  | .send .., res => do
    gbridgeCmdData (.ofList [ProtMa.cmdSend, intByte (res >>> (8 : Nat)), intByte res])
    return true
  | .recv .., r => do
    gbridgeCmdData (.ofList (ProtMa.cmdRecv :: intByte (r.res >>> (8 : Nat)) :: intByte r.res ::
      addressWrite (some r.addr)))
    if !(← gbridgeConnected) then return false
    else if r.res ≤ 0 then return true
    else
      gbridgeCmdStream r.data r.res.toNat
      return true

/-- Do what is asked for. -/
def Ask.perform : Ask → Code Bool
  | .nothing => return false
  | .call c => do
    let res ← sock c
    c.reply res
  | .send conn addr => do
    let (streamRes, recvBuffer) ← gbridgeRecvStream 0x200
    if streamRes < 0 then return false
    else
      let c : SockCall := .send conn (recvBuffer.take streamRes.toNat) addr
      let res ← sock c
      c.reply res

/-- **The handlers do what the packet asks for.** -/
theorem handleRequest_eq (d : GbridgeData) : handleRequest d = (asks d).perform := by
  simp only [asks, apply_ite Ask.perform]
  rfl

/-! ## 2. What stands behind the calls -/

section Service

variable {τ : Type}

/-- What may come of a call, in a world of its own. -/
abbrev Serve (τ : Type) := (c : SockCall) → τ → c.Res → τ → Prop

/-- The bridge on the scripted port, with this behind its calls. -/
def semFor (serve : Serve τ) : Sem Op (World (List ReadRes) × τ)
  | _, .sock c, v, r, v' => v'.1 = v.1 ∧ serve c v.2 r v'.2
  | β, e, v, b, v' => sem scripted β e v.1 b v'.1 ∧ v'.2 = v.2

/-- The command is not a call. -/
def NotSock : {β : Type} → Op β → Prop
  | _, .sock _ => False
  | _, _ => True

theorem semFor_other {serve : Serve τ} {β : Type} {e : Op β} (he : NotSock e)
    {v v' : World (List ReadRes) × τ} {b : β} :
    semFor serve β e v b v' ↔ sem scripted β e v.1 b v'.1 ∧ v'.2 = v.2 := by
  cases e with
  | sock c => exact he.elim
  | _ => exact Iff.rfl

/-! ## 3. Everything but the handlers makes no call -/

theorem notSock_get : get.Every NotSock := ⟨trivial, fun _ => trivial⟩

theorem notSock_modify (f : State → State) : (modify f).Every NotSock :=
  notSock_get.bind fun _ => ⟨trivial, fun _ => trivial⟩

theorem notSock_write (bs : List UInt8) : (spBlockingWrite bs).Every NotSock :=
  ⟨trivial, fun _ => trivial⟩

/-- The end of every path on which a frame is refused. -/
theorem notSock_refuse {α : Type} (s : String) (a : α) :
    (do eprint s; gbridgeInit; return a : Code α).Every NotSock :=
  ⟨trivial, fun _ => (notSock_modify _).bind fun _ => trivial⟩

theorem notSock_recvData (dst : Dst) (count : Nat) : (recvData dst count).Every NotSock := by
  refine ⟨trivial, fun r => ?_⟩
  cases r with
  | error code => exact notSock_refuse _ _
  | bytes bs => exact ⟨trivial, fun _ => .ite (notSock_refuse _ _) trivial⟩

theorem notSock_recvCmdDebugLine : recvCmdDebugLine.Every NotSock := by
  refine (notSock_recvData _ _).bind fun length => ?_
  cases length with
  | none => trivial
  | some length =>
    refine (notSock_recvData _ _).bind fun string => ?_
    cases string with
    | none => trivial
    | some string => exact (notSock_write _).bind fun _ => ⟨trivial, fun _ => trivial⟩

theorem notSock_recvCmdData : recvCmdData.Every NotSock := by
  refine notSock_get.bind fun g => .ite (notSock_refuse _ ()) ?_
  refine (notSock_recvData _ _).bind fun size => ?_
  cases size with
  | none => trivial
  | some size =>
    refine notSock_get.bind fun g => (notSock_recvData _ _).bind fun bs => ?_
    cases bs with
    | none => trivial
    | some bs =>
      refine (notSock_recvData _ _).bind fun c => ?_
      cases c with
      | none => trivial
      | some c =>
        exact notSock_get.bind fun g => .ite (notSock_refuse _ ())
          ((notSock_modify _).bind fun _ => notSock_write _)

theorem notSock_gbridgeLoop : gbridgeLoop.Every NotSock := by
  refine notSock_get.bind fun g => .ite ⟨trivial, fun r => ?_⟩ trivial
  match r with
  | .bytes [] => trivial
  | .error _ => exact notSock_modify _
  | .bytes (_ :: _) =>
    refine notSock_get.bind fun g => .ite (.ite (notSock_modify _) trivial) ?_
    exact .ite notSock_recvCmdDebugLine (.ite notSock_recvCmdData trivial)

theorem notSock_waitCmd (cmd : UInt8) : (waitCmd cmd).Every NotSock := by
  have htest : ∀ f : State → Bool, (get.bind fun g => .ret (f g) : Code Bool).Every NotSock :=
    fun f => notSock_get.bind fun _ => trivial
  refine notSock_get.bind fun g => .ite ?_ trivial
  refine (Every.whileM (htest fun g => g.waitingCmd != Cmd.none) notSock_gbridgeLoop).bind
    fun _ => ?_
  refine (notSock_modify _).bind fun _ => ?_
  exact Every.whileM (htest fun g => g.waitingCmd == cmd) notSock_gbridgeLoop

theorem notSock_gbridgeCmdData (data : GbridgeData) : (gbridgeCmdData data).Every NotSock := by
  refine notSock_get.bind fun g => .ite (.ite ?_ trivial) trivial
  refine Every.bind ?_ fun _ => notSock_waitCmd _
  exact (notSock_write _).bind fun _ => (notSock_write _).bind fun _ => notSock_write _

theorem notSock_gbridgeCmdStream (buffer : List UInt8) (size : Nat) :
    (gbridgeCmdStream buffer size).Every NotSock := by
  refine notSock_get.bind fun g => .ite ?_ trivial
  refine Every.bind ?_ fun _ => notSock_waitCmd _
  exact (notSock_write _).bind fun _ => (notSock_write _).bind fun _ => notSock_write _

theorem notSock_gbridgeRecvStream (maxSize : Nat) :
    (gbridgeRecvStream maxSize).Every NotSock := by
  refine notSock_get.bind fun g => .ite trivial ?_
  refine (notSock_recvData _ _).bind fun c => ?_
  cases c with
  | none => trivial
  | some c =>
    refine .ite (notSock_refuse _ _) ((notSock_recvData _ _).bind fun size => ?_)
    cases size with
    | none => trivial
    | some size =>
      refine .ite trivial ((notSock_recvData _ _).bind fun buffer => ?_)
      cases buffer with
      | none => trivial
      | some buffer =>
        refine (notSock_recvData _ _).bind fun c => ?_
        cases c with
        | none => trivial
        | some c => exact .ite (notSock_refuse _ _) ((notSock_write _).bind fun _ => trivial)

theorem notSock_reply (c : SockCall) (r : c.Res) : (c.reply r).Every NotSock := by
  cases c with
  | recv conn data addr =>
    refine (notSock_gbridgeCmdData _).bind fun _ => ?_
    refine (notSock_get.bind fun _ => trivial : gbridgeConnected.Every NotSock).bind fun _ => ?_
    exact .ite trivial (.ite trivial ((notSock_gbridgeCmdStream _ _).bind fun _ => trivial))
  | _ => exact (notSock_gbridgeCmdData _).bind fun _ => trivial

/-! ## 4. A request, and the world behind the calls -/

variable {serve : Serve τ} {inv P : τ → Prop} {x : τ} {w : World (List ReadRes)}

/-- The weakest precondition with a world behind the calls, which is to satisfy `inv` after every
step. -/
abbrev wpFor (serve : Serve τ) (inv : τ → Prop) {α : Type} (p : Code α)
    (Q : α → World (List ReadRes) × τ → Prop) (v : World (List ReadRes) × τ) : Prop :=
  wpre (Spec.guarded (semFor serve) fun v => inv v.2) false p Q v

/-- What makes no call does what it does without a world behind the calls, and leaves that world
alone. -/
theorem wpFor_frame {α : Type} {p : Code α} {Q : α → World (List ReadRes) → Prop} (hinv : inv x)
    (hp : p.Every NotSock) (h : wpS p Q w) :
    wpFor serve inv p (fun a v => Q a v.1 ∧ v.2 = x) (w, x) := by
  refine wpre_frame ?_ hp h
  rintro β e Q w he hpre b ⟨w', y⟩ hs
  obtain ⟨hs, rfl⟩ := (semFor_other he).mp hs
  exact ⟨hinv, hpre b w' hs, rfl⟩

theorem wpFor_quiet {α : Type} {p : Code α} (hinv : inv x) (hp : p.Every NotSock) :
    wpFor serve inv p (fun _ v => v.2 = x) (w, x) :=
  wpre_mono (fun _ _ h => h.2)
    (wpFor_frame hinv hp (wpre_true (fun _ _ _ _ _ => trivial) p w))

theorem wpFor_get {α : Type} {f : State → Code α} {Q : α → World (List ReadRes) × τ → Prop}
    (hinv : inv x) (h : wpFor serve inv (f w.g) Q (w, x)) :
    wpFor serve inv (get.bind f) Q (w, x) := by
  rintro g ⟨w', y⟩ ⟨⟨hg, hw⟩, hy⟩
  obtain rfl : w' = w := hw
  obtain rfl : y = x := hy
  obtain rfl : g = w'.g := hg
  exact ⟨hinv, h⟩

/-- A call, and what the handler does with its result. -/
theorem wpFor_sock {c : SockCall} (hP : ∀ y, P y → inv y) (h : ∀ r y, serve c x r y → P y) :
    wpFor serve inv (do let r ← sock c; c.reply r) (fun _ v => P v.2) (w, x) := by
  rintro r ⟨w', y⟩ ⟨rfl, hserve⟩
  have hy : P y := h r y hserve
  refine ⟨hP y hy, wpre_mono ?_ (wpFor_quiet (hP y hy) (notSock_reply c r))⟩
  rintro _ v rfl
  exact hy

/-- What has to be known of the calls a request may lead to, for `P` to hold at the end of the world
behind them. -/
def Ask.Needs (serve : Serve τ) (P : τ → Prop) (x : τ) (w : World (List ReadRes)) : Ask → Prop
  | .nothing => P x
  | .call c => ∀ r y, serve c x r y → P y
  | .send conn addr => wpS (gbridgeRecvStream 0x200) (fun stream _ =>
      if stream.1 < 0 then P x
      else ∀ r y, serve (.send conn (stream.2.take stream.1.toNat) addr) x r y → P y) w

theorem wpFor_perform (hinv : inv x) (hP : ∀ y, P y → inv y) {a : Ask}
    (h : a.Needs serve P x w) : wpFor serve inv a.perform (fun _ v => P v.2) (w, x) := by
  cases a with
  | nothing => exact h
  | call c => exact wpFor_sock hP h
  | send conn addr =>
    refine wpre_seq _ (wpFor_frame hinv (notSock_gbridgeRecvStream _) h) ?_
    rintro ⟨res, buffer⟩ ⟨w', _⟩ ⟨hneeds, rfl⟩
    refine (wpre_ite _ _ _).mpr ?_
    by_cases hneg : res < 0
    · rw [if_pos hneg] at hneeds ⊢
      exact hneeds
    · rw [if_neg hneg] at hneeds ⊢
      exact wpFor_sock hP hneeds

/-- Nothing is asked for by a packet of no bytes. -/
theorem asks_empty {d : GbridgeData} (h : d.size = 0) : asks d = .nothing := by
  simp only [asks, h, show (0 : UInt8) ≠ 6 by decide, show (0 : UInt8) ≠ 2 by decide,
    show (0 : UInt8) ≠ 4 by decide, show (0 : UInt8) < 2 by decide, ne_eq, not_false_eq_true,
    ↓reduceIte, ite_self]

/-- **What `gbridge_prot_ma_loop` does to the world behind its calls.** -/
theorem wpFor_gbridgeProtMaLoop (hinv : inv x) (hP : ∀ y, P y → inv y)
    (hready : w.g.dataReady = true) (h : (asks w.g.data).Needs serve P x w) :
    wpFor serve inv gbridgeProtMaLoop (fun _ v => P v.2) (w, x) := by
  have hdone : ∀ v : World (List ReadRes) × τ, P v.2 →
      wpFor serve inv gbridgeRecvDataDone (fun _ v => P v.2) v := by
    rintro ⟨w', y⟩ hy
    refine wpre_mono ?_ (wpFor_quiet (hP y hy) (notSock_modify _))
    rintro _ v rfl
    exact hy
  refine wpFor_get hinv ?_
  rw [hready]
  refine (wpre_ite _ _ _).mpr ?_
  by_cases hsize : w.g.data.size.toNat < 1
  · rw [if_pos hsize]
    rw [asks_empty (UInt8.toNat_inj.mp (Nat.lt_one_iff.mp hsize))] at h
    exact hdone _ h
  · rw [if_neg hsize, handleRequest_eq]
    exact wpre_seq _ (wpFor_perform hinv hP h) fun _ v hv => hdone v hv

/-- What a request comes to, `gbridge_prot_ma_loop` comes to. -/
theorem protMaLoop_reach (hready : w.g.dataReady = true) (hsize : ¬ w.g.data.size.toNat < 1)
    {p : Code Bool} {v : World (List ReadRes) × τ}
    (h : Reach (semFor serve) ((asks w.g.data).perform, (w, x)) (p, v)) :
    ∃ p', Reach (semFor serve) (gbridgeProtMaLoop, (w, x)) (p', v) := by
  refine ⟨p.bind fun _ => gbridgeRecvDataDone,
    .head (b := (_, (w, x))) ⟨w.g, ⟨⟨rfl, rfl⟩, rfl⟩, rfl⟩ ?_⟩
  rw [hready]
  simp only [↓reduceIte, if_neg hsize, handleRequest_eq]
  exact reach_bind _ h

/-- A call is made, and may come to whatever stands behind it. -/
theorem sock_reach (serve : Serve τ) {c : SockCall} {r : c.Res} {y : τ} (hserve : serve c x r y) :
    ∃ p, Reach (semFor serve) ((do let r ← sock c; c.reply r), (w, x)) (p, (w, y)) :=
  ⟨_, .single ⟨r, ⟨rfl, hserve⟩, rfl⟩⟩

end Service

end GBridge.Bridge

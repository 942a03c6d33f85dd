/-
# The count a call returns and the stream that comes with it

`mobile_impl_sock_recv` returns the count of the reply, and the bytes come afterwards, in a stream
with a length of its own.  `recv_cmd_stream_pc` sees to it that they fit into the buffer.  Nothing
sees to it that there are as many as the count says, or that the count is within the size that was
asked for.  `recv_count_iff` says exactly when the call keeps to its count: if a stream that is
accepted was announced with its length, and a reply that announces bytes finds room for some.

What a call receives of a stream is noted next to the run: what `recv_cmd_stream_pc` reads, and
where it stores (`Noted`).  These notes do not get in the way (`noted_eval`).

* Before the buffer is armed there is nothing to note, because a STREAM_PC packet is refused as soon
  as it begins (`State.Unbegun`).  That has to hold when the call begins, so it is an invariant of
  all the calls.
* Afterwards the notes follow the packet stage by stage (`Part`, `Taking`), one lemma for each stage
  of `recv_cmd_stream_pc`, and a DATA_PC packet in between leaves them alone (`Apart`).
* When the loop of `gbridge_recv_stream_wait` is left, either a whole packet has been read or the
  link is lost (`wpN_gbridgeRecvStreamWait`).  An empty packet counts for one byte there, because
  the receiver stores before it tests (`Complete`).
-/
import GBridge.Atmega.Stale

namespace GBridge.Atmega

open Prog Bytes

/-! ## 1. No stream begins without a buffer -/

/-- While no buffer is armed nothing has been read of a STREAM_PC packet. -/
def State.Unbegun (g : State) : Prop :=
  g.streamMaxSize = 0 → g.processingCmd = Cmd.streamPc → g.processingCmdState = 0

theorem State.Unbegun.of_ne {g : State} (h : g.processingCmd ≠ Cmd.streamPc) : g.Unbegun :=
  fun _ hcmd => absurd hcmd h

theorem State.Unbegun.quiet {g : State} (h : g.processingCmd = Cmd.none) : g.Unbegun :=
  .of_ne fun hcmd => absurd (h.symm.trans hcmd) (by decide)

section Next

variable {l l' : Line}

theorem Line.nextChecksum_unbegun {data : GbridgeData} {accepted : State}
    (hnext : l.nextChecksum data accepted = some l') : l'.g.Unbegun := by
  unfold nextChecksum at hnext
  split at hnext
  · split at hnext <;> cases hnext <;> exact .quiet rfl
  · cases hnext

theorem Line.nextDataPc_unbegun (hcmd : l.g.processingCmd = Cmd.dataPc)
    (hnext : l.nextDataPc = some l') : l'.g.Unbegun := by
  have hne : l.g.processingCmd ≠ Cmd.streamPc := by
    rw [hcmd]
    decide
  unfold nextDataPc at hnext
  split at hnext
  · cases hnext
    exact .quiet rfl
  split at hnext
  · unfold nextDataLen at hnext
    split at hnext
    · cases hnext
    · split at hnext <;> cases hnext
      · exact .quiet rfl
      · exact .of_ne hne
  split at hnext
  · unfold nextByte at hnext
    split at hnext <;> cases hnext
    refine .of_ne ?_
    split <;> exact hne
  split at hnext
  · exact nextChecksum_unbegun hnext
  · cases hnext

theorem Line.nextStreamPc_unbegun (hnext : l.nextStreamPc = some l') : l'.g.Unbegun := by
  unfold nextStreamPc at hnext
  split at hnext
  · cases hnext
    exact .quiet rfl
  rename_i harmed
  split at hnext
  · unfold nextStreamLen at hnext
    split at hnext
    · simp only at hnext
      split at hnext <;> cases hnext
      · exact .quiet rfl
      · exact fun hzero => absurd hzero harmed
    · cases hnext
  split at hnext
  · unfold nextByte at hnext
    split at hnext <;> cases hnext
    intro hzero
    refine absurd ?_ harmed
    rw [← hzero]
    split <;> rfl
  split at hnext
  · exact nextChecksum_unbegun hnext
  · cases hnext

/-- **A step begins no stream without a buffer.** -/
theorem Line.next_unbegun {now : UInt32} (h : l.g.Unbegun) (hnext : l.next now = some l') :
    l'.g.Unbegun := by
  unfold next at hnext
  split at hnext
  · unfold nextHandshake at hnext
    split at hnext
    · cases hnext
    split at hnext
    · cases hnext
      exact h
    split at hnext <;> cases hnext <;> exact h
  split at hnext
  · unfold nextCommand at hnext
    split at hnext
    · cases hnext
    split at hnext
    · cases hnext
      exact h
    split at hnext
    · split at hnext <;> cases hnext <;> exact h
    · cases hnext
      exact fun _ _ => rfl
  split at hnext
  · cases hnext
    exact .quiet rfl
  split at hnext
  · exact nextDataPc_unbegun ‹_› hnext
  split at hnext
  · exact nextStreamPc_unbegun hnext
  · cases hnext
    exact .quiet rfl

end Next

theorem Turns.unbegun {n : Nat} {bs : List UInt8} {l l' : Line} (hturns : Turns l n bs l')
    (h : l.g.Unbegun) : l'.g.Unbegun := by
  induction hturns with
  | refl => exact h
  | next now _ hnext ih => exact Line.next_unbegun ih hnext
  | hear more _ ih => exact ih

theorem Looped.unbegun {safe : Prop} {w w' : Live} (hl : Looped safe w w') (h : w.g.Unbegun) :
    w'.g.Unbegun := by
  cases hl with
  | moved hm =>
    obtain ⟨n, hwent, -⟩ := hm
    obtain ⟨bs, -, hturns⟩ := hwent.turns
    exact hturns.unbegun h
  | timeout _ _ _ hline =>
    rw [show w'.g = _ from congrArg Line.g hline]
    exact .quiet rfl

/-! ## 2. What the calls keep -/

/-- Of the variables, what `gbridge_loop` keeps and the rest of the calls leave alone. -/
structure Kept (env : Surroundings) (I : State → Prop) : Prop where
  loop : Keeps (freeSpec env) (fun w => I w.g) gbridgeLoop
  waiting : ∀ g cmd now, I g → I { g with waitingCmd := cmd, waitingCmdTime := now }
  done : ∀ g, I g → I { g with dataReady := false }
  sum : ∀ g k, I g → I { g with streamChecksum := k }

section Kept

variable {env : Surroundings} {I : State → Prop} {α : Type}

theorem kept_get {k : State → Code α} (h : ∀ g, Keeps (freeSpec env) (fun w => I w.g) (k g)) :
    Keeps (freeSpec env) (fun w => I w.g) (get.bind k) :=
  fun w hw => wpL_get k False.elim (h w.g w hw)

theorem kept_modify {f : State → State} (hf : ∀ g, I g → I (f g)) :
    Keeps (freeSpec env) (fun w => I w.g) (modify f) :=
  fun w hw => wpL_modify f False.elim False.elim (hf w.g hw)

theorem kept_putchars (cs : List UInt8) :
    Keeps (freeSpec env) (fun w => I w.g) (serialPutchars cs) :=
  fun _ hw => wpL_putchars cs False.elim hw

theorem kept_putchar (c : UInt8) : Keeps (freeSpec env) (fun w => I w.g) (serialPutchar c) :=
  fun w hw => (wpL_cmd (w := w) (Op.putchar c)).mpr ⟨False.elim, hw⟩

namespace Kept

variable (hI : Kept env I)

include hI

theorem waits {c : State → Bool} : Keeps (freeSpec env) (fun w => I w.g)
    (.whileM (do return c (← get)) gbridgeLoop) :=
  .whileM (kept_get fun _ => .ret _) hI.loop

theorem waitCmd (cmd : UInt8) : Keeps (freeSpec env) (fun w => I w.g) (waitCmd cmd) := by
  refine kept_get fun _ => .ite (.bind hI.waits fun _ => ?_) (.ret ())
  refine .bind (fun w hw => wpL_timerGet False.elim hw) fun now => ?_
  exact .bind (kept_modify fun g => hI.waiting g cmd now) fun _ => hI.waits

theorem cmdData (data : GbridgeData) :
    Keeps (freeSpec env) (fun w => I w.g) (gbridgeCmdData data) :=
  kept_get fun _ => .ite (.ite (.bind (.bind (kept_putchar _) fun _ =>
    .bind (kept_putchar _) fun _ => .bind (kept_putchars _) fun _ =>
      .bind (kept_putchar _) fun _ => kept_putchar _) fun _ => hI.waitCmd _)
    (.ret ())) (.ret ())

theorem cmdDebugLine (line : List UInt8) :
    Keeps (freeSpec env) (fun w => I w.g) (gbridgeCmdDebugLine line) :=
  kept_get fun _ => .ite (.ite (.bind (kept_putchar _) fun _ =>
    .bind (kept_putchar _) fun _ => .bind (kept_putchars _) fun _ => hI.waitCmd _)
    (.ret ())) (.ret ())

theorem recvDataWait : Keeps (freeSpec env) (fun w => I w.g) gbridgeRecvDataWait :=
  .bind hI.waits fun _ => kept_get fun _ => .ite (kept_get fun _ => .ret _) (.ret _)

theorem request (data : GbridgeData) : Keeps (freeSpec env) (fun w => I w.g) (request data) :=
  .bind (hI.cmdData data) fun _ => hI.recvDataWait

theorem recvDataDone : Keeps (freeSpec env) (fun w => I w.g) gbridgeRecvDataDone :=
  kept_modify hI.done

/-- A call that is done with its packet. -/
theorem finish (r : Result) :
    Keeps (freeSpec env) (fun w => I w.g) (do gbridgeRecvDataDone; return r) :=
  .bind hI.recvDataDone fun _ => .ret r

theorem sockFlag (cmd : UInt8) (conn : Nat) :
    Keeps (freeSpec env) (fun w => I w.g) (mobileImplSockFlag cmd conn) := by
  refine .bind (hI.request _) fun x => ?_
  cases x with
  | none => exact hI.finish _
  | some d => exact .ite (hI.finish _) (hI.finish _)

theorem sockSend (conn : Nat) (buffer : List UInt8) (addr : Option MobileAddr) :
    Keeps (freeSpec env) (fun w => I w.g) (mobileImplSockSend conn buffer addr) := by
  refine .bind (hI.cmdData _) fun _ => .bind (kept_get fun _ => .ret _) fun c => ?_
  refine .ite (.bind ?_ fun _ => .bind ?_ fun _ => .bind ?_ fun _ =>
    .bind hI.recvDataWait fun x => ?_) (hI.finish _)
  · exact kept_get fun _ => .ite (.bind (kept_putchar _) fun _ => .bind (kept_putchar _)
      fun _ => .bind (kept_putchar _) fun _ => kept_modify fun g => hI.sum g 0) (.ret ())
  · exact kept_get fun _ => .ite (.bind (kept_modify fun g => hI.sum g _) fun _ =>
      kept_putchars buffer) (.ret ())
  · exact kept_get fun _ => .ite (.bind (kept_get fun _ => .bind (kept_putchar _) fun _ =>
      kept_putchar _) fun _ => hI.waitCmd _) (.ret ())
  · cases x with
    | none => exact hI.finish _
    | some recvData => exact .ite (hI.finish _) (hI.finish _)

/-- Every call but `mobile_impl_sock_recv`, which arms a buffer. -/
theorem call (c : ApiCall) (hc : ∀ conn buffer size addr, c ≠ .sockRecv conn buffer size addr) :
    Keeps (freeSpec env) (fun w => I w.g) c.code := by
  have hreported : ∀ {p : Code Result}, Keeps (freeSpec env) (fun w => I w.g) p →
      Keeps (freeSpec env) (fun w => I w.g) (reported p) := fun hp => .bind hp fun r w hw =>
    (wpL_cmd (w := w) (Op.returned r)).mpr ⟨False.elim, hw⟩
  cases c with
  | sockOpen =>
    refine hreported (.bind (hI.request _) fun x => ?_)
    cases x with
    | none => exact hI.finish _
    | some d => exact .ite (hI.finish _) (hI.finish _)
  | sockClose => exact hreported (.bind (hI.request _) fun _ => hI.finish _)
  | sockConnect =>
    refine hreported (.bind (hI.request _) fun x => ?_)
    cases x with
    | none => exact hI.finish _
    | some d => exact .ite (hI.finish _) (hI.finish _)
  | sockListen conn => exact hreported (hI.sockFlag _ conn)
  | sockAccept conn => exact hreported (hI.sockFlag _ conn)
  | sockSend conn buffer addr => exact hreported (hI.sockSend conn buffer addr)
  | sockRecv conn buffer size addr => exact absurd rfl (hc conn buffer size addr)
  | debugLine line => exact hI.cmdDebugLine line
  | loop => exact hI.loop
  | protMaLoop =>
    refine .bind (kept_get fun _ => .ret _) fun x => ?_
    cases x with
    | none => exact .ret ()
    | some _ => exact hI.recvDataDone

end Kept

end Kept

theorem unbegun_kept (env : Surroundings) : Kept env State.Unbegun where
  loop := by
    intro w hw
    refine wpre_mono ?_ (wpL_gbridgeLoop env.enough_false False.elim)
    intro _ w' hl
    exact hl.unbegun hw
  waiting := fun _ _ _ h => h
  done := fun _ h => h
  sum := fun _ _ h => h

/-- The count of a reply that is accepted. -/
def replyCount (x : Option GbridgeData) : Option Int :=
  x.bind fun d => (addressReadSize d).bind fun n =>
    let recvAddrlen := (addressRead (d.buffer.drop 3) n).1
    if recvAddrlen = 0 ∨ d.size.toNat ≠ recvAddrlen + 3 then none
    else some (int16 (be16 (d.buffer.getD 1 0) (d.buffer.getD 2 0)))

section Reply

variable (buffer : List UInt8) (size : Nat) (addr : Option MobileAddr) {x : Option GbridgeData}

theorem recvReply_refused (h : replyCount x = none) :
    ∃ a, recvReply buffer size addr x = do gbridgeRecvDataDone; return .recv (-1) buffer a := by
  cases x with
  | none => exact ⟨addr, rfl⟩
  | some d =>
    cases hread : addressReadSize d with
    | none => exact ⟨addr, by simp only [recvReply, hread]⟩
    | some n =>
      have hrefused : (addressRead (d.buffer.drop 3) n).1 = 0 ∨
          d.size.toNat ≠ (addressRead (d.buffer.drop 3) n).1 + 3 := by
        by_contra hok
        simp [replyCount, hread, if_neg hok] at h
      exact ⟨_, by simp only [recvReply, hread, if_pos hrefused]; rfl⟩

theorem recvReply_accepted {res : Int} (h : replyCount x = some res) :
    ∃ a, recvReply buffer size addr x = do
      gbridgeRecvDataDone
      if res ≤ 0 then return .recv res buffer a
      else if ← gbridgeRecvStreamWait buffer size then return .recv res (← get).streamBuf a
      else return .recv (-1) (← get).streamBuf a := by
  simp only [replyCount, Option.bind_eq_some_iff] at h
  obtain ⟨d, rfl, n, hread, h⟩ := h
  by_cases hrefused : (addressRead (d.buffer.drop 3) n).1 = 0 ∨
      d.size.toNat ≠ (addressRead (d.buffer.drop 3) n).1 + 3
  · rw [if_pos hrefused] at h
    cases h
  · rw [if_neg hrefused] at h
    cases h
    exact ⟨_, by simp only [recvReply, hread, if_neg hrefused]; rfl⟩

end Reply

/-- `mobile_impl_sock_recv` arms its buffer when none is armed. -/
theorem unbegun_recvReply {env : Surroundings} {buffer : List UInt8} {size : Nat}
    {addr : Option MobileAddr} (x : Option GbridgeData) {w : Live} (hzero : w.g.streamMaxSize = 0)
    (h : w.g.Unbegun) :
    wpre (freeSpec env) false (recvReply buffer size addr x) (fun _ w' => w'.g.Unbegun) w := by
  have hI := unbegun_kept env
  cases hx : replyCount x with
  | none =>
    obtain ⟨a, ha⟩ := recvReply_refused buffer size addr hx
    rw [ha]
    exact hI.finish _ w h
  | some res =>
    obtain ⟨a, ha⟩ := recvReply_accepted buffer size addr hx
    rw [ha]
    refine (wpL_bind _ _).mpr (wpL_modify _ False.elim False.elim (wpre_if (fun _ => h)
      fun _ => ?_))
    refine (wpL_bind _ _).mpr ((wpL_bind _ _).mpr (wpL_modify _ False.elim False.elim ?_))
    have harmed : State.Unbegun { w.g with
        dataReady := false, streamBuf := buffer, streamSize := 0, streamMaxSize := size,
        streamCur := 0, streamChecksum := 0 } := fun _ hcmd => h hzero hcmd
    refine (wpL_bind _ _).mpr (wpre_mono ?_ (hI.waits _ harmed))
    intro _ w' h'
    exact wpL_get _ False.elim (wpre_if (fun _ => wpL_get _ False.elim h')
      fun _ => wpL_get _ False.elim h')

/-- **Between calls** nothing is armed, and no stream has begun. -/
theorem settled_called {w : Live} (h : Called w) : w.g.Disarmed ∧ w.g.Unbegun := by
  induction h with
  | @start w h =>
    obtain ⟨g, hg⟩ := h
    rw [hg]
    exact ⟨⟨rfl, rfl, fun _ => ⟨rfl, rfl⟩⟩, .quiet rfl⟩
  | @call w w' env c _ he ih =>
    have hsound := Spec.guarded_sound (live env) fun w => False → w.Inside
    refine ⟨wpre_eval (Q := fun _ w' => w'.g.Disarmed) hsound (c.leaves env w ih.1) he, ?_⟩
    by_cases hc : ∀ conn buffer size addr, c ≠ .sockRecv conn buffer size addr
    · exact wpre_eval (Q := fun _ w' => w'.g.Unbegun) hsound
        ((unbegun_kept env).call c hc w ih.2) he
    · simp only [not_forall, not_not] at hc
      obtain ⟨conn, buffer, size, addr, rfl⟩ := hc
      obtain ⟨r, w₂, hrecv, hreport⟩ := eval_bind.mp he
      obtain ⟨_, _, hs, rfl, rfl⟩ := hreport
      cases hs
      rw [mobileImplSockRecv_reply] at hrecv
      obtain ⟨x, w₁, hx, hr⟩ := eval_bind.mp hrecv
      have hdisarmed : w₁.g.Disarmed := wpre_eval (Q := fun _ w' => w'.g.Disarmed) hsound
        (leaves_request _ w ih.1) hx
      have hunbegun : w₁.g.Unbegun := wpre_eval (Q := fun _ w' => w'.g.Unbegun) hsound
        ((unbegun_kept env).request _ w ih.2) hx
      have hleft : w₂.g.Unbegun := wpre_eval (Q := fun _ w' => w'.g.Unbegun) hsound
        (unbegun_recvReply x hdisarmed.stream hunbegun) hr
      exact hleft

/-! ## 3. What is received of a stream -/

/-- A run, and what it takes of a stream. -/
structure Noted where
  live : Live
  /-- What `recv_cmd_stream_pc` has read, the command byte not counted. -/
  read : List UInt8 := []
  /-- Where it has stored. -/
  stored : List Nat := []

/-- What an operation answers and does, and what is noted of it. -/
def notedAnswer (env : Surroundings) {β : Type} (e : Op β) (v : Noted) : β × Noted :=
  let r := liveAnswer env e v.live
  match β, e, r with
  | _, .getchar, r =>
    if v.live.g.processingCmd = Cmd.streamPc then
      (r.1, { v with live := r.2, read := v.read ++ [r.1] })
    else (r.1, { v with live := r.2 })
  | _, .storeStream i _, r => (r.1, { v with live := r.2, stored := v.stored ++ [i] })
  | _, _, r => (r.1, { v with live := r.2 })

/-- The operations, with what is noted. -/
def noted (env : Surroundings) : Sem Op Noted := fun _ e v b v' => notedAnswer env e v = (b, v')

theorem notedAnswer_live (env : Surroundings) {β : Type} (e : Op β) (v : Noted) :
    (notedAnswer env e v).1 = (liveAnswer env e v.live).1 ∧
      (notedAnswer env e v).2.live = (liveAnswer env e v.live).2 := by
  cases e with
  | getchar =>
    unfold notedAnswer
    simp only
    split <;> exact ⟨rfl, rfl⟩
  | _ => exact ⟨rfl, rfl⟩

/-- What is noted does not get in the way of a run. -/
theorem noted_eval {env : Surroundings} {α : Type} {p : Code α} {v : Noted} {a : α} {w' : Live} :
    Eval (live env) p v.live a w' ↔ ∃ v', Eval (noted env) p v a v' ∧ v'.live = w' := by
  constructor
  · refine eval_ghost fun β e v b w' hs => ⟨(notedAnswer env e v).2, ?_, ?_⟩
    · refine Prod.ext ((notedAnswer_live env e v).1.trans ?_) rfl
      exact congrArg Prod.fst (hs : liveAnswer env e v.live = (b, w'))
    · refine (notedAnswer_live env e v).2.trans ?_
      exact congrArg Prod.snd (hs : liveAnswer env e v.live = (b, w'))
  · rintro ⟨v', he, rfl⟩
    have hview : ∀ (β : Type) (e : Op β) (v : Noted) (b : β) (v' : Noted), noted env β e v b v' →
        live env β e v.live b v'.live := by
      intro β e v b v' hs
      obtain ⟨hb, hv⟩ := notedAnswer_live env e v
      rw [show notedAnswer env e v = (b, v') from hs] at hb hv
      exact Prod.ext hb.symm hv.symm
    exact eval_view hview he

/-- What has been read is a whole STREAM_PC packet that fits into `size` bytes and has the right
checksum.  An empty one comes with a byte of payload, because the receiver stores before it
tests. -/
def Complete (size : Nat) (read : List UInt8) (h l : UInt8) (body : List UInt8) : Prop :=
  ∃ c₁ c₂, read = h :: l :: (body ++ [c₁, c₂]) ∧ body.length = max l.toNat 1 ∧ l.toNat ≤ size ∧
    be16 c₁ c₂ = sum16 0 (body.take l.toNat)

/-- There is a buffer of this size to receive into. -/
structure State.ArmedFor (size : Nat) (g : State) : Prop where
  connected : g.connected = true
  armed : g.streamMaxSize = size
  room : size ≤ g.streamBuf.length

/-- A STREAM_PC packet is received, and has come so far. -/
structure Part (size stage : Nat) (h l : UInt8) (got : List UInt8) (v : Noted) : Prop where
  buffer : v.live.g.ArmedFor size
  cmd : v.live.g.processingCmd = Cmd.streamPc
  stage : v.live.g.processingCmdState = stage
  length : v.live.g.streamSize = l
  fits : l.toNat ≤ size
  read : v.read = h :: l :: got
  stored : v.stored = List.range got.length
  taken : v.live.g.streamBuf.take got.length = got

/-- How far the stream has come, as the loop in which the call waits for it finds it. -/
inductive Taking (size : Nat) (v : Noted) : Prop
  | before : v.live.g.ArmedFor size →
    (v.live.g.processingCmd = Cmd.streamPc → v.live.g.processingCmdState = 0) → v.read = [] →
    v.stored = [] → Taking size v
  | bytes {h l : UInt8} {got : List UInt8} : Part size 1 h l got v →
    v.live.g.streamCur = got.length → got.length < max l.toNat 1 → Taking size v
  | sum {h l : UInt8} {got : List UInt8} : Part size 2 h l got v →
    got.length = max l.toNat 1 → Taking size v
  | done {h l : UInt8} {got : List UInt8} : v.live.g.connected = true →
    v.live.g.streamMaxSize = 0 → Complete size v.read h l got →
    v.stored = List.range got.length → Taking size v
  | lost : v.live.g.connected = false → (∀ h l body, ¬ Complete size v.read h l body) →
    Taking size v

def Noted.withG (v : Noted) (g : State) : Noted := { v with live := { v.live with g } }

/-- What is made of the result of a receiver. -/
def Noted.after (v : Noted) (rc : Int) : Noted :=
  if rc = 1 then v.withG { v.live.g with processingCmd := Cmd.none }
  else if rc = -1 then v.withG v.live.g.init
  else v

/-- The weakest precondition, with what is noted. -/
abbrev wpN (env : Surroundings) {α : Type} (p : Code α) (Q : α → Noted → Prop) (v : Noted) :
    Prop :=
  wpre (Spec.demonic (noted env)) false p Q v

section Rules

variable {env : Surroundings} {α β : Type} {v : Noted}

theorem wpN_op {Q : α → Noted → Prop} {e : Op β} {k : β → Code α}
    (h : wpN env (k (notedAnswer env e v).1) Q (notedAnswer env e v).2) :
    wpN env (.op e k) Q v := by
  intro b v' hs
  rw [show notedAnswer env e v = (b, v') from hs] at h
  exact h

theorem wpN_bind {Q : α → Noted → Prop} {p : Code β} {f : β → Code α}
    (h : wpN env p (fun b v' => wpN env (f b) Q v') v) : wpN env (p.bind f) Q v := wpre_bind.mpr h

theorem wpN_get {Q : α → Noted → Prop} {k : State → Code α} (h : wpN env (k v.live.g) Q v) :
    wpN env (get.bind k) Q v := wpN_op h

theorem wpN_modify {Q : Unit → Noted → Prop} (f : State → State)
    (h : Q () (v.withG (f v.live.g))) : wpN env (modify f) Q v := wpN_get (wpN_op h)

/-- What arrives is neither read nor stored. -/
theorem wpN_available {Q : Nat → Noted → Prop}
    (h : ∀ n w, w.g = v.live.g → Q n { v with live := w }) : wpN env serialAvailable Q v :=
  wpN_op (h _ _ rfl)

theorem wpN_timerGet {Q : UInt32 → Noted → Prop}
    (h : ∀ t w, w.g = v.live.g → Q t { v with live := w }) : wpN env timerGet Q v :=
  wpN_op (h _ _ rfl)

theorem wpN_putchar {Q : Unit → Noted → Prop} (c : UInt8)
    (h : ∀ w, w.g = v.live.g → Q () { v with live := w }) : wpN env (serialPutchar c) Q v :=
  wpN_op (h _ rfl)

theorem wpN_timedOut {Q : Bool → Noted → Prop} (cmd : UInt8) (since : UInt32)
    (h : ∀ b w, w.g = v.live.g → Q b { v with live := w }) : wpN env (timedOut cmd since) Q v := by
  unfold timedOut
  split
  · exact wpN_op (h _ _ rfl)
  · exact h false v.live rfl

theorem getchar_g (w : Live) : (liveAnswer env .getchar w).2.g = w.g := by
  obtain ⟨g, rx⟩ := w
  cases rx <;> rfl

/-- A byte of a STREAM_PC packet is noted. -/
theorem wpN_getchar_stream {Q : UInt8 → Noted → Prop} (hcmd : v.live.g.processingCmd = Cmd.streamPc)
    (h : ∀ c w, w.g = v.live.g → Q c { v with live := w, read := v.read ++ [c] }) :
    wpN env serialGetchar Q v := by
  refine wpN_op ?_
  unfold notedAnswer
  simp only [hcmd, if_pos]
  exact h _ _ (getchar_g _)

/-- Any other is not. -/
theorem wpN_getchar_other {Q : UInt8 → Noted → Prop}
    (hcmd : v.live.g.processingCmd ≠ Cmd.streamPc)
    (h : ∀ c w, w.g = v.live.g → Q c { v with live := w }) : wpN env serialGetchar Q v := by
  refine wpN_op ?_
  unfold notedAnswer
  simp only [if_neg hcmd]
  exact h _ _ (getchar_g _)

end Rules

/-! ## 4. A stream is received -/

section Stream

variable {env : Surroundings} {size stage : Nat} {h l : UInt8} {got : List UInt8} {v : Noted}

/-- Only the variables and what is noted matter. -/
theorem Part.of_g {w : Live} (hp : Part size stage h l got v) (hg : w.g = v.live.g) :
    Part size stage h l got { v with live := w } := by
  obtain ⟨hbuffer, hcmd, hstage, hlength, hfits, hread, hstored, htaken⟩ := hp
  rw [← hg] at hbuffer hcmd hstage hlength htaken
  exact ⟨hbuffer, hcmd, hstage, hlength, hfits, hread, hstored, htaken⟩

/-- As long as the checksum has not been read the packet is not complete. -/
theorem Part.incomplete (hp : Part size stage h l got v) (hle : got.length ≤ max l.toNat 1)
    (h' l' : UInt8) (body : List UInt8) : ¬ Complete size v.read h' l' body := by
  rintro ⟨c₁, c₂, hread, hlen, -⟩
  have hsame := hp.read.symm.trans hread
  simp only [List.cons.injEq] at hsame
  obtain ⟨-, rfl, rfl⟩ := hsame
  rw [List.length_append, List.length_cons, List.length_cons, List.length_nil] at hle
  omega

/-- `case 2`: with the checksum the packet is complete. -/
theorem wpN_recvStreamPcChecksum (hp : Part size 2 h l got v) (hlen : got.length = max l.toNat 1) :
    wpN env recvStreamPcChecksum (fun rc v' => Taking size (v'.after rc)) v := by
  refine wpN_bind (wpN_available fun n w hg => wpre_if (fun _ => ?_) fun _ => ?_)
  · exact .sum (hp.of_g hg) hlen
  replace hp := hp.of_g hg
  refine wpN_bind (wpN_getchar_stream hp.cmd fun c₁ w₁ hg₁ => ?_)
  refine wpN_bind (wpN_getchar_stream (hg₁ ▸ hp.cmd) fun c₂ w₂ hg₂ => wpN_get ?_)
  have hg₂ : w₂.g = w.g := hg₂.trans hg₁
  have hread : v.read ++ [c₁] ++ [c₂] = h :: l :: (got ++ [c₁, c₂]) := by
    rw [show v.read = h :: l :: got from hp.read]
    simp
  have hsum : w₂.g.streamRecv.checksumData = sum16 0 (got.take l.toNat) := by
    have hle : l.toNat ≤ got.length := hlen ▸ Nat.le_max_left _ _
    show sum16 0 (w₂.g.streamBuf.take w₂.g.streamSize.toNat) = _
    rw [hg₂, show w.g.streamSize = l from hp.length]
    conv_rhs => rw [← hp.taken]
    rw [List.take_take, Nat.min_eq_left hle]
  refine wpre_if (fun hne => ?_) fun heq => ?_
  · refine .lost rfl ?_
    rintro h' l' body ⟨c₁', c₂', hread', -, -, hsum'⟩
    have hsame := hread.symm.trans hread'
    simp only [List.cons.injEq] at hsame
    obtain ⟨-, rfl, hrest⟩ := hsame
    obtain ⟨rfl, hck⟩ := List.append_inj' hrest rfl
    simp only [List.cons.injEq] at hck
    obtain ⟨rfl, rfl, -⟩ := hck
    exact hne (hsum'.trans hsum.symm)
  · refine wpN_bind (wpN_putchar _ fun w₃ hg₃ => wpN_bind (wpN_modify _ ?_))
    have hconnected : w₃.g.connected = true := by
      rw [hg₃]
      show w₂.g.connected = true
      rw [hg₂]
      exact hp.buffer.connected
    exact .done hconnected rfl ⟨c₁, c₂, hread, hlen, hp.fits, (not_not.mp heq).trans hsum⟩ hp.stored

/-- A byte is stored behind those that are there. -/
theorem Part.store (hp : Part size 1 h l got v) (hcur : v.live.g.streamCur = got.length)
    (hlt : got.length < max l.toNat 1) (hsize : size ≠ 0) (c : UInt8) (w : Live)
    (hg : w.g = Line.putStream v.live.g c) :
    Part size 1 h l (got ++ [c])
      { v with live := w, read := v.read ++ [c], stored := v.stored ++ [v.live.g.streamCur] } ∧
      w.g.streamCur = (got ++ [c]).length := by
  obtain ⟨hbuffer, hcmd, hstage, hlength, hfits, hread, hstored, htaken⟩ := hp
  have hl : l.toNat < 256 := l.toNat_lt
  have hin : got.length < v.live.g.streamBuf.length := by
    have := hbuffer.room
    omega
  have hsucc : (got ++ [c]).length = got.length + 1 := by
    rw [List.length_append, List.length_singleton]
  have hbuf : w.g.streamBuf = v.live.g.streamBuf.set got.length c := by
    rw [hg, ← hcur]
    rfl
  refine ⟨⟨⟨?_, ?_, ?_⟩, ?_, ?_, ?_, hfits, ?_, ?_, ?_⟩, ?_⟩
  · show w.g.connected = true
    rw [hg]
    exact hbuffer.connected
  · show w.g.streamMaxSize = size
    rw [hg]
    exact hbuffer.armed
  · show size ≤ w.g.streamBuf.length
    rw [hbuf, List.length_set]
    exact hbuffer.room
  · show w.g.processingCmd = _
    rw [hg]
    exact hcmd
  · show w.g.processingCmdState = _
    rw [hg]
    exact hstage
  · show w.g.streamSize = _
    rw [hg]
    exact hlength
  · show v.read ++ [c] = _
    rw [hread]
    rfl
  · show v.stored ++ [v.live.g.streamCur] = _
    rw [hstored, hcur, hsucc, List.range_succ]
  · show w.g.streamBuf.take _ = _
    rw [hbuf, hsucc, List.take_succ_eq_append_getElem (by rwa [List.length_set]),
      List.getElem_set_self, List.take_set_of_le (Nat.le_refl _), htaken]
  · rw [hg, hsucc]
    show (v.live.g.streamCur + 1) % 65536 = _
    rw [hcur, Nat.mod_eq_of_lt (by omega)]

/-- `case 1`, the payload. -/
theorem wpN_recvStreamPcBytes (hsize : size ≠ 0) (hp : Part size 1 h l got v)
    (hcur : v.live.g.streamCur = got.length) (hlt : got.length < max l.toNat 1) :
    wpN env recvStreamPcBytes (fun rc v' => Taking size (v'.after rc)) v := by
  refine wpN_bind ⟨fun _ v' => ∃ got, Part size 1 h l got v' ∧ v'.live.g.streamCur = got.length ∧
    got.length < max l.toNat 1, ⟨0, got, hp, hcur, hlt⟩, ?_⟩
  clear hp hcur hlt
  rintro _ v ⟨got, hp, hcur, hlt⟩
  refine wpN_bind (wpN_available fun n w hg => wpre_if (fun _ => ?_) fun _ => ?_)
  · have hstage : w.g.processingCmdState = 1 := by
      rw [hg]
      exact hp.stage
    refine wpN_get ?_
    rw [if_pos hstage]
    exact .bytes (hp.of_g hg) (hg ▸ hcur) hlt
  refine wpN_bind (wpN_getchar_stream (hg ▸ hp.cmd) fun c w₁ hg₁ => wpN_get ?_)
  have hg₁ : w₁.g = v.live.g := hg₁.trans hg
  refine wpN_bind (wpN_op (wpN_bind (wpN_modify _ (wpN_get ?_))))
  -- the two operations store the byte
  obtain ⟨hp', hcur'⟩ := hp.store hcur hlt hsize c
    { w₁ with
      g := Line.putStream w₁.g c, fault := w₁.fault || decide (w₁.limit ≤ w₁.g.streamCur) }
    (congrArg (Line.putStream · c) hg₁)
  rw [← hg₁] at hp'
  have hfull : Line.fullStream (Line.putStream w₁.g c) = true ↔
      (got ++ [c]).length = max l.toNat 1 := by
    have hl : (Line.putStream w₁.g c).streamSize = l := hp'.length
    unfold Line.fullStream
    rw [decide_eq_true_iff, hl, show (Line.putStream w₁.g c).streamCur = _ from hcur']
    rw [List.length_append, List.length_singleton]
    omega
  refine wpre_if (fun hend => ?_) fun hgoon => ?_
  · refine wpN_bind (wpN_modify _ (wpN_get ?_))
    refine wpN_recvStreamPcChecksum (h := h) ?_ (hfull.mp hend)
    exact ⟨⟨hp'.buffer.connected, hp'.buffer.armed, hp'.buffer.room⟩, hp'.cmd, rfl, hp'.length,
      hp'.fits, hp'.read, hp'.stored, hp'.taken⟩
  · refine ⟨0, fun ht => absurd ht (by decide), got ++ [c], hp', hcur', ?_⟩
    have hne := mt hfull.mpr hgoon
    rw [List.length_append, List.length_singleton] at hne ⊢
    omega

/-- `case 0`, the length. -/
theorem wpN_recvStreamPcLen (hsize : size ≠ 0) (hg : v.live.g.ArmedFor size)
    (hcmd : v.live.g.processingCmd = Cmd.streamPc) (hstage : v.live.g.processingCmdState = 0)
    (hread : v.read = []) (hstored : v.stored = []) :
    wpN env recvStreamPcLen (fun rc v' => Taking size (v'.after rc)) v := by
  refine wpN_bind (wpN_available fun n w hw => wpre_if (fun _ => ?_) fun _ => ?_)
  · exact .before (hw ▸ hg) (fun _ => hw ▸ hstage) hread hstored
  rw [← hw] at hg hcmd hstage
  refine wpN_bind (wpN_getchar_stream hcmd fun c₁ w₁ hw₁ => wpN_bind (wpN_modify _ ?_))
  refine wpN_bind (wpN_getchar_stream (hw₁ ▸ hcmd) fun c₂ w₂ hw₂ => wpN_bind (wpN_modify _
    (wpN_get ?_)))
  have hread₂ : v.read ++ [c₁] ++ [c₂] = [c₁, c₂] := by rw [hread]; rfl
  have hg₂ : { w₂.g with streamSize := w₂.g.streamSize ||| c₂ } =
      { w.g with streamSize := c₂ } := by
    rw [hw₂]
    show { w₁.g with streamSize := UInt8.ofNat (c₁.toNat <<< 8) ||| c₂ } = _
    rw [hw₁, streamSize_eq]
  show wpN env (if State.streamMaxSize _ < _ then _ else _) _ (Noted.withG _ _)
  simp only [hg₂]
  refine wpre_if (fun hbig => ?_) fun hfits => ?_
  · refine .lost rfl ?_
    rintro h' l' body ⟨c₁', c₂', hread', -⟩
    have hsame := hread₂.symm.trans hread'
    simp at hsame
  · refine wpN_bind (wpN_modify _ ?_)
    have hfits : c₂.toNat ≤ size := hg.armed ▸ Nat.le_of_not_lt hfits
    refine wpN_recvStreamPcBytes (h := c₁) (l := c₂) hsize
      ⟨⟨hg.connected, hg.armed, hg.room⟩, hcmd, rfl, rfl, hfits, hread₂, hstored, rfl⟩ rfl ?_
    exact Nat.lt_of_lt_of_le Nat.zero_lt_one (Nat.le_max_right _ _)

/-- `recv_cmd_stream_pc` -/
theorem wpN_recvCmdStreamPc (hsize : size ≠ 0) (harmed : v.live.g.ArmedFor size)
    (hcmd : v.live.g.processingCmd = Cmd.streamPc) (h : Taking size v) :
    wpN env recvCmdStreamPc (fun rc v' => Taking size (v'.after rc)) v := by
  refine wpN_get (wpre_if (fun hzero => absurd (harmed.armed.symm.trans hzero) hsize) fun _ => ?_)
  cases h with
  | before _ hstage hread hstored =>
    refine wpre_if (fun _ => ?_) fun hne => absurd (hstage hcmd) hne
    exact wpN_recvStreamPcLen hsize harmed hcmd (hstage hcmd) hread hstored
  | bytes hp hcur hlt =>
    rw [if_neg (by simp [hp.stage]), if_pos hp.stage]
    exact wpN_recvStreamPcBytes hsize hp hcur hlt
  | sum hp hlen =>
    rw [if_neg (by simp [hp.stage]), if_neg (by simp [hp.stage]), if_pos hp.stage]
    exact wpN_recvStreamPcChecksum hp hlen
  | done _ hzero => exact absurd (harmed.armed.symm.trans hzero) hsize
  | lost hdown => exact absurd (harmed.connected.symm.trans hdown) (by decide)

/-! ## 5. The loop in which it is waited for -/

/-- While the buffer is armed the packet is not complete. -/
theorem Taking.incomplete (h : Taking size v) (hsize : size ≠ 0)
    (harmed : v.live.g.ArmedFor size) (h' l' : UInt8) (body : List UInt8) :
    ¬ Complete size v.read h' l' body := by
  cases h with
  | before _ _ hread _ =>
    rintro ⟨c₁, c₂, hread', -⟩
    exact absurd (hread.symm.trans hread') (by simp)
  | bytes hp _ hlt => exact hp.incomplete (Nat.le_of_lt hlt) h' l' body
  | sum hp hlen => exact hp.incomplete (Nat.le_of_eq hlen) h' l' body
  | done _ hzero => exact absurd (harmed.armed.symm.trans hzero) hsize
  | lost hdown => exact absurd (harmed.connected.symm.trans hdown) (by decide)

theorem none_ne_streamPc : Cmd.none ≠ Cmd.streamPc := by decide

/-- The loop goes on only while the buffer is armed. -/
theorem Taking.armed (h : Taking size v) (hconnected : v.live.g.connected = true)
    (hmax : v.live.g.streamMaxSize ≠ 0) : v.live.g.ArmedFor size := by
  cases h with
  | before harmed => exact harmed
  | bytes hp => exact hp.buffer
  | sum hp => exact hp.buffer
  | done _ hzero => exact absurd hzero hmax
  | lost hdown => exact absurd (hconnected.symm.trans hdown) (by decide)

/-- Nothing of a STREAM_PC packet has come yet unless one is under way. -/
theorem Taking.idle (h : Taking size v) (hsize : size ≠ 0) (harmed : v.live.g.ArmedFor size)
    (hne : v.live.g.processingCmd ≠ Cmd.streamPc) : v.read = [] ∧ v.stored = [] := by
  cases h with
  | before _ _ hread hstored => exact ⟨hread, hstored⟩
  | bytes hp => exact absurd hp.cmd hne
  | sum hp => exact absurd hp.cmd hne
  | done _ hzero => exact absurd (harmed.armed.symm.trans hzero) hsize
  | lost hdown => exact absurd (harmed.connected.symm.trans hdown) (by decide)

/-- A DATA_PC packet is under way while the stream is waited for. -/
structure Apart (size : Nat) (v : Noted) : Prop where
  buffer : v.live.g.ArmedFor size
  cmd : v.live.g.processingCmd = Cmd.dataPc
  read : v.read = []
  stored : v.stored = []

theorem Apart.of_g {w : Live} (h : Apart size v) (hbuffer : w.g.ArmedFor size)
    (hcmd : w.g.processingCmd = Cmd.dataPc) : Apart size { v with live := w } :=
  ⟨hbuffer, hcmd, h.read, h.stored⟩

theorem Apart.after (h : Apart size v) (rc : Int) : Taking size (v.after rc) := by
  have hne : v.live.g.processingCmd ≠ Cmd.streamPc := by
    rw [h.cmd]
    decide
  unfold Noted.after
  split
  · exact .before ⟨h.buffer.connected, h.buffer.armed, h.buffer.room⟩
      (fun hcmd => absurd hcmd none_ne_streamPc) h.read h.stored
  split
  · refine .lost rfl fun h' l' body => ?_
    rintro ⟨c₁, c₂, hread', -⟩
    exact absurd (h.read.symm.trans hread') (by simp)
  · exact .before h.buffer (fun hcmd => absurd hcmd hne) h.read h.stored

/-- A DATA_PC packet goes elsewhere. -/
theorem apart_recvCmdDataPc : Keeps (Spec.demonic (noted env)) (Apart size) recvCmdDataPc := by
  have havailable : Keeps (Spec.demonic (noted env)) (Apart size) serialAvailable := fun v h =>
    wpN_available fun n w hg => h.of_g (hg ▸ h.buffer) (hg ▸ h.cmd)
  have hgetchar : Keeps (Spec.demonic (noted env)) (Apart size) serialGetchar := fun v h =>
    wpN_getchar_other (by rw [h.cmd]; decide) fun c w hg =>
      h.of_g (hg ▸ h.buffer) (hg ▸ h.cmd)
  have hputchar : ∀ c, Keeps (Spec.demonic (noted env)) (Apart size) (serialPutchar c) :=
    fun c v h => wpN_putchar c fun w hg => h.of_g (hg ▸ h.buffer) (hg ▸ h.cmd)
  have hmodify : ∀ f : State → State, (∀ g, (f g).connected = g.connected ∧
      (f g).streamMaxSize = g.streamMaxSize ∧ (f g).streamBuf = g.streamBuf ∧
        (f g).processingCmd = g.processingCmd) →
      Keeps (Spec.demonic (noted env)) (Apart size) (modify f) := by
    intro f hf v h
    obtain ⟨hconnected, hmax, hbuf, hcmd⟩ := hf v.live.g
    refine wpN_modify f (h.of_g ⟨?_, ?_, ?_⟩ ?_)
    · exact hconnected.trans h.buffer.connected
    · exact hmax.trans h.buffer.armed
    · exact hbuf.symm ▸ h.buffer.room
    · exact hcmd.trans h.cmd
  have hget : ∀ {α : Type} {k : State → Code α},
      (∀ g, Keeps (Spec.demonic (noted env)) (Apart size) (k g)) →
        Keeps (Spec.demonic (noted env)) (Apart size) (get.bind k) :=
    fun hk v h => wpN_get (hk _ v h)
  have hstore : ∀ i c, Keeps (Spec.demonic (noted env)) (Apart size)
      (cmd (Op.storeData i c) : Code Unit) := fun i c v h =>
    wpN_op (h.of_g ⟨h.buffer.connected, h.buffer.armed, h.buffer.room⟩ h.cmd)
  have hchecksum : Keeps (Spec.demonic (noted env)) (Apart size) recvDataPcChecksum := by
    refine .bind havailable fun n => .ite (.ret 0) ?_
    refine .bind hgetchar fun h => .bind hgetchar fun l => ?_
    refine hget fun g => .ite (.ret (-1)) (.bind (hputchar _) fun _ => ?_)
    exact .bind (hmodify _ fun _ => ⟨rfl, rfl, rfl, rfl⟩) fun _ => .ret 1
  have hbytes : Keeps (Spec.demonic (noted env)) (Apart size) recvDataPcBytes := by
    refine .bind (.loop ?_ (.ret ())) fun _ => hget fun g => .ite (.ret 0) hchecksum
    refine .bind havailable fun n => .ite (.ret false) (.bind hgetchar fun c => hget fun g => ?_)
    refine .bind (hstore _ c) fun _ => .bind (hmodify _ fun _ => ⟨rfl, rfl, rfl, rfl⟩) fun _ => ?_
    refine hget fun g => .ite ?_ (.ret true)
    exact .bind (hmodify _ fun _ => ⟨rfl, rfl, rfl, rfl⟩) fun _ => .ret false
  refine hget fun g => .ite (.ret (-1)) (.ite ?_ (.ite hbytes (.ite hchecksum (.ret 0))))
  refine .bind havailable fun n => .ite (.ret 0) (.bind hgetchar fun c => ?_)
  refine .bind (hmodify _ fun _ => ⟨rfl, rfl, rfl, rfl⟩) fun _ => .ite (.ret (-1)) ?_
  exact .bind (hmodify _ fun _ => ⟨rfl, rfl, rfl, rfl⟩) fun _ => hbytes

theorem wpN_gbridgeInit (h : ∀ h l body, ¬ Complete size v.read h l body) :
    wpN env gbridgeInit (fun _ v' => Taking size v') v :=
  wpN_modify _ (.lost rfl h)

theorem wpN_processCmd (hsize : size ≠ 0) (harmed : v.live.g.ArmedFor size) (h : Taking size v) :
    wpN env processCmd (fun _ v' => Taking size v') v := by
  have hrecv : wpN env (recvCmd v.live.g.processingCmd)
      (fun rc v' => Taking size (v'.after rc)) v := by
    unfold recvCmd
    refine wpre_if (fun _ => ?_) fun hreset => wpre_if (fun hdata => ?_) fun hdata =>
      wpre_if (fun hstream => ?_) fun hstream => ?_
    · exact wpN_bind (wpN_modify _ (wpN_bind (wpN_putchar _ fun w hg =>
        .lost (congrArg State.connected hg) (h.incomplete hsize harmed))))
    · obtain ⟨hread, hstored⟩ := h.idle hsize harmed (by rw [hdata]; decide)
      refine wpre_mono ?_ (apart_recvCmdDataPc v ⟨harmed, hdata, hread, hstored⟩)
      exact fun rc v' h' => h'.after rc
    · exact wpN_recvCmdStreamPc hsize harmed hstream h
    · obtain ⟨hread, hstored⟩ := h.idle hsize harmed hstream
      exact .before ⟨harmed.connected, harmed.armed, harmed.room⟩
        (fun hcmd => absurd hcmd none_ne_streamPc) hread hstored
  refine wpN_get (wpN_bind (wpre_mono (fun rc v' h' => ?_) hrecv))
  unfold Noted.after at h'
  refine wpre_if (fun h1 => ?_) fun h1 => wpre_if (fun h2 => ?_) fun h2 => ?_
  · rw [if_pos h1] at h'
    exact wpN_modify _ h'
  · rw [if_neg h1, if_pos h2] at h'
    exact wpN_modify _ h'
  · rwa [if_neg h1, if_neg h2] at h'

theorem wpN_receiveCmd (hsize : size ≠ 0) (harmed : v.live.g.ArmedFor size) (h : Taking size v) :
    wpN env receiveCmd (fun _ v' => Taking size v') v := by
  refine wpN_get (wpre_if (fun hnone => ?_) fun _ => wpN_processCmd hsize harmed h)
  have hne : v.live.g.processingCmd ≠ Cmd.streamPc := by
    rw [hnone]
    decide
  obtain ⟨hread, hstored⟩ := h.idle hsize harmed hne
  refine wpN_bind (wpN_available fun n w hw => ?_)
  rw [← hw] at harmed hne
  have hbefore : ∀ w₁ : Live, w₁.g = w.g → Taking size { v with live := w₁ } := fun w₁ hw₁ =>
    .before (hw₁ ▸ harmed) (fun hcmd => absurd hcmd (hw₁ ▸ hne)) hread hstored
  refine wpre_if (fun _ => hbefore w rfl) fun _ => ?_
  refine wpN_bind (wpN_getchar_other hne fun c w₁ hw₁ => wpre_if (fun _ => hbefore w₁ hw₁)
    fun _ => ?_)
  refine wpN_get (wpre_if (fun _ => wpre_if (fun _ => ?_) fun _ => hbefore w₁ hw₁) fun _ => ?_)
  · refine wpN_modify _ (.before ⟨?_, ?_, ?_⟩ (fun hcmd => absurd hcmd (hw₁ ▸ hne)) hread hstored)
    · exact hw₁ ▸ harmed.connected
    · exact hw₁ ▸ harmed.armed
    · exact hw₁ ▸ harmed.room
  · refine wpN_bind (wpN_timerGet fun now w₂ hw₂ => wpN_bind (wpN_modify _ ?_))
    have harmed₂ : w₂.g.ArmedFor size := by
      rw [show w₂.g = w₁.g from hw₂, hw₁]
      exact harmed
    refine wpN_processCmd hsize ⟨harmed₂.connected, harmed₂.armed, harmed₂.room⟩
      (.before ⟨harmed₂.connected, harmed₂.armed, harmed₂.room⟩ (fun _ => rfl) hread hstored)

/-- **A call of `gbridge_loop` takes the stream further**, or loses the link. -/
theorem wpN_gbridgeLoop (hsize : size ≠ 0) (harmed : v.live.g.ArmedFor size) (h : Taking size v) :
    wpN env gbridgeLoop (fun _ v' => Taking size v') v := by
  have hlost := h.incomplete hsize harmed
  refine wpN_get ?_
  rw [if_pos harmed.connected]
  refine wpN_get (wpN_bind (wpN_timedOut _ _ fun b w hw => ?_))
  refine wpre_if (fun _ => wpN_gbridgeInit hlost) fun _ => ?_
  refine wpN_bind (wpN_timedOut _ _ fun b w₁ hw₁ => ?_)
  refine wpre_if (fun _ => wpN_gbridgeInit hlost) fun _ => ?_
  have hw₁ : w₁.g = v.live.g := hw₁.trans hw
  have h₁ : Taking size { v with live := w₁ } := by
    cases h with
    | before harmed hstage hread hstored =>
      exact .before (hw₁ ▸ harmed) (hw₁ ▸ hstage) hread hstored
    | bytes hp hcur hlt => exact .bytes (hp.of_g hw₁) (hw₁ ▸ hcur) hlt
    | sum hp hlen => exact .sum (hp.of_g hw₁) hlen
    | done _ hzero => exact absurd (harmed.armed.symm.trans hzero) hsize
    | lost hdown => exact absurd (harmed.connected.symm.trans hdown) (by decide)
  exact wpN_receiveCmd hsize (hw₁ ▸ harmed) h₁

/-- **`gbridge_recv_stream_wait` returns `true` exactly with a complete packet**, all of which has
been stored. -/
theorem wpN_gbridgeRecvStreamWait {buffer : List UInt8} (hsize : size ≠ 0)
    (hroom : size ≤ buffer.length) (hconnected : v.live.g.connected = true)
    (hzero : v.live.g.streamMaxSize = 0) (hunbegun : v.live.g.Unbegun) (hread : v.read = [])
    (hstored : v.stored = []) :
    wpN env (gbridgeRecvStreamWait buffer size) (fun b v' =>
      if b then ∃ h l body, Complete size v'.read h l body ∧ v'.stored = List.range body.length
      else ∀ h l body, ¬ Complete size v'.read h l body) v := by
  refine wpN_bind (wpN_modify _ (wpN_bind (wlp_whileM (Taking size) ?_ fun v₁ h => ?_)))
  · exact .before ⟨hconnected, rfl, hroom⟩ (fun hcmd => hunbegun hzero hcmd) hread hstored
  refine wpN_get ?_
  show if (v₁.live.g.connected && v₁.live.g.streamMaxSize != 0) = true then _ else _
  have hgo : v₁.live.g.ArmedFor size →
      (v₁.live.g.connected && v₁.live.g.streamMaxSize != 0) = true := by
    intro harmed
    rw [harmed.connected, harmed.armed, Bool.true_and]
    exact bne_iff_ne.mpr hsize
  split
  · rename_i hc
    obtain ⟨hup, hmax⟩ := Bool.and_eq_true_iff.mp hc
    exact wpN_gbridgeLoop hsize (h.armed hup (bne_iff_ne.mp hmax)) h
  · rename_i hc
    refine wpN_get ?_
    show if v₁.live.g.connected = true then _ else _
    cases h with
    | before harmed => exact absurd (hgo harmed) hc
    | bytes hp => exact absurd (hgo hp.buffer) hc
    | sum hp => exact absurd (hgo hp.buffer) hc
    | done hup _ hcomplete hstored =>
      rw [if_pos hup]
      exact ⟨_, _, _, hcomplete, hstored⟩
    | lost hdown hlost =>
      rw [if_neg (Bool.eq_false_iff.mp hdown)]
      exact hlost

/-- With no room at all there is nothing to wait for. -/
theorem wpN_gbridgeRecvStreamWait_zero {buffer : List UInt8}
    (hconnected : v.live.g.connected = true) :
    wpN env (gbridgeRecvStreamWait buffer 0) (fun b _ => b = true) v := by
  refine wpN_bind (wpN_modify _ (wpN_bind (wlp_whileM (fun v' => v'.live.g.connected = true ∧
    v'.live.g.streamMaxSize = 0) ⟨hconnected, rfl⟩ ?_)))
  rintro v₁ ⟨hup, hzero⟩
  refine wpN_get ?_
  show if (v₁.live.g.connected && v₁.live.g.streamMaxSize != 0) = true then _ else _
  rw [hup, hzero]
  exact wpN_get hup

end Stream

/-! ## 6. The count -/

/-- A run of `mobile_impl_sock_recv` with this reply, and what it takes of a stream. -/
def CountRun (env : Surroundings) (conn : Nat) (buffer : List UInt8) (size : Nat)
    (addr : Option MobileAddr) (w : Live) (x : Option GbridgeData) (r : Result) (v : Noted) :
    Prop :=
  ∃ w₁, Eval (live env) (request (recvRequest conn size)) w x w₁ ∧
    Eval (noted env) (recvReply buffer size addr x) { live := w₁ } r v

/-- Every run with this reply is one of these. -/
theorem recvRun_counted {env : Surroundings} {conn : Nat} {buffer : List UInt8} {size : Nat}
    {addr : Option MobileAddr} {w w' : Live} {x : Option GbridgeData} {r : Result} :
    RecvRun env conn buffer size addr w x r w' ↔
      ∃ v, CountRun env conn buffer size addr w x r v ∧ v.live = w' := by
  constructor
  · rintro ⟨w₁, hx, hr⟩
    obtain ⟨v, hr', hv⟩ := (noted_eval (v := { live := w₁ })).mp hr
    exact ⟨v, ⟨w₁, hx, hr'⟩, hv⟩
  · rintro ⟨v, ⟨w₁, hx, hr⟩, hv⟩
    exact ⟨w₁, hx, noted_eval.mpr ⟨v, hr, hv⟩⟩

/-- The count that is returned is within the size that was asked for; and if there are any bytes,
the length of the stream is the count, and each of its places has been stored to. -/
def CountKept (size : Nat) (r : Result) (v : Noted) : Prop :=
  ∀ n buffer addr, r = .recv n buffer addr → n ≤ size ∧
    (0 < n → (be16 (v.read.getD 0 0) (v.read.getD 1 0) : Int) = n ∧
      ∀ i : Nat, (i : Int) < n → i ∈ v.stored)

/-- If the reply announces bytes there is room for some, and a stream that is accepted is as long as
announced. -/
def Announced (size : Nat) (x : Option GbridgeData) (read : List UInt8) : Prop :=
  ∀ count, replyCount x = some count → 0 < count →
    size ≠ 0 ∧ ∀ h l body, Complete size read h l body → h = 0 ∧ count = l.toNat

theorem Complete.unique {size : Nat} {read : List UInt8} {h l h' l' : UInt8}
    {body body' : List UInt8} (hc : Complete size read h l body)
    (hc' : Complete size read h' l' body') : h = h' ∧ l = l' := by
  obtain ⟨_, _, hread, -⟩ := hc
  obtain ⟨_, _, hread', -⟩ := hc'
  have hsame := hread.symm.trans hread'
  simp only [List.cons.injEq] at hsame
  exact ⟨hsame.1, hsame.2.1⟩

/-- What is known of a complete packet decides about the count. -/
theorem Complete.kept_iff {size : Nat} {count : Int} {buffer : List UInt8}
    {addr : Option MobileAddr} {v : Noted} {h l : UInt8} {body : List UInt8} (hcount : 0 < count)
    (hcomplete : Complete size v.read h l body) (hstored : v.stored = List.range body.length) :
    CountKept size (.recv count buffer addr) v ↔ h = 0 ∧ count = l.toNat := by
  obtain ⟨c₁, c₂, hread, hlen, hfits, -⟩ := hcomplete
  have hlength : be16 (v.read.getD 0 0) (v.read.getD 1 0) = h.toNat * 256 + l.toNat := by
    rw [hread]
    exact be16_eq h l
  constructor
  · intro hkept
    obtain ⟨-, hrest⟩ := hkept count buffer addr rfl
    obtain ⟨heq, hall⟩ := hrest hcount
    rw [hlength] at heq
    -- the last of the bytes that are announced has been stored
    have hlast : (count - 1).toNat ∈ v.stored := hall _ (by omega)
    rw [hstored, List.mem_range, hlen] at hlast
    have hzero : h.toNat = 0 := by omega
    exact ⟨UInt8.toNat_inj.mp hzero, by omega⟩
  · rintro ⟨rfl, rfl⟩ n _ _ hn
    obtain ⟨rfl, -, -⟩ := Result.recv.inj hn
    refine ⟨Int.ofNat_le.mpr hfits, fun _ => ⟨?_, fun i hi => ?_⟩⟩
    · rw [hlength]
      simp
    · rw [hstored, List.mem_range, hlen]
      omega

/-- A call that fails keeps to the count. -/
theorem countKept_neg {size : Nat} {count : Int} {buffer : List UInt8} {addr : Option MobileAddr}
    {v : Noted} (h : count ≤ 0) : CountKept size (.recv count buffer addr) v := by
  intro n _ _ hn
  obtain ⟨rfl, -, -⟩ := Result.recv.inj hn
  exact ⟨by omega, fun hpos => absurd h (by omega)⟩

/-- With bytes announced, it is the room and the length of the stream that count. -/
theorem announced_iff {size : Nat} {x : Option GbridgeData} {res : Int} {read : List UInt8}
    (hcount : replyCount x = some res) (hpos : 0 < res) :
    Announced size x read ↔
      size ≠ 0 ∧ ∀ h l body, Complete size read h l body → h = 0 ∧ res = l.toNat := by
  constructor
  · exact fun h => h res hcount hpos
  · intro h count hc _
    obtain rfl := Option.some.inj (hcount.symm.trans hc)
    exact h

/-- The stream of a reply that announces bytes. -/
def takeStream (buffer : List UInt8) (size : Nat) (res : Int) (addr : Option MobileAddr) :
    Code Result := do
  if ← gbridgeRecvStreamWait buffer size then return .recv res (← get).streamBuf addr
  else return .recv (-1) (← get).streamBuf addr

section TakeStream

variable {env : Surroundings} {buffer : List UInt8} {size : Nat} {res : Int}
  {addr : Option MobileAddr} {v : Noted}

/-- With no room at all the call succeeds, and there is more than there is room for. -/
theorem wpN_takeStream_zero (hpos : 0 < res) (hconnected : v.live.g.connected = true) :
    wpN env (takeStream buffer 0 res addr) (fun r v' => ¬ CountKept 0 r v') v := by
  refine wpN_bind (wpre_mono ?_ (wpN_gbridgeRecvStreamWait_zero hconnected))
  rintro b v rfl
  refine wpN_get fun hkept => ?_
  obtain ⟨hle, -⟩ := hkept res _ _ rfl
  exact absurd hle (Int.not_le.mpr hpos)

theorem wpN_takeStream (hpos : 0 < res) (hsize : size ≠ 0) (hroom : size ≤ buffer.length)
    (hconnected : v.live.g.connected = true) (hzero : v.live.g.streamMaxSize = 0)
    (hunbegun : v.live.g.Unbegun) (hread : v.read = []) (hstored : v.stored = []) :
    wpN env (takeStream buffer size res addr) (fun r v' => CountKept size r v' ↔
      ∀ h l body, Complete size v'.read h l body → h = 0 ∧ res = l.toNat) v := by
  refine wpN_bind (wpre_mono ?_ (wpN_gbridgeRecvStreamWait hsize hroom hconnected hzero hunbegun
    hread hstored))
  intro b v hb
  refine wpre_if (fun htrue => ?_) fun hfalse => ?_
  · rw [if_pos htrue] at hb
    obtain ⟨h, l, body, hcomplete, hstored⟩ := hb
    refine wpN_get ((hcomplete.kept_iff hpos hstored).trans ⟨fun hlen h' l' body' hcomplete' => ?_,
      fun hall => hall h l body hcomplete⟩)
    obtain ⟨rfl, rfl⟩ := hcomplete.unique hcomplete'
    exact hlen
  · rw [if_neg hfalse] at hb
    refine wpN_get ⟨fun _ h l body hcomplete => ?_, fun _ => countKept_neg (by decide)⟩
    exact absurd hcomplete (hb h l body)

end TakeStream

/-- When the reply is there no stream has begun, and without a link there is none. -/
theorem request_awaited {env : Surroundings} {conn size : Nat} {w w₁ : Live}
    {x : Option GbridgeData} (hcalled : Called w)
    (hx : Eval (live env) (request (recvRequest conn size)) w x w₁) :
    w₁.g.Disarmed ∧ w₁.g.Unbegun ∧ (x ≠ none → w₁.g.connected = true) := by
  have hsound := Spec.guarded_sound (live env) fun w => False → w.Inside
  obtain ⟨hdisarmed, hunbegun⟩ := settled_called hcalled
  refine ⟨?_, ?_, ?_⟩
  · exact wpre_eval (Q := fun _ w' => w'.g.Disarmed) hsound (leaves_request _ w hdisarmed) hx
  · exact wpre_eval (Q := fun _ w' => w'.g.Unbegun) hsound
      ((unbegun_kept env).request _ w hunbegun) hx
  · obtain ⟨_, w₀, hsend, hwait⟩ := eval_bind.mp hx
    have hdisarmed₀ : w₀.g.Disarmed := wpre_eval (Q := fun _ w' => w'.g.Disarmed) hsound
      (leaves_gbridgeCmdData _ w hdisarmed) hsend
    exact (wpre_eval (Q := fun x w' => w'.g.Disarmed ∧ (x ≠ none → w'.g.connected = true)) hsound
      (wpL_gbridgeRecvDataWait hdisarmed₀) hwait).2

/-- **A call keeps to the count it returns exactly if the stream was announced with its length.**

The count is that of the reply.  If it is positive the call goes on to receive a stream, into the
room that libmobile gave it; what it stores there is what the STREAM_PC packet holds, and nothing
compares the two. -/
theorem recv_count_iff (env : Surroundings) (conn : Nat) (buffer : List UInt8) (size : Nat)
    (addr : Option MobileAddr) {w : Live} {x : Option GbridgeData} {r : Result} {v : Noted}
    (hcalled : Called w) (hroom : size ≤ buffer.length)
    (hrun : CountRun env conn buffer size addr w x r v) :
    CountKept size r v ↔ Announced size x v.read := by
  obtain ⟨w₁, hx, hr⟩ := hrun
  obtain ⟨hdisarmed, hunbegun, hup⟩ := request_awaited hcalled hx
  suffices h : wpN env (recvReply buffer size addr x)
      (fun r v => CountKept size r v ↔ Announced size x v.read) { live := w₁ } from
    wpre_eval (Q := fun r v => CountKept size r v ↔ Announced size x v.read)
      (Spec.demonic_sound _) h hr
  cases hcount : replyCount x with
  | none =>
    obtain ⟨a, ha⟩ := recvReply_refused buffer size addr hcount
    rw [ha]
    refine wpN_bind (wpN_modify _ ⟨fun _ => ?_, fun _ => countKept_neg (by decide)⟩)
    exact fun count h => absurd (hcount.symm.trans h) (by simp)
  | some res =>
    have hconnected : w₁.g.connected = true := by
      refine hup ?_
      rintro rfl
      cases hcount
    obtain ⟨a, ha⟩ := recvReply_accepted buffer size addr hcount
    rw [ha]
    refine wpN_bind (wpN_modify _ (wpre_if (fun hle => ?_) fun hpos => ?_))
    · refine ⟨fun _ count h hlt => ?_, fun _ => countKept_neg hle⟩
      obtain rfl := Option.some.inj (hcount.symm.trans h)
      omega
    have hpos : 0 < res := Int.not_le.mp hpos
    by_cases hsize : size = 0
    · subst hsize
      refine wpre_mono (fun r v hkept => ?_) (wpN_takeStream_zero hpos hconnected)
      rw [announced_iff hcount hpos]
      exact ⟨fun h => absurd h hkept, fun h => absurd rfl h.1⟩
    · refine wpre_mono (fun r v hkept => ?_)
        (wpN_takeStream hpos hsize hroom hconnected hdisarmed.stream hunbegun rfl rfl)
      rw [announced_iff hcount hpos]
      exact hkept.trans ⟨fun h => ⟨hsize, h⟩, And.right⟩

/-- A link; then an acknowledgement, a reply with a count, and a stream. -/
def announcing (count : Nat) (body : List UInt8) : Surroundings where
  arrive k :=
    if k = 0 then handshake
    else if k = 5 then ack Cmd.data ::
      (dataFrame Cmd.dataPc [ProtMa.cmdRecv, hi count, lo count, 0] ++
        streamFrame Cmd.streamPc body)
    else []
  clock _ := 0

/-- The link is set up, and then a packet asked for, with a buffer of zeros. -/
def countAfter (count : Nat) (body : List UInt8) (size : Nat) :
    Option (Live × Option GbridgeData × Result × Noted) :=
  (callAll ApiCall.code (fun _ w => w) 50 (List.replicate 4 (announcing count body, .loop))
    { g := State.init {} }).bind fun w =>
    (run (fun _ e w => some (liveAnswer (announcing count body) e w)) 50
      (request (recvRequest 1 size)) w).bind fun x =>
      (run (fun _ e v => some (notedAnswer (announcing count body) e v)) 50
        (recvReply (List.replicate size 0) size none x.1) { live := x.2 }).map fun r =>
          (w, x.1, r.1, r.2)

theorem countAfter_run {count : Nat} {body : List UInt8} {size : Nat} {w : Live}
    {x : Option GbridgeData} {r : Result} {v : Noted}
    (h : countAfter count body size = some (w, x, r, v)) : Called w ∧
      CountRun (announcing count body) 1 (List.replicate size 0) size none w x r v := by
  obtain ⟨w, hw, h⟩ := Option.bind_eq_some_iff.mp h
  obtain ⟨⟨x, w₁⟩, hx, h⟩ := Option.bind_eq_some_iff.mp h
  obtain ⟨⟨r, v⟩, hr, h⟩ := Option.map_eq_some_iff.mp h
  cases h
  have hrun : Eval (noted (announcing count body)) _ _ r v :=
    @run_eval _ Noted _ _ Noted _ id (fun _ _ _ _ _ h => Option.some.inj h) 50 _ _ _ _ hr
  exact ⟨Between.callAll _ (.start ⟨{}, rfl⟩) hw, w₁, live_eval hx, hrun⟩

/-- A stream of two bytes, announced as such. -/
theorem recv_count_iff_two : ∃ w x v,
    CountRun (announcing 2 [7, 8]) 1 [0, 0] 2 none w x (.recv 2 [7, 8] none) v ∧
      (CountKept 2 (.recv 2 [7, 8] none) v ↔ Announced 2 x v.read) := by
  have hrun : (countAfter 2 [7, 8] 2).map (·.2.2.1) = some (.recv 2 [7, 8] none) := by
    decide +kernel
  obtain ⟨⟨w, x, r, v⟩, h, hr⟩ := Option.map_eq_some_iff.mp hrun
  obtain rfl : r = _ := hr
  obtain ⟨hcalled, hcount⟩ := countAfter_run h
  exact ⟨w, x, v, hcount, recv_count_iff _ _ _ _ _ hcalled (by decide) hcount⟩

/-- **Not every call keeps to its count**: a thousand bytes are announced, and one comes. -/
theorem count_fails : ¬ ∀ (env : Surroundings) (conn : Nat) (buffer : List UInt8) (size : Nat)
    (addr : Option MobileAddr) (w : Live) (x : Option GbridgeData) (r : Result) (v : Noted),
    Called w → size ≤ buffer.length → CountRun env conn buffer size addr w x r v →
      CountKept size r v := by
  intro h
  have hrun : (countAfter 1000 [7] 10).map (·.2.2.1) =
      some (.recv 1000 [7, 0, 0, 0, 0, 0, 0, 0, 0, 0] none) := by decide +kernel
  obtain ⟨⟨w, x, r, v⟩, hrun, hr⟩ := Option.map_eq_some_iff.mp hrun
  obtain rfl : r = _ := hr
  obtain ⟨hcalled, hcount⟩ := countAfter_run hrun
  obtain ⟨hle, -⟩ := h _ _ _ _ _ w x _ v hcalled (by decide) hcount _ _ _ rfl
  exact absurd hle (by decide)

end GBridge.Atmega

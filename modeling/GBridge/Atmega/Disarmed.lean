/-
# Nothing stays armed between calls

libmobile hands the link layer a buffer of its own to receive a stream into, and a call that returns
takes the buffer with it.  If `stream_max_size` were still set then, the next stream would be stored
into memory that is no longer meant for it.  Whatever the peer sends, and whichever of the nested
waits a timeout or a reset strikes in, no buffer stays armed when a call returns, and no
acknowledgement stays awaited (`disarmed_called`).

A step of the receiver only ever disarms (`Line.next_onward`); so does a run of them.  All that is
left to look at is where each call arms and what its loops leave by:

* `wait_cmd` sets `waiting_cmd` and is left when it has changed, and `gbridge_loop` never sets it to
  another command but only clears it (`leaves_waitCmd`);
* `gbridge_recv_stream_wait` arms, and is left when the stream is done or the link is lost, which
  clears `stream_max_size` as well (`wpL_gbridgeRecvStreamWait`);
* `gbridge_recv_data_wait` arms nothing.

The calls of libmobile put these three together (`ApiCall.leaves`).
-/
import GBridge.Atmega.Bounds

namespace GBridge.Atmega

open Prog

/-! ## 1. The receiver only disarms -/

/-- With the link down there is nothing left over of what was under way. -/
def State.DownClean (g : State) : Prop :=
  g.connected = false → g.processingCmd = Cmd.none ∧ g.dataReady = false ∧
    g.waitingCmd = Cmd.none ∧ g.streamMaxSize = 0

/-- What the receiver makes of the variables, seen from afar. -/
structure State.Onward (g g' : State) : Prop where
  down : g.DownClean → g'.DownClean
  waiting : g'.waitingCmd = g.waitingCmd ∨ g'.waitingCmd = Cmd.none
  armed : g'.streamMaxSize = g.streamMaxSize ∨ g'.streamMaxSize = 0

theorem State.Onward.refl (g : State) : g.Onward g := ⟨id, .inl rfl, .inl rfl⟩

theorem State.Onward.trans {g g₁ g' : State} (h : g.Onward g₁) (h' : g₁.Onward g') :
    g.Onward g' where
  down := fun hd => h'.down (h.down hd)
  waiting := by
    rcases h'.waiting with h₁ | h₁
    · rw [h₁]
      exact h.waiting
    · exact .inr h₁
  armed := by
    rcases h'.armed with h₁ | h₁
    · rw [h₁]
      exact h.armed
    · exact .inr h₁

theorem State.onward_init (g g₁ : State) : g.Onward g₁.init where
  down := fun _ _ => ⟨rfl, rfl, rfl, rfl⟩
  waiting := .inr rfl
  armed := .inr rfl

/-- A step that leaves the link up. -/
theorem State.Onward.up {g g' : State} (hc : g'.connected = true)
    (hwaiting : g'.waitingCmd = g.waitingCmd ∨ g'.waitingCmd = Cmd.none)
    (harmed : g'.streamMaxSize = g.streamMaxSize ∨ g'.streamMaxSize = 0) : g.Onward g' :=
  ⟨fun _ hdown => absurd (hc.symm.trans hdown) (by decide), hwaiting, harmed⟩

section Next

variable {l l' : Line}

theorem Line.nextHandshake_onward (hdown : l.g.connected = false)
    (hnext : l.nextHandshake = some l') : l.g.Onward l'.g := by
  unfold nextHandshake at hnext
  split at hnext
  · cases hnext
  split at hnext
  · cases hnext
    exact ⟨fun h _ => h hdown, .inl rfl, .inl rfl⟩
  split at hnext
  · cases hnext
    exact ⟨fun h _ => h hdown, .inl rfl, .inl rfl⟩
  · cases hnext
    exact .up rfl (.inl rfl) (.inl rfl)

theorem Line.nextCommand_onward {now : UInt32} (hc : l.g.connected = true)
    (hnext : l.nextCommand now = some l') : l.g.Onward l'.g := by
  unfold nextCommand at hnext
  split at hnext
  · cases hnext
  split at hnext
  · cases hnext
    exact .refl _
  split at hnext
  · split at hnext
    · cases hnext
      exact .up hc (.inr rfl) (.inl rfl)
    · cases hnext
      exact .refl _
  · cases hnext
    exact .up hc (.inl rfl) (.inl rfl)

theorem Line.nextChecksum_onward {data : GbridgeData} {accepted : State}
    (haccepted : l.g.Onward { accepted with processingCmd := Cmd.none })
    (hnext : l.nextChecksum data accepted = some l') : l.g.Onward l'.g := by
  unfold nextChecksum at hnext
  split at hnext
  · split at hnext <;> cases hnext
    · exact l.g.onward_init _
    · exact haccepted
  · cases hnext

theorem Line.nextByte_onward {put : UInt8 → State} {full : State → Bool}
    {finish : State → State} (hput : ∀ c, l.g.Onward (put c))
    (hfinish : ∀ c, l.g.Onward (finish (put c)))
    (hnext : l.nextByte put full finish = some l') : l.g.Onward l'.g := by
  unfold nextByte at hnext
  split at hnext
  · cases hnext
  · rename_i c rx _
    cases hnext
    cases hfull : full (put c) with
    | true => simpa [hfull] using hfinish c
    | false => simpa [hfull] using hput c

theorem Line.nextDataPc_onward (hc : l.g.connected = true) (hnext : l.nextDataPc = some l') :
    l.g.Onward l'.g := by
  unfold nextDataPc at hnext
  split at hnext
  · cases hnext
    exact l.g.onward_init _
  split at hnext
  · unfold nextDataLen at hnext
    split at hnext
    · cases hnext
    · split at hnext <;> cases hnext
      · exact State.onward_init _ _
      · exact .up hc (.inl rfl) (.inl rfl)
  split at hnext
  · refine nextByte_onward (fun _ => ?_) (fun _ => ?_) hnext
    · exact .up hc (.inl rfl) (.inl rfl)
    · exact .up hc (.inl rfl) (.inl rfl)
  split at hnext
  · refine nextChecksum_onward ?_ hnext
    exact .up hc (.inl rfl) (.inl rfl)
  · cases hnext

theorem Line.nextStreamPc_onward (hc : l.g.connected = true)
    (hnext : l.nextStreamPc = some l') : l.g.Onward l'.g := by
  unfold nextStreamPc at hnext
  split at hnext
  · cases hnext
    exact l.g.onward_init _
  split at hnext
  · unfold nextStreamLen at hnext
    split at hnext
    · simp only at hnext
      split at hnext <;> cases hnext
      · exact State.onward_init _ _
      · exact .up hc (.inl rfl) (.inl rfl)
    · cases hnext
  split at hnext
  · refine nextByte_onward (fun _ => ?_) (fun _ => ?_) hnext
    · exact .up hc (.inl rfl) (.inl rfl)
    · exact .up hc (.inl rfl) (.inl rfl)
  split at hnext
  · refine nextChecksum_onward ?_ hnext
    exact .up hc (.inl rfl) (.inr rfl)
  · cases hnext

/-- **A step only disarms.** -/
theorem Line.next_onward {now : UInt32} (hnext : l.next now = some l') : l.g.Onward l'.g := by
  unfold next at hnext
  split at hnext
  · rename_i hdown
    exact nextHandshake_onward (by simpa using hdown) hnext
  rename_i hup
  have hc : l.g.connected = true := by simpa using hup
  split at hnext
  · exact nextCommand_onward hc hnext
  split at hnext
  · cases hnext
    exact l.g.onward_init _
  split at hnext
  · exact nextDataPc_onward hc hnext
  split at hnext
  · exact nextStreamPc_onward hc hnext
  · cases hnext
    exact .up hc (.inl rfl) (.inl rfl)

end Next

/-- **A run of steps only disarms.** -/
theorem Turns.onward {n : Nat} {bs : List UInt8} {l l' : Line} (h : Turns l n bs l') :
    l.g.Onward l'.g := by
  induction h with
  | refl => exact .refl _
  | next now _ hnext ih => exact ih.trans (Line.next_onward hnext)
  | hear more _ ih => exact ih

theorem Went.onward {safe : Prop} {n : Nat} {w w' : Live} (h : Went safe w n w') :
    w.g.Onward w'.g := by
  obtain ⟨bs, -, hturns⟩ := h.turns
  exact hturns.onward

/-- **A call of `gbridge_loop` only disarms.** -/
theorem Looped.onward {safe : Prop} {w w' : Live} (h : Looped safe w w') : w.g.Onward w'.g := by
  cases h with
  | moved hm =>
    obtain ⟨n, hwent, -⟩ := hm
    exact hwent.onward
  | timeout _ _ _ hline =>
    rw [show w'.g = _ from congrArg Line.g hline]
    exact State.onward_init _ _

/-! ## 2. What each call leaves -/

/-- No buffer is armed and no acknowledgement awaited, and a link that is down is clean. -/
structure State.Disarmed (g : State) : Prop where
  stream : g.streamMaxSize = 0
  waiting : g.waitingCmd = Cmd.none
  down : g.connected = false → g.processingCmd = Cmd.none ∧ g.dataReady = false

theorem State.Disarmed.clean {g : State} (h : g.Disarmed) : g.DownClean := fun hd =>
  ⟨(h.down hd).1, (h.down hd).2, h.waiting, h.stream⟩

theorem State.DownClean.disarmed {g : State} (h : g.DownClean) (hs : g.streamMaxSize = 0)
    (hw : g.waitingCmd = Cmd.none) : g.Disarmed :=
  ⟨hs, hw, fun hd => ⟨(h hd).1, (h hd).2.1⟩⟩

theorem State.Onward.disarmed {g g' : State} (h : g.Onward g') (hd : g.Disarmed) :
    g'.Disarmed := by
  refine (h.down hd.clean).disarmed ?_ ?_
  · rcases h.armed with h' | h'
    · exact h'.trans hd.stream
    · exact h'
  · rcases h.waiting with h' | h'
    · exact h'.trans hd.waiting
    · exact h'

/-- Of the operations nothing is asked here. -/
abbrev freeSpec (env : Surroundings) : Spec Op Live :=
  Spec.guarded (live env) fun w => False → w.Inside

section Leaves

variable {env : Surroundings} {α : Type}

/-- The call leaves nothing armed if it finds nothing armed. -/
abbrev Leaves (env : Surroundings) (p : Code α) : Prop :=
  Keeps (freeSpec env) (fun w => w.g.Disarmed) p

theorem leaves_modify (f : State → State) (hf : ∀ g, g.Disarmed → (f g).Disarmed) :
    Leaves env (modify f) := fun w h => wpL_modify f False.elim False.elim (hf w.g h)

theorem leaves_get {k : State → Code α} (h : ∀ g, Leaves env (k g)) : Leaves env (get.bind k) :=
  fun w hw => wpL_get k False.elim (h w.g w hw)

theorem leaves_putchars (cs : List UInt8) : Leaves env (serialPutchars cs) := fun _ h =>
  wpL_putchars cs False.elim h

theorem leaves_putchar (c : UInt8) : Leaves env (serialPutchar c) := fun w h =>
  (wpL_cmd (w := w) (Op.putchar c)).mpr ⟨False.elim, h⟩

theorem leaves_gbridgeLoop : Leaves env gbridgeLoop := by
  intro w h
  refine wpre_mono ?_ (wpL_gbridgeLoop env.enough_false False.elim)
  intro _ w' hloop
  exact hloop.onward.disarmed h

theorem leaves_gbridgeRecvDataDone : Leaves env gbridgeRecvDataDone :=
  leaves_modify _ fun _ h => ⟨h.stream, h.waiting, fun hd => ⟨(h.down hd).1, rfl⟩⟩

/-- `wait_cmd`: the second loop is left when the receiver has disarmed what it waits for, and by
nothing else. -/
theorem leaves_waitCmd (cmd : UInt8) : Leaves env (waitCmd cmd) := by
  intro w h
  refine wpL_get _ False.elim ?_
  split
  · rename_i hc
    refine (wpL_bind _ _).mpr (wlp_whileM (fun w' => w' = w) rfl ?_)
    rintro _ rfl
    refine wpL_get _ False.elim ?_
    rw [h.waiting]
    refine (wpL_bind _ _).mpr (wpL_timerGet False.elim ((wpL_bind _ _).mpr
      (wpL_modify _ False.elim False.elim ?_)))
    refine wlp_whileM (fun w' => w'.g.DownClean ∧ w'.g.streamMaxSize = 0 ∧
      (w'.g.waitingCmd = cmd ∨ w'.g.waitingCmd = Cmd.none)) ?_ ?_
    · exact ⟨fun hd => absurd (hc.symm.trans hd) (by decide), h.stream, .inl rfl⟩
    · rintro w' ⟨hdown, hs, hw⟩
      refine wpL_get _ False.elim ?_
      show if (w'.g.waitingCmd == cmd) = true then _ else _
      split
      · refine wpre_mono ?_ (wpL_gbridgeLoop env.enough_false False.elim)
        intro _ w'' hloop
        refine ⟨hloop.onward.down hdown, ?_, ?_⟩
        · rcases hloop.onward.armed with h' | h'
          · exact h'.trans hs
          · exact h'
        · rcases hloop.onward.waiting with h' | h'
          · rw [h']
            exact hw
          · exact .inr h'
      · rename_i hleft
        exact hdown.disarmed hs (hw.resolve_left fun h' => hleft (beq_iff_eq.mpr h'))
  · exact h

theorem leaves_gbridgeCmdData (data : GbridgeData) : Leaves env (gbridgeCmdData data) :=
  leaves_get fun _ => .ite (.ite (.bind (.bind (leaves_putchar _) fun _ =>
    .bind (leaves_putchar _) fun _ => .bind (leaves_putchars _) fun _ =>
      .bind (leaves_putchar _) fun _ => leaves_putchar _) fun _ => leaves_waitCmd _)
    (.ret ())) (.ret ())

theorem leaves_gbridgeCmdDebugLine (line : List UInt8) : Leaves env (gbridgeCmdDebugLine line) :=
  leaves_get fun _ => .ite (.ite (.bind (leaves_putchar _) fun _ =>
    .bind (leaves_putchar _) fun _ => .bind (leaves_putchars _) fun _ => leaves_waitCmd _)
    (.ret ())) (.ret ())

theorem leaves_gbridgeCmdStreamStart (length : Nat) :
    Leaves env (gbridgeCmdStreamStart length) :=
  leaves_get fun _ => .ite (.bind (leaves_putchar _) fun _ => .bind (leaves_putchar _) fun _ =>
    .bind (leaves_putchar _) fun _ => leaves_modify _ fun _ h => ⟨h.stream, h.waiting, h.down⟩)
    (.ret ())

theorem leaves_gbridgeCmdStreamData (data : List UInt8) :
    Leaves env (gbridgeCmdStreamData data) :=
  leaves_get fun _ => .ite (.bind (leaves_modify _ fun _ h => ⟨h.stream, h.waiting, h.down⟩)
    fun _ => leaves_putchars data) (.ret ())

theorem leaves_gbridgeCmdStreamFinish : Leaves env gbridgeCmdStreamFinish :=
  leaves_get fun _ => .ite (.bind (leaves_get fun _ => .bind (leaves_putchar _) fun _ =>
    leaves_putchar _) fun _ => leaves_waitCmd _) (.ret ())

/-- `gbridge_recv_data_wait`: it hands out a packet only while the link is up. -/
theorem wpL_gbridgeRecvDataWait {w : Live} (h : w.g.Disarmed) :
    wpL env false False gbridgeRecvDataWait (fun r w' => w'.g.Disarmed ∧
      (r ≠ none → w'.g.connected = true)) w := by
  refine (wpL_bind _ _).mpr (wpre_mono ?_ (Keeps.whileM (leaves_get fun _ => .ret _)
    leaves_gbridgeLoop w h))
  rintro ⟨⟩ w' h'
  refine wpL_get _ False.elim ?_
  split
  · rename_i hc
    exact wpL_get _ False.elim ⟨h', fun _ => hc⟩
  · exact ⟨h', fun hr => absurd rfl hr⟩

theorem leaves_gbridgeRecvDataWait : Leaves env gbridgeRecvDataWait := fun _ h =>
  wpre_mono (fun _ _ h' => h'.1) (wpL_gbridgeRecvDataWait h)

/-- `gbridge_recv_stream_wait`, called while the link is up: the loop is left when the receiver
has disarmed the buffer, be it by the stream or by a reset. -/
theorem wpL_gbridgeRecvStreamWait {w : Live} (buffer : List UInt8) (maxSize : Nat)
    (hc : w.g.connected = true) (h : w.g.Disarmed) :
    wpL env false False (gbridgeRecvStreamWait buffer maxSize) (fun _ w' => w'.g.Disarmed) w := by
  refine (wpL_bind _ _).mpr (wpL_modify _ False.elim False.elim ?_)
  refine (wpL_bind _ _).mpr (wlp_whileM
    (fun w' => w'.g.DownClean ∧ w'.g.waitingCmd = Cmd.none) ?_ ?_)
  · exact ⟨fun hd => absurd (hc.symm.trans hd) (by decide), h.waiting⟩
  · rintro w' ⟨hdown, hw⟩
    refine wpL_get _ False.elim ?_
    show if (w'.g.connected && w'.g.streamMaxSize != 0) = true then _ else _
    split
    · refine wpre_mono ?_ (wpL_gbridgeLoop env.enough_false False.elim)
      intro _ w'' hloop
      refine ⟨hloop.onward.down hdown, ?_⟩
      rcases hloop.onward.waiting with h' | h'
      · exact h'.trans hw
      · exact h'
    · rename_i hleft
      have hs : w'.g.streamMaxSize = 0 := by
        by_contra hne
        have hconn : w'.g.connected = false := by simpa [hne] using hleft
        exact hne (hdown hconn).2.2.2
      exact wpL_get _ False.elim (hdown.disarmed hs hw)

/-! ## 3. The calls of libmobile -/

theorem leaves_request (data : GbridgeData) : Leaves env (request data) :=
  .bind (leaves_gbridgeCmdData data) fun _ => leaves_gbridgeRecvDataWait

/-- A call that is done with its packet. -/
theorem leaves_done (r : Result) : Leaves env (do gbridgeRecvDataDone; return r) :=
  .bind leaves_gbridgeRecvDataDone fun _ => .ret r

theorem leaves_mobileImplSockOpen (conn : Nat) (type addrtype : UInt8) (bindport : Nat) :
    Leaves env (mobileImplSockOpen conn type addrtype bindport) := by
  refine .bind (leaves_request _) fun r => ?_
  cases r with
  | none => exact leaves_done _
  | some recvData => exact .ite (leaves_done _) (leaves_done _)

theorem leaves_mobileImplSockClose (conn : Nat) : Leaves env (mobileImplSockClose conn) :=
  .bind (leaves_request _) fun _ => leaves_done _

theorem leaves_mobileImplSockConnect (conn : Nat) (addr : Option MobileAddr) :
    Leaves env (mobileImplSockConnect conn addr) := by
  refine .bind (leaves_request _) fun r => ?_
  cases r with
  | none => exact leaves_done _
  | some recvData => exact .ite (leaves_done _) (leaves_done _)

theorem leaves_mobileImplSockFlag (cmd : UInt8) (conn : Nat) :
    Leaves env (mobileImplSockFlag cmd conn) := by
  refine .bind (leaves_request _) fun r => ?_
  cases r with
  | none => exact leaves_done _
  | some recvData => exact .ite (leaves_done _) (leaves_done _)

theorem leaves_mobileImplSockSend (conn : Nat) (buffer : List UInt8) (addr : Option MobileAddr) :
    Leaves env (mobileImplSockSend conn buffer addr) := by
  refine .bind (leaves_gbridgeCmdData _) fun _ => .bind (leaves_get fun _ => .ret _) fun c => ?_
  refine .ite ?_ (leaves_done _)
  refine .bind (leaves_gbridgeCmdStreamStart _) fun _ => .bind (leaves_gbridgeCmdStreamData _)
    fun _ => .bind leaves_gbridgeCmdStreamFinish fun _ =>
      .bind leaves_gbridgeRecvDataWait fun r => ?_
  cases r with
  | none => exact leaves_done _
  | some recvData => exact .ite (leaves_done _) (leaves_done _)

/-- `mobile_impl_sock_recv` arms its buffer while the link is up, and waits until it is
disarmed. -/
theorem leaves_mobileImplSockRecv (conn : Nat) (buffer : List UInt8) (size : Nat)
    (addr : Option MobileAddr) : Leaves env (mobileImplSockRecv conn buffer size addr) := by
  intro w h
  refine (wpL_bind _ _).mpr ((wpL_bind _ _).mpr (wpre_mono ?_ (leaves_gbridgeCmdData _ w h)))
  rintro ⟨⟩ w₁ h₁
  refine wpre_mono ?_ (wpL_gbridgeRecvDataWait h₁)
  rintro r w₂ ⟨h₂, hc⟩
  cases r with
  | none => exact leaves_done _ w₂ h₂
  | some recvData =>
    have hdone : State.Disarmed { w₂.g with dataReady := false } :=
      ⟨h₂.stream, h₂.waiting, fun hd => ⟨(h₂.down hd).1, rfl⟩⟩
    refine wpre_if (fun _ => leaves_done _ w₂ h₂) fun _ => ?_
    rcases addressRead (recvData.buffer.drop 3) ((recvData.size.toNat + 65536 - 3) % 65536)
      with ⟨recvAddrlen, recvAddr⟩
    refine wpre_if (fun _ => leaves_done _ w₂ h₂) fun _ => ?_
    refine (wpL_bind _ _).mpr (wpL_modify _ False.elim False.elim ?_)
    refine wpre_if (fun _ => hdone) fun _ => ?_
    refine (wpL_bind _ _).mpr (wpre_mono ?_ (wpL_gbridgeRecvStreamWait buffer size
      (hc (Option.some_ne_none _)) hdone))
    intro b w₃ h₃
    exact wpre_if (fun _ => wpL_get _ False.elim h₃) fun _ => wpL_get _ False.elim h₃

theorem leaves_gbridgeProtMaLoop : Leaves env gbridgeProtMaLoop := by
  refine .bind (leaves_get fun _ => .ret _) fun r => ?_
  cases r with
  | none => exact .ret ()
  | some _ => exact leaves_gbridgeRecvDataDone

end Leaves

/-- A call of libmobile's, or of the main loop. -/
inductive ApiCall where
  | sockOpen (conn : Nat) (type addrtype : UInt8) (bindport : Nat)
  | sockClose (conn : Nat)
  | sockConnect (conn : Nat) (addr : Option MobileAddr)
  | sockListen (conn : Nat)
  | sockAccept (conn : Nat)
  | sockSend (conn : Nat) (buffer : List UInt8) (addr : Option MobileAddr)
  | sockRecv (conn : Nat) (buffer : List UInt8) (size : Nat) (addr : Option MobileAddr)
  | debugLine (line : List UInt8)
  | loop
  | protMaLoop

/-- What the call returns is noted. -/
def reported (p : Code Result) : Code Unit := p.bind fun r => .cmd (.returned r)

def ApiCall.code : ApiCall → Code Unit
  | sockOpen conn type addrtype bindport =>
    reported (mobileImplSockOpen conn type addrtype bindport)
  | sockClose conn => reported (mobileImplSockClose conn)
  | sockConnect conn addr => reported (mobileImplSockConnect conn addr)
  | sockListen conn => reported (mobileImplSockListen conn)
  | sockAccept conn => reported (mobileImplSockAccept conn)
  | sockSend conn buffer addr => reported (mobileImplSockSend conn buffer addr)
  | sockRecv conn buffer size addr => reported (mobileImplSockRecv conn buffer size addr)
  | debugLine line => gbridgeCmdDebugLine line
  | loop => gbridgeLoop
  | protMaLoop => gbridgeProtMaLoop

theorem leaves_reported {env : Surroundings} {p : Code Result} (h : Leaves env p) :
    Leaves env (reported p) := .bind h fun r w hw =>
  (wpL_cmd (w := w) (Op.returned r)).mpr ⟨False.elim, hw⟩

/-- **Every call leaves nothing armed**, in any surroundings. -/
theorem ApiCall.leaves (env : Surroundings) (c : ApiCall) : Leaves env c.code := by
  cases c with
  | sockOpen conn type addrtype bindport =>
    exact leaves_reported (leaves_mobileImplSockOpen conn type addrtype bindport)
  | sockClose conn => exact leaves_reported (leaves_mobileImplSockClose conn)
  | sockConnect conn addr => exact leaves_reported (leaves_mobileImplSockConnect conn addr)
  | sockListen conn => exact leaves_reported (leaves_mobileImplSockFlag _ conn)
  | sockAccept conn => exact leaves_reported (leaves_mobileImplSockFlag _ conn)
  | sockSend conn buffer addr => exact leaves_reported (leaves_mobileImplSockSend conn buffer addr)
  | sockRecv conn buffer size addr =>
    exact leaves_reported (leaves_mobileImplSockRecv conn buffer size addr)
  | debugLine line => exact leaves_gbridgeCmdDebugLine line
  | loop => exact leaves_gbridgeLoop
  | protMaLoop => exact leaves_gbridgeProtMaLoop

/-! ## 4. Between calls -/

/-- `gbridge_init` has just been called, whatever was before. -/
def Initialised (w : Live) : Prop := ∃ g : State, w.g = g.init

/-- The worlds between such calls. -/
abbrev Called : Live → Prop := Between Initialised ApiCall.code fun _ w => w

/-- **Whenever a call returns**, nothing is armed: `stream_max_size` is zero and no acknowledgement
is awaited; and if the link is down no command is under way and no packet waits to be taken.  The
calls before may have been any, in any surroundings, and may have ended in any way. -/
theorem disarmed_called (w : Live) (h : Called w) : w.g.Disarmed := by
  refine Between.keeps False ?_ (fun env c w hw => c.leaves env w hw) h
  rintro w ⟨g, hg⟩
  rw [hg]
  exact ⟨rfl, rfl, fun _ => ⟨rfl, rfl⟩⟩

/-- A link, an acknowledgement, a reply that announces two bytes, and one of them; then nothing
until the timeout. -/
def halfAStream : Surroundings where
  arrive k :=
    if k = 0 then handshake
    else if k = 5 then
      [ack Cmd.data, Cmd.dataPc, 4, ProtMa.cmdRecv, 0, 2, 0, 0, 8, Cmd.streamPc, 0, 2, 7]
    else []
  clock n := if n < 12 then 0 else 0x7fffffff

/-- The link is set up, and a packet asked for. -/
def askHalf : List (Surroundings × ApiCall) :=
  List.replicate 4 (halfAStream, .loop) ++ [(halfAStream, .sockRecv 1 [5, 6] 2 none)]

/-- The call fails with one byte of its buffer written, and nothing armed. -/
theorem disarmed_called_half : ∃ w, Called w ∧ w.results = [.recv (-1) [7, 6] none] ∧
    w.g.Disarmed := by
  have hrun : (callAll ApiCall.code (fun _ w => w) 50 askHalf { g := State.init {} }).map
      (·.results) = some [.recv (-1) [7, 6] none] := by decide +kernel
  obtain ⟨w, hw, hresults⟩ := Option.map_eq_some_iff.mp hrun
  have hcalled : Called w := Between.callAll askHalf (.start ⟨{}, rfl⟩) hw
  exact ⟨w, hcalled, hresults, disarmed_called w hcalled⟩

end GBridge.Atmega

/-
# In bounds, and never blocked

The main loop and libmobile call the functions of `gbridge.c` in any order; bytes arrive and the
timer runs as they please.  Two buffers are filled meanwhile, `data_buf` and the one that
`gbridge_recv_stream` was given, and each index is counted up over many calls of `gbridge_loop`.

`Between` are the worlds between two calls of a run, whatever the calls are, and `Between.keeps` is
the induction over them.  Here the calls are those of `gbridge.c` (`LinkCall`).  `State.Sound`, the
bounds of both indices at each stage of a command, is kept by each of them (`LinkCall.keeps`): most
do nothing but set flags and wait, and the rest is `gbridge_loop`, of which `wpL_gbridgeLoop` says
it.

The same lemma watches every single operation.  So nothing goes wrong in the middle of a call
either, and of a call that never returns it is said too (`inside_linked`).
-/
import GBridge.Atmega.Turns

namespace GBridge.Atmega

open Prog

/-! ## 1. Calls, one after the other -/

/-- The worlds between the calls of a run.  Each call has its own surroundings; what is noted of a
call when it returns is noted by `leave`. -/
inductive Between {C : Type} (start : Live → Prop) (code : C → Code Unit)
    (leave : C → Live → Live) : Live → Prop
  | start {w : Live} : start w → Between start code leave w
  | call {w w' : Live} (env : Surroundings) (c : C) : Between start code leave w →
    Eval (live env) (code c) w () w' → Between start code leave (leave c w')

/-- What one call keeps, a run keeps. -/
theorem Between.keeps {C : Type} {start : Live → Prop} {code : C → Code Unit}
    {leave : C → Live → Live} {I : Live → Prop} (safe : Prop) (hstart : ∀ w, start w → I w)
    (hcall : ∀ env c w, I w → wpL env false safe (code c) (fun _ w' => I (leave c w')) w) {w : Live}
    (h : Between start code leave w) : I w := by
  induction h with
  | start h => exact hstart _ h
  | call env c _ he ih =>
    exact wpre_eval (Q := fun _ w' => I (leave c w')) (Spec.guarded_sound _ _)
      (hcall env c _ ih) he

/-- What the calls of a list leave, if each comes to its end. -/
def callAll {C : Type} (code : C → Code Unit) (leave : C → Live → Live) (fuel : Nat) :
    List (Surroundings × C) → Live → Option Live
  | [], w => some w
  | (env, c) :: cs, w =>
    (run (fun _ e w => some (liveAnswer env e w)) fuel (code c) w).bind fun r =>
      callAll code leave fuel cs (leave c r.2)

theorem Between.callAll {C : Type} {start : Live → Prop} {code : C → Code Unit}
    {leave : C → Live → Live} {fuel : Nat} :
    ∀ (cs : List (Surroundings × C)) {w w' : Live}, Between start code leave w →
      Atmega.callAll code leave fuel cs w = some w' → Between start code leave w'
  | [], _, _, h, hrun => by
    cases hrun
    exact h
  | (env, c) :: cs, w, w', h, hrun => by
    obtain ⟨⟨⟨⟩, w₁⟩, h₁, h₂⟩ := Option.bind_eq_some_iff.mp hrun
    exact Between.callAll cs (.call env c h (live_eval h₁)) h₂

/-! ## 2. The functions of `gbridge.c` -/

/-- A call of one of the functions of `gbridge.c`. -/
inductive LinkCall where
  | init
  | loop
  | recvDataDone
  | recvStream (buffer : List UInt8) (n : Nat)
  | cmdData (data : GbridgeData)
  | cmdDebugLine (line : List UInt8)
  | cmdStreamStart (length : Nat)
  | cmdStreamData (data : List UInt8)
  | cmdStreamFinish

def LinkCall.code : LinkCall → Code Unit
  | init => gbridgeInit
  | loop => gbridgeLoop
  | recvDataDone => gbridgeRecvDataDone
  | recvStream buffer n => gbridgeRecvStream buffer n
  | cmdData data => gbridgeCmdData data
  | cmdDebugLine line => gbridgeCmdDebugLine line
  | cmdStreamStart length => gbridgeCmdStreamStart length
  | cmdStreamData data => gbridgeCmdStreamData data
  | cmdStreamFinish => gbridgeCmdStreamFinish

/-- After `gbridge_recv_stream` its size is the limit. -/
def LinkCall.leave : LinkCall → Live → Live
  | recvStream _ n, w => { w with limit := n }
  | _, w => w

/-- Before the first call all variables are zero. -/
def PowerUp (w : Live) : Prop := w = { g := {} }

/-- The worlds between calls of the functions of `gbridge.c`. -/
abbrev Linked : Live → Prop := Between PowerUp LinkCall.code LinkCall.leave

/-! ## 3. What each call keeps -/

/-- The specification of the operations when each has to leave the adapter inside its bounds. -/
abbrev boundedSpec (env : Surroundings) : Spec Op Live :=
  Spec.guarded (live env) fun w => True → w.Inside

section Keeps

variable {env : Surroundings}

theorem keeps_modify (f : State → State)
    (hf : ∀ limit g, State.Sound limit g → State.Sound limit (f g)) :
    Keeps (boundedSpec env) Live.Sound (modify f) := by
  intro w h
  have h' : Live.Sound { w with g := f w.g } := ⟨hf _ _ h.bounds, h.fault⟩
  exact wpL_modify f (fun _ => h.inside) (fun _ => h'.inside) h'

theorem keeps_get {α : Type} {k : State → Code α}
    (h : ∀ g, Keeps (boundedSpec env) Live.Sound (k g)) :
    Keeps (boundedSpec env) Live.Sound (get.bind k) := by
  intro w hw
  exact wpL_get k (fun _ => hw.inside) (h w.g w hw)

theorem keeps_putchars (cs : List UInt8) :
    Keeps (boundedSpec env) Live.Sound (serialPutchars cs) := fun _ h =>
  wpL_putchars cs (fun _ => h.inside) ⟨h.bounds, h.fault⟩

theorem keeps_putchar (c : UInt8) :
    Keeps (boundedSpec env) Live.Sound (serialPutchar c) := by
  intro w h
  have h' : Live.Sound { w with tx := w.tx ++ [c] } := ⟨h.bounds, h.fault⟩
  exact (wpL_cmd (w := w) (Op.putchar c)).mpr ⟨fun _ => h'.inside, h'⟩

theorem keeps_timerGet : Keeps (boundedSpec env) Live.Sound timerGet := fun _ h =>
  wpL_timerGet (fun _ => h.inside) ⟨h.bounds, h.fault⟩

theorem keeps_gbridgeLoop : Keeps (boundedSpec env) Live.Sound gbridgeLoop := by
  intro w h
  exact wpre_mono (fun _ _ hl => hl.sound trivial h) (wpL_gbridgeLoop env.enough_false fun _ => h)

/-- A change of variables the bounds do not speak of. -/
theorem keeps_waitCmd (cmd : UInt8) : Keeps (boundedSpec env) Live.Sound (waitCmd cmd) := by
  refine keeps_get fun g => .ite ?_ (.ret ())
  refine .bind (.whileM (keeps_get fun g => .ret _) keeps_gbridgeLoop) fun _ => ?_
  refine .bind keeps_timerGet fun now => ?_
  refine .bind (keeps_modify _ fun limit g h => ?_) fun _ => ?_
  · exact ⟨h.dataSize, h.armed, h.dataCur, h.streamSize, h.streamCur⟩
  · exact .whileM (keeps_get fun g => .ret _) keeps_gbridgeLoop

theorem keeps_putDataFrame (data : GbridgeData) :
    Keeps (boundedSpec env) Live.Sound (putDataFrame data) :=
  .bind (keeps_putchar _) fun _ => .bind (keeps_putchar _) fun _ =>
    .bind (keeps_putchars _) fun _ => .bind (keeps_putchar _) fun _ => keeps_putchar _

theorem keeps_gbridgeCmdData (data : GbridgeData) :
    Keeps (boundedSpec env) Live.Sound (gbridgeCmdData data) :=
  keeps_get fun _ => .ite (.ite (.bind (keeps_putDataFrame data) fun _ => keeps_waitCmd _)
    (.ret ())) (.ret ())

theorem keeps_gbridgeCmdDebugLine (line : List UInt8) :
    Keeps (boundedSpec env) Live.Sound (gbridgeCmdDebugLine line) :=
  keeps_get fun _ => .ite (.ite (.bind (keeps_putchar _) fun _ => .bind (keeps_putchar _) fun _ =>
    .bind (keeps_putchars _) fun _ => keeps_waitCmd _) (.ret ())) (.ret ())

theorem keeps_gbridgeCmdStreamStart (length : Nat) :
    Keeps (boundedSpec env) Live.Sound (gbridgeCmdStreamStart length) :=
  keeps_get fun _ => .ite (.bind (keeps_putchar _) fun _ => .bind (keeps_putchar _) fun _ =>
    .bind (keeps_putchar _) fun _ => keeps_modify _ fun _ _ h =>
      ⟨h.dataSize, h.armed, h.dataCur, h.streamSize, h.streamCur⟩) (.ret ())

theorem keeps_gbridgeCmdStreamData (data : List UInt8) :
    Keeps (boundedSpec env) Live.Sound (gbridgeCmdStreamData data) :=
  keeps_get fun _ => .ite (.bind (keeps_modify _ fun _ _ h =>
      ⟨h.dataSize, h.armed, h.dataCur, h.streamSize, h.streamCur⟩) fun _ =>
    keeps_putchars data) (.ret ())

theorem keeps_gbridgeCmdStreamFinish :
    Keeps (boundedSpec env) Live.Sound gbridgeCmdStreamFinish :=
  keeps_get fun _ => .ite (.bind (keeps_get fun _ => .bind (keeps_putchar _) fun _ =>
    keeps_putchar _) fun _ => keeps_waitCmd _) (.ret ())

/-- A new buffer: whatever was under way goes on in it, from its beginning. -/
theorem wpL_gbridgeRecvStream {w : Live} (buffer : List UInt8) (n : Nat) (h : w.Sound) :
    wpL env false True (gbridgeRecvStream buffer n)
      (fun _ w' => Live.Sound { w' with limit := n }) w :=
  wpL_modify _ (fun _ => h.inside)
    (fun _ => ⟨h.fault, h.bounds.dataSize, fun _ _ => Nat.zero_le _⟩)
    ⟨⟨h.bounds.dataSize, fun _ => rfl, h.bounds.dataCur, fun _ _ => Nat.zero_le _,
      fun _ _ _ => Nat.zero_lt_one⟩, h.fault⟩

/-- **Every call keeps the bounds**, in any surroundings. -/
theorem LinkCall.keeps (c : LinkCall) {w : Live} (h : w.Sound) :
    wpL env false True c.code (fun _ w' => (c.leave w').Sound) w := by
  cases c with
  | init => exact keeps_modify _ (fun limit g _ => g.init_sound limit) w h
  | loop => exact keeps_gbridgeLoop w h
  | recvDataDone =>
    refine keeps_modify (fun g => { g with dataReady := false }) (fun limit g h => ?_) w h
    exact ⟨h.dataSize, h.armed, h.dataCur, h.streamSize, h.streamCur⟩
  | recvStream buffer n => exact wpL_gbridgeRecvStream buffer n h
  | cmdData data => exact keeps_gbridgeCmdData data w h
  | cmdDebugLine line => exact keeps_gbridgeCmdDebugLine line w h
  | cmdStreamStart length => exact keeps_gbridgeCmdStreamStart length w h
  | cmdStreamData data => exact keeps_gbridgeCmdStreamData data w h
  | cmdStreamFinish => exact keeps_gbridgeCmdStreamFinish w h

end Keeps

/-! ## 4. In bounds -/

theorem Linked.sound {w : Live} (h : Linked w) : w.Sound := by
  refine Between.keeps True ?_ (fun env c w hw => c.keeps hw) h
  rintro _ rfl
  exact ⟨.quiet rfl (by decide) fun h => absurd rfl h, rfl⟩

/-- **In every state of every run of these calls** nothing has gone past the end of its buffer, no
byte has been read where there was none, and what a checksum may be taken of is inside its
bounds. -/
theorem inside_linked (env : Surroundings) (w : Live) (h : Linked w) (c : LinkCall)
    (p : Code Unit) (w' : Live) (hr : Reach (live env) (c.code, w) (p, w')) : w'.Inside :=
  guarded_reach (c.keeps h.sound) (fun _ => h.sound.inside) hr trivial

/-- The surroundings in which these bytes arrive at the first look, and time stands still. -/
def Surroundings.once (bytes : List UInt8) : Surroundings where
  arrive k := if k = 0 then bytes else []
  clock _ := 0

/-- The handshake arrives, and a stream of two bytes behind it. -/
def streamArrives : Surroundings := .once (handshake ++ [Cmd.streamPc, 0, 2, 7, 8, 0, 15])

/-- A buffer with room for two bytes, and all of the handshake but its last byte. -/
def linkUp : List (Surroundings × LinkCall) :=
  (streamArrives, .recvStream [0, 0, 0] 2) ::
    List.replicate (handshake.length - 1) (streamArrives, .loop)

/-- The stream is stored. -/
theorem inside_linked_stream : ∃ w p w', Linked w ∧
    Reach (live streamArrives) (LinkCall.loop.code, w) (p, w') ∧
      w'.g.streamBuf = [7, 8, 0] ∧ w'.Inside := by
  have hrun : ((callAll LinkCall.code LinkCall.leave 100 linkUp { g := {} }).bind fun w =>
      (run (fun _ e w => some (liveAnswer streamArrives e w)) 100 LinkCall.loop.code w).map
        fun r => r.2.g.streamBuf) = some [7, 8, 0] := by decide +kernel
  obtain ⟨w, hw, hrest⟩ := Option.bind_eq_some_iff.mp hrun
  obtain ⟨⟨⟨⟩, w'⟩, hloop, hbuf⟩ := Option.map_eq_some_iff.mp hrest
  have hlinked : Linked w := Between.callAll linkUp (.start rfl) hw
  have hr := eval_reach (live_eval hloop)
  exact ⟨w, _, w', hlinked, hr, hbuf, inside_linked _ w hlinked .loop _ w' hr⟩

end GBridge.Atmega

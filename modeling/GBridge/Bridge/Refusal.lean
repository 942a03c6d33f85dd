/-
# A frame that is refused

Three functions of the bridge receive a frame, `recv_cmd_debug_line`, `recv_cmd_data` and
`gbridge_recv_stream`, and between them they have about a dozen ways of not completing it.  On all
but one the link is reset: `recv_data` does so itself when a read comes back short, and the other
exits call `gbridge_init` (`Decided`).  When the link is down `gbridge_loop` reads nothing, so that
what is left of the frame is not taken for commands (`Dropped`).

The one exception is `gbridge_recv_stream` when the stream announces more than there is room for
(`Overlong`).  It returns -1 and leaves the link up, and the stream that was refused comes to be
read by `gbridge_loop`.  `frameDropped_iff` says that this is the only one, for all answers of the
port.
-/
import GBridge.Bridge.Spec

namespace GBridge.Bridge

open Prog

/-! ## 1. What should happen -/

/-- A function that receives a frame. -/
inductive Receiver where
  /-- `recv_cmd_debug_line` -/
  | debugLine
  /-- `recv_cmd_data` -/
  | data
  /-- `gbridge_recv_stream` -/
  | stream (maxSize : Nat)

namespace Receiver

/-- The function, with its result if it has one. -/
def code : Receiver → Code Int
  | .debugLine => do
    recvCmdDebugLine
    return 0
  | .data => do
    recvCmdData
    return 0
  | .stream maxSize => do
    let r ← gbridgeRecvStream maxSize
    return r.1

/-- The frame was not completed: no acknowledgement was sent, or the result is -1. -/
def Failed (w : World (List ReadRes)) (rc : Int) (w' : World (List ReadRes)) : Receiver → Prop
  | .debugLine | .data => w'.tx = w.tx
  | .stream _ => rc = -1

/-- A stream comes in that announces more than there is room for. -/
def Overlong (reads : List ReadRes) : Receiver → Prop
  | .debugLine | .data => False
  | .stream maxSize => Oversize maxSize reads

end Receiver

/-- The link is down and its flags are cleared, and `gbridge_loop` reads nothing of what may still
come. -/
structure Dropped (w : World (List ReadRes)) : Prop where
  connected : w.g.connected = false
  waiting : w.g.waitingCmd = Cmd.none
  ready : w.g.dataReady = false
  progress : w.g.handshakeProgress = 0
  deaf : ∀ w', Eval (sem scripted) gbridgeLoop w () w' → w' = w

/-! ## 2. What does happen -/

section Refusal

variable {w : World (List ReadRes)}

/-- On a link that is down `gbridge_loop` does nothing. -/
theorem wpS_gbridgeLoop_down (hdown : w.g.connected = false) :
    wpS gbridgeLoop (fun _ w' => w' = w) w := by
  refine wpS_get (wpS_ite (fun hup => ?_) fun _ => rfl)
  rw [hdown] at hup
  exact absurd hup (by decide)

theorem Reset.dropped (h : Reset w.g) : Dropped w := by
  have hdown := h.connected
  obtain ⟨g₀, hg⟩ := h
  refine ⟨hdown, by rw [hg]; rfl, by rw [hg]; rfl, by rw [hg]; rfl, fun w' hrun => ?_⟩
  have hkept : w' = w :=
    wpre_eval (Q := fun _ v => v = w) (Spec.demonic_sound _) (wpS_gbridgeLoop_down hdown) hrun
  exact hkept

/-- How the two receivers without a result come back: the frame is acknowledged, or the link has
been reset. -/
def Decided (w w' : World (List ReadRes)) : Prop :=
  (∃ b, w'.tx = w.tx ++ [b]) ∨ w'.tx = w.tx ∧ Reset w'.g

theorem Decided.of_reset {w' : World (List ReadRes)} (htx : w'.tx = w.tx) (hg : Reset w'.g) :
    Decided w w' :=
  .inr ⟨htx, hg⟩

theorem wpS_recvCmdDebugLine : wpS recvCmdDebugLine (fun _ w' => Decided w w') w := by
  refine wpS_bind (wpS_recvData (fun _ _ w₁ _ _ _ _ htx₁ => ?_)
    fun _ _ w' _ _ hg htx => .of_reset htx hg)
  refine wpS_bind (wpS_recvData (fun _ _ w₂ _ _ _ _ htx₂ => ?_)
    fun _ _ w' _ _ hg htx => .of_reset (htx.trans htx₁) hg)
  refine wpS_bind (wpS_write ?_)
  rintro _ w' rfl
  refine .inl ⟨ack Cmd.debugLine, ?_⟩
  rw [← htx₁, ← htx₂]

/-- The end of `recv_cmd_data`. -/
theorem wpS_recvDataChecksum : wpS recvDataChecksum (fun _ w' => Decided w w') w := by
  refine wpS_bind (wpS_recvData (fun _ _ w₁ _ _ _ _ htx₁ => ?_)
    fun _ _ w' _ _ hg htx => .of_reset htx hg)
  refine wpS_get (wpS_ite (fun _ => ?_) fun _ => ?_)
  · exact wpS_bind (wpS_eprint (wpS_modify (.of_reset htx₁ ⟨w₁.g, rfl⟩)))
  · refine wpS_bind (wpS_modify (wpS_write (.inl ⟨ack Cmd.data, ?_⟩)))
    exact congrArg (· ++ [ack Cmd.data]) htx₁

theorem Decided.of_tx {w₁ w' : World (List ReadRes)} (htx : w₁.tx = w.tx) (h : Decided w₁ w') :
    Decided w w' := by
  rcases h with ⟨b, h⟩ | ⟨h, hg⟩
  · exact .inl ⟨b, by rw [h, htx]⟩
  · exact .inr ⟨h.trans htx, hg⟩

theorem wpS_recvCmdData : wpS recvCmdData (fun _ w' => Decided w w') w := by
  refine wpS_get (wpS_ite (fun _ => ?_) fun _ => ?_)
  · exact wpS_bind (wpS_eprint (wpS_modify (.of_reset rfl ⟨w.g, rfl⟩)))
  refine wpS_bind (wpS_recvData (fun _ _ w₁ _ _ _ _ htx₁ => ?_)
    fun _ _ w' _ _ hg htx => .of_reset htx hg)
  refine wpS_get (wpS_bind (wpS_recvData (fun _ _ w₂ _ _ _ _ htx₂ => ?_)
    fun _ _ w' _ _ hg htx => .of_reset (htx.trans htx₁) hg))
  exact wpre_mono (fun _ _ h => h.of_tx (htx₂.trans htx₁)) wpS_recvDataChecksum

/-- **How a receiver comes back**: the frame has been completed; or the link has been reset; or,
for a stream that is too long, neither. -/
theorem wpS_receiver (r : Receiver) (hup : w.g.connected = true) :
    wpS r.code (fun rc w' => ¬ r.Failed w rc w' ∧ ¬ r.Overlong w.port ∨
      Reset w'.g ∧ ¬ r.Overlong w.port ∨
      r.Failed w rc w' ∧ r.Overlong w.port ∧ w'.g.connected = true) w := by
  have hdecided : ∀ w', Decided w w' → ¬ w'.tx = w.tx ∧ ¬ False ∨ Reset w'.g ∧ ¬ False := by
    rintro w' (⟨b, h⟩ | ⟨-, h⟩)
    · refine .inl ⟨fun hsame => ?_, not_false⟩
      rw [hsame] at h
      exact absurd (congrArg List.length h) (by simp)
    · exact .inr ⟨h, not_false⟩
  cases r with
  | debugLine =>
    refine wpS_bind (wpre_mono (fun _ w' h => ?_) wpS_recvCmdDebugLine)
    exact (hdecided w' h).imp_right .inl
  | data =>
    refine wpS_bind (wpre_mono (fun _ w' h => ?_) wpS_recvCmdData)
    exact (hdecided w' h).imp_right .inl
  | stream maxSize =>
    refine wpS_bind (wpS_gbridgeRecvStream hup (fun rc w' hrc hfit _ _ => ?_)
      (fun rc w' hrc hover hg _ => ?_) fun rc w' _ hfit hg _ => ?_)
    · refine .inl ⟨fun hfail => ?_, hfit⟩
      rw [show rc.1 = -1 from hfail] at hrc
      exact absurd hrc (by decide)
    · exact .inr (.inr ⟨hrc, hover, by rw [hg]; exact hup⟩)
    · exact .inr (.inl ⟨hg, hfit⟩)

end Refusal

/-! ## 3. The result -/

/-- **A frame that is not completed drops the link, exactly if it is not a stream that announces
more than there is room for.**  The port answers anything, short reads and errors included. -/
theorem frameDropped_iff (r : Receiver) (w w' : World (List ReadRes)) (rc : Int)
    (hup : w.g.connected = true) (hrun : Eval (sem scripted) r.code w rc w') :
    (r.Failed w rc w' → Dropped w') ↔ ¬ r.Overlong w.port := by
  have hcases := wpre_eval (Spec.demonic_sound _) (wpS_receiver r hup) hrun
  constructor
  · intro h hover
    rcases hcases with ⟨-, hfit⟩ | ⟨-, hfit⟩ | ⟨hfail, -, hup'⟩
    · exact hfit hover
    · exact hfit hover
    · exact absurd ((h hfail).connected.symm.trans hup') (by decide)
  · intro hfit hfail
    rcases hcases with ⟨hdone, -⟩ | ⟨hreset, -⟩ | ⟨-, hover, -⟩
    · exact absurd hfail hdone
    · exact hreset.dropped
    · exact absurd hover hfit

/-- A link that is up, with these reads to come. -/
def linkUp (reads : List ReadRes) : World (List ReadRes) :=
  { g := { connected := true }, port := reads }

/-- A stream that begins with the wrong byte. -/
theorem frameDropped_wrong :
    ∃ w', Eval (sem scripted) (Receiver.stream 0x200).code (linkUp [.bytes [Cmd.data]]) (-1) w' ∧
      (((Receiver.stream 0x200).Failed (linkUp [.bytes [Cmd.data]]) (-1) w' → Dropped w') ↔
        ¬ (Receiver.stream 0x200).Overlong [.bytes [Cmd.data]]) := by
  have hrun : (run answer 10 (Receiver.stream 0x200).code (linkUp [.bytes [Cmd.data]])).map
      (·.1) = some (-1) := by decide +kernel
  obtain ⟨⟨rc, w'⟩, hrun, hrc⟩ := Option.map_eq_some_iff.mp hrun
  obtain rfl : rc = -1 := hrc
  have he := run_eval answer_sound hrun
  exact ⟨w', he, frameDropped_iff (.stream 0x200) _ w' (-1) rfl he⟩

/-- **Not every frame that is refused drops the link**: a stream of 513 bytes is announced where
there is room for 512. -/
theorem frameDropped_fails :
    ¬ ∀ (r : Receiver) (w w' : World (List ReadRes)) (rc : Int), w.g.connected = true →
      Eval (sem scripted) r.code w rc w' → r.Failed w rc w' → Dropped w' := by
  intro h
  have hrun : (run answer 10 (Receiver.stream 0x200).code
      (linkUp [.bytes [Cmd.stream], .bytes [0x02, 0x01]])).map
      (fun r => (r.1, r.2.g.connected)) = some (-1, true) := by decide +kernel
  obtain ⟨⟨rc, w'⟩, hrun, hend⟩ := Option.map_eq_some_iff.mp hrun
  obtain ⟨rfl, hup⟩ := Prod.mk.inj hend
  have he := run_eval answer_sound hrun
  have hdropped := h (.stream 0x200) _ w' (-1) rfl he rfl
  exact absurd (hdropped.connected.symm.trans hup) (by decide)

end GBridge.Bridge

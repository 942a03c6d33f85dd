/-
# A frame under every schedule

On the serial port a frame arrives piece by piece, with calls of `gbridge_loop` in between.  However
it is cut up, the calls go through the same stages: the frame is accepted on the call that finds its
last byte (`afterLoops_accepted`), or the link is reset on some call before (`untilLoops_refused`).

Both are inductions on the schedule.  What one call does (`loop_phase`) is that of the receiver with
what has arrived by then: it comes out in a later stage, with what it could not use yet still
unread, or it is through.  After that nothing is left, and further calls do nothing (`loop_quiet`).
-/
import GBridge.Atmega.Receive

namespace GBridge.Atmega

open Prog Duplex

/-! ## 1. One call -/

/-- How a call of `gbridge_loop` leaves the world while a frame comes in: too little of it has
arrived, it is accepted, or the link is reset.  Behind the frame there is the `rest`, and what
has not arrived yet is `coming`. -/
inductive Intake.After (k : Intake) (g : State) (ck : List UInt8) (good : Prop)
    (rest coming : List UInt8) (w w' : World) : Prop
  | more {todo : List UInt8} {need : Nat} : k.Phase g ck w'.g todo need → w'.rx.length < need →
    todo ++ rest = w'.rx ++ coming → w'.tx = w.tx → After k g ck good rest coming w w'
  | accepted (since : UInt32) : good →
    w'.g = { k.accept (k.sum (g.started k.cmd since)) with processingCmd := Cmd.none } →
    rest = w'.rx ++ coming → w'.tx = w.tx ++ [ack k.cmd] → After k g ck good rest coming w w'
  | reset : ¬ good → w'.g.connected = false → w'.g.dataReady = false → w'.tx = w.tx →
    After k g ck good rest coming w w'

section Call

variable {k : Intake} {g : State} {ck rest coming todo : List UInt8} {good : Prop} {need : Nat}
  {w : World}

/-- The ghost world of a serial port. -/
def World.play (w : World) (share : Share UInt8 Result) : Play := ⟨w.g, w.rx.length, 0, share⟩

/-- **One call of `gbridge_loop` while a frame comes in.** -/
theorem loop_phase (hk : k.Serves g ck good) (hphase : k.Phase g ck w.g todo need)
    (hinp : todo ++ rest = w.rx ++ coming) (hlate : w.NotLate) :
    Ends sem gbridgeLoop w fun _ w' => k.After g ck good rest coming w w' := by
  let sh := fun todo : List UInt8 =>
    Share.ofScript (todo ++ rest) (Ev.mine (ack k.cmd) :: ([] : List (Ev UInt8 Result Unit)))
  let after := Share.ofScript rest ([] : List (Ev UInt8 Result Unit))
  have hfeed : Feed sh (ack k.cmd) after := feed_older (ack k.cmd) rest []
  have his : Play.Is w.now coming (w.tx ++ [ack k.cmd]) (w.play (sh todo)) w := by
    refine ⟨rfl, rfl, ?_, rfl, [ack k.cmd], rfl, rfl⟩
    show (todo ++ rest) ++ [] = w.rx ++ coming
    rw [List.append_nil, hinp]
  -- what was to be sent and what has been sent, before the acknowledgement and after it
  have hsilent : ∀ {v' w'}, Play.Is w.now coming (w.tx ++ [ack k.cmd]) v' w' →
      ∀ todo, v'.share = sh todo → w'.tx = w.tx ∧ todo ++ rest = w'.rx ++ coming := by
    rintro v' w' ⟨-, -, hinp', -, due, hout, htx⟩ todo' hshare
    rw [hshare] at hinp' hout
    obtain rfl : [ack k.cmd] = due := Share.sends_inj hout
    refine ⟨List.append_cancel_right htx, ?_⟩
    rw [← hinp']
    exact (List.append_nil _).symm
  have hwp : wpP (.at w.now) true gbridgeLoop (fun _ v' => ∀ w',
      Play.Is w.now coming (w.tx ++ [ack k.cmd]) v' w' →
        k.After g ck good rest coming w w') (w.play (sh todo)) := by
    refine wpP_gbridgeLoop_phase hfeed hk hphase rfl hlate.1 ⟨?_, ?_, ?_⟩
    · intro v' todo' need' hphase' hknown _ hshare w' his'
      obtain ⟨htx, hinp'⟩ := hsilent his' todo' hshare
      exact .more (his'.g ▸ hphase') (his'.known ▸ hknown) hinp' htx
    · intro hgood v' since hg hshare w' his'
      obtain ⟨hg', -, hinp', -, due, hout, htx⟩ := his'
      rw [hshare] at hinp' hout
      obtain rfl : due = [] := List.map_eq_nil_iff.mp hout.symm
      refine .accepted since hgood (hg' ▸ hg) ?_ ((List.append_nil _).symm.trans htx)
      rw [← hinp']
      exact (List.append_nil _).symm
    · intro hbad
      refine ⟨rfl, fun v' todo' hdown hnone hshare w' his' => ?_⟩
      exact .reset hbad (his'.g ▸ hdown) (his'.g ▸ hnone) (hsilent his' todo' hshare).1
  refine (wpre_ends (play_tracks _ _ _) his hwp).mono fun _ w' h => ?_
  obtain ⟨v', his', hafter⟩ := h
  exact hafter w' his'

/-- A call of `gbridge_loop` on an idle link, with nothing to read. -/
theorem loop_quiet (hidle : w.g.Idle) (hrx : w.rx = []) :
    Ends sem gbridgeLoop w fun _ w' => w'.g = w.g ∧ w'.rx = [] ∧ w'.tx = w.tx := by
  let share := Share.ofScript [] ([] : List (Ev UInt8 Result Unit))
  have his : Play.Is w.now [] w.tx (w.play share) w :=
    ⟨rfl, rfl, by rw [hrx]; rfl, rfl, [], rfl, List.append_nil _⟩
  have hwp : wpP (.at w.now) true gbridgeLoop (fun _ v' => v' = w.play share)
      (w.play share) := by
    obtain ⟨hup, hproc, hwait⟩ := hidle
    refine wpP_get (wpP_ite (fun _ => wpP_get ?_) fun hdown => absurd hup hdown)
    show wpP _ true (do
      if ← timedOut w.g.processingCmd w.g.processingCmdTime then gbridgeInit
      else if ← timedOut w.g.waitingCmd w.g.waitingCmdTime then gbridgeInit
      else receiveCmd) _ _
    rw [hproc, hwait]
    refine wpP_get (wpP_ite (fun _ => ?_) fun hne => absurd hproc hne)
    refine wpP_bind (wpP_available fun n p hn hcost => wpP_ite (fun hzero => ?_) fun hpos => ?_)
    · subst hzero
      obtain rfl : p = 0 := hcost.same fun h => (nomatch h.1)
      show Play.mk w.g 0 0 share = Play.mk w.g w.rx.length 0 share
      rw [hrx]
      rfl
    · exact absurd (Nat.le_zero.mp hn) hpos
  refine (wpre_ends (play_tracks _ _ _) his hwp).mono ?_
  rintro _ w' ⟨v', ⟨hg, -, hinp, -, due, hout, htx⟩, rfl⟩
  obtain rfl : due = [] := List.map_eq_nil_iff.mp hout.symm
  refine ⟨hg.symm, ?_, (List.append_nil _).symm.trans htx⟩
  have hnil : ([] : List UInt8) = w'.rx ++ [] := hinp
  rw [List.append_nil] at hnil
  exact hnil.symm

end Call

/-! ## 2. All calls -/

section Schedule

variable {k : Intake} {g : State} {ck tx rest : List UInt8} {good : Prop}

/-- The link stays up in every stage. -/
theorem Intake.Serves.connected (hk : k.Serves g ck good) {g' : State} {todo : List UInt8}
    {need : Nat} (hphase : k.Phase g ck g' todo need) : g'.connected = true := by
  cases hphase with
  | idle => exact hk.idle.connected
  | under hstage => exact ((hk.receives _).link hstage).connected.trans hk.idle.connected

/-- In every stage something is still to come, and not less than is needed to go on. -/
theorem Intake.Phase.need_le {g' : State} {todo : List UInt8} {need : Nat} (hck : 2 ≤ ck.length)
    (hphase : k.Phase g ck g' todo need) : need ≤ todo.length := by
  cases hphase with
  | idle =>
    rw [List.length_cons]
    exact Nat.succ_le_succ (Nat.zero_le _)
  | under hstage =>
    cases hstage with
    | head =>
      rw [List.length_append]
      exact Nat.le_add_right _ _
    | bytes _ _ =>
      rw [List.length_append]
      omega
    | sum _ => exact hck

/-- On an idle link nothing happens as long as nothing arrives. -/
theorem afterLoops_quiet : ∀ {ts : List Tick} {w : World}, w.g.Idle → w.rx = [] →
    arrivals ts = [] → AfterLoops (fun w' => w'.g = w.g ∧ w'.rx = [] ∧ w'.tx = w.tx) ts w
  | [], _, _, hrx, _ => ⟨rfl, hrx, rfl⟩
  | t :: ts, w, hidle, hrx, hnone => by
    rw [arrivals_cons] at hnone
    obtain ⟨harrived, hnone⟩ := List.append_eq_nil_iff.mp hnone
    intro _
    have hquiet : (w.tick t).rx = [] := by
      show w.rx ++ t.arrived = []
      rw [hrx, harrived]
      rfl
    refine (loop_quiet (w := w.tick t) hidle hquiet).mono fun _ w₁ ⟨hg, hrx₁, htx⟩ => ?_
    have hrest : AfterLoops _ ts w₁ :=
      afterLoops_quiet (by rw [hg]; exact hidle) hrx₁ hnone
    rw [hg, htx] at hrest
    exact hrest

/-- The state when the frame has been accepted. -/
def Intake.Accepted (k : Intake) (g : State) (tx : List UInt8) (w : World) : Prop :=
  (∃ since, w.g = { k.accept (k.sum (g.started k.cmd since)) with processingCmd := Cmd.none }) ∧
    w.rx = [] ∧ w.tx = tx ++ [ack k.cmd]

/-- **A good frame is accepted, however it arrives.** -/
theorem afterLoops_accepted (hk : k.Serves g ck good) (hck : 2 ≤ ck.length) (hgood : good) :
    ∀ {ts : List Tick} {w : World} {todo : List UInt8} {need : Nat},
      k.Phase g ck w.g todo need → w.rx.length < need → todo = w.rx ++ arrivals ts →
      w.tx = tx → AfterLoops (k.Accepted g tx) ts w
  | [], w, todo, need, hphase, hshort, htodo, _ => by
    have hle := hphase.need_le hck
    rw [htodo, arrivals_nil, List.append_nil] at hle
    exact absurd hshort (Nat.not_lt_of_le hle)
  | t :: ts, w, todo, need, hphase, _, htodo, htx => by
    intro hlate
    have hinp : todo ++ [] = (w.tick t).rx ++ arrivals ts := by
      rw [htodo, arrivals_cons, List.append_nil, ← List.append_assoc]
      rfl
    refine (loop_phase (w := w.tick t) hk hphase hinp hlate).mono fun _ w₁ hafter => ?_
    rcases hafter with ⟨hphase₁, hshort₁, htodo₁, htx₁⟩ | ⟨since, -, hg₁, hrest, htx₁⟩ | ⟨hbad, -⟩
    · rw [List.append_nil] at htodo₁
      exact afterLoops_accepted hk hck hgood hphase₁ hshort₁ htodo₁ (htx₁.trans htx)
    · obtain ⟨hrx₁, hnone⟩ := List.append_eq_nil_iff.mp hrest.symm
      have hlink := (hk.receives since).done
      have hidle : w₁.g.Idle := by
        rw [hg₁]
        exact ⟨hlink.connected.trans hk.idle.connected, rfl,
          hlink.waitingCmd.trans hk.idle.waiting⟩
      refine AfterLoops.mono (fun w' ⟨hg, hrx, htx'⟩ => ?_) (afterLoops_quiet hidle hrx₁ hnone)
      exact ⟨⟨since, hg.trans hg₁⟩, hrx, htx'.trans (htx ▸ htx₁)⟩
    · exact absurd hgood hbad

/-- The link is down, no packet is there and nothing has been sent. -/
def World.Refused (tx : List UInt8) (w : World) : Prop :=
  w.g.connected = false ∧ w.g.dataReady = false ∧ w.tx = tx

/-- **A bad frame is refused, however it arrives**, and until then what holds in all stages
does. -/
theorem untilLoops_refused {P : State → Prop} (hk : k.Serves g ck good) (hck : 2 ≤ ck.length)
    (hbad : ¬ good) (hP : ∀ {g' todo need}, k.Phase g ck g' todo need → P g') :
    ∀ {ts : List Tick} {w : World} {todo : List UInt8} {need : Nat},
      k.Phase g ck w.g todo need → w.rx.length < need → todo ++ rest = w.rx ++ arrivals ts →
      w.tx = tx → UntilLoops (fun w => P w.g ∧ w.tx = tx) (World.Refused tx) ts w
  | [], w, todo, need, hphase, hshort, htodo, _ => by
    have hle := hphase.need_le hck
    have hlen := congrArg List.length htodo
    rw [arrivals_nil, List.append_nil, List.length_append] at hlen
    omega
  | t :: ts, w, todo, need, hphase, _, htodo, htx => by
    refine .inr ⟨⟨hP hphase, htx⟩, fun hlate => ?_⟩
    have hinp : todo ++ rest = (w.tick t).rx ++ arrivals ts := by
      rw [htodo, arrivals_cons, ← List.append_assoc]
      rfl
    refine (loop_phase (w := w.tick t) hk hphase hinp hlate).mono fun _ w₁ hafter => ?_
    rcases hafter with ⟨hphase₁, hshort₁, htodo₁, htx₁⟩ | ⟨since, hgood, -, -, -⟩ |
      ⟨-, hdown, hnone, htx₁⟩
    · exact untilLoops_refused hk hck hbad hP hphase₁ hshort₁ htodo₁ (htx₁.trans htx)
    · exact absurd hgood hbad
    · exact UntilLoops.now ⟨hdown, hnone, htx₁.trans htx⟩

/-- **A frame that is there at once is decided in one call**, and what stands behind it is left
alone if it is accepted. -/
theorem loop_whole (hk : k.Serves g ck good) (hck : 2 ≤ ck.length) {w : World} (hg : w.g = g)
    (hrx : w.rx = []) {t : Tick}
    (harrived : t.arrived = (k.cmd :: (k.head ++ (k.body ++ ck))) ++ rest) :
    Ends sem gbridgeLoop (w.tick t) fun _ w' =>
      good ∧ (w'.g.connected = true ∧ w'.rx = rest ∧ w'.tx = w.tx ++ [ack k.cmd]) ∨
      ¬ good ∧ World.Refused w.tx w' := by
  have hphase : k.Phase g ck (w.tick t).g (k.cmd :: (k.head ++ (k.body ++ ck))) 1 := by
    rw [show (w.tick t).g = g from hg]
    exact .idle
  have hinp : (k.cmd :: (k.head ++ (k.body ++ ck))) ++ rest = (w.tick t).rx ++ [] := by
    rw [← harrived, List.append_nil]
    show t.arrived = w.rx ++ t.arrived
    rw [hrx, List.nil_append]
  have hlate : (w.tick t).NotLate := State.Idle.notLate (hg ▸ hk.idle) t
  refine (loop_phase hk hphase hinp hlate).mono fun _ w' hafter => ?_
  rcases hafter with ⟨hphase', hshort, htodo, -⟩ | ⟨since, hgood, hg', hrest, htx⟩ |
    ⟨hbad, hdown, hnone, htx⟩
  · have hle := hphase'.need_le hck
    have hlen := congrArg List.length htodo
    rw [List.append_nil, List.length_append] at hlen
    omega
  · rw [List.append_nil] at hrest
    refine .inl ⟨hgood, ?_, hrest.symm, htx⟩
    rw [hg']
    exact (hk.receives since).done.connected.trans hk.idle.connected
  · exact .inr ⟨hbad, hdown, hnone, htx⟩

end Schedule

end GBridge.Atmega

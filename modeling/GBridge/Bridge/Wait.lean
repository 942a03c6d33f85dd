/-
# The bridge, on a link without faults

The counterpart of `Atmega.Wait`.  `wait_cmd` comes to an end with its acknowledgement
(`wpB_waitCmd`), so that each of the two functions that send a packet does, `gbridge_cmd_data` and
`gbridge_cmd_stream`.  A poll that comes back with nothing uses up patience, so there are only so
many of them before the next byte.
-/
import GBridge.Bridge.Receive
import GBridge.Bridge.Send

namespace GBridge.Bridge

open Prog Duplex Bytes

/-- The link is not reset, every read but a poll gets what it asks for, and a poll that comes too
early uses up patience. -/
def Env.faultless (oracle : Nat → (c : SockCall) → c.Res) (lines : List (List UInt8)) : Env :=
  ⟨true, false, oracle, true, lines⟩

/-- Between two requests: the link is up, and nothing is under way. -/
structure State.Ready (g : State) : Prop where
  connected : g.connected = true
  waiting : g.waitingCmd = Cmd.none
  empty : g.dataReady = false

/-- What waiting leaves alone; patience may be less. -/
structure Play.Waited (v v' : Play) : Prop where
  g : v'.g = v.g
  calls : v'.calls = v.calls
  printed : v'.printed = v.printed
  patience : v'.patience ≤ v.patience

section Wait

variable {M : Type} {oracle : Nat → (c : SockCall) → c.Res} {lines : List (List UInt8)} {v : Play}
  {G : List (Ev UInt8 SockCall M)}

/-- **A call of `gbridge_loop` while an acknowledgement is waited for.** -/
theorem wpB_gbridgeLoop_ack {cmd : UInt8} {Q : Unit → Play → Prop} (hup : v.g.connected = true)
    (hwait : v.g.waitingCmd = cmd) (hcmd : cmd ≠ Cmd.none)
    (hshare : v.share = .ofScript [] (.theirs (ack cmd) :: G))
    (hearly : ∀ patience, patience < v.patience → Q () { v with patience })
    (hacked : Q () { v with
      g := { v.g with waitingCmd := Cmd.none }, share := .ofScript [] G }) :
    wpB (.faultless oracle lines) true gbridgeLoop Q v := by
  refine wpB_get (wpB_ite (fun _ => ?_) fun hdown => absurd hup hdown)
  refine wpB_bind (wpB_poll_theirs hshare (fun _ p hcost => ?_) ?_)
  · exact hearly p (hcost.less rfl trivial)
  · refine wpB_get ?_
    rw [show Play.g _ = v.g from rfl, hwait]
    refine wpB_ite (fun _ => ?_) fun hnone => absurd hcmd hnone
    exact wpB_ite (fun _ => wpB_modify (fun _ => hup) hacked) fun hne => absurd rfl hne

/-- **`wait_cmd` comes back when it has got its acknowledgement.** -/
theorem wpB_waitCmd {cmd : UInt8} {Q : Unit → Play → Prop} (hup : v.g.connected = true)
    (hidle : v.g.waitingCmd = Cmd.none) (hcmd : cmd ≠ Cmd.none)
    (hshare : v.share = .ofScript [] (.theirs (ack cmd) :: G))
    (h : ∀ v', v.Waited v' → v'.share = .ofScript [] G → Q () v') :
    wpB (.faultless oracle lines) true (waitCmd cmd) Q v := by
  refine wpB_get (wpB_ite (fun _ => ?_) fun hdown => absurd hup hdown)
  -- nothing is waited for yet, so the first loop ends at once
  refine wpB_bind (wpre_whileM (fun n v' => n = 0 ∧ v' = v) 0 ⟨rfl, rfl⟩ ?_)
  rintro _ v ⟨rfl, rfl⟩
  refine wpB_get ?_
  rw [hidle]
  refine wpB_bind (wpB_modify (fun _ => hup) ?_)
  -- each round uses up patience, or brings the acknowledgement
  refine wpre_whileM (fun n v' =>
    (n = v'.patience + 1 ∧ v'.g = { v.g with waitingCmd := cmd } ∧ v'.calls = v.calls ∧
      v'.printed = v.printed ∧ v'.patience ≤ v.patience ∧
      v'.share = .ofScript [] (.theirs (ack cmd) :: G)) ∨
    n = 0 ∧ v.Waited v' ∧ v'.share = .ofScript [] G)
    _ (.inl ⟨rfl, rfl, rfl, rfl, Nat.le_refl _, hshare⟩) ?_
  rintro n v₁ (⟨rfl, hg, hcalls, hprinted, hle, hshare₁⟩ | ⟨rfl, hwaited, hshare₁⟩)
  · refine wpB_get ?_
    rw [hg, beq_self_eq_true]
    refine wpB_gbridgeLoop_ack (hg ▸ hup) (hg ▸ rfl) hcmd hshare₁ (fun p hless => ?_) ?_
    · exact ⟨_, fun _ => Nat.succ_lt_succ hless, .inl ⟨rfl, hg, hcalls, hprinted,
        Nat.le_trans (Nat.le_of_lt hless) hle, hshare₁⟩⟩
    · refine ⟨0, fun _ => Nat.succ_pos _, .inr ⟨rfl, ⟨?_, hcalls, hprinted, hle⟩, rfl⟩⟩
      show { v₁.g with waitingCmd := Cmd.none } = v.g
      rw [hg, ← hidle]
  · refine wpB_get ?_
    rw [hwaited.g, hidle, beq_eq_false_iff_ne.mpr hcmd.symm]
    exact h v₁ hwaited hshare₁

/-- **`gbridge_cmd_data` sends its packet and gets the acknowledgement.** -/
theorem wpB_gbridgeCmdData {payload : List UInt8} {Q : Unit → Play → Prop}
    (hup : v.g.connected = true) (hidle : v.g.waitingCmd = Cmd.none)
    (hlen : payload.length ≤ maxDataSize)
    (hshare : v.share = .ofScript [] ((dataFrame Cmd.dataPc payload).map .mine ++
      .theirs (ack Cmd.dataPc) :: G))
    (h : ∀ v', v.Waited v' → v'.share = .ofScript [] G → Q () v') :
    wpB (.faultless oracle lines) true (gbridgeCmdData (.ofList payload)) Q v := by
  have hlt : payload.length < 256 := Nat.lt_of_le_of_lt hlen (by decide)
  have hsize : (GbridgeData.ofList payload).size.toNat = payload.length := by
    rw [GbridgeData.ofList, UInt8.toNat_ofNat']
    exact Nat.mod_eq_of_lt hlt
  refine wpB_get (wpB_ite (fun _ => ?_) fun hdown => absurd hup hdown)
  refine wpB_ite (fun _ => ?_) fun hlong => absurd (hsize ▸ hlen) hlong
  refine wpB_bind (wpB_writeDataFrame hlt hshare ?_)
  refine wpB_waitCmd hup hidle (by decide) rfl fun v' hwaited => ?_
  exact h v' ⟨hwaited.g, hwaited.calls, hwaited.printed, hwaited.patience⟩

/-- **`gbridge_cmd_stream` sends its packet and gets the acknowledgement.** -/
theorem wpB_gbridgeCmdStream {buffer : List UInt8} {size : Nat} {Q : Unit → Play → Prop}
    (hup : v.g.connected = true) (hidle : v.g.waitingCmd = Cmd.none) (hlen : size ≤ buffer.length)
    (hshare : v.share = .ofScript [] ((streamFrame Cmd.streamPc (buffer.take size)).map .mine ++
      .theirs (ack Cmd.streamPc) :: G))
    (h : ∀ v', v.Waited v' → v'.share = .ofScript [] G → Q () v') :
    wpB (.faultless oracle lines) true (gbridgeCmdStream buffer size) Q v := by
  refine wpB_get (wpB_ite (fun _ => ?_) fun hdown => absurd hup hdown)
  refine wpB_bind (wpB_writeStreamFrame hlen hshare ?_)
  refine wpB_waitCmd hup hidle (by decide) rfl fun v' hwaited => ?_
  exact h v' ⟨hwaited.g, hwaited.calls, hwaited.printed, hwaited.patience⟩

end Wait

end GBridge.Bridge

/-
# What the bridge sends

The bridge writes a frame in three pieces.  Together they are the frame as `Wire` has it.
-/
import GBridge.Bridge.Play

namespace GBridge.Bridge

open Prog Duplex Bytes

section Send

variable {env : Env} {t : Bool} {M : Type} {v : Play} {pre : List UInt8}
  {G : List (Ev UInt8 SockCall M)} {Q : Unit → Play → Prop}

/-- The DATA_PC frame. -/
theorem wpB_writeDataFrame {payload : List UInt8} (hlen : payload.length < 256)
    (hshare : v.share = .ofScript pre ((dataFrame Cmd.dataPc payload).map .mine ++ G))
    (h : Q () { v with share := .ofScript pre G }) :
    wpB env t (writeDataFrame (.ofList payload)) Q v := by
  rw [dataFrame_eq _ hlen] at hshare
  simp only [List.map_append, List.append_assoc] at hshare
  exact wpB_bind (wpB_write hshare (wpB_bind (wpB_write rfl (wpB_write rfl h))))

/-- The STREAM_PC frame. -/
theorem wpB_writeStreamFrame {buffer : List UInt8} {size : Nat} (hlen : size ≤ buffer.length)
    (hshare : v.share =
      .ofScript pre ((streamFrame Cmd.streamPc (buffer.take size)).map .mine ++ G))
    (h : Q () { v with share := .ofScript pre G }) :
    wpB env t (writeStreamFrame buffer size) Q v := by
  rw [streamFrame_eq _ hlen] at hshare
  simp only [List.map_append, List.append_assoc] at hshare
  exact wpB_bind (wpB_write hshare (wpB_bind (wpB_write rfl (wpB_write rfl h))))

end Send

/-- What is written of a script is what is written to the port. -/
theorem sends_ends {p : Code Unit} {frame : List UInt8} {w : World (List UInt8)}
    (h : ∀ v : Play, v.g = w.g →
      v.share = .ofScript w.port (frame.map Ev.mine ++ ([] : List (Ev UInt8 SockCall Unit))) →
      wpB .atOnce true p
        (fun _ v' => v'.share = .ofScript w.port ([] : List (Ev UInt8 SockCall Unit))) v) :
    Ends (sem queued) p w fun _ w' => w'.tx = w.tx ++ frame := by
  let share := Share.ofScript w.port (frame.map Ev.mine ++ ([] : List (Ev UInt8 SockCall Unit)))
  have his : Play.Is (w.tx ++ frame) ⟨w.g, 0, [], 0, share⟩ w := by
    refine ⟨rfl, ?_, frame, ?_, rfl⟩
    · show w.port ++ (view _).1 = w.port
      rw [view_mines, List.append_nil]
    · show (view _).2 = _
      rw [view_mines]
  refine (wpre_ends (play_tracks _) his (h ⟨w.g, 0, [], 0, share⟩ rfl rfl)).mono ?_
  rintro _ w' ⟨v', ⟨-, -, due, hout, htx⟩, hshare⟩
  rw [hshare] at hout
  obtain rfl : due = [] := List.map_eq_nil_iff.mp hout.symm
  exact (List.append_nil _).symm.trans htx

end GBridge.Bridge

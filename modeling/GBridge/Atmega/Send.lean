/-
# What the adapter sends

The functions that send put their frames on the line byte by byte.  A DATA frame goes out as
`Wire` has it; a STREAM frame goes out in chunks, and its checksum is added up chunk by chunk.
-/
import GBridge.Atmega.Play

namespace GBridge.Atmega

open Prog Duplex Bytes

/-! ## 1. Streams in chunks -/

/-- One `gbridge_cmd_stream_data` per chunk. -/
def sendChunks : List (List UInt8) → Code Unit
  | [] => return ()
  | c :: cs => do gbridgeCmdStreamData c; sendChunks cs

/-- A stream in chunks, up to its checksum: `gbridge_cmd_stream_start`, the chunks, and what
`gbridge_cmd_stream_finish` sends. -/
def sendStream (chunks : List (List UInt8)) : Code Unit := do
  gbridgeCmdStreamStart chunks.flatten.length
  sendChunks chunks
  putStreamChecksum

/-- What is added up of a stream in chunks: of each chunk the first bytes, as many as its length
modulo 256. -/
def chunkSum (c : Nat) (chunks : List (List UInt8)) : Nat :=
  chunks.foldl (fun c chunk => checksumAdd c chunk chunk.length) c

/-- The frame of a stream in chunks. -/
def chunkedFrame (chunks : List (List UInt8)) : List UInt8 :=
  Cmd.stream :: hi chunks.flatten.length :: lo chunks.flatten.length ::
    (chunks.flatten ++ [hi (chunkSum 0 chunks), lo (chunkSum 0 chunks)])

/-- The sum over the chunks, modulo `2 ^ 16`. -/
theorem chunkSum_eq : ∀ {chunks : List (List UInt8)} {c : Nat}, c < 65536 →
    chunkSum c chunks = (c + sum (chunks.flatMap counted)) % 65536
  | [], c, hc => by
    rw [List.flatMap_nil, sum_nil, Nat.add_zero, Nat.mod_eq_of_lt hc]
    rfl
  | chunk :: chunks, c, hc => by
    have hadd : checksumAdd c chunk chunk.length =
        (c + sum (counted chunk)) % 65536 := sum16_eq hc
    have hrest : chunkSum (checksumAdd c chunk chunk.length) chunks = _ :=
      chunkSum_eq (hadd ▸ Nat.mod_lt _ (by decide))
    rw [List.flatMap_cons, sum_append, ← Nat.add_assoc, ← Nat.mod_add_mod, ← hadd]
    exact hrest

section Send

variable {env : Env} {t : Bool} {M : Type} {v : Play} {pre : List UInt8}
  {G : List (Ev UInt8 Result M)} {Q : Unit → Play → Prop}

/-! ## 2. The frames -/

/-- The DATA frame. -/
theorem wpP_putDataFrame {payload : List UInt8} (hlen : payload.length < 256)
    (hshare : v.share = .ofScript pre ((dataFrame Cmd.data payload).map .mine ++ G))
    (h : Q () { v with share := .ofScript pre G }) :
    wpP env t (putDataFrame (.ofList payload)) Q v := by
  have hsum : checksumAdd 0 payload (UInt8.ofNat payload.length).toNat =
      (GbridgeData.ofList payload).checksumData := by
    have hmod : (UInt8.ofNat payload.length).toNat % 256 = (UInt8.ofNat payload.length).toNat :=
      Nat.mod_eq_of_lt (UInt8.toNat_lt _)
    rw [checksumAdd, hmod]
    rfl
  rw [dataFrame_eq _ hlen] at hshare
  simp only [List.map_append, List.map_cons, List.map_nil, List.append_assoc,
    List.cons_append, List.nil_append] at hshare
  refine wpP_bind (wpP_putchar hshare (wpP_bind (wpP_putchar rfl ?_)))
  refine wpP_bind (wpP_putchars rfl ?_)
  show wpP env t (do
    serialPutchar (hi (checksumAdd 0 payload (UInt8.ofNat payload.length).toNat))
    serialPutchar (lo (checksumAdd 0 payload (UInt8.ofNat payload.length).toNat))) Q _
  rw [hsum]
  exact wpP_bind (wpP_putchar rfl (wpP_putchar rfl h))

/-- The chunks go out one after the other, and the sum is kept. -/
theorem wpP_sendChunks : ∀ {chunks : List (List UInt8)} {v : Play}, v.g.connected = true →
    v.share = .ofScript pre (chunks.flatten.map .mine ++ G) →
    Q () { v with
      g := { v.g with streamChecksum := chunkSum v.g.streamChecksum chunks }
      share := .ofScript pre G } →
    wpP env t (sendChunks chunks) Q v
  | [], v, _, hshare, h => by
    have hsame : v = { v with
        g := { v.g with streamChecksum := chunkSum v.g.streamChecksum [] }
        share := .ofScript pre G } := by
      rw [← show v.share = .ofScript pre G from hshare]
      rfl
    rw [← hsame] at h
    exact h
  | chunk :: chunks, v, hup, hshare, h => by
    rw [List.flatten_cons, List.map_append, List.append_assoc] at hshare
    refine wpP_bind (wpP_get (wpP_ite (fun _ => ?_) fun hdown => absurd hup hdown))
    refine wpP_bind (wpP_modify (fun _ => hup) (wpP_putchars hshare ?_))
    exact wpP_sendChunks hup rfl h

/-- The STREAM frame. -/
theorem wpP_sendStream {chunks : List (List UInt8)} (hup : v.g.connected = true)
    (hshare : v.share = .ofScript pre ((chunkedFrame chunks).map .mine ++ G))
    (h : Q () { v with
      g := { v.g with streamChecksum := chunkSum 0 chunks }, share := .ofScript pre G }) :
    wpP env t (sendStream chunks) Q v := by
  have hsplit : v.share = .ofScript pre (.mine Cmd.stream :: .mine (hi chunks.flatten.length) ::
      .mine (lo chunks.flatten.length) :: (chunks.flatten.map .mine ++
        (.mine (hi (chunkSum 0 chunks)) :: .mine (lo (chunkSum 0 chunks)) :: G))) := by
    rw [hshare]
    simp [chunkedFrame]
  refine wpP_bind (wpP_get (wpP_ite (fun _ => ?_) fun hdown => absurd hup hdown))
  refine wpP_bind (wpP_putchar hsplit (wpP_bind (wpP_putchar rfl (wpP_bind (wpP_putchar rfl ?_)))))
  refine wpP_modify (fun _ => hup) (wpP_bind (wpP_sendChunks hup rfl ?_))
  exact wpP_get (wpP_bind (wpP_putchar rfl (wpP_putchar rfl h)))

end Send

/-! ## 3. On the serial port -/

/-- What is sent of a script is what is sent on the line. -/
theorem sends_ends {p : Code Unit} {frame : List UInt8} {w : World}
    (h : ∀ v : Play, v.g = w.g →
      v.share = .ofScript w.rx (frame.map Ev.mine ++ ([] : List (Ev UInt8 Result Unit))) →
      wpP (.at w.now) true p
        (fun _ v' => v'.share = .ofScript w.rx ([] : List (Ev UInt8 Result Unit))) v) :
    Ends sem p w fun _ w' => w'.tx = w.tx ++ frame := by
  let share := Share.ofScript w.rx (frame.map Ev.mine ++ ([] : List (Ev UInt8 Result Unit)))
  have his : Play.Is w.now [] (w.tx ++ frame) ⟨w.g, w.rx.length, 0, share⟩ w := by
    refine ⟨rfl, rfl, ?_, rfl, frame, ?_, rfl⟩
    · show w.rx ++ (view _).1 = w.rx ++ []
      rw [view_mines]
    · show (view _).2 = _
      rw [view_mines]
  refine (wpre_ends (play_tracks _ _ _) his (h ⟨w.g, w.rx.length, 0, share⟩ rfl rfl)).mono ?_
  rintro _ w' ⟨v', ⟨-, -, -, -, due, hout, htx⟩, hshare⟩
  rw [hshare] at hout
  obtain rfl : due = [] := List.map_eq_nil_iff.mp hout.symm
  exact (List.append_nil _).symm.trans htx

end GBridge.Atmega

/-
# What the functions of the link layer do, on a port that may answer anything

One lemma for each function of the bridge's `gbridge.c`, in continuation form: to show that
something holds after the function, show it for what the function may leave.  The port is
`scripted`, so it may come back short or with an error wherever it likes.

What a function may leave is one of a few things.  A receiver has got the frame it asked for and
acknowledged it, or the link is reset (`Reset`), or, for `gbridge_recv_stream` alone, the stream is
longer than its buffer and the link stays up (`Oversize`).  A function that waits for an
acknowledgement comes back only when it has got it, so there is nothing to show for the case that
the link is lost meanwhile.
-/
import GBridge.Bridge.Semantics

namespace GBridge.Bridge

open Prog Bytes

/-- The weakest precondition on the scripted port. -/
abbrev wpS {α : Type} (p : Code α) (Q : α → World (List ReadRes) → Prop)
    (w : World (List ReadRes)) : Prop :=
  wpre (Spec.demonic (sem scripted)) false p Q w

section Spec

variable {α β : Type} {w : World (List ReadRes)}

/-! ## 1. Operations -/

theorem wpS_get {f : State → Code β} {Q : β → World (List ReadRes) → Prop}
    (h : wpS (f w.g) Q w) : wpS (get.bind f) Q w := by
  rintro g w' ⟨rfl, rfl⟩
  exact h

theorem wpS_modify {f : State → State} {Q : Unit → World (List ReadRes) → Prop}
    (h : Q () { w with g := f w.g }) : wpS (modify f) Q w := by
  refine wpS_get ?_
  rintro _ w' rfl
  exact h

theorem wpS_write {bs : List UInt8} {Q : Unit → World (List ReadRes) → Prop}
    (h : Q () { w with tx := w.tx ++ bs }) : wpS (spBlockingWrite bs) Q w := by
  rintro _ w' rfl
  exact h

theorem wpS_store {dst : Dst} {bs : List UInt8} {Q : Unit → World (List ReadRes) → Prop}
    (h : ∀ w', w'.g = w.g.store bs dst → w'.port = w.port → w'.tx = w.tx → Q () w') :
    wpS (.cmd (.store dst bs)) Q w := by
  rintro _ w' rfl
  exact h _ rfl rfl rfl

theorem wpS_eprint {s : String} {Q : Unit → World (List ReadRes) → Prop} (h : Q () w) :
    wpS (eprint s) Q w := by
  rintro _ w' rfl
  exact h

theorem wpS_sock {c : SockCall} {Q : c.Res → World (List ReadRes) → Prop}
    (h : ∀ r, c.Allows r → Q r w) : wpS (sock c) Q w := by
  rintro r w' ⟨hr, rfl⟩
  exact h r hr

theorem wpS_read {count ms : Nat} {Q : ReadRes → World (List ReadRes) → Prop}
    (h : ∀ r s, w.port = r :: s → r.Fits count → Q r { w with port := s }) :
    wpS (spBlockingRead count ms) Q w := by
  rintro r w' ⟨s, ⟨hs, hfit⟩, rfl⟩
  exact h r s hs hfit

theorem wpS_bind {p : Code α} {f : α → Code β} {Q : β → World (List ReadRes) → Prop}
    (h : wpS p (fun a w' => wpS (f a) Q w') w) : wpS (p.bind f) Q w :=
  wpre_bind.mpr h

theorem wpS_ite {c : Prop} [Decidable c] {p q : Code α} {Q : α → World (List ReadRes) → Prop}
    (hp : c → wpS p Q w) (hq : ¬ c → wpS q Q w) : wpS (if c then p else q) Q w := by
  split
  · exact hp ‹_›
  · exact hq ‹_›

/-! ## 2. Receiving -/

/-- The link has just been reset. -/
def Reset (g : State) : Prop := ∃ g₀ : State, g = g₀.init

theorem Reset.connected {g : State} (h : Reset g) : g.connected = false := by
  obtain ⟨g₀, rfl⟩ := h
  rfl

/-- The end of every path on which a frame is refused: a message and `gbridge_init`. -/
theorem wpS_refuse {s : String} {a : α} {Q : α → World (List ReadRes) → Prop}
    (h : ∀ w', Reset w'.g → w'.tx = w.tx → Q a w') :
    wpS (do eprint s; gbridgeInit; return a) Q w :=
  wpS_bind (wpS_eprint (wpS_bind (wpS_modify (h _ ⟨w.g, rfl⟩ rfl))))

/-- `recv_data` brings all the bytes it was asked for, or the link is reset. -/
theorem wpS_recvData {dst : Dst} {count : Nat}
    {Q : Option (List UInt8) → World (List ReadRes) → Prop}
    (hok : ∀ bs s w', w.port = .bytes bs :: s → bs.length = count →
      w'.g = w.g.store bs dst → w'.port = s → w'.tx = w.tx → Q (some bs) w')
    (hfail : ∀ r s w', w.port = r :: s → (∀ bs, r = .bytes bs → bs.length ≠ count) →
      Reset w'.g → w'.tx = w.tx → Q none w') :
    wpS (recvData dst count) Q w := by
  refine wpS_bind (wpS_read fun r s hs hfit => ?_)
  cases r with
  | error code =>
    exact wpS_refuse fun w' hg htx => hfail _ s w' hs (by simp) hg htx
  | bytes bs =>
    refine wpS_bind (wpS_store fun w₁ hg₁ hport₁ htx₁ => wpS_ite (fun hlen => ?_) fun hlen => ?_)
    · refine wpS_refuse fun w' hg htx => hfail _ s w' hs ?_ hg (htx.trans htx₁)
      rintro bs' heq
      obtain rfl := ReadRes.bytes.inj heq
      exact hlen
    · exact hok bs s w₁ hs (not_not.mp hlen) hg₁ hport₁ htx₁

/-- The end of `gbridge_recv_stream`. -/
theorem wpS_recvStreamChecksum {buffer : List UInt8}
    {Q : Int × List UInt8 → World (List ReadRes) → Prop}
    (hok : ∀ w', w'.g = w.g → w'.tx = w.tx ++ [ack Cmd.stream] →
      Q (buffer.length, buffer) w')
    (hfail : ∀ w', Reset w'.g → w'.tx = w.tx → Q (-1, buffer) w') :
    wpS (recvStreamChecksum buffer) Q w := by
  refine wpS_bind (wpS_recvData (fun bs s w' _ _ hg _ htx => ?_)
    fun r s w' _ _ hg htx => hfail w' hg htx)
  refine wpS_ite (fun _ => ?_) fun _ => ?_
  · exact wpS_refuse fun w'' hg' htx' => hfail w'' hg' (htx'.trans htx)
  · exact wpS_bind (wpS_write (hok _ hg (by rw [htx])))

/-- The next reads bring the head of a stream frame that announces more than `max` bytes. -/
def Oversize (max : Nat) (reads : List ReadRes) : Prop :=
  ∃ h l rest, reads = .bytes [Cmd.stream] :: .bytes [h, l] :: rest ∧ max < be16 h l

/-- `gbridge_recv_stream` acknowledges a stream, or resets the link, or, when the stream is too
long for its buffer, returns -1 and leaves the link as it is. -/
theorem wpS_gbridgeRecvStream {maxSize : Nat}
    {Q : Int × List UInt8 → World (List ReadRes) → Prop} (hconn : w.g.connected = true)
    (hok : ∀ r w', 0 ≤ r.1 → ¬ Oversize maxSize w.port → w'.g = w.g →
      w'.tx = w.tx ++ [ack Cmd.stream] → Q r w')
    (hover : ∀ r w', r.1 = -1 → Oversize maxSize w.port → w'.g = w.g → w'.tx = w.tx → Q r w')
    (hfail : ∀ r w', r.1 = -1 → ¬ Oversize maxSize w.port → Reset w'.g → w'.tx = w.tx → Q r w') :
    wpS (gbridgeRecvStream maxSize) Q w := by
  refine wpS_get ?_
  rw [hconn]
  refine wpS_bind (wpS_recvData (fun cs s w₁ hs hlen hg hport htx => ?_)
    fun r s w' hs hr hg htx => hfail _ w' rfl ?_ hg htx)
  · obtain ⟨c, rfl⟩ := List.length_eq_one_iff.mp hlen
    refine wpS_ite (fun hne => ?_) fun hstream => ?_
    · refine wpS_refuse fun w' hg' htx' => hfail _ w' rfl ?_ hg' (htx'.trans htx)
      rintro ⟨h, l, rest, hreads, -⟩
      rw [hs] at hreads
      exact hne (by simpa using (List.cons.inj hreads).1)
    · obtain rfl : c = Cmd.stream := by simpa using hstream
      refine wpS_bind (wpS_recvData (fun bs s' w₂ hs' hlen' hg' hport' htx' => ?_)
        fun r s' w' hs' hr hg' htx' => hfail _ w' rfl ?_ hg' (htx'.trans htx))
      · obtain ⟨h, l, rfl⟩ := List.length_eq_two.mp hlen'
        have hreads : w.port = .bytes [Cmd.stream] :: .bytes [h, l] :: s' := by
          rw [hs, ← hport, hs']
        refine wpS_ite (fun hlt => ?_) fun hle => ?_
        · exact hover _ w₂ rfl ⟨h, l, s', hreads, hlt⟩ (hg'.trans hg) (htx'.trans htx)
        · have hfits : ¬ Oversize maxSize w.port := by
            rintro ⟨h', l', rest, hreads', hlt⟩
            rw [hreads] at hreads'
            simp only [List.cons.injEq, ReadRes.bytes.injEq, true_and, and_true] at hreads'
            obtain ⟨⟨rfl, rfl⟩, -⟩ := hreads'
            exact hle hlt
          refine wpS_bind (wpS_recvData (fun buffer s'' w₃ _ _ hg'' _ htx'' => ?_)
            fun r s'' w' _ _ hg'' htx'' =>
              hfail _ w' rfl hfits hg'' (htx''.trans (htx'.trans htx)))
          refine wpS_recvStreamChecksum (fun w' hg₃ htx₃ => ?_) fun w' hg₃ htx₃ => ?_
          · refine hok _ w' (Int.natCast_nonneg _) hfits ?_ ?_
            · exact hg₃.trans (hg''.trans (hg'.trans hg))
            · rw [htx₃, htx'', htx', htx]
          · exact hfail _ w' rfl hfits hg₃ (htx₃.trans (htx''.trans (htx'.trans htx)))
      · rintro ⟨h, l, rest, hreads, -⟩
        rw [hs, ← hport, hs'] at hreads
        exact hr [h, l] (by simpa using (List.cons.inj (List.cons.inj hreads).2).1) rfl
  · rintro ⟨h, l, rest, hreads, -⟩
    rw [hs] at hreads
    exact hr [Cmd.stream] (by simpa using (List.cons.inj hreads).1) rfl

/-! ## 3. Sending -/

/-- A round of `gbridge_loop` while an acknowledgement is waited for. -/
theorem wpS_gbridgeLoop_waiting {Q : Unit → World (List ReadRes) → Prop}
    (hwait : w.g.waitingCmd ≠ Cmd.none)
    (hsame : ∀ w', w'.g = w.g → w'.tx = w.tx → Q () w')
    (hacked : ∀ w', w.g.connected = true → w'.g = { w.g with waitingCmd := Cmd.none } →
      w'.tx = w.tx → Q () w')
    (hlost : ∀ w', w'.g = { w.g with connected := false } → w'.tx = w.tx → Q () w') :
    wpS gbridgeLoop Q w := by
  refine wpS_get (wpS_ite (fun hconn => ?_) fun _ => hsame _ rfl rfl)
  · refine wpS_bind (wpS_read fun r s _ _ => ?_)
    match r with
    | .bytes [] => exact hsame _ rfl rfl
    | .error code => exact wpS_modify (hlost _ rfl rfl)
    | .bytes (c :: bs) =>
      refine wpS_get (wpS_ite (fun _ => wpS_ite (fun _ => ?_) fun _ => ?_) fun h => ?_)
      · exact wpS_modify (hacked _ hconn rfl rfl)
      · exact hsame _ rfl rfl
      · exact absurd hwait h

/-- `wait_cmd` comes back when the acknowledgement has come, and leaves everything as it was. -/
theorem wpS_waitCmd {cmd : UInt8} {Q : Unit → World (List ReadRes) → Prop}
    (hcmd : cmd ≠ Cmd.none) (hidle : w.g.waitingCmd = Cmd.none)
    (h : ∀ w', w'.g = w.g → w'.tx = w.tx → Q () w') : wpS (waitCmd cmd) Q w := by
  refine wpS_get (wpS_ite (fun hconn => ?_) fun _ => h w rfl rfl)
  · -- nothing is waited for yet, so the first loop ends at once
    refine wpS_bind (wlp_whileM (fun w' => w' = w) rfl ?_)
    rintro w' rfl
    refine wpS_get ?_
    rw [hidle]
    refine wpS_bind (wpS_modify ?_)
    -- the link is up and waiting, or up and done, or lost and waiting for ever
    refine wlp_whileM (fun w₁ => w₁.tx = w'.tx ∧
      (w₁.g = w'.g ∨ w₁.g.waitingCmd = cmd ∧
        { w₁.g with connected := true, waitingCmd := Cmd.none } = w'.g)) ⟨rfl, .inr ⟨rfl, ?_⟩⟩ ?_
    · rw [← hconn, ← hidle]
    rintro w₁ ⟨htx, hdone | ⟨hwait, hback⟩⟩
    · refine wpS_get ?_
      rw [hdone, hidle, beq_eq_false_iff_ne.mpr hcmd.symm]
      exact h w₁ hdone htx
    · refine wpS_get ?_
      rw [hwait, beq_self_eq_true]
      refine wpS_gbridgeLoop_waiting (hwait ▸ hcmd) (fun w₂ hg htx' => ?_)
        (fun w₂ hconn' hg htx' => ?_) fun w₂ hg htx' => ?_
      · exact ⟨htx'.trans htx, .inr ⟨hg ▸ hwait, hg ▸ hback⟩⟩
      · refine ⟨htx'.trans htx, .inl ?_⟩
        rw [hg, ← hback, ← hconn']
      · exact ⟨htx'.trans htx, .inr ⟨by rw [hg]; exact hwait, by rw [hg]; exact hback⟩⟩

theorem wpS_writeDataFrame {payload : List UInt8} {Q : Unit → World (List ReadRes) → Prop}
    (hlen : payload.length < 256)
    (h : ∀ w', w'.g = w.g → w'.tx = w.tx ++ dataFrame Cmd.dataPc payload → Q () w') :
    wpS (writeDataFrame (.ofList payload)) Q w := by
  refine wpS_bind (wpS_write (wpS_bind (wpS_write (wpS_write (h _ rfl ?_)))))
  rw [dataFrame_eq _ hlen, List.append_assoc, List.append_assoc, List.append_assoc]

theorem wpS_writeStreamFrame {buffer : List UInt8} {size : Nat}
    {Q : Unit → World (List ReadRes) → Prop} (hlen : size ≤ buffer.length)
    (h : ∀ w', w'.g = w.g → w'.tx = w.tx ++ streamFrame Cmd.streamPc (buffer.take size) →
      Q () w') :
    wpS (writeStreamFrame buffer size) Q w := by
  refine wpS_bind (wpS_write (wpS_bind (wpS_write (wpS_write (h _ rfl ?_)))))
  rw [streamFrame_eq _ hlen, List.append_assoc, List.append_assoc, List.append_assoc]

/-- `gbridge_cmd_data` writes its packet. -/
theorem wpS_gbridgeCmdData {payload : List UInt8} {Q : Unit → World (List ReadRes) → Prop}
    (hlen : payload.length ≤ maxDataSize) (hconn : w.g.connected = true)
    (hidle : w.g.waitingCmd = Cmd.none)
    (h : ∀ w', w'.g = w.g → w'.tx = w.tx ++ dataFrame Cmd.dataPc payload → Q () w') :
    wpS (gbridgeCmdData (.ofList payload)) Q w := by
  have hlt : payload.length < 256 := Nat.lt_of_le_of_lt hlen (by decide)
  have hsize : (GbridgeData.ofList payload).size.toNat = payload.length := by
    rw [GbridgeData.ofList, UInt8.toNat_ofNat', Nat.mod_eq_of_lt hlt]
  refine wpS_get (wpS_ite (fun _ => wpS_ite (fun _ => ?_) fun hle => ?_) fun hdown => ?_)
  · refine wpS_bind (wpS_writeDataFrame hlt fun w₁ hg₁ htx₁ => ?_)
    exact wpS_waitCmd (by decide) (hg₁ ▸ hidle) fun w' hg htx =>
      h w' (hg.trans hg₁) (htx.trans htx₁)
  · exact absurd (hsize ▸ hlen) hle
  · exact absurd hconn hdown

/-- `gbridge_cmd_stream` writes its packet. -/
theorem wpS_gbridgeCmdStream {buffer : List UInt8} {size : Nat}
    {Q : Unit → World (List ReadRes) → Prop} (hlen : size ≤ buffer.length)
    (hconn : w.g.connected = true) (hidle : w.g.waitingCmd = Cmd.none)
    (h : ∀ w', w'.g = w.g → w'.tx = w.tx ++ streamFrame Cmd.streamPc (buffer.take size) →
      Q () w') :
    wpS (gbridgeCmdStream buffer size) Q w := by
  refine wpS_get (wpS_ite (fun _ => ?_) fun hdown => absurd hconn hdown)
  refine wpS_bind (wpS_writeStreamFrame hlen fun w₁ hg₁ htx₁ => ?_)
  exact wpS_waitCmd (by decide) (hg₁ ▸ hidle) fun w' hg htx =>
    h w' (hg.trans hg₁) (htx.trans htx₁)

end Spec

end GBridge.Bridge

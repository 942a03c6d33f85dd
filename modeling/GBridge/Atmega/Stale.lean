/-
# What a reply shows of the packets before it

All packets go through one receive buffer, `data_buf`, and each leaves its bytes there.  Two worlds
are `Alike` if they differ in nothing but such bytes: neither in a packet that is ready nor in the
part of one that has been received so far.

The link layer cannot tell them apart.  This is a property of two runs, and is proved with the rules
of `Lib.Sync`, one lemma for each function (`Unaware`): `recv_cmd_data_pc` stores the same byte at
the same place in both, which makes one more byte of the buffers agree (`State.Agrees.putData`), and
a packet is handed out with its size, so that what lies behind it stays out of sight (`SamePacket`).

So all that a call of `mobile_impl_sock_recv` can learn of the difference it learns by taking its
reply apart (`recvReply`).  It takes care not to look past the end of the reply, with one exception:
a reply of two bytes passes the check of its size, and the address that should be at its fourth byte
is read from what is there (`CutShort`).  `recv_alike_iff` says that this is the only one.
-/
import GBridge.Lib.Sync
import GBridge.Atmega.Disarmed

namespace GBridge.Atmega

open Prog Bytes

/-! ## 1. Worlds that are alike -/

def State.withData (g : State) (b : List UInt8) : State := { g with dataBuf := b }

/-- In place of the receive buffer there might be this one, for all that it still matters. -/
structure State.Agrees (g : State) (b : List UInt8) : Prop where
  length : b.length = g.dataBuf.length
  ready : g.dataReady = true → b.take g.dataSize.toNat = g.dataBuf.take g.dataSize.toNat
  stored : g.processingCmd = Cmd.dataPc → g.processingCmdState = 1 →
    b.take g.dataCur = g.dataBuf.take g.dataCur
  summed : g.processingCmd = Cmd.dataPc → g.processingCmdState = 2 →
    b.take g.dataSize.toNat = g.dataBuf.take g.dataSize.toNat

/-- The worlds differ in what earlier packets have left in the receive buffer, and the variables
are in `P`. -/
def AlikeIn (P : State → Prop) (w v : Live) : Prop :=
  ∃ b, v = { w with g := w.g.withData b } ∧ w.g.Agrees b ∧ P w.g

/-- The worlds differ in what earlier packets have left in the receive buffer. -/
abbrev Alike : Live → Live → Prop := AlikeIn fun _ => True

/-- The code cannot tell worlds apart that are alike. -/
abbrev Unaware (env : Surroundings) {α : Type} (p : Code α) : Prop := Blind (live env) Alike p

section Alike

variable {env : Surroundings} {P P' : State → Prop} {w v : Live} {α β γ : Type}

theorem AlikeIn.mono (h : AlikeIn P w v) (hP : ∀ g, P g → P' g) : AlikeIn P' w v := by
  obtain ⟨b, hv, hb, hp⟩ := h
  exact ⟨b, hv, hb, hP w.g hp⟩

theorem AlikeIn.alike (h : AlikeIn P w v) : Alike w v := h.mono fun _ _ => trivial

/-! ## 2. The operations -/

theorem both_live_op {e : Op β} {d : Op γ} {k : β → Code α} {l : γ → Code α}
    {Q : α → α → Live → Live → Prop}
    (h : Both (live env) (k (liveAnswer env e w).1) (l (liveAnswer env d v).1) Q
      (liveAnswer env e w).2 (liveAnswer env d v).2) :
    Both (live env) (.op e k) (.op d l) Q w v := by
  refine both_op fun c w' d' v' hs hs' => ?_
  unfold live at hs hs'
  rw [hs, hs'] at h
  exact h

theorem both_get {k l : State → Code α} {Q : α → α → Live → Live → Prop}
    (h : Both (live env) (k w.g) (l v.g) Q w v) :
    Both (live env) (get.bind k) (get.bind l) Q w v := both_live_op h

theorem both_modify {f : State → State} {Q : Unit → Unit → Live → Live → Prop}
    (h : Q () () { w with g := f w.g } { v with g := f v.g }) :
    Both (live env) (modify f) (modify f) Q w v := both_get (both_live_op (both_ret h))

/-- Nothing depends on the receive buffer in an operation that leaves the variables alone. -/
theorem blind_cmd {e : Op β}
    (h : ∀ (w : Live) b,
      (liveAnswer env e { w with g := w.g.withData b }).1 = (liveAnswer env e w).1 ∧
      (liveAnswer env e { w with g := w.g.withData b }).2 =
        { (liveAnswer env e w).2 with g := w.g.withData b } ∧ (liveAnswer env e w).2.g = w.g) :
    Blind (live env) (AlikeIn P) (cmd e) := by
  rintro w _ ⟨b, rfl, hb, hp⟩
  obtain ⟨hans, hworld, hg⟩ := h w b
  refine both_live_op (both_ret ⟨hans.symm, b, ?_, ?_, ?_⟩)
  · rw [hworld, hg]
  · rwa [hg]
  · rwa [hg]

theorem blind_available : Blind (live env) (AlikeIn P) serialAvailable :=
  blind_cmd fun _ _ => ⟨rfl, rfl, rfl⟩

theorem blind_getchar : Blind (live env) (AlikeIn P) serialGetchar := by
  refine blind_cmd fun w b => ?_
  obtain ⟨g, rx⟩ := w
  cases rx <;> exact ⟨rfl, rfl, rfl⟩

theorem blind_putchar (c : UInt8) : Blind (live env) (AlikeIn P) (serialPutchar c) :=
  blind_cmd fun _ _ => ⟨rfl, rfl, rfl⟩

theorem blind_putchars (cs : List UInt8) : Blind (live env) (AlikeIn P) (serialPutchars cs) := by
  induction cs with
  | nil => exact .ret ()
  | cons c cs ih => exact .bind (blind_putchar c) fun _ => ih

theorem blind_timerGet : Blind (live env) (AlikeIn P) timerGet :=
  blind_cmd fun _ _ => ⟨rfl, rfl, rfl⟩

theorem blind_timedOut (cmd : UInt8) (since : UInt32) :
    Blind (live env) (AlikeIn P) (timedOut cmd since) :=
  .ite (blind_cmd fun _ _ => ⟨rfl, rfl, rfl⟩) (.ret false)

/-- What goes on independently of the receive buffer. -/
theorem unaware_get {k : State → Code α} (hk : ∀ g b, k (g.withData b) = k g)
    (h : ∀ g, Unaware env (k g)) : Unaware env (get.bind k) := by
  rintro w _ ⟨b, rfl, hb⟩
  refine both_get ?_
  rw [hk]
  exact h w.g w _ ⟨b, rfl, hb⟩

theorem unaware_modify {f : State → State} (hf : ∀ g b, f (g.withData b) = (f g).withData b)
    (hagrees : ∀ g b, g.Agrees b → (f g).Agrees b) : Unaware env (modify f) := by
  rintro w _ ⟨b, rfl, hb, -⟩
  exact both_modify ⟨rfl, b, congrArg (fun g => { w with g }) (hf w.g b), hagrees w.g b hb, trivial⟩

/-! ## 3. The link layer -/

theorem none_ne_dataPc : Cmd.none ≠ Cmd.dataPc := by decide

theorem streamPc_ne_dataPc : Cmd.streamPc ≠ Cmd.dataPc := by decide

theorem unaware_gbridgeInit : Unaware env gbridgeInit :=
  unaware_modify (fun _ _ => rfl) fun _ _ h =>
    ⟨h.length, fun hready => absurd hready Bool.false_ne_true,
      fun hcmd => absurd hcmd none_ne_dataPc, fun hcmd => absurd hcmd none_ne_dataPc⟩

theorem unaware_doHandshake : Unaware env doHandshake := by
  refine .bind blind_available fun n => .ite (.ret false) ?_
  refine .bind blind_getchar fun c => unaware_get (fun _ _ => rfl) fun g => .ite ?_ ?_
  · exact .bind (unaware_modify (fun _ _ => rfl) fun _ _ h => ⟨h.1, h.2, h.3, h.4⟩) fun _ =>
      .ret false
  refine .bind (unaware_modify (fun _ _ => rfl) fun _ _ h => ⟨h.1, h.2, h.3, h.4⟩) fun _ => ?_
  refine unaware_get (fun _ _ => rfl) fun g => .ite (.ret false) ?_
  exact .bind (unaware_modify (fun _ _ => rfl) fun _ _ h => ⟨h.1, h.2, h.3, h.4⟩) fun _ =>
    .bind (blind_putchars _) fun _ => .ret true

theorem unaware_recvCmdReset : Unaware env recvCmdReset :=
  .bind unaware_gbridgeInit fun _ => .bind (blind_putchar _) fun _ => .ret 1

/-- The checksum, if what is summed is not among what may differ. -/
theorem both_recvChecksum {data : State → GbridgeData} {cmd : UInt8} {accept : State → State}
    (hdata : ∀ g b, P g → g.Agrees b →
      (data (g.withData b)).checksumData = (data g).checksumData)
    (haccept : ∀ g b, accept (g.withData b) = (accept g).withData b)
    (hagrees : ∀ g b, P g → g.Agrees b → (accept g).Agrees b) (h : AlikeIn P w v) :
    Both (live env) (recvChecksum data cmd accept) (recvChecksum data cmd accept)
      (fun a b w' v' => a = b ∧ Alike w' v') w v := by
  refine both_seq _ (blind_available w v h) ?_
  rintro n _ w v ⟨rfl, h⟩
  refine both_ite Iff.rfl (fun _ => both_ret ⟨rfl, h.alike⟩) fun _ => ?_
  refine both_seq _ (blind_getchar w v h) ?_
  rintro c _ w v ⟨rfl, h⟩
  refine both_seq _ (blind_getchar w v h) ?_
  rintro l _ w _ ⟨rfl, b, rfl, hb, hp⟩
  have hsum : be16 c l ≠ (data w.g).checksumData ↔
      be16 c l ≠ (data (w.g.withData b)).checksumData := by
    rw [hdata w.g b hp hb]
  refine both_get (both_ite hsum (fun _ => both_ret ⟨rfl, b, rfl, hb, trivial⟩) fun _ => ?_)
  refine both_seq _ (blind_putchar _ w _ ⟨b, rfl, hb, hp⟩) ?_
  rintro _ _ w _ ⟨-, b, rfl, hb, hp⟩
  refine both_bind (both_modify (both_ret ⟨rfl, b, ?_, hagrees w.g b hp hb, trivial⟩))
  exact congrArg (fun g => { w with g }) (haccept w.g b)

/-- The payload: what is stored is the same in both. -/
theorem both_recvBytesLoop {store : Nat → UInt8 → Op Unit} {cur : State → Nat}
    {advance : State → State} {full : State → Bool} {finish : State → State}
    (hstore : ∀ (c : UInt8) (w v : Live), AlikeIn P w v → AlikeIn P
      { (liveAnswer env (store (cur w.g) c) w).2 with
        g := advance (liveAnswer env (store (cur w.g) c) w).2.g }
      { (liveAnswer env (store (cur v.g) c) v).2 with
        g := advance (liveAnswer env (store (cur v.g) c) v).2.g })
    (hfull : ∀ g b, full (g.withData b) = full g)
    (hfinish : ∀ g b, finish (g.withData b) = (finish g).withData b)
    (hagrees : ∀ g b, P g → full g = true → g.Agrees b →
      (finish g).Agrees b ∧ P' (finish g)) (h : AlikeIn P w v) :
    Both (live env) (recvBytesLoop store cur advance full finish)
      (recvBytesLoop store cur advance full finish)
      (fun _ _ w' v' => AlikeIn (fun g => P g ∨ P' g) w' v') w v := by
  refine both_loop (AlikeIn P) (AlikeIn fun g => P g ∨ P' g) h (fun w v h => ?_)
    fun w v h => both_ret h
  refine both_seq _ (blind_available w v h) ?_
  rintro n _ w v ⟨rfl, h⟩
  refine both_ite Iff.rfl (fun _ => ?_) fun _ => ?_
  · have hend : AlikeIn (fun g => P g ∨ P' g) w v := h.mono fun _ => .inl
    exact both_ret ⟨rfl, hend⟩
  refine both_seq _ (blind_getchar w v h) ?_
  rintro c _ w v ⟨rfl, h⟩
  refine both_get (both_bind (both_live_op (both_ret (both_bind (both_modify ?_)))))
  obtain ⟨b, hv, hb, hp⟩ := hstore c w v h
  rw [hv]
  generalize { (liveAnswer env (store (cur w.g) c) w).2 with
    g := advance (liveAnswer env (store (cur w.g) c) w).2.g } = w at hb hp
  refine both_get (both_ite (by rw [hfull]) (fun hend => ?_) fun _ => ?_)
  · obtain ⟨hb', hp'⟩ := hagrees w.g b hp hend hb
    have hend : AlikeIn (fun g => P g ∨ P' g) { w with g := finish w.g }
        { w with g := finish (w.g.withData b) } :=
      ⟨b, congrArg (fun g => { w with g }) (hfinish w.g b), hb', .inr hp'⟩
    exact both_bind (both_modify (both_ret ⟨rfl, hend⟩))
  · have hgoon : AlikeIn P w { w with g := w.g.withData b } := ⟨b, rfl, hb, hp⟩
    exact both_ret ⟨rfl, hgoon⟩

theorem take_of_le {b b' : List UInt8} {m n : Nat} (hle : m ≤ n) (h : b.take n = b'.take n) :
    b.take m = b'.take m := by
  rw [← Nat.min_eq_left hle, ← List.take_take, ← List.take_take, h]

theorem take_set_of_take {b b' : List UInt8} {m : Nat} (n : Nat) (c : UInt8)
    (h : b.take m = b'.take m) : (b.set n c).take m = (b'.set n c).take m := by
  rw [List.take_set, List.take_set, h]

/-- Where two buffers agree up to a place, they agree beyond it when the same byte is stored
there. -/
theorem take_set_succ {b b' : List UInt8} {n : Nat} (hlen : b.length = b'.length) (c : UInt8)
    (h : b.take n = b'.take n) : (b.set n c).take (n + 1) = (b'.set n c).take (n + 1) := by
  refine List.ext_getElem? fun i => ?_
  have hi := congrArg (·[i]?) h
  simp only [List.getElem?_take, List.getElem?_set] at hi ⊢
  split
  · split
    · rw [hlen]
    · simpa [show i < n by omega] using hi
  · rfl

/-- A byte of a DATA_PC packet is stored. -/
theorem State.Agrees.putData {g : State} {b : List UInt8} (h : g.Agrees b) (c : UInt8) :
    (Line.putData g c).Agrees (b.set g.dataCur c) where
  length := by
    show (b.set _ _).length = (g.dataBuf.set _ _).length
    rw [List.length_set, List.length_set, h.length]
  ready hready := take_set_of_take _ c (h.ready hready)
  stored hcmd hstate :=
    take_of_le (Nat.mod_le _ _) (take_set_succ h.length c (h.stored hcmd hstate))
  summed hcmd hstate := take_set_of_take _ c (h.summed hcmd hstate)

/-- A DATA_PC packet is received, up to this stage. -/
def InData (stage : Nat) (g : State) : Prop :=
  g.processingCmd = Cmd.dataPc ∧ g.processingCmdState = stage

theorem both_recvDataPcChecksum (h : AlikeIn (InData 2) w v) :
    Both (live env) recvDataPcChecksum recvDataPcChecksum
      (fun a b w' v' => a = b ∧ Alike w' v') w v := by
  refine both_recvChecksum (fun g b hp hb => ?_) (fun _ _ => rfl) (fun g b hp hb => ?_) h
  · exact congrArg (sum16 0) (hb.summed hp.1 hp.2)
  · exact ⟨hb.length, fun _ => hb.summed hp.1 hp.2, hb.stored, hb.summed⟩

theorem both_recvDataPcBytes (h : AlikeIn (InData 1) w v) :
    Both (live env) recvDataPcBytes recvDataPcBytes
      (fun a b w' v' => a = b ∧ Alike w' v') w v := by
  refine both_seq (fun _ _ => AlikeIn fun g => InData 1 g ∨ InData 2 g)
    (both_recvBytesLoop (fun c w v h => ?_) (fun _ _ => rfl) (fun _ _ => rfl)
      (fun g b hp hfull hb => ?_) h) ?_
  · obtain ⟨b, rfl, hb, hp⟩ := h
    exact ⟨_, rfl, hb.putData c, hp⟩
  · have hle : (UInt8.ofNat g.dataLen).toNat ≤ g.dataCur := by
      rw [UInt8.toNat_ofNat']
      exact Nat.le_trans (Nat.mod_le _ _) (of_decide_eq_true hfull)
    have htake := take_of_le hle (hb.stored hp.1 hp.2)
    exact ⟨⟨hb.length, fun _ => htake, fun _ hstate => absurd hstate (Nat.succ_ne_self 1),
      fun _ _ => htake⟩, hp.1, rfl⟩
  · rintro _ _ w _ ⟨b, rfl, hb, hp⟩
    refine both_get (both_ite Iff.rfl (fun _ => both_ret ⟨rfl, b, rfl, hb, trivial⟩) fun hne => ?_)
    exact both_recvDataPcChecksum ⟨b, rfl, hb, hp.resolve_left fun hp => hne hp.2⟩

theorem both_recvDataPcLen (h : AlikeIn (fun g => g.processingCmd = Cmd.dataPc) w v) :
    Both (live env) recvDataPcLen recvDataPcLen
      (fun a b w' v' => a = b ∧ Alike w' v') w v := by
  refine both_seq _ (blind_available w v h) ?_
  rintro n _ w v ⟨rfl, h⟩
  refine both_ite Iff.rfl (fun _ => both_ret ⟨rfl, h.alike⟩) fun _ => ?_
  refine both_seq _ (blind_getchar w v h) ?_
  rintro c _ w _ ⟨rfl, b, rfl, hb, hp⟩
  refine both_bind (both_modify (both_ite Iff.rfl (fun _ => both_ret ?_) fun _ => ?_))
  · exact ⟨rfl, b, rfl, ⟨hb.1, hb.2, hb.3, hb.4⟩, trivial⟩
  refine both_bind (both_modify (both_recvDataPcBytes ⟨b, rfl, ⟨hb.length, hb.ready, ?_, ?_⟩,
    hp, rfl⟩))
  · exact fun _ _ => rfl
  · exact fun _ hstate => absurd hstate.symm (Nat.succ_ne_self 1)

theorem both_recvCmdDataPc (h : AlikeIn (fun g => g.processingCmd = Cmd.dataPc) w v) :
    Both (live env) recvCmdDataPc recvCmdDataPc
      (fun a b w' v' => a = b ∧ Alike w' v') w v := by
  obtain ⟨b, rfl, hb, hp⟩ := h
  refine both_get (both_ite Iff.rfl (fun _ => both_ret ⟨rfl, b, rfl, hb, trivial⟩) fun _ => ?_)
  refine both_ite Iff.rfl (fun _ => both_recvDataPcLen ⟨b, rfl, hb, hp⟩) fun _ => ?_
  refine both_ite Iff.rfl (fun h1 => both_recvDataPcBytes ⟨b, rfl, hb, hp, h1⟩) fun _ => ?_
  refine both_ite Iff.rfl (fun h2 => both_recvDataPcChecksum ⟨b, rfl, hb, hp, h2⟩) fun _ => ?_
  exact both_ret ⟨rfl, b, rfl, hb, trivial⟩

/-- A stream goes to a buffer of its own. -/
theorem unaware_recvStreamPcChecksum : Unaware env recvStreamPcChecksum := fun _ _ h =>
  both_recvChecksum (fun _ _ _ _ => rfl) (fun _ _ => rfl) (fun _ _ _ h => ⟨h.1, h.2, h.3, h.4⟩) h

theorem both_recvStreamPcBytes (h : AlikeIn (fun g => g.processingCmd = Cmd.streamPc) w v) :
    Both (live env) recvStreamPcBytes recvStreamPcBytes
      (fun a b w' v' => a = b ∧ Alike w' v') w v := by
  refine both_seq (fun _ _ => AlikeIn fun g => g.processingCmd = Cmd.streamPc ∨ True)
    (both_recvBytesLoop (fun c w v h => ?_) (fun _ _ => rfl) (fun _ _ => rfl)
      (fun g b hp _ hb => ?_) h) ?_
  · obtain ⟨b, rfl, hb, hp⟩ := h
    exact ⟨b, rfl, ⟨hb.1, hb.2, hb.3, hb.4⟩, hp⟩
  · have hne : ∀ {α : Prop}, g.processingCmd = Cmd.dataPc → α := fun hcmd =>
      absurd (hp.symm.trans hcmd) streamPc_ne_dataPc
    exact ⟨⟨hb.length, hb.ready, fun hcmd => hne hcmd, fun hcmd => hne hcmd⟩, trivial⟩
  · rintro _ _ w _ ⟨b, rfl, hb, -⟩
    refine both_get (both_ite Iff.rfl (fun _ => both_ret ⟨rfl, b, rfl, hb, trivial⟩) fun _ => ?_)
    exact unaware_recvStreamPcChecksum w _ ⟨b, rfl, hb, trivial⟩

theorem both_recvStreamPcLen (h : AlikeIn (fun g => g.processingCmd = Cmd.streamPc) w v) :
    Both (live env) recvStreamPcLen recvStreamPcLen
      (fun a b w' v' => a = b ∧ Alike w' v') w v := by
  refine both_seq _ (blind_available w v h) ?_
  rintro n _ w v ⟨rfl, h⟩
  refine both_ite Iff.rfl (fun _ => both_ret ⟨rfl, h.alike⟩) fun _ => ?_
  refine both_seq _ (blind_getchar w v h) ?_
  rintro c _ w _ ⟨rfl, b, rfl, hb, hp⟩
  have h : AlikeIn (fun g => g.processingCmd = Cmd.streamPc)
      { w with g := { w.g with streamSize := UInt8.ofNat (c.toNat <<< 8) } }
      { w with g := { w.g.withData b with streamSize := UInt8.ofNat (c.toNat <<< 8) } } :=
    ⟨b, rfl, ⟨hb.1, hb.2, hb.3, hb.4⟩, hp⟩
  refine both_bind (both_modify (both_seq _ (blind_getchar _ _ h) ?_))
  rintro l _ w _ ⟨rfl, b, rfl, hb, hp⟩
  refine both_bind (both_modify (both_get (both_ite Iff.rfl (fun _ => ?_) fun _ => ?_)))
  · exact both_ret ⟨rfl, b, rfl, ⟨hb.1, hb.2, hb.3, hb.4⟩, trivial⟩
  · have hne : ∀ {α : Prop}, w.g.processingCmd = Cmd.dataPc → α := fun hcmd =>
      absurd (hp.symm.trans hcmd) streamPc_ne_dataPc
    exact both_bind (both_modify (both_recvStreamPcBytes ⟨b, rfl,
      ⟨hb.length, hb.ready, fun hcmd => hne hcmd, fun hcmd => hne hcmd⟩, hp⟩))

theorem both_recvCmdStreamPc (h : AlikeIn (fun g => g.processingCmd = Cmd.streamPc) w v) :
    Both (live env) recvCmdStreamPc recvCmdStreamPc
      (fun a b w' v' => a = b ∧ Alike w' v') w v := by
  obtain ⟨b, rfl, hb, hp⟩ := h
  refine both_get (both_ite Iff.rfl (fun _ => both_ret ⟨rfl, b, rfl, hb, trivial⟩) fun _ => ?_)
  refine both_ite Iff.rfl (fun _ => both_recvStreamPcLen ⟨b, rfl, hb, hp⟩) fun _ => ?_
  refine both_ite Iff.rfl (fun _ => both_recvStreamPcBytes ⟨b, rfl, hb, hp⟩) fun _ => ?_
  refine both_ite Iff.rfl (fun _ => ?_) fun _ => both_ret ⟨rfl, b, rfl, hb, trivial⟩
  exact unaware_recvStreamPcChecksum w _ ⟨b, rfl, hb, trivial⟩

theorem unaware_processCmd : Unaware env processCmd := by
  rintro w _ ⟨b, rfl, hb, -⟩
  have hrecv : ∀ cmd, w.g.processingCmd = cmd →
      Both (live env) (recvCmd cmd) (recvCmd cmd) (fun a b w' v' => a = b ∧ Alike w' v') w
        { w with g := w.g.withData b } := by
    intro cmd hcmd
    refine both_ite Iff.rfl (fun _ => unaware_recvCmdReset w _ ⟨b, rfl, hb, trivial⟩) fun _ => ?_
    refine both_ite Iff.rfl (fun h => both_recvCmdDataPc ⟨b, rfl, hb, hcmd.trans h⟩) fun _ => ?_
    refine both_ite Iff.rfl (fun h => both_recvCmdStreamPc ⟨b, rfl, hb, hcmd.trans h⟩) fun _ => ?_
    exact both_ret ⟨rfl, b, rfl, hb, trivial⟩
  refine both_get (both_seq _ (hrecv w.g.processingCmd rfl) ?_)
  rintro rc _ w v ⟨rfl, h⟩
  refine both_ite Iff.rfl (fun _ => ?_) fun _ =>
    both_ite Iff.rfl (fun _ => unaware_gbridgeInit w v h) fun _ => both_ret ⟨rfl, h⟩
  obtain ⟨b, rfl, hb, -⟩ := h
  exact both_modify ⟨rfl, b, rfl, ⟨hb.length, hb.ready, fun hcmd => absurd hcmd none_ne_dataPc,
    fun hcmd => absurd hcmd none_ne_dataPc⟩, trivial⟩

theorem unaware_receiveCmd : Unaware env receiveCmd := by
  refine unaware_get (fun _ _ => rfl) fun g => .ite ?_ unaware_processCmd
  refine .bind blind_available fun n => .ite (.ret ()) (.bind blind_getchar fun cmd => ?_)
  refine .ite (.ret ()) (unaware_get (fun _ _ => rfl) fun g => .ite (.ite ?_ (.ret ())) ?_)
  · exact unaware_modify (fun _ _ => rfl) fun _ _ h => ⟨h.1, h.2, h.3, h.4⟩
  · refine .bind blind_timerGet fun now => .bind (unaware_modify (fun _ _ => rfl) ?_) fun _ =>
      unaware_processCmd
    exact fun _ _ h => ⟨h.length, h.ready, fun _ hstate => absurd hstate.symm (Nat.succ_ne_zero 0),
      fun _ hstate => absurd hstate.symm (Nat.succ_ne_zero 1)⟩

theorem unaware_gbridgeLoopConnected : Unaware env gbridgeLoopConnected := by
  refine unaware_get (fun _ _ => rfl) fun g => .bind (blind_timedOut _ _) fun late => ?_
  refine .ite unaware_gbridgeInit (.bind (blind_timedOut _ _) fun late => ?_)
  exact .ite unaware_gbridgeInit unaware_receiveCmd

theorem unaware_gbridgeLoop : Unaware env gbridgeLoop := by
  refine unaware_get (fun _ _ => rfl) fun g => .ite unaware_gbridgeLoopConnected ?_
  refine .bind unaware_doHandshake fun up => .ite (.bind ?_ fun _ => ?_) (.ret ())
  · exact unaware_modify (fun _ _ => rfl) fun _ _ h => ⟨h.1, h.2, h.3, h.4⟩
  · exact unaware_gbridgeLoopConnected

/-- The variables a loop asks for are not the receive buffer. -/
theorem unaware_while {c : State → Bool} (hc : ∀ g b, c (g.withData b) = c g) :
    Unaware env (.whileM (do return c (← get)) gbridgeLoop) := by
  refine .whileM (unaware_get (fun g b => ?_) fun g => .ret (c g)) unaware_gbridgeLoop
  simp only [hc]

theorem unaware_waitCmd (cmd : UInt8) : Unaware env (waitCmd cmd) := by
  refine unaware_get (fun _ _ => rfl) fun g => .ite ?_ (.ret ())
  refine .bind (unaware_while fun _ _ => rfl) fun _ => .bind blind_timerGet fun now => ?_
  refine .bind (unaware_modify (fun _ _ => rfl) ?_) fun _ => unaware_while fun _ _ => rfl
  exact fun _ _ h => ⟨h.1, h.2, h.3, h.4⟩

theorem unaware_gbridgeCmdData (data : GbridgeData) : Unaware env (gbridgeCmdData data) := by
  refine unaware_get (fun _ _ => rfl) fun g =>
    .ite (.ite (.bind ?_ fun _ => ?_) (.ret ())) (.ret ())
  · exact .bind (blind_putchar _) fun _ => .bind (blind_putchar _) fun _ =>
      .bind (blind_putchars _) fun _ => .bind (blind_putchar _) fun _ => blind_putchar _
  · exact unaware_waitCmd Cmd.data

theorem unaware_gbridgeRecvDataDone : Unaware env gbridgeRecvDataDone :=
  unaware_modify (fun _ _ => rfl) fun _ _ h =>
    ⟨h.length, fun hready => absurd hready Bool.false_ne_true, h.stored, h.summed⟩

theorem unaware_gbridgeRecvStreamWait (buffer : List UInt8) (maxSize : Nat) :
    Unaware env (gbridgeRecvStreamWait buffer maxSize) := by
  refine .bind (unaware_modify (fun _ _ => rfl) ?_) fun _ => ?_
  · exact fun _ _ h => ⟨h.1, h.2, h.3, h.4⟩
  · exact .bind (unaware_while fun _ _ => rfl) fun _ => unaware_get (fun _ _ => rfl) fun g => .ret _

/-! ## 4. The reply -/

/-- Two packets with the same bytes, in buffers that may hold more. -/
structure SamePacket (d d' : GbridgeData) : Prop where
  size : d.size = d'.size
  bytes : d.bytes = d'.bytes

theorem SamePacket.getD {d d' : GbridgeData} (h : SamePacket d d') {i : Nat}
    (hi : i < d.size.toNat) : d.buffer.getD i 0 = d'.buffer.getD i 0 := by
  have hget := congrArg (·[i]?) h.bytes
  simp only [GbridgeData.bytes, List.getElem?_take_of_lt hi,
    List.getElem?_take_of_lt (h.size ▸ hi)] at hget
  rw [List.getD_eq_getElem?_getD, List.getD_eq_getElem?_getD, hget]

/-- The same packet comes in. -/
theorem both_request (data : GbridgeData) (h : Alike w v) :
    Both (live env) (request data) (request data)
      (fun x y w' v' => Option.Rel SamePacket x y ∧ Alike w' v') w v := by
  refine both_seq _ (unaware_gbridgeCmdData data w v h) ?_
  rintro _ _ w v ⟨-, h⟩
  refine both_seq _ (unaware_while (fun _ _ => rfl) w v h) ?_
  rintro _ _ w _ ⟨-, b, rfl, hb, -⟩
  refine both_get (both_ite Iff.rfl (fun _ => both_get ?_) fun _ =>
    both_ret ⟨.none, b, rfl, hb, trivial⟩)
  refine both_ret ⟨?_, b, rfl, hb, trivial⟩
  show Option.Rel SamePacket (if w.g.dataReady then _ else _) (if w.g.dataReady then _ else _)
  split
  · exact .some ⟨rfl, (hb.ready (by assumption)).symm⟩
  · exact .none

end Alike

/-- The size `address_read` is called with, if it is called. -/
def addressReadSize (recvData : GbridgeData) : Option Nat :=
  if recvData.size < 2 ∨ recvData.buffer.getD 0 0 ≠ ProtMa.cmdRecv then none
  else some ((recvData.size.toNat + 65536 - 3) % 65536)

/-- What `mobile_impl_sock_recv` makes of the reply. -/
def recvReply (buffer : List UInt8) (size : Nat) (addr : Option MobileAddr) :
    Option GbridgeData → Code Result
  | none => do
    gbridgeRecvDataDone
    return .recv (-1) buffer addr
  | some recvData =>
    match addressReadSize recvData with
    | none => do
      gbridgeRecvDataDone
      return .recv (-1) buffer addr
    | some addrSize => do
      let res := int16 (be16 (recvData.buffer.getD 1 0) (recvData.buffer.getD 2 0))
      let read := addressRead (recvData.buffer.drop 3) addrSize
      let addr := addr.map fun a => read.2.getD a
      if read.1 = 0 ∨ recvData.size.toNat ≠ read.1 + 3 then
        gbridgeRecvDataDone
        return .recv (-1) buffer addr
      else
        gbridgeRecvDataDone
        if res ≤ 0 then return .recv res buffer addr
        else if ← gbridgeRecvStreamWait buffer size then
          return .recv res (← get).streamBuf addr
        else return .recv (-1) (← get).streamBuf addr

/-- The packet `mobile_impl_sock_recv` sends. -/
def recvRequest (conn size : Nat) : GbridgeData :=
  .ofList [ProtMa.cmdRecv, UInt8.ofNat conn, hi size, lo size]

theorem mobileImplSockRecv_reply (conn : Nat) (buffer : List UInt8) (size : Nat)
    (addr : Option MobileAddr) :
    mobileImplSockRecv conn buffer size addr =
      (request (recvRequest conn size)).bind (recvReply buffer size addr) := by
  refine congrArg (Prog.bind _) (funext fun x => ?_)
  cases x with
  | none => rfl
  | some recvData =>
    by_cases hguard : recvData.size < 2 ∨ recvData.buffer.getD 0 0 ≠ ProtMa.cmdRecv
    · simp only [recvReply, addressReadSize, if_pos hguard]
    · simp only [recvReply, addressReadSize, if_neg hguard]

/-- A run of `mobile_impl_sock_recv` with this reply. -/
def RecvRun (env : Surroundings) (conn : Nat) (buffer : List UInt8) (size : Nat)
    (addr : Option MobileAddr) (w : Live) (x : Option GbridgeData) (r : Result) (w' : Live) :
    Prop :=
  ∃ w₁, Eval (live env) (request (recvRequest conn size)) w x w₁ ∧
    Eval (live env) (recvReply buffer size addr x) w₁ r w'

/-- Every run has a reply, or comes to know that there will be none. -/
theorem mobileImplSockRecv_run {env : Surroundings} {conn : Nat} {buffer : List UInt8} {size : Nat}
    {addr : Option MobileAddr} {w w' : Live} {r : Result} :
    Eval (live env) (mobileImplSockRecv conn buffer size addr) w r w' ↔
      ∃ x, RecvRun env conn buffer size addr w x r w' := by
  rw [mobileImplSockRecv_reply, eval_bind]
  rfl

/-- What `address_read` is told it may look at is part of the reply. -/
def ReadsInside (x : Option GbridgeData) : Prop :=
  ∀ d ∈ x, ∀ n ∈ addressReadSize d, n ≤ d.size.toNat - 3

/-- The reply has the right first byte, one more, and no more. -/
def CutShort (x : Option GbridgeData) : Prop :=
  ∃ d ∈ x, d.size = 2 ∧ d.buffer.getD 0 0 = ProtMa.cmdRecv

/-- The size given to `address_read`, when the reply is not too short. -/
theorem addressReadSize_some {d : GbridgeData} {n : Nat} (hn : addressReadSize d = some n) :
    d.buffer.getD 0 0 = ProtMa.cmdRecv ∧
      (d.size.toNat = 2 ∧ n = 65535 ∨ 3 ≤ d.size.toNat ∧ n = d.size.toNat - 3) := by
  unfold addressReadSize at hn
  split at hn
  · cases hn
  · rename_i hguard
    obtain ⟨hsize, hcmd⟩ := not_or.mp hguard
    have hle : 2 ≤ d.size.toNat := UInt8.le_iff_toNat_le.mp (UInt8.not_lt.mp hsize)
    have hlt : d.size.toNat < 256 := d.size.toNat_lt
    have hn := Option.some.inj hn
    refine ⟨not_not.mp hcmd, ?_⟩
    rcases Nat.eq_or_lt_of_le hle with htwo | hthree
    · exact .inl ⟨htwo.symm, by omega⟩
    · exact .inr ⟨hthree, by omega⟩

theorem readsInside_iff (x : Option GbridgeData) : ReadsInside x ↔ ¬ CutShort x := by
  constructor
  · rintro h ⟨d, hd, hsize, hcmd⟩
    have hread : addressReadSize d = some 65535 := by
      unfold addressReadSize
      rw [hsize, hcmd]
      decide
    have hle := h d hd 65535 hread
    rw [hsize] at hle
    exact absurd hle (by decide)
  · intro h d hd n hn
    obtain ⟨hcmd, ⟨htwo, -⟩ | ⟨-, hn⟩⟩ := addressReadSize_some hn
    · exact absurd ⟨d, hd, UInt8.toNat_inj.mp htwo, hcmd⟩ h
    · exact Nat.le_of_eq hn

section Reply

variable {env : Surroundings} {w v : Live} {buffer : List UInt8} {size : Nat}
  {addr : Option MobileAddr}

theorem SamePacket.addressReadSize_eq {d d' : GbridgeData} (h : SamePacket d d') :
    addressReadSize d = addressReadSize d' := by
  unfold addressReadSize
  rw [h.size]
  by_cases hsize : d'.size < 2
  · rw [if_pos (.inl hsize), if_pos (.inl hsize)]
  · have hle : 2 ≤ d.size.toNat := by
      rw [h.size]
      exact UInt8.le_iff_toNat_le.mp (UInt8.not_lt.mp hsize)
    rw [h.getD (Nat.lt_of_lt_of_le Nat.zero_lt_two hle)]

/-- The call goes on in the same way after the same reply, if that is not cut short. -/
theorem both_recvReply {x y : Option GbridgeData} (hxy : Option.Rel SamePacket x y)
    (hx : ¬ CutShort x) (h : Alike w v) :
    Both (live env) (recvReply buffer size addr x) (recvReply buffer size addr y)
      (fun a b w' v' => a = b ∧ Alike w' v') w v := by
  have hfail : ∀ addr, Unaware env (gbridgeRecvDataDone.bind fun _ =>
      (.ret (.recv (-1) buffer addr) : Code Result)) := fun addr =>
    .bind unaware_gbridgeRecvDataDone fun _ => .ret _
  cases hxy with
  | none => exact hfail addr w v h
  | @some d d' hd =>
    cases hread : addressReadSize d with
    | none =>
      simp only [recvReply, hread, ← hd.addressReadSize_eq]
      exact hfail addr w v h
    | some n =>
      simp only [recvReply, hread, ← hd.addressReadSize_eq]
      obtain ⟨hcmd, ⟨htwo, -⟩ | ⟨hthree, rfl⟩⟩ := addressReadSize_some hread
      · exact absurd ⟨d, rfl, UInt8.toNat_inj.mp htwo, hcmd⟩ hx
      have haddr : addressRead (d.buffer.drop 3) (d.size.toNat - 3) =
          addressRead (d'.buffer.drop 3) (d.size.toNat - 3) :=
        addressRead_congr fun i hi => by rw [getD_drop, getD_drop, hd.getD (by omega)]
      simp only [haddr, hd.getD (show 1 < d.size.toNat by omega),
        hd.getD (show 2 < d.size.toNat by omega), ← hd.size]
      refine Blind.ite (hfail _) (.bind unaware_gbridgeRecvDataDone fun _ => ?_) w v h
      refine .ite (.ret _) (.bind (unaware_gbridgeRecvStreamWait buffer size) fun done => ?_)
      exact .ite (unaware_get (fun _ _ => rfl) fun g => .ret _)
        (unaware_get (fun _ _ => rfl) fun g => .ret _)

end Reply

/-- **A call learns nothing of the packets before its reply, and looks at nothing beyond it, exactly
if the reply is not cut short.**

Two runs of `mobile_impl_sock_recv` in the same surroundings, from worlds that differ in nothing but
bytes left over in `data_buf`, return the same, and `address_read` is given no more than the reply
has.  A reply of two bytes is cut short: its size is accepted, and the address is read from behind
it. -/
theorem recv_alike_iff (env : Surroundings) (conn : Nat) (buffer : List UInt8) (size : Nat)
    (addr : Option MobileAddr) {w v w' v' : Live} {x y : Option GbridgeData} {r s : Result}
    (h : Alike w v) (hw : RecvRun env conn buffer size addr w x r w')
    (hv : RecvRun env conn buffer size addr v y s v') :
    (r = s ∧ ReadsInside x ∧ ReadsInside y) ↔ ¬ CutShort x := by
  obtain ⟨w₁, hx, hr⟩ := hw
  obtain ⟨v₁, hy, hs⟩ := hv
  obtain ⟨hxy, h₁⟩ := both_request _ h x w₁ y v₁ hx hy
  constructor
  · rintro ⟨-, hin, -⟩
    exact (readsInside_iff x).mp hin
  · intro hx
    refine ⟨(both_recvReply hxy hx h₁ r w' s v' hr hs).1, (readsInside_iff x).mpr hx,
      (readsInside_iff y).mpr ?_⟩
    rintro ⟨d', hd', hsize, hcmd⟩
    cases hxy with
    | none => cases hd'
    | @some d e hd =>
      obtain rfl : e = d' := Option.some.inj hd'
      refine hx ⟨d, rfl, hd.size.trans hsize, ?_⟩
      rw [hd.getD (by rw [hd.size, hsize]; decide), hcmd]

/-- A link, and a packet nobody has asked for. -/
def packetBefore (packet : List UInt8) : Surroundings where
  arrive k := if k = 0 then handshake ++ dataFrame Cmd.dataPc packet else []
  clock _ := 0

/-- An acknowledgement and a reply. -/
def replyAfter (reply : List UInt8) : Surroundings where
  arrive k := if k = 0 then ack Cmd.data :: dataFrame Cmd.dataPc reply else []
  clock _ := 0

/-- The variables when a packet has been received and thrown away; then the reply to a call, and
what the call returns. -/
def recvAfter (packet reply : List UInt8) : Option (State × Option GbridgeData × Result) :=
  (callAll ApiCall.code (fun _ w => w) 50
    (List.replicate 5 (packetBefore packet, .loop) ++ [(packetBefore packet, .protMaLoop)])
    { g := State.init {} }).bind fun w =>
    (run (fun _ e w => some (liveAnswer (replyAfter reply) e w)) 50 (request (recvRequest 1 0))
      { g := w.g }).bind fun x =>
      (run (fun _ e w => some (liveAnswer (replyAfter reply) e w)) 50
        (recvReply [] 0 (some .none) x.1) x.2).map fun r => (w.g, x.1, r.1)

theorem recvAfter_run {packet reply : List UInt8} {g : State} {x : Option GbridgeData} {r : Result}
    (h : recvAfter packet reply = some (g, x, r)) :
    (∃ w, Called w ∧ w.g = g) ∧
      ∃ w', RecvRun (replyAfter reply) 1 [] 0 (some .none) { g } x r w' := by
  obtain ⟨w, hw, h⟩ := Option.bind_eq_some_iff.mp h
  obtain ⟨⟨x, w₁⟩, hx, h⟩ := Option.bind_eq_some_iff.mp h
  obtain ⟨⟨r, w'⟩, hr, h⟩ := Option.map_eq_some_iff.mp h
  cases h
  exact ⟨⟨w, Between.callAll _ (.start ⟨{}, rfl⟩) hw, rfl⟩, w', w₁, live_eval hx, live_eval hr⟩

/-- Nothing is under way, and only the buffer is different. -/
def State.leftOver (g g' : State) : Bool :=
  g' = g.withData g'.dataBuf && g'.dataBuf.length == g.dataBuf.length && !g.dataReady &&
    g.processingCmd == Cmd.none

theorem alike_of_leftOver {g g' : State} (h : g.leftOver g' = true) :
    Alike { g } { g := g' } := by
  simp only [State.leftOver, Bool.and_eq_true, decide_eq_true_eq, beq_iff_eq,
    Bool.not_eq_true'] at h
  obtain ⟨⟨⟨hg, hlen⟩, hready⟩, hcmd⟩ := h
  refine ⟨g'.dataBuf, congrArg (fun g => ({ g } : Live)) hg, ⟨hlen, ?_, ?_, ?_⟩, trivial⟩
  · exact fun h => absurd (hready.symm.trans h) Bool.false_ne_true
  · exact fun h => absurd (hcmd.symm.trans h) none_ne_dataPc
  · exact fun h => absurd (hcmd.symm.trans h) none_ne_dataPc

/-- A reply of four bytes, after packets in which four others followed. -/
theorem recv_alike_iff_four : ∃ w v w' v' x y r s, w ≠ v ∧
    RecvRun (replyAfter [ProtMa.cmdRecv, 0, 0, 0]) 1 [] 0 (some .none) w x r w' ∧
    RecvRun (replyAfter [ProtMa.cmdRecv, 0, 0, 0]) 1 [] 0 (some .none) v y s v' ∧
    ((r = s ∧ ReadsInside x ∧ ReadsInside y) ↔ ¬ CutShort x) := by
  have hrun : ((recvAfter [0, 0, 0, 0, 1] [ProtMa.cmdRecv, 0, 0, 0]).bind fun a =>
      (recvAfter [0, 0, 0, 0, 2] [ProtMa.cmdRecv, 0, 0, 0]).map fun b =>
        (a.1.leftOver b.1, decide (a.1 ≠ b.1))) = some (true, true) := by decide +kernel
  obtain ⟨⟨g, x, r⟩, ha, hrun⟩ := Option.bind_eq_some_iff.mp hrun
  obtain ⟨⟨g', y, s⟩, hb, hrun⟩ := Option.map_eq_some_iff.mp hrun
  obtain ⟨hleft, hne⟩ := Prod.mk.inj hrun
  obtain ⟨-, w', hw⟩ := recvAfter_run ha
  obtain ⟨-, v', hv⟩ := recvAfter_run hb
  refine ⟨_, _, w', v', x, y, r, s, ?_, hw, hv,
    recv_alike_iff _ _ _ _ _ (alike_of_leftOver hleft) hw hv⟩
  exact fun h => of_decide_eq_true hne (congrArg Live.g h)

/-- **A call does learn of the packets before its reply**: the reply ends after its second byte,
and an address in the bytes behind it is taken for its own. -/
theorem stale_address_fails : ¬ ∀ (env : Surroundings) (conn : Nat) (buffer : List UInt8)
    (size : Nat) (addr : Option MobileAddr) (w v w' v' : Live) (x y : Option GbridgeData)
    (r s : Result), (∃ w₀, Called w₀ ∧ w₀.g = w.g) → (∃ v₀, Called v₀ ∧ v₀.g = v.g) → Alike w v →
      (∀ d ∈ x, w.g.dataBuf.take d.size.toNat = v.g.dataBuf.take d.size.toNat) →
        RecvRun env conn buffer size addr w x r w' → RecvRun env conn buffer size addr v y s v' →
          r = s ∧ ReadsInside x ∧ ReadsInside y := by
  intro h
  have hrun : ((recvAfter [0, 0, 0, 1, 0, 80, 10, 0, 0, 1] [ProtMa.cmdRecv, 0]).bind fun a =>
      (recvAfter [0, 0, 0, 0, 0, 80, 10, 0, 0, 1] [ProtMa.cmdRecv, 0]).map fun b =>
        (a.1.leftOver b.1, decide (∀ d ∈ a.2.1,
          a.1.dataBuf.take d.size.toNat = b.1.dataBuf.take d.size.toNat), decide (a.2.2 ≠ b.2.2))) =
      some (true, true, true) := by decide +kernel
  obtain ⟨⟨g, x, r⟩, ha, hrun⟩ := Option.bind_eq_some_iff.mp hrun
  obtain ⟨⟨g', y, s⟩, hb, hrun⟩ := Option.map_eq_some_iff.mp hrun
  obtain ⟨hleft, hrun⟩ := Prod.mk.inj hrun
  obtain ⟨hbeyond, hne⟩ := Prod.mk.inj hrun
  obtain ⟨hcalled, w', hw⟩ := recvAfter_run ha
  obtain ⟨hcalled', v', hv⟩ := recvAfter_run hb
  exact of_decide_eq_true hne (h _ _ _ _ _ _ _ w' v' x y r s hcalled hcalled'
    (alike_of_leftOver hleft)
    (of_decide_eq_true hbeyond) hw hv).1

end GBridge.Atmega

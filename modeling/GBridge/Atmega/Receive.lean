/-
# The resumable receivers of the adapter

A frame comes in over several calls of `gbridge_loop`; the receiver notes how far it has got and
goes on from there.  DATA_PC and STREAM_PC are received in the same three stages, so that what
differs between them is a record, `Intake`, and the stages are one inductive predicate,
`Intake.Stage`, which says for each state what is still to come of the frame and how many bytes are
needed to go on.

`Intake.Receives` is the specification of a receiver, and is shown of both: `recv_cmd_data_pc` for
every packet that fits into `data_buf` and is not empty (`receives_dataPc`), `recv_cmd_stream_pc`
for every stream that fits into its buffer (`receives_streamPc`), and that it refuses the others as
soon as it has seen their length (`refuses_streamPc`).

A call of `gbridge_loop` (`wpP_gbridgeLoop_phase`) leaves the receiver in a stage for which too
little has arrived, or it has seen the checksum, and accepted the frame or reset the link.
-/
import GBridge.Atmega.Play

namespace GBridge.Atmega

open Prog Duplex Bytes

/-! ## 1. Intakes -/

/-- How a frame is taken in. -/
structure Intake where
  cmd : UInt8
  /-- The function that receives it. -/
  recv : Code Int
  /-- The length, as it stands on the line. -/
  head : List UInt8
  /-- The bytes that are stored. -/
  body : List UInt8
  /-- The state when these bytes have been stored. -/
  bytes : State → List UInt8 → State
  /-- The state when all of them have been stored. -/
  sum : State → State
  /-- What is summed. -/
  data : State → GbridgeData
  /-- The state when the checksum was right. -/
  accept : State → State

/-- A DATA_PC packet. -/
def dataPc (len : UInt8) (body : List UInt8) : Intake where
  cmd := Cmd.dataPc
  recv := recvCmdDataPc
  head := [len]
  body := body
  bytes g done :=
    { g with
      processingCmdState := 1, dataLen := len.toNat, dataCur := done.length,
      dataBuf := done ++ g.dataBuf.drop done.length }
  sum g :=
    { g with
      processingCmdState := 2, dataLen := len.toNat, dataCur := body.length,
      dataBuf := body ++ g.dataBuf.drop body.length, dataSize := len }
  data := State.data
  accept g := { g with dataReady := true }

/-- A STREAM_PC packet: of the length only the low byte is kept. -/
def streamPc (h l : UInt8) (body : List UInt8) : Intake where
  cmd := Cmd.streamPc
  recv := recvCmdStreamPc
  head := [h, l]
  body := body
  bytes g done :=
    { g with
      processingCmdState := 1, streamSize := l, streamCur := done.length,
      streamBuf := done ++ g.streamBuf.drop done.length }
  sum g :=
    { g with
      processingCmdState := 2, streamSize := l, streamCur := body.length,
      streamBuf := body ++ g.streamBuf.drop body.length }
  data := State.streamRecv
  accept g := { g with streamMaxSize := 0 }

/-- The part of the variables that a receiver leaves alone. -/
structure State.SameLink (g g' : State) : Prop where
  connected : g'.connected = g.connected
  processingCmd : g'.processingCmd = g.processingCmd
  processingCmdTime : g'.processingCmdTime = g.processingCmdTime
  waitingCmd : g'.waitingCmd = g.waitingCmd

namespace Intake

/-- Where the receiver stands, what is still to come of the frame, and how many bytes it needs
to go on.  `g` is the state in which the receiver is called first. -/
inductive Stage (k : Intake) (g : State) (ck : List UInt8) : State → List UInt8 → Nat → Prop
  | head : Stage k g ck g (k.head ++ (k.body ++ ck)) k.head.length
  | bytes {done todo : List UInt8} : k.body = done ++ todo → todo ≠ [] →
    Stage k g ck (k.bytes g done) (todo ++ ck) 1
  | sum : k.body ≠ [] → Stage k g ck (k.sum g) ck 2

/-- The checksum agrees with what has been stored. -/
def Agrees (k : Intake) (g : State) (h l : UInt8) : Prop :=
  be16 h l = (k.data (k.sum g)).checksumData

/-- What is to be shown of each way in which a call of the receiver may come back: too little has
arrived, and of the `patience` there was less is left, or the frame is accepted, or it is
refused. -/
structure Outcome (k : Intake) (env : Env) (patience : Nat) (g : State) (ck : List UInt8)
    (good : Prop) (sh : List UInt8 → Share UInt8 Result) (after : Share UInt8 Result)
    (Q : Int → Play → Prop) : Prop where
  more : ∀ v todo need, k.Stage g ck v.g todo need → v.known < need →
    (env.counted = true → v.patience < patience) → v.share = sh todo → Q 0 v
  accepted : good → ∀ v, v.g = k.accept (k.sum g) → v.share = after → Q 1 v
  refused : ¬ good → ∀ v todo, v.share = sh todo → Q (-1) v

/-- The receiver goes through the stages, and accepts the frame if it is `good`. -/
structure Receives (k : Intake) (g : State) (ck : List UInt8) (good : Prop) : Prop where
  link : ∀ {g' todo need}, k.Stage g ck g' todo need → g.SameLink g'
  done : g.SameLink (k.accept (k.sum g))
  recv : ∀ {env : Env} {t : Bool} {sh : List UInt8 → Share UInt8 Result}
    {after : Share UInt8 Result} {Q : Int → Play → Prop} {v : Play} {todo : List UInt8}
    {need patience : Nat}, Feed sh (ack k.cmd) after → k.Stage g ck v.g todo need →
    v.share = sh todo → v.patience ≤ patience →
    k.Outcome env patience g ck good sh after Q → wpP env t k.recv Q v

end Intake

section Receive

variable {env : Env} {t : Bool} {v : Play} {sh : List UInt8 → Share UInt8 Result}
  {after : Share UInt8 Result} {patience : Nat}

/-! ## 2. The stages one by one -/

/-- Storing the next byte behind those that are stored. -/
theorem store_next {done buf : List UInt8} (c : UInt8) (h : done.length < buf.length) :
    (done ++ buf.drop done.length).set done.length c =
      (done ++ [c]) ++ buf.drop (done ++ [c]).length := by
  rw [List.set_append_right _ _ (Nat.le_refl _), Nat.sub_self, List.drop_eq_getElem_cons h,
    List.set_cons_zero, List.length_append, List.append_assoc]
  rfl

/-- The receivers stop after as many bytes as the length says, but not before the first. -/
theorem full_iff {done todo body : List UInt8} {c : UInt8} {len : Nat}
    (hlen : body.length = max len 1) (hbody : body = done ++ c :: todo) :
    len ≤ (done ++ [c]).length ↔ todo = [] := by
  rw [hbody, List.length_append, List.length_cons] at hlen
  rw [List.length_append, List.length_singleton]
  constructor
  · intro hle
    exact List.eq_nil_of_length_eq_zero (by omega)
  · rintro rfl
    rw [List.length_nil] at hlen
    omega

theorem wpP_feed {cmd : UInt8} (hsh : Feed sh (ack cmd) after) {c : UInt8} {todo : List UInt8}
    {Q : UInt8 → Play → Prop} (hknown : 0 < v.known) (hshare : v.share = sh (c :: todo))
    (h : Q c { v with known := v.known - 1, share := sh todo }) :
    wpP env t serialGetchar Q v := by
  refine ⟨hknown, c, (sh todo).inp, ?_, ?_⟩
  · rw [hshare, hsh.inp]
  · rw [hshare, hsh.early, hsh.out]
    exact h

/-- A poll that finds less than is needed comes too early. -/
theorem patience_lt {b : UInt8} (hsh : Feed sh b after) {todo : List UInt8} {n need p : Nat}
    (hshare : v.share = sh todo) (hlt : n < need) (hneed : need ≤ todo.length)
    (hcost : Costs env.counted (n < v.share.inp.length) v.patience p)
    (hcounted : env.counted = true) : p < v.patience := by
  refine hcost.less hcounted (Nat.lt_of_lt_of_le hlt (Nat.le_trans hneed ?_))
  rw [hshare]
  exact hsh.length_le todo

/-- The checksum, once both bytes have arrived. -/
theorem wpP_recvChecksum {data : State → GbridgeData} {cmd : UInt8} {accept : State → State}
    {h l : UInt8} {Q : Int → Play → Prop} (hsh : Feed sh (ack cmd) after)
    (hup : (accept v.g).connected = true) (hshare : v.share = sh [h, l])
    (hmore : ∀ v', v'.g = v.g → v'.known < 2 → (env.counted = true → v'.patience < v.patience) →
      v'.share = v.share → Q 0 v')
    (hgood : be16 h l = (data v.g).checksumData → ∀ v', v'.g = accept v.g →
      v'.share = after → Q 1 v')
    (hbad : be16 h l ≠ (data v.g).checksumData → ∀ v', v'.g = v.g →
      v'.share = sh [] → Q (-1) v') :
    wpP env t (recvChecksum data cmd accept) Q v := by
  refine wpP_bind (wpP_available fun n p _ hcost => wpP_ite (fun hlt => ?_) fun hge => ?_)
  · exact hmore _ rfl hlt (patience_lt hsh hshare hlt (Nat.le_refl 2) hcost) rfl
  · refine wpP_bind (wpP_feed hsh (c := h) (by simp only; omega) hshare ?_)
    refine wpP_bind (wpP_feed hsh (c := l) (by simp only; omega) rfl ?_)
    refine wpP_get (wpP_ite (fun hne => hbad hne _ rfl rfl) fun heq => ?_)
    refine wpP_bind (wpP_putchar_due (hsh.acked.mono ?_))
    rintro _ rfl
    exact wpP_bind (wpP_modify (fun _ => hup) (hgood (not_not.mp heq) _ rfl rfl))

/-- The payload: whatever has arrived of it is stored. -/
theorem wpP_recvBytesLoop {cmd : UInt8} (hsh : Feed sh (ack cmd) after)
    {store : Nat → UInt8 → Op Unit} (put : State → Nat → UInt8 → State)
    {cur : State → Nat} {advance : State → State} {full : State → Bool} {finish : State → State}
    {body ck : List UInt8} (bytes : List UInt8 → State) {Q : Unit → Play → Prop}
    (hstore : ∀ {i : Nat} {c : UInt8} {Q : Unit → Play → Prop} {v : Play},
      Q () { v with g := put v.g i c } → wpP env t (.cmd (store i c)) Q v)
    (hup : ∀ done, (bytes done).connected = true)
    (hfinish : (finish (bytes body)).connected = true)
    (hnext : ∀ done c todo, body = done ++ c :: todo →
      advance (put (bytes done) (cur (bytes done)) c) = bytes (done ++ [c]))
    (hfull : ∀ done c todo, body = done ++ c :: todo →
      (full (bytes (done ++ [c])) = true ↔ todo = []))
    {done todo : List UInt8} (hbody : body = done ++ todo) (htodo : todo ≠ [])
    (hg : v.g = bytes done) (hshare : v.share = sh (todo ++ ck))
    (hmore : ∀ v' done todo, body = done ++ todo → todo ≠ [] → v'.g = bytes done →
      v'.known < 1 → (env.counted = true → v'.patience < v.patience) →
      v'.share = sh (todo ++ ck) → Q () v')
    (hall : ∀ v', v'.g = finish (bytes body) → v'.patience ≤ v.patience → v'.share = sh ck →
      Q () v') :
    wpP env t (recvBytesLoop store cur advance full finish) Q v := by
  -- each round takes one byte off what is still to come
  refine ⟨fun n v' => ∃ done todo, body = done ++ todo ∧ todo ≠ [] ∧ todo.length = n ∧
    v'.g = bytes done ∧ v'.patience ≤ v.patience ∧ v'.share = sh (todo ++ ck),
    ⟨_, done, todo, hbody, htodo, rfl, hg, Nat.le_refl _, hshare⟩, ?_⟩
  rintro n v₁ ⟨done, todo, hbody, htodo, hn, hg, hle, hshare⟩
  refine wpP_bind (wpP_available fun m p _ hcost => wpP_ite (fun hzero => ?_) fun hpos => ?_)
  · have hlen : 1 ≤ (todo ++ ck).length := by
      rw [List.length_append]
      exact Nat.le_add_right_of_le (List.length_pos_iff.mpr htodo)
    refine hmore _ done todo hbody htodo hg (by simp only; omega) (fun hcounted => ?_) hshare
    exact Nat.lt_of_lt_of_le
      (patience_lt hsh hshare (Nat.lt_one_iff.mpr hzero) hlen hcost hcounted) hle
  · cases todo with
    | nil => exact absurd rfl htodo
    | cons c todo =>
      refine wpP_bind (wpP_feed hsh (c := c) (Nat.pos_of_ne_zero hpos) hshare ?_)
      refine wpP_get (wpP_bind (hstore (wpP_bind (wpP_modify ?_ ?_))))
      all_goals rw [show v₁.g = bytes done from hg, hnext done c todo hbody]
      · exact fun _ => hup _
      refine wpP_get (wpP_ite (fun hend => ?_) fun hgoon => ?_)
      · obtain rfl : todo = [] := (hfull done c todo hbody).mp hend
        rw [← hbody]
        exact wpP_bind (wpP_modify (fun _ => hfinish)
          (hall _ rfl (Nat.le_trans hcost.le hle) rfl))
      · refine ⟨todo.length, fun _ => ?_, done ++ [c], todo, by simp [hbody], ?_, rfl, rfl,
          Nat.le_trans hcost.le hle, rfl⟩
        · rw [← hn, List.length_cons]
          exact Nat.lt_succ_self _
        · exact fun hnil => hgoon ((hfull done c todo hbody).mpr hnil)

/-- A DATA_PC packet the receiver has room for.  For an empty one it takes a byte all the same,
because it stores before it tests. -/
structure FitsData (g : State) (len : UInt8) (body : List UInt8) : Prop where
  connected : g.connected = true
  ready : g.dataReady = false
  start : g.processingCmdState = 0
  small : len.toNat ≤ maxDataSize
  length : body.length = max len.toNat 1
  room : g.dataBuf.length = maxDataSize

section Data

variable {g : State} {len h l : UInt8} {body : List UInt8} {Q : Int → Play → Prop}

theorem FitsData.length_le (hfits : FitsData g len body) : body.length ≤ maxDataSize := by
  rw [hfits.length]
  exact Nat.max_le.mpr ⟨hfits.small, by decide⟩

theorem FitsData.ne_nil (hfits : FitsData g len body) : body ≠ [] := by
  intro hnil
  have hlen := hfits.length
  rw [hnil, List.length_nil] at hlen
  omega

theorem wpP_recvDataPcChecksum (hsh : Feed sh (ack Cmd.dataPc) after) (hfits : FitsData g len body)
    (hg : v.g = (dataPc len body).sum g)
    (hshare : v.share = sh [h, l]) (hle : v.patience ≤ patience)
    (ho : (dataPc len body).Outcome env patience g [h, l] ((dataPc len body).Agrees g h l)
      sh after Q) :
    wpP env t recvDataPcChecksum Q v := by
  have hagrees : (dataPc len body).Agrees g h l ↔ be16 h l = v.g.data.checksumData := by
    rw [hg]
    exact Iff.rfl
  refine wpP_recvChecksum hsh ?_ hshare (fun v' hg' hknown hless hshare' => ?_)
    (fun hgood v' hg' hshare' => ?_) fun hbad v' _ hshare' => ?_
  · rw [hg]
    exact hfits.connected
  · refine ho.more v' [h, l] 2 ?_ hknown (fun hcounted => Nat.lt_of_lt_of_le (hless hcounted) hle)
      (hshare'.trans hshare)
    rw [hg', hg]
    exact .sum hfits.ne_nil
  · exact ho.accepted (hagrees.mpr hgood) v' (hg ▸ hg') hshare'
  · exact ho.refused (fun hgood => hbad (hagrees.mp hgood)) v' [] hshare'

theorem wpP_recvDataPcBytes (hsh : Feed sh (ack Cmd.dataPc) after) (hfits : FitsData g len body)
    {done todo : List UInt8}
    (hbody : body = done ++ todo) (htodo : todo ≠ []) (hg : v.g = (dataPc len body).bytes g done)
    (hshare : v.share = sh (todo ++ [h, l])) (hpat : v.patience ≤ patience)
    (ho : (dataPc len body).Outcome env patience g [h, l] ((dataPc len body).Agrees g h l)
      sh after Q) :
    wpP env t recvDataPcBytes Q v := by
  have hle : body.length ≤ 128 := hfits.length_le
  have hlen : body.length = max len.toNat 1 := hfits.length
  refine wpP_bind (wpP_recvBytesLoop hsh State.storeData ((dataPc len body).bytes g)
    (fun hq => hq) (fun _ => hfits.connected) hfits.connected ?_ ?_ hbody htodo hg hshare ?_ ?_)
  · intro done c todo hbody
    rw [hbody, List.length_append, List.length_cons] at hle
    have hdone : done.length < g.dataBuf.length := by
      rw [hfits.room, maxDataSize]
      omega
    have hcur : (done.length + 1) % 256 = (done ++ [c]).length := by
      rw [List.length_append, List.length_singleton]
      exact Nat.mod_eq_of_lt (by omega)
    simp only [dataPc, State.storeData, store_next c hdone, hcur]
  · intro done c todo hbody
    exact decide_eq_true_iff.trans (full_iff hlen hbody)
  · intro v' done todo hbody htodo hg' hknown hless hshare'
    have hstate : v'.g.processingCmdState = 1 := by rw [hg']; rfl
    refine wpP_get (wpP_ite (fun _ => ?_) fun hne => absurd hstate hne)
    refine ho.more v' (todo ++ [h, l]) 1 ?_ hknown
      (fun hcounted => Nat.lt_of_lt_of_le (hless hcounted) hpat) hshare'
    rw [hg']
    exact .bytes hbody htodo
  · intro v' hg' hle' hshare'
    have hsum : v'.g = (dataPc len body).sum g := by
      rw [hg']
      simp only [dataPc, UInt8.ofNat_toNat]
    have hstate : v'.g.processingCmdState = 2 := by rw [hsum]; rfl
    refine wpP_get (wpP_ite (fun heq => absurd (hstate.symm.trans heq) (by decide)) fun _ => ?_)
    exact wpP_recvDataPcChecksum hsh hfits hsum hshare' (Nat.le_trans hle' hpat) ho

/-- **`recv_cmd_data_pc` goes through the stages.** -/
theorem receives_dataPc (hfits : FitsData g len body) :
    (dataPc len body).Receives g [h, l] ((dataPc len body).Agrees g h l) where
  link := by
    intro g' todo need hstage
    cases hstage <;> exact ⟨rfl, rfl, rfl, rfl⟩
  done := ⟨rfl, rfl, rfl, rfl⟩
  recv := by
    intro env t sh after Q v todo need patience hsh hstage hshare hpat ho
    generalize hg : v.g = g' at hstage
    have hready : g'.dataReady = false := by
      cases hstage <;> exact hfits.ready
    refine wpP_get (wpP_ite (fun htrue => ?_) fun _ => ?_)
    · rw [hg, hready] at htrue
      exact absurd htrue (by decide)
    cases hstage with
    | head =>
      refine wpP_ite (fun _ => ?_) fun hne => absurd (hg ▸ hfits.start) hne
      refine wpP_bind (wpP_available fun n p _ hcost => wpP_ite (fun hzero => ?_) fun hpos => ?_)
      · refine ho.more _ _ _ ?_ (Nat.lt_one_iff.mpr hzero) (fun hcounted => ?_) hshare
        rotate_left
        · exact Nat.lt_of_lt_of_le (patience_lt hsh hshare (Nat.lt_one_iff.mpr hzero)
            (Nat.le_add_left 1 _) hcost hcounted) hpat
        rw [show v.g = g from hg]
        exact .head
      · refine wpP_bind (wpP_feed hsh (c := len) (Nat.pos_of_ne_zero hpos) hshare ?_)
        refine wpP_bind (wpP_modify (fun _ => hg ▸ hfits.connected) ?_)
        refine wpP_ite (fun hlt => absurd hfits.small (Nat.not_le_of_lt hlt)) fun _ => ?_
        refine wpP_bind (wpP_modify (fun _ => hg ▸ hfits.connected) ?_)
        refine wpP_recvDataPcBytes hsh hfits (List.nil_append body).symm hfits.ne_nil ?_ rfl
          (Nat.le_trans hcost.le hpat) ho
        simp only [dataPc, hg, List.length_nil, List.drop_zero, List.nil_append]
    | @bytes done todo hbody htodo =>
      have hstate : v.g.processingCmdState = 1 := by rw [hg]; rfl
      refine wpP_ite (fun heq => absurd (hstate.symm.trans heq) (by decide)) fun _ => ?_
      refine wpP_ite (fun _ => ?_) fun hne => absurd hstate hne
      exact wpP_recvDataPcBytes hsh hfits hbody htodo hg hshare hpat ho
    | sum _ =>
      have hstate : v.g.processingCmdState = 2 := by rw [hg]; rfl
      refine wpP_ite (fun heq => absurd (hstate.symm.trans heq) (by decide)) fun _ => ?_
      refine wpP_ite (fun heq => absurd (hstate.symm.trans heq) (by decide)) fun _ => ?_
      refine wpP_ite (fun _ => ?_) fun hne => absurd hstate hne
      exact wpP_recvDataPcChecksum hsh hfits hg hshare hpat ho

end Data

/-- A STREAM_PC packet the receiver has been given room for. -/
structure FitsStream (g : State) (l : UInt8) (body : List UInt8) : Prop where
  connected : g.connected = true
  start : g.processingCmdState = 0
  asked : g.streamMaxSize ≠ 0
  small : l.toNat ≤ g.streamMaxSize
  length : body.length = max l.toNat 1
  room : body.length ≤ g.streamBuf.length

section Stream

variable {g : State} {hh ll h l : UInt8} {body : List UInt8} {Q : Int → Play → Prop}

theorem FitsStream.ne_nil (hfits : FitsStream g ll body) : body ≠ [] := by
  intro hnil
  have hlen := hfits.length
  rw [hnil, List.length_nil] at hlen
  omega

theorem wpP_recvStreamPcChecksum (hsh : Feed sh (ack Cmd.streamPc) after)
    (hfits : FitsStream g ll body)
    (hg : v.g = (streamPc hh ll body).sum g)
    (hshare : v.share = sh [h, l]) (hle : v.patience ≤ patience)
    (ho : (streamPc hh ll body).Outcome env patience g [h, l] ((streamPc hh ll body).Agrees g h l)
      sh after Q) :
    wpP env t recvStreamPcChecksum Q v := by
  have hagrees : (streamPc hh ll body).Agrees g h l ↔
      be16 h l = v.g.streamRecv.checksumData := by
    rw [hg]
    exact Iff.rfl
  refine wpP_recvChecksum hsh ?_ hshare (fun v' hg' hknown hless hshare' => ?_)
    (fun hgood v' hg' hshare' => ?_) fun hbad v' _ hshare' => ?_
  · rw [hg]
    exact hfits.connected
  · refine ho.more v' [h, l] 2 ?_ hknown (fun hcounted => Nat.lt_of_lt_of_le (hless hcounted) hle)
      (hshare'.trans hshare)
    rw [hg', hg]
    exact .sum hfits.ne_nil
  · exact ho.accepted (hagrees.mpr hgood) v' (hg ▸ hg') hshare'
  · exact ho.refused (fun hgood => hbad (hagrees.mp hgood)) v' [] hshare'

theorem wpP_recvStreamPcBytes (hsh : Feed sh (ack Cmd.streamPc) after)
    (hfits : FitsStream g ll body) {done todo : List UInt8}
    (hbody : body = done ++ todo) (htodo : todo ≠ [])
    (hg : v.g = (streamPc hh ll body).bytes g done)
    (hshare : v.share = sh (todo ++ [h, l])) (hpat : v.patience ≤ patience)
    (ho : (streamPc hh ll body).Outcome env patience g [h, l] ((streamPc hh ll body).Agrees g h l)
      sh after Q) :
    wpP env t recvStreamPcBytes Q v := by
  have hlen : body.length = max ll.toNat 1 := hfits.length
  have hle : body.length ≤ 256 := by
    have hll : ll.toNat < 256 := ll.toNat_lt
    omega
  refine wpP_bind (wpP_recvBytesLoop hsh State.storeStream ((streamPc hh ll body).bytes g)
    (fun hq => hq) (fun _ => hfits.connected) hfits.connected ?_ ?_ hbody htodo hg hshare ?_ ?_)
  · intro done c todo hbody
    have hroom := hfits.room
    rw [hbody, List.length_append, List.length_cons] at hle hroom
    have hcur : (done.length + 1) % 65536 = (done ++ [c]).length := by
      rw [List.length_append, List.length_singleton]
      exact Nat.mod_eq_of_lt (by omega)
    have hdone : done.length < g.streamBuf.length := by omega
    simp only [streamPc, State.storeStream, store_next c hdone, hcur]
  · intro done c todo hbody
    exact decide_eq_true_iff.trans (full_iff hlen hbody)
  · intro v' done todo hbody htodo hg' hknown hless hshare'
    have hstate : v'.g.processingCmdState = 1 := by rw [hg']; rfl
    refine wpP_get (wpP_ite (fun _ => ?_) fun hne => absurd hstate hne)
    refine ho.more v' (todo ++ [h, l]) 1 ?_ hknown
      (fun hcounted => Nat.lt_of_lt_of_le (hless hcounted) hpat) hshare'
    rw [hg']
    exact .bytes hbody htodo
  · intro v' hg' hle' hshare'
    have hsum : v'.g = (streamPc hh ll body).sum g := hg'
    have hstate : v'.g.processingCmdState = 2 := by rw [hsum]; rfl
    refine wpP_get (wpP_ite (fun heq => absurd (hstate.symm.trans heq) (by decide)) fun _ => ?_)
    exact wpP_recvStreamPcChecksum hsh hfits hsum hshare' (Nat.le_trans hle' hpat) ho

/-- The length, once both bytes have arrived. -/
theorem wpP_recvStreamPcLen (hsh : Feed sh (ack Cmd.streamPc) after) {todo : List UInt8}
    (hup : v.g.connected = true)
    (hshare : v.share = sh (hh :: ll :: todo))
    (hmore : ∀ v', v'.g = v.g → v'.known < 2 → (env.counted = true → v'.patience < v.patience) →
      v'.share = v.share → Q 0 v')
    (hlong : v.g.streamMaxSize < ll.toNat → ∀ v',
      v'.share = sh todo → Q (-1) v')
    (hgo : ll.toNat ≤ v.g.streamMaxSize → ∀ v',
      v'.g = { v.g with processingCmdState := 1, streamSize := ll, streamCur := 0 } →
      v'.patience ≤ v.patience → v'.share = sh todo →
      wpP env t recvStreamPcBytes Q v') :
    wpP env t recvStreamPcLen Q v := by
  refine wpP_bind (wpP_available fun n p _ hcost => wpP_ite (fun hlt => ?_) fun hge => ?_)
  · exact hmore _ rfl hlt (patience_lt hsh hshare hlt (Nat.le_add_left 2 _) hcost) rfl
  · refine wpP_bind (wpP_feed hsh (c := hh) (by simp only; omega) hshare ?_)
    refine wpP_bind (wpP_modify (fun _ => hup) ?_)
    refine wpP_bind (wpP_feed hsh (c := ll) (by simp only; omega) rfl ?_)
    refine wpP_bind (wpP_modify (fun _ => hup) (wpP_get ?_))
    simp only [streamSize_eq]
    refine wpP_ite (fun hlt => hlong hlt _ rfl) fun hle => wpP_bind (wpP_modify (fun _ => hup) ?_)
    exact hgo (Nat.le_of_not_lt hle) _ rfl hcost.le rfl

/-- **`recv_cmd_stream_pc` goes through the stages.** -/
theorem receives_streamPc (hfits : FitsStream g ll body) :
    (streamPc hh ll body).Receives g [h, l] ((streamPc hh ll body).Agrees g h l) where
  link := by
    intro g' todo need hstage
    cases hstage <;> exact ⟨rfl, rfl, rfl, rfl⟩
  done := ⟨rfl, rfl, rfl, rfl⟩
  recv := by
    intro env t sh after Q v todo need patience hsh hstage hshare hpat ho
    generalize hg : v.g = g' at hstage
    have hasked : g'.streamMaxSize ≠ 0 := by
      cases hstage <;> exact hfits.asked
    refine wpP_get (wpP_ite (fun hzero => absurd (hg ▸ hzero) hasked) fun _ => ?_)
    cases hstage with
    | head =>
      refine wpP_ite (fun _ => ?_) fun hne => absurd (hg ▸ hfits.start) hne
      refine wpP_recvStreamPcLen hsh (hg ▸ hfits.connected) hshare
        (fun v' hg' hknown hless hshare' => ?_)
        (fun hlong => absurd hfits.small (Nat.not_le_of_lt (hg ▸ hlong)))
        fun _ v' hg' hle' hshare' => ?_
      · refine ho.more v' _ 2 ?_ hknown
          (fun hcounted => Nat.lt_of_lt_of_le (hless hcounted) hpat) (hshare'.trans hshare)
        rw [hg', hg]
        exact .head
      · refine wpP_recvStreamPcBytes hsh hfits (List.nil_append body).symm hfits.ne_nil ?_ hshare'
          (Nat.le_trans hle' hpat) ho
        rw [hg', hg]
        simp only [streamPc, List.length_nil, List.drop_zero, List.nil_append]
    | @bytes done todo hbody htodo =>
      have hstate : v.g.processingCmdState = 1 := by rw [hg]; rfl
      refine wpP_ite (fun heq => absurd (hstate.symm.trans heq) (by decide)) fun _ => ?_
      refine wpP_ite (fun _ => ?_) fun hne => absurd hstate hne
      exact wpP_recvStreamPcBytes hsh hfits hbody htodo hg hshare hpat ho
    | sum _ =>
      have hstate : v.g.processingCmdState = 2 := by rw [hg]; rfl
      refine wpP_ite (fun heq => absurd (hstate.symm.trans heq) (by decide)) fun _ => ?_
      refine wpP_ite (fun heq => absurd (hstate.symm.trans heq) (by decide)) fun _ => ?_
      refine wpP_ite (fun _ => ?_) fun hne => absurd hstate hne
      exact wpP_recvStreamPcChecksum hsh hfits hg hshare hpat ho

/-- A stream nobody has asked for, or too long a one, is refused at its head. -/
theorem refuses_streamPc {ck : List UInt8} (hup : g.connected = true)
    (hstart : g.processingCmdState = 0)
    (hno : g.streamMaxSize = 0 ∨ g.streamMaxSize < ll.toNat) :
    (streamPc hh ll []).Receives g ck False where
  link := by
    intro g' todo need hstage
    cases hstage <;> exact ⟨rfl, rfl, rfl, rfl⟩
  done := ⟨rfl, rfl, rfl, rfl⟩
  recv := by
    intro env t sh after Q v todo need patience hsh hstage hshare hpat ho
    generalize hg : v.g = g' at hstage
    cases hstage with
    | head =>
      refine wpP_get (wpP_ite (fun _ => ho.refused not_false v _ hshare) fun hasked => ?_)
      refine wpP_ite (fun _ => ?_) fun hne => absurd (hg ▸ hstart) hne
      refine wpP_recvStreamPcLen hsh (hg ▸ hup) hshare (fun v' hg' hknown hless hshare' => ?_)
        (fun _ v' hshare' => ho.refused not_false v' _ hshare') fun hle => ?_
      · refine ho.more v' _ 2 ?_ hknown
          (fun hcounted => Nat.lt_of_lt_of_le (hless hcounted) hpat) (hshare'.trans hshare)
        rw [hg', hg]
        exact .head
      · rcases hno with hzero | hlong
        · exact absurd (hg ▸ hzero) hasked
        · exact absurd (hg ▸ hle) (Nat.not_le_of_lt hlong)
    | @bytes done todo hbody htodo =>
      exact absurd (List.append_eq_nil_iff.mp hbody.symm).2 htodo
    | sum hne => exact absurd rfl hne

end Stream

/-! ## 5. A call of `gbridge_loop` -/

/-- The state when the command byte has been read. -/
def State.started (g : State) (cmd : UInt8) (since : UInt32) : State :=
  { g with processingCmd := cmd, processingCmdState := 0, processingCmdTime := since }

/-- Where the link stands between two calls of `gbridge_loop`. -/
inductive Intake.Phase (k : Intake) (g : State) (ck : List UInt8) :
    State → List UInt8 → Nat → Prop
  | idle : Phase k g ck g (k.cmd :: (k.head ++ (k.body ++ ck))) 1
  | under {since : UInt32} {g' : State} {todo : List UInt8} {need : Nat} :
    k.Stage (g.started k.cmd since) ck g' todo need → Phase k g ck g' todo need

/-- The frame comes in on an idle link, and this is the intake for it. -/
structure Intake.Serves (k : Intake) (g : State) (ck : List UInt8) (good : Prop) : Prop where
  idle : g.Idle
  cmd : k.cmd ≠ Cmd.none
  recvCmd : recvCmd k.cmd = k.recv
  receives : ∀ since, k.Receives (g.started k.cmd since) ck good

section Loop

variable {k : Intake} {g : State} {ck : List UInt8} {good : Prop} {Q : Unit → Play → Prop}

/-- What is to be shown of each way in which a call of `gbridge_loop` may come back. -/
structure Intake.LoopOutcome (k : Intake) (env : Env) (patience : Nat) (g : State)
    (ck : List UInt8) (good : Prop) (sh : List UInt8 → Share UInt8 Result)
    (after : Share UInt8 Result)
    (Q : Unit → Play → Prop) : Prop where
  more : ∀ v todo need, k.Phase g ck v.g todo need → v.known < need →
    (env.counted = true → v.patience < patience) → v.share = sh todo → Q () v
  accepted : good → ∀ v since,
    v.g = { k.accept (k.sum (g.started k.cmd since)) with processingCmd := Cmd.none } →
    v.share = after → Q () v
  reset : ¬ good → env.strict = false ∧ ∀ v todo, v.g.connected = false →
    v.g.dataReady = false → v.share = sh todo → Q () v

theorem wpP_processCmd (hsh : Feed sh (ack k.cmd) after) (hk : k.Serves g ck good)
    {since : UInt32} {todo : List UInt8} {need : Nat}
    (hstage : k.Stage (g.started k.cmd since) ck v.g todo need)
    (hshare : v.share = sh todo) (hpat : v.patience ≤ patience)
    (ho : k.LoopOutcome env patience g ck good sh after Q) : wpP env t processCmd Q v := by
  have hcmd : v.g.processingCmd = k.cmd := ((hk.receives since).link hstage).processingCmd
  have hdone := (hk.receives since).done.connected
  refine wpP_get ?_
  rw [hcmd, hk.recvCmd]
  refine wpP_bind ((hk.receives since).recv hsh hstage hshare hpat ⟨?_, ?_, ?_⟩)
  · intro v' todo' need' hstage' hknown hless hshare'
    exact ho.more v' todo' need' (.under hstage') hknown hless hshare'
  · intro hgood v' hg' hshare'
    refine wpP_modify (fun _ => ?_) (ho.accepted hgood _ since (by rw [hg']) hshare')
    show v'.g.connected = true
    rw [hg', hdone]
    exact hk.idle.connected
  · intro hbad v' todo' hshare'
    obtain ⟨hstrict, hreset⟩ := ho.reset hbad
    refine wpP_modify (fun h => ?_) (hreset _ todo' rfl rfl hshare')
    rw [hstrict] at h
    exact absurd h (by decide)

/-- **A call of `gbridge_loop` while a frame comes in.** -/
theorem wpP_gbridgeLoop_phase (hsh : Feed sh (ack k.cmd) after) (hk : k.Serves g ck good)
    {todo : List UInt8} {need : Nat}
    (hphase : k.Phase g ck v.g todo need)
    (hshare : v.share = sh todo)
    (hfresh : v.g.processingCmd ≠ Cmd.none → env.fresh v.g.processingCmdTime)
    (ho : k.LoopOutcome env v.patience g ck good sh after Q) : wpP env t gbridgeLoop Q v := by
  generalize hg : v.g = g' at hphase
  cases hphase with
  | idle =>
    obtain ⟨hup, hproc, hwait⟩ := hk.idle
    refine wpP_get (wpP_ite (fun _ => ?_) fun hdown => absurd (hg ▸ hup) hdown)
    refine wpP_get ?_
    rw [hg, hproc, hwait]
    refine wpP_get (wpP_ite (fun _ => ?_) fun hne => absurd (hg ▸ hproc) hne)
    refine wpP_bind (wpP_available fun n p _ hcost => wpP_ite (fun hzero => ?_) fun hpos => ?_)
    · refine ho.more _ _ 1 ?_ (Nat.lt_one_iff.mpr hzero)
        (patience_lt hsh hshare (Nat.lt_one_iff.mpr hzero) (Nat.le_add_left 1 _) hcost) hshare
      rw [show v.g = g from hg]
      exact .idle
    · refine wpP_bind (wpP_feed hsh (c := k.cmd) (Nat.pos_of_ne_zero hpos) hshare ?_)
      refine wpP_ite (fun h => absurd h hk.cmd) fun _ => wpP_get ?_
      refine wpP_ite (fun h => absurd (hg ▸ hwait) h) fun _ => ?_
      refine wpP_bind (wpP_timerGet fun now _ => wpP_bind (wpP_modify (fun _ => ?_) ?_))
      · show v.g.connected = true
        rw [hg, hup]
      · have hstage : k.Stage (g.started k.cmd now) ck (v.g.started k.cmd now)
            (k.head ++ (k.body ++ ck)) k.head.length := by
          rw [hg]
          exact .head
        exact wpP_processCmd hsh hk hstage rfl hcost.le ho
  | @under since _ _ _ hstage =>
    obtain ⟨hlup, hlproc, hltime, hlwait⟩ := (hk.receives since).link hstage
    have hup : g'.connected = true := hlup.trans hk.idle.connected
    have hproc : g'.processingCmd = k.cmd := hlproc
    have hwait : g'.waitingCmd = Cmd.none := hlwait.trans hk.idle.waiting
    have hbusy : g'.processingCmd ≠ Cmd.none := by
      rw [hproc]
      exact hk.cmd
    refine wpP_get (wpP_ite (fun _ => ?_) fun hdown => absurd (hg ▸ hup) hdown)
    refine wpP_get ?_
    rw [hg, hwait, timedOut, if_pos hbusy]
    refine wpP_bind (wpP_expired (hg ▸ hfresh (hg ▸ hbusy)) ?_)
    refine wpP_get (wpP_ite (fun h => absurd (hg ▸ h) hbusy) fun _ => ?_)
    exact wpP_processCmd hsh hk (hg ▸ hstage) hshare (Nat.le_refl _) ho

end Loop

end Receive

/-! ## 6. The two kinds of packet -/

section Serves

variable {g : State} {len hh ll h l : UInt8} {body ck : List UInt8}

/-- A DATA_PC packet is accepted if the sum of the bytes that count is right. -/
theorem serves_dataPc (hidle : g.Idle) (hready : g.dataReady = false)
    (hroom : g.dataBuf.length = maxDataSize) (hsmall : len.toNat ≤ maxDataSize)
    (hlen : body.length = max len.toNat 1) :
    (dataPc len body).Serves g [h, l] (be16 h l = sum16 0 (body.take len.toNat)) where
  idle := hidle
  cmd := show Cmd.dataPc ≠ Cmd.none by decide
  recvCmd := rfl
  receives since := by
    have hfits : FitsData (g.started Cmd.dataPc since) len body :=
      ⟨hidle.connected, hready, rfl, hsmall, hlen, hroom⟩
    have hle : len.toNat ≤ body.length := by
      rw [hlen]
      exact Nat.le_max_left _ _
    have hagrees : (dataPc len body).Agrees (g.started Cmd.dataPc since) h l ↔
        be16 h l = sum16 0 (body.take len.toNat) := by
      rw [← List.take_append_of_le_length hle]
      exact Iff.rfl
    exact propext hagrees ▸ receives_dataPc hfits

/-- A STREAM_PC packet that fits is accepted if the sum of the bytes that count is right. -/
theorem serves_streamPc (hidle : g.Idle) (hasked : g.streamMaxSize ≠ 0)
    (hsmall : ll.toNat ≤ g.streamMaxSize) (hlen : body.length = max ll.toNat 1)
    (hroom : body.length ≤ g.streamBuf.length) :
    (streamPc hh ll body).Serves g [h, l] (be16 h l = sum16 0 (body.take ll.toNat)) where
  idle := hidle
  cmd := show Cmd.streamPc ≠ Cmd.none by decide
  recvCmd := rfl
  receives since := by
    have hfits : FitsStream (g.started Cmd.streamPc since) ll body :=
      ⟨hidle.connected, rfl, hasked, hsmall, hlen, hroom⟩
    have hle : ll.toNat ≤ body.length := by
      rw [hlen]
      exact Nat.le_max_left _ _
    have hagrees : (streamPc hh ll body).Agrees (g.started Cmd.streamPc since) h l ↔
        be16 h l = sum16 0 (body.take ll.toNat) := by
      rw [← List.take_append_of_le_length hle]
      exact Iff.rfl
    exact propext hagrees ▸ receives_streamPc hfits

/-- A STREAM_PC packet nobody has asked for, or too long a one, is never accepted. -/
theorem serves_streamPc_refused (hidle : g.Idle)
    (hno : g.streamMaxSize = 0 ∨ g.streamMaxSize < ll.toNat) :
    (streamPc hh ll []).Serves g ck False where
  idle := hidle
  cmd := show Cmd.streamPc ≠ Cmd.none by decide
  recvCmd := rfl
  receives _ := refuses_streamPc hidle.connected rfl hno

end Serves

end GBridge.Atmega

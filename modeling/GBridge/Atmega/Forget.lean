/-
# What `gbridge_init` forgets

A reset does not write all the variables of `gbridge.c`: ten of them keep what they held (`Stale`).
None is read again before it is written, so whatever two adapters have been through, after
`gbridge_init` they answer the same to the same bytes (`init_forgets`).

`State.Admits` says of each of the ten from when on it matters again: the index and the bytes of a
packet from the stage on in which they are stored, the time at which a command began while it is
under way, and so on.  Until then the two adapters may differ in it.  The sum of a stream that is
sent matters inside a call only (`Summing`).

The two runs are taken in lockstep (`Lib.Lockstep`), because neither need end: a call may wait for
an acknowledgement that never comes.  Each function of `gbridge.c` is walked through once, with both
programs at the same command:

* where it does not look at the ten, the walk is `hides_get` and `hides_modify`;
* in the receivers the stage that is under way decides which of the ten are live
  (`locked_recvDataPcBytes` and the like);
* `gbridge_init` may run again at any point, and all ten are dead after it (`hides_gbridgeInit`);
  whatever takes the link down goes through it (`down_reset`).

The client that makes the calls is any program, which may choose each call by what the ones before
have returned (`Api`).
-/
import GBridge.Lib.Lockstep
import GBridge.Atmega.Count
import GBridge.Atmega.Send
import GBridge.Atmega.Arrivals

namespace GBridge.Atmega

open Prog Bytes

/-! ## 1. What stays behind -/

/-- The variables that `gbridge_init` does not write. -/
structure Stale where
  processingCmdState : Nat
  processingCmdTime : UInt32
  waitingCmdTime : UInt32
  dataBuf : List UInt8
  dataLen : Nat
  dataCur : Nat
  streamBuf : List UInt8
  streamSize : UInt8
  streamCur : Nat
  streamChecksum : Nat

def State.stale (g : State) : Stale where
  processingCmdState := g.processingCmdState
  processingCmdTime := g.processingCmdTime
  waitingCmdTime := g.waitingCmdTime
  dataBuf := g.dataBuf
  dataLen := g.dataLen
  dataCur := g.dataCur
  streamBuf := g.streamBuf
  streamSize := g.streamSize
  streamCur := g.streamCur
  streamChecksum := g.streamChecksum

def State.withStale (g : State) (s : Stale) : State :=
  { g with
    processingCmdState := s.processingCmdState, processingCmdTime := s.processingCmdTime,
    waitingCmdTime := s.waitingCmdTime, dataBuf := s.dataBuf, dataLen := s.dataLen,
    dataCur := s.dataCur, streamBuf := s.streamBuf, streamSize := s.streamSize,
    streamCur := s.streamCur, streamChecksum := s.streamChecksum }

/-- In place of these variables there might be others, for all that they still matter. -/
structure State.Admits (g : State) (s : Stale) : Prop where
  length : s.dataBuf.length = g.dataBuf.length
  state : g.processingCmd ≠ Cmd.none → s.processingCmdState = g.processingCmdState
  since : g.processingCmd ≠ Cmd.none → s.processingCmdTime = g.processingCmdTime
  waiting : g.waitingCmd ≠ Cmd.none → s.waitingCmdTime = g.waitingCmdTime
  ready : g.dataReady = true →
    s.dataBuf.take g.dataSize.toNat = g.dataBuf.take g.dataSize.toNat
  stored : g.processingCmd = Cmd.dataPc → g.processingCmdState = 1 →
    s.dataLen = g.dataLen ∧ s.dataCur = g.dataCur ∧
      s.dataBuf.take g.dataCur = g.dataBuf.take g.dataCur
  summed : g.processingCmd = Cmd.dataPc → g.processingCmdState = 2 →
    s.dataBuf.take g.dataSize.toNat = g.dataBuf.take g.dataSize.toNat
  armed : g.streamMaxSize ≠ 0 →
    s.streamBuf = g.streamBuf ∧ s.streamSize = g.streamSize ∧ s.streamCur = g.streamCur

/-! ## 2. What shows of a run -/

/-- What the adapter puts out: a byte on the line, or one into a stream buffer. -/
inductive Out where
  | sent (c : UInt8)
  | stored (i : Nat) (c : UInt8)
deriving DecidableEq

/-- A run, and what it has put out, oldest first. -/
structure Seen where
  live : Live
  log : List Out := []

/-- What an operation puts out. -/
def Op.put : {β : Type} → Op β → List Out → List Out
  | _, .putchar c, log => log ++ [.sent c]
  | _, .storeStream i c, log => log ++ [.stored i c]
  | _, _, log => log

/-- What an operation answers and does, and what is seen of it. -/
def seenAnswer (env : Surroundings) (β : Type) (e : Op β) (w : Seen) : β × Seen :=
  ((liveAnswer env e w.live).1, { live := (liveAnswer env e w.live).2, log := e.put w.log })

/-- The same has been put out, and `gbridge_connected` says the same. -/
def Seen.Shows (w v : Seen) : Prop :=
  w.log = v.log ∧ w.live.g.connected = v.live.g.connected

def Seen.withG (w : Seen) (g : State) : Seen := { w with live := { w.live with g } }

/-- The worlds differ in what is stale, and `P` holds of the variables. -/
def SameIn (P : State → Stale → Prop) (w v : Seen) : Prop :=
  ∃ s, v = w.withG (w.live.g.withStale s) ∧ w.live.g.Admits s ∧ P w.live.g s

/-- The worlds differ in what is stale. -/
abbrev Same : Seen → Seen → Prop := SameIn fun _ _ => True

/-- Two runs side by side. -/
abbrev Locked (env : Surroundings) {α : Type} (p q : Code α) (Q : α → α → Seen → Seen → Prop)
    (w v : Seen) : Prop :=
  Lock (seenAnswer env) Seen.Shows p q Q w v

/-- The code shows nothing of what is stale. -/
abbrev Hides (env : Surroundings) {α : Type} (p : Code α) : Prop :=
  InStep (seenAnswer env) Seen.Shows Same p

section Rules

variable {env : Surroundings} {P P' : State → Stale → Prop} {w v : Seen} {α β : Type}

theorem SameIn.mono (h : SameIn P w v) (hP : ∀ g s, P g s → P' g s) : SameIn P' w v := by
  obtain ⟨s, hv, hs, hp⟩ := h
  exact ⟨s, hv, hs, hP _ s hp⟩

theorem SameIn.same (h : SameIn P w v) : Same w v := h.mono fun _ _ _ => trivial

theorem SameIn.shows (h : SameIn P w v) : w.Shows v := by
  obtain ⟨s, rfl, -⟩ := h
  exact ⟨rfl, rfl⟩

theorem SameIn.of (hv : v = w.withG (w.live.g.withStale v.live.g.stale))
    (hs : w.live.g.Admits v.live.g.stale) (hp : P w.live.g v.live.g.stale) : SameIn P w v :=
  ⟨v.live.g.stale, hv, hs, hp⟩

theorem locked_get {k l : State → Code α} {Q : α → α → Seen → Seen → Prop} (hs : w.Shows v)
    (h : Locked env (k w.live.g) (l v.live.g) Q w v) :
    Locked env (get.bind k) (get.bind l) Q w v := lock_op hs h

theorem locked_modify {f f' : State → State} {Q : Unit → Unit → Seen → Seen → Prop}
    (hs : w.Shows v) (hup : (f w.live.g).connected = (f' v.live.g).connected)
    (h : Q () () (w.withG (f w.live.g)) (v.withG (f' v.live.g))) :
    Locked env (modify f) (modify f') Q w v :=
  locked_get hs (lock_op ⟨hs.1, hup⟩ (lock_ret h))

/-- Nothing stale shows in an operation that leaves the variables alone. -/
theorem hides_cmd {e : Op β}
    (h : ∀ (w : Live) s,
      (liveAnswer env e { w with g := w.g.withStale s }).1 = (liveAnswer env e w).1 ∧
      (liveAnswer env e { w with g := w.g.withStale s }).2 =
        { (liveAnswer env e w).2 with g := w.g.withStale s } ∧ (liveAnswer env e w).2.g = w.g) :
    InStep (seenAnswer env) Seen.Shows (SameIn P) (cmd e) := by
  apply InStep.cmd
  rintro w _ ⟨s, rfl, hs, hp⟩
  obtain ⟨hans, hworld, hg⟩ := h w.live s
  have hsame : SameIn P (seenAnswer env _ e w).2
      (seenAnswer env _ e (w.withG (w.live.g.withStale s))).2 := by
    refine ⟨s, ?_, ?_, ?_⟩
    · have hsame : { (liveAnswer env e w.live).2 with g := w.live.g.withStale s } =
          { (liveAnswer env e w.live).2 with
            g := (liveAnswer env e w.live).2.g.withStale s } := by rw [hg]
      exact congrArg (fun l => Seen.mk l (e.put w.log)) (hworld.trans hsame)
    · show (liveAnswer env e w.live).2.g.Admits s
      rwa [hg]
    · show P (liveAnswer env e w.live).2.g s
      rwa [hg]
  exact ⟨hsame.shows, hans.symm, hsame⟩

theorem hides_available : InStep (seenAnswer env) Seen.Shows (SameIn P) serialAvailable :=
  hides_cmd fun _ _ => ⟨rfl, rfl, rfl⟩

theorem hides_getchar : InStep (seenAnswer env) Seen.Shows (SameIn P) serialGetchar := by
  refine hides_cmd fun w s => ?_
  obtain ⟨g, rx⟩ := w
  cases rx <;> exact ⟨rfl, rfl, rfl⟩

theorem hides_putchar (c : UInt8) :
    InStep (seenAnswer env) Seen.Shows (SameIn P) (serialPutchar c) :=
  hides_cmd fun _ _ => ⟨rfl, rfl, rfl⟩

theorem hides_putchars (cs : List UInt8) :
    InStep (seenAnswer env) Seen.Shows (SameIn P) (serialPutchars cs) := by
  induction cs with
  | nil => exact .ret ()
  | cons c cs ih => exact .bind (hides_putchar c) fun _ => ih

theorem hides_timerGet : InStep (seenAnswer env) Seen.Shows (SameIn P) timerGet :=
  hides_cmd fun _ _ => ⟨rfl, rfl, rfl⟩

/-- The time a command was begun at is asked for only while there is one. -/
theorem locked_timedOut {cmd : UInt8} {since since' : UInt32}
    (hsince : cmd ≠ Cmd.none → since' = since) (h : SameIn P w v) :
    Locked env (timedOut cmd since) (timedOut cmd since')
      (fun a b w' v' => a = b ∧ SameIn P w' v') w v := by
  refine lock_ite Iff.rfl (fun hne => ?_) fun _ => lock_ret ⟨rfl, h⟩
  rw [hsince hne]
  exact hides_cmd (fun _ _ => ⟨rfl, rfl, rfl⟩) w v h

/-- What goes on independently of what is stale. -/
theorem hides_get {k : State → Code α} (hk : ∀ g s, k (g.withStale s) = k g)
    (h : ∀ g, Hides env (k g)) : Hides env (get.bind k) := by
  intro w v hsame
  refine locked_get hsame.shows ?_
  obtain ⟨s, rfl, -⟩ := id hsame
  show Locked env (k w.live.g) (k (w.live.g.withStale s)) _ _ _
  rw [hk]
  exact h _ _ _ hsame

/-- A function that writes the same to the other variables in both. -/
theorem hides_modify {f : State → State}
    (hf : ∀ g s, f (g.withStale s) = (f g).withStale (f (g.withStale s)).stale)
    (hadmits : ∀ g s, g.Admits s → (f g).Admits (f (g.withStale s)).stale) :
    Hides env (modify f) := by
  rintro w _ ⟨s, rfl, hs, -⟩
  refine locked_modify ⟨rfl, rfl⟩ (congrArg State.connected (hf w.live.g s)).symm ⟨rfl, ?_⟩
  exact ⟨_, congrArg w.withG (hf w.live.g s), hadmits _ _ hs, trivial⟩

/-! ## 3. The receivers -/

theorem hides_gbridgeInit : Hides env gbridgeInit :=
  hides_modify (fun _ _ => rfl) fun _ _ h =>
    { length := h.length
      state := fun hne => absurd rfl hne
      since := fun hne => absurd rfl hne
      waiting := fun hne => absurd rfl hne
      ready := fun hready => absurd hready Bool.false_ne_true
      stored := fun hcmd => absurd hcmd none_ne_dataPc
      summed := fun hcmd => absurd hcmd none_ne_dataPc
      armed := fun hne => absurd rfl hne }

/-- A function that writes none of the variables that `State.Admits` speaks of. -/
theorem hides_modify_other {f : State → State}
    (hf : ∀ g s, f (g.withStale s) = (f g).withStale s)
    (hother : ∀ g s, (f g).Admits s ↔ g.Admits s) : Hides env (modify f) := by
  have hstale : ∀ (g : State) s, (f (g.withStale s)).stale = s :=
    fun g s => congrArg State.stale (hf g s)
  apply hides_modify
  · intro g s
    rw [hstale]
    exact hf g s
  · intro g s hs
    rw [hstale]
    exact (hother g s).mpr hs

theorem hides_doHandshake : Hides env doHandshake := by
  have hprogress : ∀ n : State → Nat, (∀ (g : State) s, n (g.withStale s) = n g) →
      Hides env (modify fun g : State => { g with handshakeProgress := n g }) := by
    intro n hn
    refine hides_modify_other (fun g s => ?_) fun g s => ⟨fun h => ?_, fun h => ?_⟩
    · rw [hn]
      rfl
    · exact ⟨h.1, h.2, h.3, h.4, h.5, h.6, h.7, h.8⟩
    · exact ⟨h.1, h.2, h.3, h.4, h.5, h.6, h.7, h.8⟩
  refine .bind hides_available fun n => .ite (.ret false) ?_
  refine .bind hides_getchar fun c => hides_get (fun _ _ => rfl) fun g => .ite ?_ ?_
  · exact .bind (hprogress _ fun _ _ => rfl) fun _ => .ret false
  refine .bind (hprogress _ fun _ _ => rfl) fun _ => ?_
  refine hides_get (fun _ _ => rfl) fun g => .ite (.ret false) ?_
  exact .bind (hprogress _ fun _ _ => rfl) fun _ => .bind (hides_putchars _) fun _ => .ret true

theorem hides_recvCmdReset : Hides env recvCmdReset :=
  .bind hides_gbridgeInit fun _ => .bind (hides_putchar _) fun _ => .ret 1

/-- The checksum, if what is summed is not stale. -/
theorem locked_recvChecksum {data : State → GbridgeData} {cmd : UInt8} {accept : State → State}
    (hdata : ∀ g s, P g s → g.Admits s →
      (data (g.withStale s)).checksumData = (data g).checksumData)
    (haccept : ∀ g s, accept (g.withStale s) =
      (accept g).withStale (accept (g.withStale s)).stale)
    (hadmits : ∀ g s, P g s → g.Admits s → (accept g).Admits (accept (g.withStale s)).stale)
    (h : SameIn P w v) :
    Locked env (recvChecksum data cmd accept) (recvChecksum data cmd accept)
      (fun a b w' v' => a = b ∧ Same w' v') w v := by
  refine lock_seq _ (hides_available w v h) ?_
  rintro n _ w v ⟨rfl, h⟩
  refine lock_ite Iff.rfl (fun _ => lock_ret ⟨rfl, h.same⟩) fun _ => ?_
  refine lock_seq _ (hides_getchar w v h) ?_
  rintro c _ w v ⟨rfl, h⟩
  refine lock_seq _ (hides_getchar w v h) ?_
  rintro l _ w v ⟨rfl, h⟩
  obtain ⟨s, rfl, hs, hp⟩ := id h
  have hsum : be16 c l ≠ (data w.live.g).checksumData ↔
      be16 c l ≠ (data (w.live.g.withStale s)).checksumData := by rw [hdata _ s hp hs]
  refine locked_get h.shows (lock_ite hsum (fun _ => lock_ret ⟨rfl, h.same⟩) fun _ => ?_)
  refine lock_seq _ (hides_putchar _ w _ h) ?_
  rintro _ _ w _ ⟨-, s, rfl, hs, hp⟩
  refine lock_bind (locked_modify ⟨rfl, rfl⟩ ?_ (lock_ret ⟨rfl, _, ?_, hadmits _ s hp hs, trivial⟩))
  · exact (congrArg State.connected (haccept w.live.g s)).symm
  · exact congrArg w.withG (haccept w.live.g s)

/-- What is stored, and where, is not stale. -/
theorem locked_recvBytesLoop {store : Nat → UInt8 → Op Unit} {cur : State → Nat}
    {advance : State → State} {full : State → Bool} {finish : State → State}
    (hup : ∀ g, (advance g).connected = g.connected)
    (hstore : ∀ (c : UInt8) (w v w' v' : Seen), SameIn P w v →
      w' = (seenAnswer env Unit (store (cur w.live.g) c) w).2 →
      v' = (seenAnswer env Unit (store (cur v.live.g) c) v).2 →
      SameIn P (w'.withG (advance w'.live.g)) (v'.withG (advance v'.live.g)))
    (hfull : ∀ g s, P g s → g.Admits s → full (g.withStale s) = full g)
    (hfinish : ∀ g s, P g s → g.Admits s → full g = true →
      finish (g.withStale s) = (finish g).withStale (finish (g.withStale s)).stale ∧
        (finish g).Admits (finish (g.withStale s)).stale ∧
        P' (finish g) (finish (g.withStale s)).stale) (h : SameIn P w v) :
    Locked env (recvBytesLoop store cur advance full finish)
      (recvBytesLoop store cur advance full finish)
      (fun _ _ w' v' => SameIn (fun g s => P g s ∨ P' g s) w' v') w v := by
  have hleft : ∀ {w v : Seen}, SameIn P w v → SameIn (fun g s => P g s ∨ P' g s) w v :=
    fun h => h.mono fun _ _ => Or.inl
  refine lock_loop (SameIn P) (SameIn fun g s => P g s ∨ P' g s) h (fun w v h => ?_)
    fun w v h => lock_ret h
  refine lock_seq _ (hides_available w v h) ?_
  rintro n _ w v ⟨rfl, h⟩
  refine lock_ite Iff.rfl (fun _ => lock_ret ⟨rfl, hleft h⟩) fun _ => ?_
  refine lock_seq _ (hides_getchar w v h) ?_
  rintro c _ w v ⟨rfl, h⟩
  refine locked_get h.shows ?_
  have hnext := hstore c w v _ _ h rfl rfl
  have hput : Seen.Shows (seenAnswer env Unit (store (cur w.live.g) c) w).2
      (seenAnswer env Unit (store (cur v.live.g) c) v).2 :=
    ⟨hnext.shows.1, (hup _).symm.trans (hnext.shows.2.trans (hup _))⟩
  refine lock_bind (lock_op hput (lock_ret ?_))
  refine lock_bind (locked_modify hput hnext.shows.2 ?_)
  obtain ⟨s, hv, hs, hp⟩ := id hnext
  refine locked_get hnext.shows ?_
  rw [hv]
  generalize (seenAnswer env Unit (store (cur w.live.g) c) w).2.withG _ = w at hs hp
  refine lock_ite (by rw [← hfull _ s hp hs]; rfl) (fun hend => ?_) fun _ => ?_
  · obtain ⟨hf, hs', hp'⟩ := hfinish _ s hp hs hend
    refine lock_bind (locked_modify ⟨rfl, rfl⟩ (congrArg State.connected hf).symm (lock_ret ?_))
    exact ⟨rfl, _, congrArg w.withG hf, hs', Or.inr hp'⟩
  · have hsame : SameIn P w (w.withG (w.live.g.withStale s)) := ⟨s, rfl, hs, hp⟩
    exact lock_ret ⟨rfl, hsame⟩

/-- `case 2` of `recv_cmd_data_pc`: what is summed has been stored since the command began. -/
theorem locked_recvDataPcChecksum (h : SameIn (fun g _ => InData 2 g) w v) :
    Locked env recvDataPcChecksum recvDataPcChecksum (fun a b w' v' => a = b ∧ Same w' v') w v := by
  refine locked_recvChecksum (fun g s hp hs => ?_) (fun _ _ => rfl) (fun g s hp hs => ?_) h
  · exact congrArg (sum16 0) (hs.summed hp.1 hp.2)
  · exact { hs with ready := fun _ => hs.summed hp.1 hp.2 }

/-- A byte of a DATA_PC packet is stored in both buffers, at the same place. -/
theorem State.Admits.putData {g : State} {s : Stale} (h : g.Admits s) (hp : InData 1 g)
    (c : UInt8) : (Line.putData g c).Admits (Line.putData (g.withStale s) c).stale := by
  obtain ⟨hlen, hcur, htake⟩ := h.stored hp.1 hp.2
  obtain ⟨state, since, waiting, buf, len, cur, sbuf, ssize, scur, sum⟩ := s
  obtain rfl : cur = g.dataCur := hcur
  constructor
  · change (buf.set g.dataCur c).length = (g.dataBuf.set g.dataCur c).length
    rw [List.length_set, List.length_set]
    exact h.length
  · exact h.state
  · exact h.since
  · exact h.waiting
  · exact fun hready => take_set_of_take _ c (h.ready hready)
  · exact fun _ _ => ⟨hlen, rfl, take_of_le (Nat.mod_le _ _) (take_set_succ h.length c htake)⟩
  · exact fun hcmd hstate => take_set_of_take _ c (h.summed hcmd hstate)
  · exact h.armed

theorem State.Admits.fullData {g : State} {s : Stale} (h : g.Admits s) (hp : InData 1 g) :
    Line.fullData (g.withStale s) = Line.fullData g := by
  obtain ⟨hlen, hcur, -⟩ := h.stored hp.1 hp.2
  change decide (s.dataLen ≤ s.dataCur) = decide (g.dataLen ≤ g.dataCur)
  rw [hlen, hcur]

/-- Where all of a DATA_PC packet is stored, the buffers agree on all that its checksum covers. -/
theorem State.Admits.finishData {g : State} {s : Stale} (h : g.Admits s) (hp : InData 1 g)
    (hfull : Line.fullData g = true) :
    Line.finishData (g.withStale s) =
        (Line.finishData g).withStale (Line.finishData (g.withStale s)).stale ∧
      (Line.finishData g).Admits (Line.finishData (g.withStale s)).stale := by
  obtain ⟨hlen, -, htake⟩ := h.stored hp.1 hp.2
  have hle : (UInt8.ofNat g.dataLen).toNat ≤ g.dataCur := by
    rw [UInt8.toNat_ofNat']
    exact Nat.le_trans (Nat.mod_le _ _) (of_decide_eq_true hfull)
  have hsummed := take_of_le hle htake
  constructor
  · simp only [Line.finishData, State.withStale, State.stale, hlen]
  · exact { h with
      state := fun _ => rfl
      ready := fun _ => hsummed
      stored := fun _ hstate => absurd hstate (Nat.succ_ne_self 1)
      summed := fun _ _ => hsummed }

theorem locked_recvDataPcBytes (h : SameIn (fun g _ => InData 1 g) w v) :
    Locked env recvDataPcBytes recvDataPcBytes (fun a b w' v' => a = b ∧ Same w' v') w v := by
  refine lock_seq (fun _ _ => SameIn fun g _ => InData 1 g ∨ InData 2 g)
    (locked_recvBytesLoop (fun _ => rfl) ?_ (fun _ _ hp hs => hs.fullData hp) ?_ h) ?_
  · rintro c w _ _ _ ⟨s, rfl, hs, hp⟩ rfl rfl
    -- the fault flag of a store depends on the place, and that is the same in both
    have hcur : s.dataCur = w.live.g.dataCur := (hs.stored hp.1 hp.2).2.1
    obtain ⟨state, since, waiting, buf, len, cur, sbuf, ssize, scur, sum⟩ := s
    obtain rfl : cur = w.live.g.dataCur := hcur
    exact .of rfl (hs.putData hp c) hp
  · intro g s hp hs hfull
    obtain ⟨hsame, hadmits⟩ := hs.finishData hp hfull
    exact ⟨hsame, hadmits, hp.1, rfl⟩
  · rintro _ _ w v h
    obtain ⟨s, rfl, hs, hp⟩ := id h
    have hstate : s.processingCmdState = w.live.g.processingCmdState := hs.state (by
      rcases hp with hp | hp <;> rw [hp.1] <;> decide)
    refine locked_get h.shows (lock_ite (by rw [← hstate]; rfl) (fun _ => lock_ret ⟨rfl, h.same⟩)
      fun hne => ?_)
    exact locked_recvDataPcChecksum ⟨s, rfl, hs, hp.resolve_left fun hp => hne hp.2⟩

theorem locked_recvDataPcLen (h : SameIn (fun g _ => InData 0 g) w v) :
    Locked env recvDataPcLen recvDataPcLen (fun a b w' v' => a = b ∧ Same w' v') w v := by
  refine lock_seq _ (hides_available w v h) ?_
  rintro n _ w v ⟨rfl, h⟩
  refine lock_ite Iff.rfl (fun _ => lock_ret ⟨rfl, h.same⟩) fun _ => ?_
  refine lock_seq _ (hides_getchar w v h) ?_
  rintro c _ w _ ⟨rfl, s, rfl, hs, hp⟩
  have hzero : ∀ {β : Prop} {n : Nat}, w.live.g.processingCmdState = n + 1 → β :=
    fun hstate => absurd (hp.2.symm.trans hstate) (Nat.succ_ne_zero _).symm
  refine lock_bind (locked_modify ⟨rfl, rfl⟩ rfl (lock_ite Iff.rfl (fun _ => lock_ret ?_)
    fun _ => ?_))
  · exact ⟨rfl, .of rfl { hs with stored := fun _ hstate => hzero hstate } trivial⟩
  · refine lock_bind (locked_modify ⟨rfl, rfl⟩ rfl ?_)
    refine locked_recvDataPcBytes (.of rfl ?_ ⟨hp.1, rfl⟩)
    exact { hs with
      state := fun _ => rfl
      stored := fun _ _ => ⟨rfl, rfl, rfl⟩
      summed := fun _ hstate => absurd hstate.symm (Nat.succ_ne_self 1) }

theorem locked_recvCmdDataPc (h : SameIn (fun g _ => g.processingCmd = Cmd.dataPc) w v) :
    Locked env recvCmdDataPc recvCmdDataPc (fun a b w' v' => a = b ∧ Same w' v') w v := by
  obtain ⟨s, rfl, hs, hp⟩ := id h
  have hstate : s.processingCmdState = w.live.g.processingCmdState :=
    hs.state (by rw [hp]; exact none_ne_dataPc.symm)
  have hin : ∀ n : Nat, w.live.g.processingCmdState = n ↔
      (w.withG (w.live.g.withStale s)).live.g.processingCmdState = n := by
    intro n
    rw [← hstate]
    rfl
  refine locked_get h.shows (lock_ite Iff.rfl (fun _ => lock_ret ⟨rfl, h.same⟩) fun _ => ?_)
  refine lock_ite (hin 0) (fun h0 => locked_recvDataPcLen ⟨s, rfl, hs, hp, h0⟩) fun _ => ?_
  refine lock_ite (hin 1) (fun h1 => locked_recvDataPcBytes ⟨s, rfl, hs, hp, h1⟩) fun _ => ?_
  refine lock_ite (hin 2) (fun h2 => locked_recvDataPcChecksum ⟨s, rfl, hs, hp, h2⟩) fun _ => ?_
  exact lock_ret ⟨rfl, h.same⟩

/-- A STREAM_PC packet is received into a buffer. -/
def InStream (g : State) : Prop := g.processingCmd = Cmd.streamPc ∧ g.streamMaxSize ≠ 0

theorem InStream.not_data {g : State} {β : Prop} (h : InStream g)
    (hcmd : g.processingCmd = Cmd.dataPc) : β :=
  absurd (h.1.symm.trans hcmd) streamPc_ne_dataPc

theorem InStream.state {g : State} {s : Stale} (h : InStream g) (hs : g.Admits s) :
    s.processingCmdState = g.processingCmdState :=
  hs.state (by rw [h.1]; decide)

/-- `case 2` of `recv_cmd_stream_pc`. -/
theorem locked_recvStreamPcChecksum (h : SameIn (fun g _ => InStream g) w v) :
    Locked env recvStreamPcChecksum recvStreamPcChecksum (fun a b w' v' => a = b ∧ Same w' v') w
      v := by
  refine locked_recvChecksum (fun g s hp hs => ?_) (fun _ _ => rfl) (fun g s hp hs => ?_) h
  · obtain ⟨hbuf, hsize, -⟩ := hs.armed hp.2
    show GbridgeData.checksumData ⟨s.streamSize, s.streamBuf⟩ = _
    rw [hbuf, hsize]
    rfl
  · exact { hs with armed := fun hne => absurd rfl hne }

theorem locked_recvStreamPcBytes (h : SameIn (fun g _ => InStream g) w v) :
    Locked env recvStreamPcBytes recvStreamPcBytes (fun a b w' v' => a = b ∧ Same w' v') w v := by
  refine lock_seq (fun _ _ => SameIn fun g _ => InStream g ∨ InStream g)
    (locked_recvBytesLoop (fun _ => rfl) ?_ ?_ ?_ h) ?_
  · rintro c w _ _ _ ⟨s, rfl, hs, hp⟩ rfl rfl
    obtain ⟨hbuf, hsize, hcur⟩ := hs.armed hp.2
    obtain ⟨state, since, waiting, buf, len, cur, sbuf, ssize, scur, sum⟩ := s
    obtain rfl : sbuf = w.live.g.streamBuf := hbuf
    obtain rfl : scur = w.live.g.streamCur := hcur
    refine .of rfl ?_ hp
    exact { hs with armed := fun _ => ⟨rfl, hsize, rfl⟩ }
  · intro g s hp hs
    obtain ⟨-, hsize, hcur⟩ := hs.armed hp.2
    show decide (s.streamSize.toNat ≤ s.streamCur) = decide (g.streamSize.toNat ≤ g.streamCur)
    rw [hsize, hcur]
  · intro g s hp hs _
    exact ⟨rfl, { hs with
      state := fun _ => rfl
      stored := fun hcmd => hp.not_data hcmd
      summed := fun hcmd => hp.not_data hcmd }, hp⟩
  · rintro _ _ w v h
    obtain ⟨s, rfl, hs, hp⟩ := id h
    have hp : InStream w.live.g := hp.elim id id
    have hstate := hp.state hs
    refine locked_get h.shows (lock_ite (by rw [← hstate]; rfl) (fun _ => lock_ret ⟨rfl, h.same⟩)
      fun hne => ?_)
    exact locked_recvStreamPcChecksum ⟨s, rfl, hs, hp⟩

theorem locked_recvStreamPcLen (h : SameIn (fun g _ => InStream g) w v) :
    Locked env recvStreamPcLen recvStreamPcLen (fun a b w' v' => a = b ∧ Same w' v') w v := by
  refine lock_seq _ (hides_available w v h) ?_
  rintro n _ w v ⟨rfl, h⟩
  refine lock_ite Iff.rfl (fun _ => lock_ret ⟨rfl, h.same⟩) fun _ => ?_
  refine lock_seq _ (hides_getchar w v h) ?_
  rintro c _ w _ ⟨rfl, s, rfl, hs, hp⟩
  have hhigh : SameIn (fun g _ => InStream g)
      (w.withG { w.live.g with streamSize := UInt8.ofNat (c.toNat <<< 8) })
      (w.withG { w.live.g.withStale s with streamSize := UInt8.ofNat (c.toNat <<< 8) }) :=
    .of rfl { hs with armed := fun hne => ⟨(hs.armed hne).1, rfl, (hs.armed hne).2.2⟩ } hp
  refine lock_bind (locked_modify ⟨rfl, rfl⟩ rfl (lock_seq _ (hides_getchar _ _ hhigh) ?_))
  rintro l _ w _ ⟨rfl, s, rfl, hs, hp⟩
  obtain ⟨hbuf, hsize, hcur⟩ := hs.armed hp.2
  obtain ⟨state, since, waiting, buf, len, cur, sbuf, ssize, scur, sum⟩ := s
  obtain rfl : ssize = w.live.g.streamSize := hsize
  have hlow : SameIn (fun g _ => InStream g)
      (w.withG { w.live.g with streamSize := w.live.g.streamSize ||| l })
      (w.withG { w.live.g.withStale ⟨state, since, waiting, buf, len, cur, sbuf,
        w.live.g.streamSize, scur, sum⟩ with streamSize := w.live.g.streamSize ||| l }) :=
    .of rfl { hs with armed := fun _ => ⟨hbuf, rfl, hcur⟩ } hp
  refine lock_bind (locked_modify ⟨rfl, rfl⟩ rfl (locked_get ⟨rfl, rfl⟩ (lock_ite Iff.rfl
    (fun _ => lock_ret ⟨rfl, hlow.same⟩) fun _ => ?_)))
  refine lock_bind (locked_modify ⟨rfl, rfl⟩ rfl (locked_recvStreamPcBytes (.of rfl ?_ hp)))
  exact { hs with
    state := fun _ => rfl
    stored := fun hcmd => hp.not_data hcmd
    summed := fun hcmd => hp.not_data hcmd
    armed := fun _ => ⟨hbuf, rfl, rfl⟩ }

theorem locked_recvCmdStreamPc (h : SameIn (fun g _ => g.processingCmd = Cmd.streamPc) w v) :
    Locked env recvCmdStreamPc recvCmdStreamPc (fun a b w' v' => a = b ∧ Same w' v') w v := by
  obtain ⟨s, rfl, hs, hcmd⟩ := id h
  refine locked_get h.shows (lock_ite Iff.rfl (fun _ => lock_ret ⟨rfl, h.same⟩) fun hne => ?_)
  have hp : InStream w.live.g := ⟨hcmd, hne⟩
  have hin : ∀ n : Nat, w.live.g.processingCmdState = n ↔
      (w.withG (w.live.g.withStale s)).live.g.processingCmdState = n := by
    intro n
    rw [← hp.state hs]
    rfl
  refine lock_ite (hin 0) (fun _ => locked_recvStreamPcLen ⟨s, rfl, hs, hp⟩) fun _ => ?_
  refine lock_ite (hin 1) (fun _ => locked_recvStreamPcBytes ⟨s, rfl, hs, hp⟩) fun _ => ?_
  refine lock_ite (hin 2) (fun _ => locked_recvStreamPcChecksum ⟨s, rfl, hs, hp⟩) fun _ => ?_
  exact lock_ret ⟨rfl, h.same⟩

/-! ## 4. `gbridge_loop` and the functions around it -/

theorem hides_processCmd : Hides env processCmd := by
  intro w v h
  obtain ⟨s, rfl, hs, -⟩ := id h
  have hrecv : ∀ cmd, w.live.g.processingCmd = cmd →
      Locked env (recvCmd cmd) (recvCmd cmd) (fun a b w' v' => a = b ∧ Same w' v') w
        (w.withG (w.live.g.withStale s)) := by
    intro cmd hcmd
    refine lock_ite Iff.rfl (fun _ => hides_recvCmdReset w _ h) fun _ => ?_
    refine lock_ite Iff.rfl (fun hd => locked_recvCmdDataPc ⟨s, rfl, hs, hcmd.trans hd⟩) fun _ => ?_
    refine lock_ite Iff.rfl (fun hd => locked_recvCmdStreamPc ⟨s, rfl, hs, hcmd.trans hd⟩)
      fun _ => ?_
    exact lock_ret ⟨rfl, h⟩
  refine locked_get h.shows (lock_seq _ (hrecv w.live.g.processingCmd rfl) ?_)
  rintro rc _ w v ⟨rfl, h⟩
  refine lock_ite Iff.rfl (fun _ => ?_) fun _ =>
    lock_ite Iff.rfl (fun _ => hides_gbridgeInit w v h) fun _ => lock_ret ⟨rfl, h⟩
  obtain ⟨s, rfl, hs, -⟩ := h
  refine locked_modify ⟨rfl, rfl⟩ rfl ⟨rfl, .of rfl ?_ trivial⟩
  exact { hs with
    state := fun hne => absurd rfl hne
    since := fun hne => absurd rfl hne
    stored := fun hcmd => absurd hcmd none_ne_dataPc
    summed := fun hcmd => absurd hcmd none_ne_dataPc }

theorem hides_receiveCmd : Hides env receiveCmd := by
  refine hides_get (fun _ _ => rfl) fun g => .ite ?_ hides_processCmd
  refine .bind hides_available fun n => .ite (.ret ()) (.bind hides_getchar fun cmd => ?_)
  refine .ite (.ret ()) (hides_get (fun _ _ => rfl) fun g => .ite (.ite ?_ (.ret ())) ?_)
  · exact hides_modify (fun _ _ => rfl) fun _ _ hs =>
      { hs with waiting := fun hne => absurd rfl hne }
  · refine .bind hides_timerGet fun now => .bind (hides_modify (fun _ _ => rfl) ?_) fun _ =>
      hides_processCmd
    exact fun _ _ hs => { hs with
      state := fun _ => rfl
      since := fun _ => rfl
      stored := fun _ hstate => absurd hstate.symm (Nat.succ_ne_zero 0)
      summed := fun _ hstate => absurd hstate.symm (Nat.succ_ne_zero 1) }

theorem hides_gbridgeLoopConnected : Hides env gbridgeLoopConnected := by
  intro w v h
  obtain ⟨s, rfl, hs, -⟩ := id h
  refine locked_get h.shows (lock_seq _ (locked_timedOut hs.since h) ?_)
  rintro late _ w₁ v₁ ⟨rfl, h⟩
  refine lock_ite Iff.rfl (fun _ => hides_gbridgeInit w₁ v₁ h) fun _ => ?_
  refine lock_seq _ (locked_timedOut hs.waiting h) ?_
  rintro late _ w₂ v₂ ⟨rfl, h⟩
  exact lock_ite Iff.rfl (fun _ => hides_gbridgeInit w₂ v₂ h) fun _ => hides_receiveCmd w₂ v₂ h

theorem hides_gbridgeLoop : Hides env gbridgeLoop := by
  refine hides_get (fun _ _ => rfl) fun g => .ite hides_gbridgeLoopConnected ?_
  refine .bind hides_doHandshake fun up => .ite (.bind ?_ fun _ => ?_) (.ret ())
  · exact hides_modify (fun _ _ => rfl) fun _ _ hs => { hs with }
  · exact hides_gbridgeLoopConnected

/-- The variables a loop asks for are not stale. -/
theorem hides_while {c : State → Bool} (hc : ∀ g s, c (g.withStale s) = c g) :
    Hides env (.whileM (do return c (← get)) gbridgeLoop) := by
  refine .whileM (hides_get (fun g s => ?_) fun g => .ret (c g)) hides_gbridgeLoop
  simp only [hc]

theorem hides_waitCmd (cmd : UInt8) : Hides env (waitCmd cmd) := by
  refine hides_get (fun _ _ => rfl) fun g => .ite ?_ (.ret ())
  refine .bind (hides_while fun _ _ => rfl) fun _ => .bind hides_timerGet fun now => ?_
  refine .bind (hides_modify (fun _ _ => rfl) ?_) fun _ => hides_while fun _ _ => rfl
  exact fun _ _ hs => { hs with waiting := fun _ => rfl }

theorem hides_gbridgeCmdDebugLine (line : List UInt8) : Hides env (gbridgeCmdDebugLine line) := by
  refine hides_get (fun _ _ => rfl) fun g => .ite (.ite ?_ (.ret ())) (.ret ())
  exact .bind (hides_putchar _) fun _ => .bind (hides_putchar _) fun _ =>
    .bind (hides_putchars _) fun _ => hides_waitCmd Cmd.debugLine

theorem hides_gbridgeCmdData (data : GbridgeData) : Hides env (gbridgeCmdData data) := by
  refine hides_get (fun _ _ => rfl) fun g => .ite (.ite (.bind ?_ fun _ => ?_) (.ret ())) (.ret ())
  · exact .bind (hides_putchar _) fun _ => .bind (hides_putchar _) fun _ =>
      .bind (hides_putchars _) fun _ => .bind (hides_putchar _) fun _ => hides_putchar _
  · exact hides_waitCmd Cmd.data

theorem hides_gbridgeRecvDataDone : Hides env gbridgeRecvDataDone :=
  hides_modify (fun _ _ => rfl) fun _ _ hs =>
    { hs with ready := fun hready => absurd hready Bool.false_ne_true }

theorem hides_gbridgeRecvStream (buffer : List UInt8) (maxSize : Nat) :
    Hides env (gbridgeRecvStream buffer maxSize) :=
  hides_modify (fun _ _ => rfl) fun _ _ hs => { hs with armed := fun _ => ⟨rfl, rfl, rfl⟩ }

theorem hides_gbridgeConnected : Hides env gbridgeConnected :=
  hides_get (fun _ _ => rfl) fun _ => .ret _

theorem hides_gbridgeRecvStreamDone : Hides env gbridgeRecvStreamDone :=
  hides_get (fun _ _ => rfl) fun _ => .ret _

theorem hides_gbridgeRecvStreamWait (buffer : List UInt8) (maxSize : Nat) :
    Hides env (gbridgeRecvStreamWait buffer maxSize) :=
  .bind (hides_gbridgeRecvStream buffer maxSize) fun _ =>
    .bind (hides_while fun _ _ => rfl) fun _ => hides_gbridgeConnected

/-- What of a packet its reader may look at: the size, and so many bytes. -/
def shown (data : GbridgeData) : UInt8 × List UInt8 := (data.size, data.bytes)

theorem locked_gbridgeRecvData (h : Same w v) :
    Locked env gbridgeRecvData gbridgeRecvData
      (fun a b w' v' => a.map shown = b.map shown ∧ Same w' v') w v := by
  obtain ⟨s, rfl, hs, -⟩ := id h
  refine locked_get h.shows (lock_ret ⟨?_, h⟩)
  show Option.map shown (if w.live.g.dataReady then some w.live.g.data else none) =
    Option.map shown (if w.live.g.dataReady then some (w.live.g.withStale s).data else none)
  split
  · rename_i hready
    exact congrArg (fun bytes => some (w.live.g.dataSize, bytes)) (hs.ready hready).symm
  · rfl

theorem locked_gbridgeRecvDataWait (h : Same w v) :
    Locked env gbridgeRecvDataWait gbridgeRecvDataWait
      (fun a b w' v' => a.map shown = b.map shown ∧ Same w' v') w v := by
  have hwait : Hides env (.whileM (do
      let g ← get
      return g.connected && !g.dataReady) gbridgeLoop) := hides_while fun _ _ => rfl
  refine lock_seq _ (hwait w v h) ?_
  rintro _ _ w v ⟨-, h⟩
  have hup : w.live.g.connected = true ↔ v.live.g.connected = true := by rw [h.shows.2]
  exact locked_get h.shows (lock_ite hup (fun _ => locked_gbridgeRecvData h) fun _ =>
    lock_ret ⟨rfl, h⟩)

/-! ## 5. A stream that is sent -/

/-- From `gbridge_cmd_stream_start` on, unless it finds the link down, the checksum is not stale. -/
def Summing (g : State) (s : Stale) : Prop :=
  g.connected = true → s.streamChecksum = g.streamChecksum

theorem locked_gbridgeCmdStreamStart (length : Nat) (h : Same w v) :
    Locked env (gbridgeCmdStreamStart length) (gbridgeCmdStreamStart length)
      (fun _ _ => SameIn Summing) w v := by
  obtain ⟨s, rfl, hs, -⟩ := id h
  refine locked_get h.shows (lock_ite Iff.rfl (fun _ => ?_) fun hdown => ?_)
  · refine lock_seq _ (hides_putchar _ w _ h) ?_
    rintro _ _ w v ⟨-, h⟩
    refine lock_seq _ (hides_putchar _ w v h) ?_
    rintro _ _ w v ⟨-, h⟩
    refine lock_seq _ (hides_putchar _ w v h) ?_
    rintro _ _ w _ ⟨-, s, rfl, hs, -⟩
    exact locked_modify ⟨rfl, rfl⟩ rfl (.of rfl { hs with } fun _ => rfl)
  · exact lock_ret ⟨s, rfl, hs, fun hup => absurd hup hdown⟩

theorem locked_gbridgeCmdStreamData (data : List UInt8) (h : SameIn Summing w v) :
    Locked env (gbridgeCmdStreamData data) (gbridgeCmdStreamData data)
      (fun _ _ => SameIn Summing) w v := by
  obtain ⟨s, rfl, hs, hsum⟩ := id h
  refine locked_get h.shows (lock_ite Iff.rfl (fun hup => ?_) fun _ => lock_ret h)
  obtain ⟨state, since, waiting, buf, len, cur, sbuf, ssize, scur, sum⟩ := s
  obtain rfl : sum = w.live.g.streamChecksum := hsum hup
  refine lock_bind (locked_modify ⟨rfl, rfl⟩ rfl ?_)
  refine (hides_putchars data _ _ ?_).mono fun _ _ _ _ h => h.2
  exact .of rfl { hs with } fun _ => rfl

theorem locked_sendChunks (chunks : List (List UInt8)) (h : SameIn Summing w v) :
    Locked env (sendChunks chunks) (sendChunks chunks) (fun _ _ => SameIn Summing) w v := by
  induction chunks generalizing w v with
  | nil => exact lock_ret h
  | cons c chunks ih =>
    exact lock_seq _ (locked_gbridgeCmdStreamData c h) fun _ _ w v h => ih h

theorem locked_gbridgeCmdStreamFinish (h : SameIn Summing w v) :
    Locked env gbridgeCmdStreamFinish gbridgeCmdStreamFinish
      (fun a b w' v' => a = b ∧ Same w' v') w v := by
  obtain ⟨s, rfl, hs, hsum⟩ := id h
  refine locked_get h.shows (lock_ite Iff.rfl (fun hup => ?_) fun _ => lock_ret ⟨rfl, h.same⟩)
  refine lock_seq (fun _ _ => Same) (locked_get h.shows ?_) fun _ _ w v h =>
    hides_waitCmd Cmd.stream w v h
  show Locked env _ (.bind (serialPutchar (hi s.streamChecksum)) fun _ =>
    serialPutchar (lo s.streamChecksum)) _ _ _
  rw [hsum hup]
  refine lock_seq _ (hides_putchar _ w _ h.same) ?_
  rintro _ _ w v ⟨-, h⟩
  exact (hides_putchar _ w v h).mono fun _ _ _ _ h => h.2

end Rules

/-! ## 6. The ways to `gbridge_init` -/

/-- The link is up, and `data_buf` has its size. -/
def State.Up (n : Nat) (g : State) : Prop := g.connected = true ∧ g.dataBuf.length = n

/-- The link is up, or the variables are as `gbridge_init` leaves them. -/
def State.UpOrReset (n : Nat) (g : State) : Prop :=
  (g.connected = true ∨ g = g.init) ∧ g.dataBuf.length = n

section Ways

variable {env : Surroundings} {n : Nat} {α : Type} {w : Live}

/-- While the link is up the code keeps it up. -/
abbrev StaysUp (env : Surroundings) (n : Nat) {α : Type} (p : Code α) : Prop :=
  Keeps (freeSpec env) (fun w => w.g.Up n) p

theorem staysUp_cmd {e : Op α} (h : ∀ w : Live, w.g.Up n → (liveAnswer env e w).2.g.Up n) :
    StaysUp env n (cmd e) := fun w hw => (wpL_cmd (w := w) e).mpr ⟨False.elim, h w hw⟩

theorem staysUp_getchar : StaysUp env n serialGetchar := by
  refine staysUp_cmd fun w hw => ?_
  obtain ⟨g, rx⟩ := w
  cases rx <;> exact hw

theorem staysUp_available : StaysUp env n serialAvailable := staysUp_cmd fun _ hw => hw

theorem staysUp_recvChecksum {data : State → GbridgeData} {cmd : UInt8} {accept : State → State}
    (haccept : ∀ g : State, g.Up n → (accept g).Up n) :
    StaysUp env n (recvChecksum data cmd accept) := by
  refine .bind staysUp_available fun _ => .ite (.ret _) ?_
  refine .bind staysUp_getchar fun _ => .bind staysUp_getchar fun _ => kept_get fun _ => ?_
  exact .ite (.ret _) (.bind (kept_putchar _) fun _ => .bind (kept_modify haccept) fun _ => .ret _)

theorem staysUp_recvBytesLoop {store : Nat → UInt8 → Op Unit} {cur : State → Nat}
    {advance : State → State} {full : State → Bool} {finish : State → State}
    (hstore : ∀ i c, StaysUp env n (cmd (store i c)))
    (hadvance : ∀ g : State, g.Up n → (advance g).Up n)
    (hfinish : ∀ g : State, g.Up n → (finish g).Up n) :
    StaysUp env n (recvBytesLoop store cur advance full finish) := by
  refine .loop (.bind staysUp_available fun _ => .ite (.ret _) ?_) (.ret _)
  refine .bind staysUp_getchar fun c => kept_get fun g => .bind (hstore _ c) fun _ => ?_
  refine .bind (kept_modify hadvance) fun _ => kept_get fun _ => .ite ?_ (.ret _)
  exact .bind (kept_modify hfinish) fun _ => .ret _

theorem staysUp_recvCmdDataPc : StaysUp env n recvCmdDataPc := by
  have hsum : StaysUp env n recvDataPcChecksum := staysUp_recvChecksum fun _ h => h
  have hbytes : StaysUp env n recvDataPcBytes := by
    refine .bind (staysUp_recvBytesLoop (fun i c => ?_) (fun _ h => h) fun _ h => h) fun _ => ?_
    · refine staysUp_cmd fun w hw => ⟨hw.1, ?_⟩
      exact List.length_set.trans hw.2
    · exact kept_get fun _ => .ite (.ret _) hsum
  have hlen : StaysUp env n recvDataPcLen := by
    refine .bind staysUp_available fun _ => .ite (.ret _) (.bind staysUp_getchar fun _ => ?_)
    refine .bind (kept_modify fun _ h => h) fun _ => .ite (.ret _) ?_
    exact .bind (kept_modify fun _ h => h) fun _ => hbytes
  exact kept_get fun _ => .ite (.ret _) (.ite hlen (.ite hbytes (.ite hsum (.ret _))))

theorem staysUp_recvCmdStreamPc : StaysUp env n recvCmdStreamPc := by
  have hsum : StaysUp env n recvStreamPcChecksum := staysUp_recvChecksum fun _ h => h
  have hbytes : StaysUp env n recvStreamPcBytes := by
    refine .bind (staysUp_recvBytesLoop (fun i c => ?_) (fun _ h => h) fun _ h => h) fun _ => ?_
    · exact staysUp_cmd fun w hw => hw
    · exact kept_get fun _ => .ite (.ret _) hsum
  have hlen : StaysUp env n recvStreamPcLen := by
    refine .bind staysUp_available fun _ => .ite (.ret _) (.bind staysUp_getchar fun _ => ?_)
    refine .bind (kept_modify fun _ h => h) fun _ => .bind staysUp_getchar fun _ => ?_
    refine .bind (kept_modify fun _ h => h) fun _ => kept_get fun _ => .ite (.ret _) ?_
    exact .bind (kept_modify fun _ h => h) fun _ => hbytes
  exact kept_get fun _ => .ite (.ret _) (.ite hlen (.ite hbytes (.ite hsum (.ret _))))

theorem State.Up.orReset {g : State} (h : g.Up n) : g.UpOrReset n := ⟨Or.inl h.1, h.2⟩

theorem State.UpOrReset.of_init {g : State} (h : g.dataBuf.length = n) : g.init.UpOrReset n :=
  ⟨Or.inr rfl, h⟩

theorem State.UpOrReset.idle {g : State} (h : g.UpOrReset n) :
    State.UpOrReset n { g with processingCmd := Cmd.none } := by
  obtain ⟨hup | hreset, hlen⟩ := h
  · exact ⟨Or.inl hup, hlen⟩
  · exact ⟨Or.inr (congrArg (fun g : State => { g with processingCmd := Cmd.none }) hreset), hlen⟩

/-- A command that is under way leaves the link up, or is RESET. -/
theorem wpL_recvCmd_up (cmd : UInt8) (h : w.g.Up n) :
    wpL env false False (recvCmd cmd) (fun _ w' => w'.g.UpOrReset n) w := by
  have hup : ∀ {p : Code Int}, StaysUp env n p →
      wpL env false False p (fun _ w' => w'.g.UpOrReset n) w :=
    fun hp => wpre_mono (fun _ _ hw => hw.orReset) (hp w h)
  refine wpre_if (fun _ => ?_) fun _ => wpre_if (fun _ => hup staysUp_recvCmdDataPc) fun _ =>
    wpre_if (fun _ => hup staysUp_recvCmdStreamPc) fun _ => hup (.ret _)
  refine (wpL_bind _ _).mpr (wpL_modify _ False.elim False.elim ?_)
  exact (wpL_bind _ _).mpr (kept_putchar (I := State.UpOrReset n) _ _ (.of_init h.2))

theorem wpL_processCmd_up (h : w.g.Up n) :
    wpL env false False processCmd (fun _ w' => w'.g.UpOrReset n) w := by
  refine wpL_get _ False.elim ((wpL_bind _ _).mpr (wpre_mono (fun rc w' hw => ?_)
    (wpL_recvCmd_up w.g.processingCmd h)))
  refine wpre_if (fun _ => ?_) fun _ => wpre_if (fun _ => ?_) fun _ => hw
  · exact wpL_modify _ False.elim False.elim hw.idle
  · exact wpL_modify _ False.elim False.elim (.of_init hw.2)

theorem wpL_receiveCmd_up (h : w.g.Up n) :
    wpL env false False receiveCmd (fun _ w' => w'.g.UpOrReset n) w := by
  refine wpL_get _ False.elim (wpre_if (fun _ => ?_) fun _ => wpL_processCmd_up h)
  refine wpre_seq _ (staysUp_available w h) fun _ w h => ?_
  refine wpre_if (fun _ => h.orReset) fun _ => wpre_seq _ (staysUp_getchar w h) fun c w h => ?_
  refine wpre_if (fun _ => h.orReset) fun _ => ?_
  refine wpL_get _ False.elim (wpre_if (fun _ => ?_) fun _ => ?_)
  · refine wpre_if (fun _ => ?_) fun _ => h.orReset
    exact wpL_modify _ False.elim False.elim (State.Up.orReset ⟨h.1, h.2⟩)
  · refine (wpL_bind _ _).mpr (wpL_timerGet False.elim ?_)
    exact (wpL_bind _ _).mpr (wpL_modify _ False.elim False.elim (wpL_processCmd_up ⟨h.1, h.2⟩))

theorem wpL_gbridgeLoopConnected_up (h : w.g.Up n) :
    wpL env false False gbridgeLoopConnected (fun _ w' => w'.g.UpOrReset n) w := by
  have hlate : ∀ cmd since, StaysUp env n (timedOut cmd since) := fun _ _ =>
    .ite (staysUp_cmd fun _ hw => hw) (.ret _)
  have hinit : ∀ {w : Live}, w.g.Up n →
      wpL env false False gbridgeInit (fun _ w' => w'.g.UpOrReset n) w :=
    fun h => wpL_modify _ False.elim False.elim (.of_init h.2)
  refine wpL_get _ False.elim (wpre_seq _ (hlate _ _ w h) fun _ w h => ?_)
  refine wpre_if (fun _ => hinit h) fun _ => wpre_seq _ (hlate _ _ w h) fun _ w h => ?_
  exact wpre_if (fun _ => hinit h) fun _ => wpL_receiveCmd_up h

/-- **Whatever takes the link down leaves what `gbridge_init` leaves**: a timeout, a frame that is
refused, or RESET. -/
theorem down_reset {w' : Live} (he : Eval (live env) gbridgeLoopConnected w () w')
    (hup : w.g.connected = true) (hdown : w'.g.connected = false) :
    w'.g = w'.g.init ∧ w'.g.dataBuf.length = w.g.dataBuf.length := by
  have hwp : wpL env false False gbridgeLoopConnected
      (fun _ w' => w'.g.UpOrReset w.g.dataBuf.length) w := wpL_gbridgeLoopConnected_up ⟨hup, rfl⟩
  obtain ⟨hup' | hreset, hlen⟩ := wpre_eval (Spec.guarded_sound _ _) hwp he
  · rw [hdown] at hup'
    exact absurd hup' Bool.false_ne_true
  · exact ⟨hreset, hlen⟩

end Ways

/-! ## 7. After `gbridge_init` -/

/-- The functions of `gbridge.h`, and what their callers see of what they return.  A stream is sent
in one go, as `mobile_impl_sock_send` does. -/
inductive Api : Type → Type where
  | init : Api Unit
  | loop : Api Unit
  | connected : Api Bool
  | recvData : Api (Option (UInt8 × List UInt8))
  | recvDataWait : Api (Option (UInt8 × List UInt8))
  | recvDataDone : Api Unit
  | recvStream (buffer : List UInt8) (maxSize : Nat) : Api Unit
  | recvStreamDone : Api Bool
  | recvStreamWait (buffer : List UInt8) (maxSize : Nat) : Api Bool
  | cmdDebugLine (line : List UInt8) : Api Unit
  | cmdData (data : GbridgeData) : Api Unit
  | cmdStream (length : Nat) (chunks : List (List UInt8)) : Api Unit

def Api.code : {β : Type} → Api β → Code β
  | _, .init => gbridgeInit
  | _, .loop => gbridgeLoop
  | _, .connected => gbridgeConnected
  | _, .recvData => do return (← gbridgeRecvData).map shown
  | _, .recvDataWait => do return (← gbridgeRecvDataWait).map shown
  | _, .recvDataDone => gbridgeRecvDataDone
  | _, .recvStream buffer maxSize => gbridgeRecvStream buffer maxSize
  | _, .recvStreamDone => gbridgeRecvStreamDone
  | _, .recvStreamWait buffer maxSize => gbridgeRecvStreamWait buffer maxSize
  | _, .cmdDebugLine line => gbridgeCmdDebugLine line
  | _, .cmdData data => gbridgeCmdData data
  | _, .cmdStream length chunks => do
    gbridgeCmdStreamStart length
    sendChunks chunks
    gbridgeCmdStreamFinish

/-- **No function shows anything stale.** -/
theorem Api.hides (env : Surroundings) (β : Type) (e : Api β) : Hides env e.code := by
  cases e with
  | init => exact hides_gbridgeInit
  | loop => exact hides_gbridgeLoop
  | connected => exact hides_gbridgeConnected
  | recvData =>
    intro w v h
    refine lock_seq _ (locked_gbridgeRecvData h) ?_
    rintro a b w v ⟨hab, h⟩
    exact lock_ret ⟨hab, h⟩
  | recvDataWait =>
    intro w v h
    refine lock_seq _ (locked_gbridgeRecvDataWait h) ?_
    rintro a b w v ⟨hab, h⟩
    exact lock_ret ⟨hab, h⟩
  | recvDataDone => exact hides_gbridgeRecvDataDone
  | recvStream buffer maxSize => exact hides_gbridgeRecvStream buffer maxSize
  | recvStreamDone => exact hides_gbridgeRecvStreamDone
  | recvStreamWait buffer maxSize => exact hides_gbridgeRecvStreamWait buffer maxSize
  | cmdDebugLine line => exact hides_gbridgeCmdDebugLine line
  | cmdData data => exact hides_gbridgeCmdData data
  | cmdStream length chunks =>
    intro w v h
    refine lock_seq _ (locked_gbridgeCmdStreamStart length h) fun _ _ w v h => ?_
    refine lock_seq _ (locked_sendChunks chunks h) fun _ _ w v h => ?_
    exact locked_gbridgeCmdStreamFinish h

/-- The operations, with what is seen. -/
def seen (env : Surroundings) : Sem Op Seen := fun β e w b w' => seenAnswer env β e w = (b, w')

/-- What a client of `gbridge.h` comes to in so many transitions. -/
def Seen.client {α : Type} (env : Surroundings) (n : Nat) (p : Prog Api α) (w : Seen) : Seen :=
  advance (fun β e w => some (seenAnswer env β e w)) n (p.carry Api.code) w

/-- `gbridge_init` has run on these variables, and these bytes are unread. -/
def Seen.fresh (g : State) (rx : List UInt8) : Seen := { live := { g := g.init, rx } }

theorem fresh_same {g₁ g₂ : State} (hlen : g₂.dataBuf.length = g₁.dataBuf.length)
    (rx : List UInt8) : Same (.fresh g₁ rx) (.fresh g₂ rx) := by
  refine .of rfl ?_ trivial
  exact
    { length := hlen
      state := fun hne => absurd rfl hne
      since := fun hne => absurd rfl hne
      waiting := fun hne => absurd rfl hne
      ready := fun hready => absurd hready Bool.false_ne_true
      stored := fun hcmd => absurd hcmd none_ne_dataPc
      summed := fun hcmd => absurd hcmd none_ne_dataPc
      armed := fun hne => absurd rfl hne }

/-- **A reset forgets everything.**  Whatever the variables were, after `gbridge_init` a client that
does the same in the same surroundings puts out the same at every time, finds the link in the same
state, and is told the same.  (`data_buf` is an array of fixed size.) -/
theorem init_forgets {α : Type} (env : Surroundings) (g₁ g₂ : State)
    (hlen : g₁.dataBuf.length = g₂.dataBuf.length) (rx : List UInt8) (client : Prog Api α) :
    (∀ n, Seen.Shows (Seen.client env n client (.fresh g₁ rx))
        (Seen.client env n client (.fresh g₂ rx))) ∧
      ∀ a, (∃ w, Eval (seen env) (client.carry Api.code) (.fresh g₁ rx) a w) ↔
        ∃ w, Eval (seen env) (client.carry Api.code) (.fresh g₂ rx) a w := by
  have hhides : Hides env (client.carry Api.code) := InStep.carry (Api.hides env) client
  have hthere := hhides _ _ (fresh_same hlen.symm rx)
  have hback := hhides _ _ (fresh_same hlen rx)
  constructor
  · intro n
    exact lock_advance n ⟨rfl, rfl⟩ hthere
  · intro a
    constructor
    · rintro ⟨w, he⟩
      obtain ⟨b, v, hq, rfl, -⟩ := lock_eval hthere he
      exact ⟨v, hq⟩
    · rintro ⟨w, he⟩
      obtain ⟨b, v, hq, rfl, -⟩ := lock_eval hback he
      exact ⟨v, hq⟩

/-- What is computed is a run. -/
theorem seen_eval {env : Surroundings} {α : Type} {fuel : Nat} {p : Code α} {w w' : Seen} {a : α}
    (h : run (fun β e w => some (seenAnswer env β e w)) fuel p w = some (a, w')) :
    Eval (seen env) p w a w' :=
  @run_eval _ Seen α (seen env) Seen _ id (fun _ _ _ _ _ h => Option.some.inj h) fuel p w w' a h

/-- Variables after a link that was lost in the middle of a packet. -/
def interrupted : State :=
  { connected := true, processingCmd := Cmd.dataPc, processingCmdState := 1,
    processingCmdTime := 77, dataBuf := List.replicate maxDataSize 9, dataLen := 5, dataCur := 3,
    streamBuf := [1, 2], streamSize := 2, streamCur := 1, streamChecksum := 300 }

/-- The client waits for the link and then for a packet. -/
def takePacket : Prog Api (Option (UInt8 × List UInt8)) := do
  .whileM (do return !(← .cmd .connected)) (.cmd .loop)
  .cmd .recvDataWait

theorem init_forgets_interrupted :
    interrupted.init ≠ State.init {} ∧ ∃ w, Eval (seen .still) (takePacket.carry Api.code)
      (.fresh {} linkAndPacket) (some (1, [7])) w := by
  constructor
  · decide
  have hrun : (run (fun β e w => some (seenAnswer .still β e w)) 50
      (takePacket.carry Api.code) (.fresh interrupted linkAndPacket)).map Prod.fst =
        some (some (1, [7])) := by decide +kernel
  obtain ⟨⟨_, w⟩, hw, rfl⟩ := Option.map_eq_some_iff.mp hrun
  have hlen : interrupted.dataBuf.length = (State.dataBuf {}).length := by simp [interrupted]
  have hforgets := init_forgets .still interrupted {} hlen linkAndPacket takePacket
  exact (hforgets.2 _).mp ⟨w, seen_eval hw⟩

end GBridge.Atmega

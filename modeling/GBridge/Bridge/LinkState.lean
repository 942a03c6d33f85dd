/-
# What the functions of the bridge's link layer keep

Two invariants are kept through every sequence of calls.

* The LINK STATE: when the link is down, no acknowledgement is waited for.  Otherwise the loop
  of `wait_cmd` would never end.
* The BUFFER BOUND: no store goes past the end of its buffer, and a packet handed out is no
  longer than `GBRIDGE_MAX_DATA_SIZE`.

Both hold for the same reason in all functions but `wait_cmd` and the receiver of the length
byte: a function changes the flags only mildly (`Mild`), and a read never brings more than was
asked for.  That part is done once, for any invariant that tolerates it (`Tolerates`).

Neither invariant holds without a condition.  A read error in the poll of `gbridge_loop` drops
the link without giving up the wait (`linkState_fails`), and the length byte of a packet is not
checked (`bufferBound_fails`).
-/
import GBridge.Bridge.Semantics

namespace GBridge.Bridge

open Prog

variable {σ : Type}

/-! ## 1. What all functions have in common -/

/-- A mild change: the wait is given up or left alone, and so is the packet. -/
def Mild (g g' : State) : Prop :=
  (g'.waitingCmd = g.waitingCmd ∨ g'.waitingCmd = Cmd.none) ∧
    (g'.dataSize = g.dataSize ∨ g'.dataSize = 0)

/-- So many bytes belong into the buffer: for `data_buf`, as many as `data.size` says. -/
def Dst.Within : Dst → State → Nat → Prop
  | .scratch, _, _ => True
  | .dataSize, _, n => n ≤ 1
  | .dataBuf, g, n => n ≤ g.dataSize.toNat
  | .stream maxSize, _, n => n ≤ maxSize

theorem Dst.Within.mono {dst : Dst} {g : State} {n m : Nat} (h : dst.Within g n) (hm : m ≤ n) :
    dst.Within g m := by
  cases dst with
  | scratch => trivial
  | dataSize | dataBuf | stream maxSize => exact Nat.le_trans hm h

/-- The invariant survives what every function does. -/
structure Tolerates (S : Spec Op (World σ)) (I : World σ → Prop) : Prop where
  get : ∀ {w : World σ} {Q : State → World σ → Prop}, I w → Q w.g w → S.pre .get Q w
  set : ∀ {w : World σ} {g : State} {Q : Unit → World σ → Prop}, I w → Mild w.g g →
    (∀ w', I w' → Q () w') → S.pre (.set g) Q w
  read : ∀ {w : World σ} {count ms : Nat} {Q : ReadRes → World σ → Prop}, I w →
    (∀ r w', r.Fits count → w'.g = w.g → I w' → Q r w') → S.pre (.read count ms) Q w
  store : ∀ {w : World σ} {dst : Dst} {bs : List UInt8} {Q : Unit → World σ → Prop}, I w →
    dst.Within w.g bs.length → (∀ w', I w' → Q () w') → S.pre (.store dst bs) Q w
  write : ∀ {w : World σ} {bs : List UInt8} {Q : Unit → World σ → Prop}, I w →
    (∀ w', I w' → Q () w') → S.pre (.write bs) Q w
  eprint : ∀ {w : World σ} {s : String} {Q : Unit → World σ → Prop}, I w →
    (∀ w', I w' → Q () w') → S.pre (.eprint s) Q w
  ewrite : ∀ {w : World σ} {bs : List UInt8} {Q : Unit → World σ → Prop}, I w →
    (∀ w', I w' → Q () w') → S.pre (.ewrite bs) Q w
  sock : ∀ {w : World σ} {c : SockCall} {Q : c.Res → World σ → Prop}, I w →
    (∀ r w', I w' → Q r w') → S.pre (.sock c) Q w

section Keeps

variable {S : Spec Op (World σ)} {I : World σ → Prop} (T : Tolerates S I)
include T

theorem keeps_get : Keeps S I get := fun _ h => T.get h h

theorem wp_get {β : Type} {f : State → Code β} {Q : β → World σ → Prop} {w : World σ} (hw : I w)
    (h : wpre S false (f w.g) Q w) : wpre S false (get.bind f) Q w :=
  wpre_bind.mpr (T.get hw h)

theorem keeps_modify {f : State → State} (hf : ∀ g, Mild g (f g)) : Keeps S I (modify f) :=
  fun _ h => T.get h (T.set h (hf _) fun _ h' => h')

theorem keeps_write (bs : List UInt8) : Keeps S I (spBlockingWrite bs) :=
  fun _ h => T.write h fun _ h' => h'

theorem keeps_eprint (s : String) : Keeps S I (eprint s) :=
  fun _ h => T.eprint h fun _ h' => h'

theorem keeps_read (count ms : Nat) : Keeps S I (spBlockingRead count ms) :=
  fun _ h => T.read h fun _ _ _ _ h' => h'

theorem keeps_sock (c : SockCall) : Keeps S I (sock c) := fun _ h => T.sock h fun _ _ h' => h'

theorem keeps_init : Keeps S I gbridgeInit :=
  keeps_modify T fun _ => ⟨.inr rfl, .inr rfl⟩

/-- A frame comes in piece by piece; each piece is as long as was asked for. -/
theorem keeps_recvData {w : World σ} {dst : Dst} {count : Nat} (hw : I w)
    (hc : dst.Within w.g count) :
    wpre S false (recvData dst count)
      (fun r w' => I w' ∧ ∀ bs, r = some bs → bs.length = count) w := by
  have hfail : ∀ w', I w' → wpre S false
      (do eprint "recv_data: timed out\n"; gbridgeInit; return none)
      (fun (r : Option (List UInt8)) w' => I w' ∧ ∀ bs, r = some bs → bs.length = count) w' := by
    intro w' hw'
    refine wpre_seq (fun _ => I) (keeps_eprint T _ w' hw') fun _ w' hw' => ?_
    exact wpre_seq (fun _ => I) (keeps_init T w' hw') fun _ w' hw' => ⟨hw', by simp⟩
  refine T.read hw fun r w' hfit hg hw' => ?_
  cases r with
  | error code => exact hfail w' hw'
  | bytes bs =>
    refine T.store hw' (hg ▸ hc.mono hfit) fun w' hw' => ?_
    split
    · exact hfail w' hw'
    · rename_i hlen
      exact ⟨hw', fun bs' h => Option.some.inj h ▸ not_not.mp hlen⟩

/-- The same for the buffers whose bound does not depend on the packet. -/
theorem keeps_recvData_bind {β : Type} {dst : Dst} {count : Nat}
    {f : Option (List UInt8) → Code β} (hc : ∀ g, dst.Within g count)
    (hf : ∀ r, (∀ bs, r = some bs → bs.length = count) → Keeps S I (f r)) :
    Keeps S I ((recvData dst count).bind f) := fun _ hw =>
  wpre_bind.mpr (wpre_mono (fun r w' h => hf r h.2 w' h.1) (keeps_recvData T hw (hc _)))

theorem keeps_sendAck (cmd : UInt8) : Keeps S I (sendAck cmd) := keeps_write T _

theorem keeps_handshake : Keeps S I gbridgeHandshake := by
  have hflags : ∀ g : State, Mild g g := fun g => ⟨.inl rfl, .inl rfl⟩
  refine .bind (keeps_get T) fun g => .ite (.ret true) ?_
  refine .bind (keeps_write T _) fun _ => .bind
    (.loop (.bind (keeps_read T _ _) fun r => ?_) (.ret ())) fun _ => ?_
  · split
    · rename_i c
      refine .bind (keeps_get T) fun g => .bind (keeps_modify T hflags) fun _ => ?_
      have htail : Keeps S I (do
          if (← get).handshakeProgress = handshake.length then
            modify fun g => { g with handshakeProgress := 0, connected := true }
            return false
          else return true) :=
        .bind (keeps_get T) fun g =>
          .ite (.bind (keeps_modify T hflags) fun _ => .ret false) (.ret true)
      exact .ite (.bind (keeps_modify T hflags) fun _ => htail) htail
    · exact .ret false
  · exact .bind (keeps_get T) fun g => .ret _

theorem keeps_recvCmdDebugLine : Keeps S I recvCmdDebugLine := by
  refine keeps_recvData_bind T (fun _ => trivial) fun r _ => ?_
  cases r with
  | none => exact .ret ()
  | some length =>
    refine keeps_recvData_bind T (fun _ => trivial) fun r _ => ?_
    cases r with
    | none => exact .ret ()
    | some string =>
      exact .bind (keeps_sendAck T _) fun _ => fun _ hw => T.ewrite hw fun _ h => h

theorem keeps_recvDataChecksum : Keeps S I recvDataChecksum := by
  refine keeps_recvData_bind T (fun _ => trivial) fun r _ => ?_
  cases r with
  | none => exact .ret ()
  | some c =>
    refine .bind (keeps_get T) fun g => .ite ?_ ?_
    · exact .bind (keeps_eprint T _) fun _ => keeps_init T
    · exact .bind (keeps_modify T fun g => ⟨.inl rfl, .inl rfl⟩) fun _ => keeps_sendAck T _

/-- As many bytes are read into `data_buf` as the length byte says. -/
theorem keeps_recvCmdData : Keeps S I recvCmdData := by
  refine .bind (keeps_get T) fun g => .ite ?_ ?_
  · exact .bind (keeps_eprint T _) fun _ => keeps_init T
  · refine keeps_recvData_bind T (fun _ => Nat.le_refl 1) fun r _ => ?_
    cases r with
    | none => exact .ret ()
    | some length =>
      intro w hw
      refine wp_get T hw (wpre_seq _ (keeps_recvData T hw (Nat.le_refl _)) ?_)
      rintro r w' ⟨hw', -⟩
      cases r with
      | none => exact hw'
      | some _ => exact keeps_recvDataChecksum T w' hw'

theorem keeps_gbridgeLoop : Keeps S I gbridgeLoop := by
  have hflags : ∀ g : State, Mild g g := fun g => ⟨.inl rfl, .inl rfl⟩
  refine .bind (keeps_get T) fun g => .ite (.bind (keeps_read T _ _) fun r => ?_) (.ret ())
  split
  · exact .ret ()
  · exact keeps_modify T hflags
  · refine .bind (keeps_get T) fun g => .ite (.ite ?_ (.ret ())) ?_
    · exact keeps_modify T fun g => ⟨.inr rfl, .inl rfl⟩
    · exact .ite (keeps_recvCmdDebugLine T) (.ite (keeps_recvCmdData T) (.ret ()))

theorem keeps_recvStreamChecksum (buffer : List UInt8) :
    Keeps S I (recvStreamChecksum buffer) := by
  refine keeps_recvData_bind T (fun _ => trivial) fun r _ => ?_
  cases r with
  | none => exact .ret _
  | some c =>
    refine .ite ?_ ?_
    · exact .bind (keeps_eprint T _) fun _ => .bind (keeps_init T) fun _ => .ret _
    · exact .bind (keeps_sendAck T _) fun _ => .ret _

/-- A stream is read only if it is no longer than its buffer. -/
theorem keeps_gbridgeRecvStream (maxSize : Nat) : Keeps S I (gbridgeRecvStream maxSize) := by
  refine .bind (keeps_get T) fun g => .ite (.ret _) ?_
  refine keeps_recvData_bind T (fun _ => trivial) fun r _ => ?_
  cases r with
  | none => exact .ret _
  | some c =>
    refine .ite ?_ ?_
    · exact .bind (keeps_eprint T _) fun _ => .bind (keeps_init T) fun _ => .ret _
    · refine keeps_recvData_bind T (fun _ => trivial) fun r _ => ?_
      cases r with
      | none => exact .ret _
      | some c =>
        simp only
        split
        · exact .ret _
        · rename_i hle
          refine keeps_recvData_bind T (fun _ => Nat.le_of_not_lt hle) fun r _ => ?_
          cases r with
          | none => exact .ret _
          | some buffer => exact keeps_recvStreamChecksum T buffer

theorem keeps_recvDataDone : Keeps S I gbridgeRecvDataDone :=
  keeps_modify T fun _ => ⟨.inl rfl, .inl rfl⟩

theorem keeps_writeDataFrame (data : GbridgeData) : Keeps S I (writeDataFrame data) :=
  .bind (keeps_write T _) fun _ => .bind (keeps_write T _) fun _ => keeps_write T _

theorem keeps_writeStreamFrame (buffer : List UInt8) (size : Nat) :
    Keeps S I (writeStreamFrame buffer size) :=
  .bind (keeps_write T _) fun _ => .bind (keeps_write T _) fun _ => keeps_write T _

/-! The functions that send end in `wait_cmd`. -/

variable (hwait : ∀ cmd, cmd ≠ Cmd.none → Keeps S I (waitCmd cmd))
include hwait

theorem keeps_gbridgeCmdData (data : GbridgeData) : Keeps S I (gbridgeCmdData data) := by
  refine .bind (keeps_get T) fun g => .ite (.ite ?_ (.ret ())) (.ret ())
  exact .bind (keeps_writeDataFrame T data) fun _ => hwait _ (by decide)

theorem keeps_gbridgeCmdStream (buffer : List UInt8) (size : Nat) :
    Keeps S I (gbridgeCmdStream buffer size) := by
  refine .bind (keeps_get T) fun g => .ite ?_ (.ret ())
  exact .bind (keeps_writeStreamFrame T buffer size) fun _ => hwait _ (by decide)

theorem keeps_reply {c : SockCall} {data : c.Res → GbridgeData} :
    Keeps S I (do let res ← sock c; gbridgeCmdData (data res); return true) :=
  .bind (keeps_sock T c) fun _ => .bind (keeps_gbridgeCmdData T hwait _) fun _ => .ret true

theorem keeps_handleRequest (recvData : GbridgeData) : Keeps S I (handleRequest recvData) := by
  have hflag : ∀ cmd call flag, Keeps S I (recvCmdSockFlag cmd call flag recvData) :=
    fun cmd call flag => .ite (.ret false) (keeps_reply T hwait)
  unfold handleRequest
  refine .ite ?_ (.ite ?_ (.ite ?_ (.ite (hflag _ _ _) (.ite (hflag _ _ _)
    (.ite ?_ (.ite ?_ (.ret false)))))))
  · exact .ite (.ret false) (keeps_reply T hwait)
  · exact .ite (.ret false) (keeps_reply T hwait)
  · exact .ite (.ret false) (.ite (.ret false) (.ite (.ret false) (keeps_reply T hwait)))
  · refine .ite (.ret false) (.ite (.ret false) (.bind (keeps_gbridgeRecvStream T _) fun r => ?_))
    exact .ite (.ret false) (keeps_reply T hwait)
  · refine .ite (.ret false) (.bind (keeps_sock T _) fun r => ?_)
    have hconnected : Keeps S I gbridgeConnected := .bind (keeps_get T) fun g => .ret _
    refine .bind (keeps_gbridgeCmdData T hwait _) fun _ => .bind hconnected fun c => ?_
    refine .ite (.ret false) (.ite (.ret true) ?_)
    exact .bind (keeps_gbridgeCmdStream T hwait _ _) fun _ => .ret true

theorem keeps_gbridgeProtMaLoop : Keeps S I gbridgeProtMaLoop := by
  have hrecv : Keeps S I gbridgeRecvData := .bind (keeps_get T) fun g => .ret _
  refine .bind hrecv fun r => ?_
  cases r with
  | none => exact .ret ()
  | some recvData =>
    have hdone := keeps_recvDataDone T
    exact .ite hdone (.bind (keeps_handleRequest T hwait recvData) fun _ => hdone)

theorem keeps_session : ∀ calls : List Call, Keeps S I (session calls)
  | [] => .ret ()
  | c :: cs => by
    refine .bind ?_ fun _ => keeps_session cs
    cases c with
    | init => exact keeps_init T
    | handshake => exact .bind (keeps_handshake T) fun _ => .ret ()
    | loop => exact keeps_gbridgeLoop T
    | recvDataDone => exact keeps_recvDataDone T
    | recvStream maxSize => exact .bind (keeps_gbridgeRecvStream T maxSize) fun _ => .ret ()
    | cmdData data => exact keeps_gbridgeCmdData T hwait data
    | cmdStream buffer size => exact keeps_gbridgeCmdStream T hwait buffer size
    | protMaLoop => exact keeps_gbridgeProtMaLoop T hwait

end Keeps

/-- An invariant of the flags and of the record of the run is tolerated if it survives the three
things that can happen to them. -/
theorem tolerates_guarded {port : Port σ} {ok : (β : Type) → Op β → World σ → β → Bool}
    {J I : World σ → Prop} (hport : port.Fitting)
    (hJ : ∀ w, I w → J w) (hset : ∀ w g, I w → Mild w.g g → I { w with g })
    (hstore : ∀ w dst bs, I w → dst.Within w.g bs.length → ok _ (.store dst bs) w () = true →
      I { w with g := w.g.store bs dst, overrun := w.overrun || dst.overrun bs.length })
    (hframe : ∀ w w', I w → w'.g = w.g → w'.overrun = w.overrun → I w') :
    Tolerates (Spec.guarded ((sem port).only ok) J) I where
  get hw hQ := by
    rintro b w' ⟨⟨rfl, rfl⟩, -⟩
    exact ⟨hJ _ hw, hQ⟩
  set hw hmild hQ := by
    rintro b w' ⟨rfl, -⟩
    have h' := hset _ _ hw hmild
    exact ⟨hJ _ h', hQ _ h'⟩
  read := by
    rintro w count ms Q hw hQ r w' ⟨⟨p, hp, rfl⟩, -⟩
    have h' : I { w with port := p } := hframe w _ hw rfl rfl
    exact ⟨hJ _ h', hQ r _ (hport _ _ _ _ _ hp) rfl h'⟩
  store hw hin hQ := by
    rintro b w' ⟨rfl, hok⟩
    have h' := hstore _ _ _ hw hin hok
    exact ⟨hJ _ h', hQ _ h'⟩
  write := by
    rintro w bs Q hw hQ b w' ⟨rfl, -⟩
    have h' : I { w with tx := w.tx ++ bs } := hframe w _ hw rfl rfl
    exact ⟨hJ _ h', hQ _ h'⟩
  eprint hw hQ := by
    rintro b w' ⟨rfl, -⟩
    exact ⟨hJ _ hw, hQ _ hw⟩
  ewrite hw hQ := by
    rintro b w' ⟨rfl, -⟩
    exact ⟨hJ _ hw, hQ _ hw⟩
  sock hw hQ := by
    rintro r w' ⟨⟨-, rfl⟩, -⟩
    exact ⟨hJ _ hw, hQ r _ hw⟩

/-- The states some sequence of calls passes through, on some port, if every answer satisfies
`ok`. -/
def Visits (ok : (β : Type) → Op β → World (List ReadRes) → β → Bool)
    (w : World (List ReadRes)) : Prop :=
  ∃ calls port p, Reach ((sem scripted).only ok) (session calls, .start port) (p, w)

/-- The answers of the scripted port that satisfy `ok`. -/
def answerOnly (ok : (β : Type) → Op β → World (List ReadRes) → β → Bool) (β : Type) (e : Op β)
    (w : World (List ReadRes)) : Option (β × World (List ReadRes)) :=
  (answer β e w).filter fun r => ok β e w r.1

/-- A run that is computed, as long as every answer satisfies `ok`. -/
theorem visits_advance (ok : (β : Type) → Op β → World (List ReadRes) → β → Bool) (n : Nat)
    (calls : List Call) (port : List ReadRes) :
    Visits ok (advance (answerOnly ok) n (session calls) (.start port)) := by
  have hans : ∀ (β : Type) (e : Op β) (w : World (List ReadRes)) (b : β)
      (w' : World (List ReadRes)), answerOnly ok β e w = some (b, w') →
      (sem scripted).only ok β e w b w' := by
    intro β e w b w' h
    obtain ⟨h1, h2⟩ := Option.filter_eq_some_iff.mp h
    exact ⟨answer_sound β e w b w' h1, h2⟩
  obtain ⟨p, hp⟩ := advance_reach hans n (session calls) (.start port)
  exact ⟨calls, port, p, hp⟩

/-- The port brings a handshake, byte by byte. -/
def handshakeReads : List ReadRes := handshake.map fun c => .bytes [c]

/-! ## 2. The link state -/

/-- When the link is down nothing is waited for, so that the loops of `wait_cmd` end at their
next test. -/
def LinkState (g : State) : Prop :=
  g.connected = false → g.waitingCmd = Cmd.none ∧
    (g.waitingCmd != Cmd.none) = false ∧ ∀ cmd, cmd ≠ Cmd.none → (g.waitingCmd == cmd) = false

theorem linkState_of_idle {g : State} (h : g.waitingCmd = Cmd.none) : LinkState g := by
  intro _
  rw [h]
  exact ⟨rfl, rfl, fun cmd hcmd => beq_eq_false_iff_ne.mpr fun heq => hcmd heq.symm⟩

/-- `gbridge_loop` polls with a timeout of 100 ms; no such poll fails while an acknowledgement
is waited for. -/
def pollKept : (β : Type) → Op β → World σ → β → Bool
  | _, .read _ ms, w, .error _ => ms ≠ 100 || w.g.waitingCmd == Cmd.none
  | _, _, _, _ => true

section LinkState

abbrev linkSpec (port : Port σ) : Spec Op (World σ) :=
  Spec.guarded ((sem port).only pollKept) fun w => LinkState w.g

variable {port : Port σ} {w : World σ} {cmd : UInt8}

theorem tolerates_idle (hport : port.Fitting) :
    Tolerates (linkSpec port) fun w => w.g.waitingCmd = Cmd.none :=
  tolerates_guarded hport (fun w h => linkState_of_idle h)
    (fun w g h hmild => hmild.1.elim (fun h' => h'.trans h) id)
    (fun w dst bs h _ _ => by cases dst <;> exact h)
    (fun w w' h hg _ => by rw [hg]; exact h)

theorem linkSpec_get {β : Type} {f : State → Code β} {Q : β → World σ → Prop}
    (hlink : LinkState w.g) (h : wpre (linkSpec port) false (f w.g) Q w) :
    wpre (linkSpec port) false (get.bind f) Q w := by
  rintro g w' ⟨⟨rfl, rfl⟩, -⟩
  exact ⟨hlink, h⟩

theorem linkSpec_modify {f : State → State} {Q : Unit → World σ → Prop} (hlink : LinkState w.g)
    (hlink' : LinkState (f w.g)) (h : Q () { w with g := f w.g }) :
    wpre (linkSpec port) false (modify f) Q w := by
  refine linkSpec_get hlink ?_
  rintro _ w' ⟨rfl, -⟩
  exact ⟨hlink', h⟩

theorem linkState_of_connected {g : State} (h : g.connected = true) : LinkState g := fun h' => by
  rw [h] at h'
  exact absurd h' (by simp)

/-- While an acknowledgement is waited for, a round of `gbridge_loop` leaves the link up. -/
theorem linkSpec_loop (hcmd : cmd ≠ Cmd.none) (hconn : w.g.connected = true)
    (hwait : w.g.waitingCmd = cmd) :
    wpre (linkSpec port) false gbridgeLoop
      (fun _ w' => w'.g.connected = true ∧
        (w'.g.waitingCmd = cmd ∨ w'.g.waitingCmd = Cmd.none)) w := by
  have hlink := linkState_of_connected hconn
  refine linkSpec_get hlink ?_
  rw [if_pos hconn]
  rintro r w' ⟨⟨p, -, rfl⟩, hok⟩
  refine ⟨hlink, ?_⟩
  match r with
  | .bytes [] => exact ⟨hconn, .inl hwait⟩
  | .error code =>
    -- this is the answer that `pollKept` rules out here
    have hnone : w.g.waitingCmd = Cmd.none := by simpa [pollKept] using hok
    exact absurd (hwait.symm.trans hnone) hcmd
  | .bytes (c :: bs) =>
    refine linkSpec_get hlink ?_
    rw [if_pos (hwait ▸ hcmd), wpre_ite]
    split
    · exact linkSpec_modify hlink (linkState_of_connected hconn) ⟨hconn, .inr rfl⟩
    · exact ⟨hconn, .inl hwait⟩

theorem keeps_waitCmd (hcmd : cmd ≠ Cmd.none) :
    Keeps (linkSpec port) (fun w => w.g.waitingCmd = Cmd.none) (waitCmd cmd) := by
  intro w hidle
  refine linkSpec_get (linkState_of_idle hidle) ?_
  rw [wpre_ite]
  split
  · rename_i hconn
    have hup := linkState_of_connected hconn
    -- nothing is waited for yet, so the first loop ends at once
    refine wpre_seq (fun _ w' => w'.g.connected = true) (wlp_whileM
      (fun w' => w'.g.connected = true ∧ w'.g.waitingCmd = Cmd.none) ⟨hconn, hidle⟩ ?_) ?_
    · rintro w' ⟨hconn', hidle'⟩
      refine linkSpec_get (linkState_of_connected hconn') ?_
      simp [hidle', hconn']
    · intro _ w' hconn'
      refine wpre_seq (fun _ w' => w'.g.connected = true ∧ w'.g.waitingCmd = cmd)
        (linkSpec_modify (linkState_of_connected hconn') (linkState_of_connected hconn')
          ⟨hconn', rfl⟩) ?_
      rintro _ w' ⟨hconn', hwait⟩
      refine wlp_whileM (fun w' => w'.g.connected = true ∧
        (w'.g.waitingCmd = cmd ∨ w'.g.waitingCmd = Cmd.none)) ⟨hconn', .inl hwait⟩ ?_
      rintro w' ⟨hconn', hwait⟩
      refine linkSpec_get (linkState_of_connected hconn') ?_
      rcases hwait with hwait | hnone
      · simpa [hwait] using linkSpec_loop hcmd hconn' hwait
      · simp [hnone, hcmd.symm]
  · exact hidle

end LinkState

/-- **The link state is kept in every run in which no poll fails during a wait**: with the link down
no acknowledgement is awaited, and neither loop of `wait_cmd` goes on.

The poll is that of `gbridge_loop`, whose error branch clears `connected` and leaves `waiting_cmd`
as it is.  A failing poll is the only way in which a `wait_cmd` can lose the link without giving up
its wait; all the others go through `gbridge_init`. -/
theorem linkState_reached (w : World (List ReadRes)) (h : Visits pollKept w) : LinkState w.g := by
  obtain ⟨calls, port, p, hr⟩ := h
  have hkeeps := keeps_session (tolerates_idle scripted_fitting) (fun cmd => keeps_waitCmd) calls
  exact guarded_reach (hkeeps (.start port) rfl) (linkState_of_idle rfl) hr

/-- The link comes up, and goes down again when a poll fails while nothing is waited for. -/
theorem linkState_unplugged :
    ∃ w : World (List ReadRes), Visits pollKept w ∧ w.port = [] ∧ LinkState w.g := by
  have hv := visits_advance pollKept 100 [.handshake, .loop]
    (handshakeReads ++ [.error 0])
  exact ⟨_, hv, by decide +kernel, linkState_reached _ hv⟩

/-- **Not in every run**: after the handshake a packet is sent, and the port fails while its
acknowledgement is waited for. -/
theorem linkState_fails :
    ¬ ∀ w : World (List ReadRes), Visits (fun _ _ _ _ => true) w → LinkState w.g := by
  intro h
  have hv := visits_advance (fun _ _ _ _ => true) 100
    [.handshake, .cmdData (.ofList [ProtMa.cmdClose])] (handshakeReads ++ [.error 0])
  exact absurd (h _ hv (by decide +kernel)).1 (by decide +kernel)

/-! ## 3. The buffer bound -/

/-- No byte was stored past the end of a buffer, and a packet that is handed out is no longer
than `GBRIDGE_MAX_DATA_SIZE`. -/
def BufferBound (w : World σ) : Prop :=
  w.overrun = false ∧ (w.g.dataReady = true → w.g.dataSize.toNat ≤ maxDataSize)

/-- Every length byte of a packet is at most `GBRIDGE_MAX_DATA_SIZE`. -/
def lengthKept : (β : Type) → Op β → World σ → β → Bool
  | _, .store .dataSize bs, _, _ => bs.all fun b => b.toNat ≤ maxDataSize
  | _, _, _, _ => true

/-- What is kept: the bound on `data.size` does not wait for the packet to be complete. -/
structure Bounded (w : World σ) : Prop where
  inside : w.overrun = false
  size : w.g.dataSize.toNat ≤ maxDataSize

section BufferBound

variable {port : Port σ} {w : World σ} {cmd : UInt8}

abbrev boundSpec (port : Port σ) : Spec Op (World σ) :=
  Spec.guarded ((sem port).only lengthKept) BufferBound

theorem Bounded.bufferBound (h : Bounded w) : BufferBound w := ⟨h.inside, fun _ => h.size⟩

/-- A store of as many bytes as belong into the buffer stays inside. -/
theorem Bounded.store {dst : Dst} {bs : List UInt8} (h : Bounded w)
    (hin : dst.Within w.g bs.length) (hok : lengthKept _ (.store dst bs) w () = true) :
    Bounded { w with g := w.g.store bs dst, overrun := w.overrun || dst.overrun bs.length } := by
  obtain ⟨hrun, hsize⟩ := h
  cases dst with
  | scratch => exact ⟨by simp [hrun, Dst.overrun], hsize⟩
  | stream maxSize =>
    have hle : bs.length ≤ maxSize := hin
    exact ⟨by simp [hrun, Dst.overrun, hle], hsize⟩
  | dataBuf =>
    have hle : bs.length ≤ w.g.dataSize.toNat := hin
    exact ⟨by simp [hrun, Dst.overrun]; omega, hsize⟩
  | dataSize =>
    have hle : bs.length ≤ 1 := hin
    refine ⟨by simp [hrun, Dst.overrun, hle], ?_⟩
    cases bs with
    | nil => exact hsize
    | cons b bs =>
      have hb := List.all_eq_true.mp hok b List.mem_cons_self
      exact of_decide_eq_true hb

theorem tolerates_bounded (hport : port.Fitting) : Tolerates (boundSpec port) Bounded := by
  refine tolerates_guarded hport (fun w => Bounded.bufferBound) ?_
    (fun w dst bs => Bounded.store) (fun w w' h hg ho => ⟨ho ▸ h.inside, hg ▸ h.size⟩)
  rintro w g ⟨hrun, hsize⟩ ⟨-, hsame | hzero⟩
  · exact ⟨hrun, hsame ▸ hsize⟩
  · exact ⟨hrun, by rw [hzero]; decide⟩

/-- The wait does not touch the buffers. -/
theorem keeps_bounded_waitCmd (hport : port.Fitting) (cmd : UInt8) :
    Keeps (boundSpec port) Bounded (waitCmd cmd) := by
  have T := tolerates_bounded hport
  have htest : ∀ f : State → Bool, Keeps (boundSpec port) Bounded (do return f (← get)) :=
    fun f => .bind (keeps_get T) fun g => .ret _
  have hset : Keeps (boundSpec port) Bounded (modify fun g => { g with waitingCmd := cmd }) := by
    refine fun w h => T.get h ?_
    rintro _ w' ⟨rfl, -⟩
    have h' : Bounded { w with g := { w.g with waitingCmd := cmd } } := ⟨h.inside, h.size⟩
    exact ⟨h'.bufferBound, h'⟩
  refine .bind (keeps_get T) fun g => .ite ?_ (.ret ())
  exact .bind (.whileM (htest _) (keeps_gbridgeLoop T)) fun _ => .bind hset fun _ =>
    .whileM (htest _) (keeps_gbridgeLoop T)

end BufferBound

/-- **The bound is kept in every run in which no length byte exceeds it.**  The length byte of a
packet is what `recv_cmd_data` asks `recv_data` for, without a look at it; the other reads ask for
no more than their buffers hold. -/
theorem bufferBound_reached (w : World (List ReadRes)) (h : Visits lengthKept w) :
    BufferBound w := by
  obtain ⟨calls, port, p, hr⟩ := h
  have hkeeps := keeps_session (tolerates_bounded scripted_fitting)
    (fun cmd _ => keeps_bounded_waitCmd scripted_fitting cmd) calls
  have hstart : Bounded (World.start port) := ⟨rfl, Nat.zero_le _⟩
  exact guarded_reach (hkeeps (.start port) hstart) hstart.bufferBound hr

/-- A packet of two bytes arrives. -/
theorem bufferBound_two :
    ∃ w : World (List ReadRes), Visits lengthKept w ∧ w.g.data.bytes = [1, 7] ∧
      w.g.dataReady = true ∧ BufferBound w := by
  have hv := visits_advance lengthKept 100 [.handshake, .loop]
    (handshakeReads ++ [.bytes [Cmd.data], .bytes [2], .bytes [1, 7], .bytes [0, 8]])
  exact ⟨_, hv, by decide +kernel, by decide +kernel, bufferBound_reached _ hv⟩

/-- **Not in every run**: a length byte of 200 is followed by as many bytes. -/
theorem bufferBound_fails :
    ¬ ∀ w : World (List ReadRes), Visits (fun _ _ _ _ => true) w → BufferBound w := by
  intro h
  have hv := visits_advance (fun _ _ _ _ => true) 100 [.handshake, .loop]
    (handshakeReads ++ [.bytes [Cmd.data], .bytes [200], .bytes (List.replicate 200 0)])
  exact absurd (h _ hv).1 (by decide +kernel)

end GBridge.Bridge

/-
# What the adapter puts on the line

Whatever arrives and whatever the timer says, the bytes that the adapter has sent are whole messages
and the beginning of one more, in the middle of every call too (`transmit_messages`); and while it
waits for an acknowledgement it sends no message of its own (`transmit_stops`).

Both are walks through all of the code, by `Carries` and `Sends` (`Walk`); what they need is only
said for the operations and for the few places where something is sent.

* A function `Speaks` if it goes on from the end of a message to the end of a message.  The messages
  are a prefix code, so what has been sent can be cut in one way only.  A DATA packet is sent in one
  go.  A stream goes out from `gbridge_cmd_stream_start` to `gbridge_cmd_stream_finish`, and its
  length, which stands at the front, is that of the chunks in between (`speaks_putStream`).
* `Polite` says that nothing but an acknowledgement is sent while `waiting_cmd` is set.  The loops
  of `wait_cmd` only call `gbridge_loop`, and that sends acknowledgements only (`polite_waitCmd`).
-/
import GBridge.Atmega.Walk
import GBridge.Messages

namespace GBridge.Atmega

open Prog Bytes

/-! ## 1. Whole messages -/

/-- From whole messages to whole messages, in these surroundings. -/
abbrev Speaks (env : Surroundings) {α : Type} (p : Code α) : Prop :=
  messages.Speaks (live env) Live.tx p

/-- The operation sends nothing. -/
def Op.Silent : {α : Type} → Op α → Prop
  | _, .putchar _ => False
  | _, _ => True

theorem Op.Silent.tx (env : Surroundings) {α : Type} {e : Op α} (he : e.Silent) (w : Live) :
    (liveAnswer env e w).2.tx = w.tx := by
  cases e with
  | putchar c => exact he.elim
  | getchar => rw [liveAnswer]; split <;> rfl
  | _ => rfl

theorem Op.Still.silent {α : Type} {e : Op α} (he : e.Still) : e.Silent := by
  cases e with
  | set | available | getchar | putchar => exact he.elim
  | _ => trivial

section Speaks

variable {env : Surroundings} {α : Type}

theorem speaks_silent {p : Code α} (h : p.Every Op.Silent) : Speaks env p := by
  refine PrefixCode.Speaks.silent (P := Op.Silent) ?_ h
  intro γ e he w b w' hs
  rw [← he.tx env w]
  exact congrArg (fun r => r.2.tx) hs.symm

theorem speaks_get {k : State → Code α} (h : ∀ g, Speaks env (k g)) :
    Speaks env (get.bind k) :=
  .bind (speaks_silent ⟨trivial, fun _ => trivial⟩) h

theorem speaks_modify (f : State → State) : Speaks env (modify f) :=
  speaks_silent ⟨trivial, fun _ => ⟨trivial, fun _ => trivial⟩⟩

/-- An operation that only the port or the timer answers. -/
theorem speaks_cmd {e : Op α} (he : e.Silent) : Speaks env (.cmd e) :=
  speaks_silent ⟨he, fun _ => trivial⟩

/-- Bytes go out one after the other, and the text is one at each of them. -/
theorem speech_putchars {Q : Unit → Live → Prop} : ∀ {cs : List UInt8} {w : Live},
    messages.Text (w.tx ++ cs) → Q () { w with tx := w.tx ++ cs } →
      wpre (messages.speech (live env) Live.tx) false (serialPutchars cs) Q w
  | [], w, _, h => by
    rw [List.append_nil] at h
    exact h
  | c :: cs, w, htext, h => by
    rw [List.append_cons] at htext h
    rintro _ w' ⟨⟩
    exact ⟨htext.of_prefix (List.prefix_append _ _), speech_putchars htext h⟩

/-- Reading the variables sends nothing, and they are what they are. -/
theorem speech_get {k : State → Code α} {Q : α → Live → Prop} {w : Live}
    (htext : messages.Text w.tx) (h : wpre (messages.speech (live env) Live.tx) false (k w.g) Q w) :
    wpre (messages.speech (live env) Live.tx) false (get.bind k) Q w := by
  rintro _ w' ⟨⟩
  exact ⟨htext, h⟩

theorem speech_modify {f : State → State} {Q : Unit → Live → Prop} {w : Live}
    (htext : messages.Text w.tx) (h : Q () { w with g := f w.g }) :
    wpre (messages.speech (live env) Live.tx) false (modify f) Q w := by
  refine speech_get htext ?_
  rintro _ w' ⟨⟩
  exact ⟨htext, h⟩

/-- A message goes out. -/
theorem speaks_message (m : Message) : Speaks env (serialPutchars (messages.encode m)) :=
  fun _ hw => speech_putchars (hw.word m).text (hw.word m)

/-- An acknowledgement is a message. -/
theorem speaks_ack {cmd : UInt8} {m : Message} (hm : messages.encode m = [ack cmd]) :
    Speaks env (serialPutchar (ack cmd)) := by
  have h : Speaks env (serialPutchars [ack cmd]) := hm ▸ speaks_message m
  exact h

theorem speaks_doHandshake : Speaks env doHandshake := by
  refine .bind (speaks_cmd trivial) fun n => .ite (.ret false) ?_
  refine .bind (speaks_cmd trivial) fun c => speaks_get fun g => ?_
  refine .ite (.bind (speaks_modify _) fun _ => .ret false) ?_
  refine .bind (speaks_modify _) fun _ => speaks_get fun g => .ite (.ret false) ?_
  refine .bind (speaks_modify _) fun _ => .bind ?_ fun _ => .ret true
  exact speaks_message ⟨.handshake, ()⟩

/-- All that `gbridge_loop` sends are acknowledgements and the handshake. -/
theorem speaks_carries : Carries (messages.speech (live env) Live.tx)
    (fun w => messages.Whole w.tx) where
  get hw h := speech_get hw.text h
  modify _ := speaks_modify _
  still he := speaks_cmd he.silent
  ack hcmd := by
    rcases hcmd with rfl | rfl
    · exact speaks_ack (m := ⟨.ackDataPc, ()⟩) rfl
    · exact speaks_ack (m := ⟨.ackStreamPc, ()⟩) rfl
  reset := .bind (speaks_modify _) fun _ => .bind (speaks_ack (m := ⟨.ackReset, ()⟩) rfl)
    fun _ => .ret 1
  handshake hw _ := speaks_doHandshake _ hw
  byte hp hk := keeps_readByte (speaks_cmd trivial) (speaks_cmd trivial) hp hk
  pairAlone hp hk :=
    keeps_readPair (speaks_cmd trivial) (speaks_cmd trivial) hp (fun _ => .ret ()) hk
  pairSet hp _ hk :=
    keeps_readPair (speaks_cmd trivial) (speaks_cmd trivial) hp (fun _ => speaks_modify _) hk

/-! ## 2. The frames -/

theorem speaks_waitCmd (cmd : UInt8) : Speaks env (waitCmd cmd) := by
  have hwait : ∀ c : State → Bool, Speaks env (.whileM (do return c (← get)) gbridgeLoop) :=
    fun c => .whileM (speaks_get fun _ => .ret _) speaks_carries.gbridgeLoop
  refine speaks_get fun _ => .ite (.bind (hwait _) fun _ => ?_) (.ret ())
  exact .bind (speaks_cmd trivial) fun _ => .bind (speaks_modify _) fun _ => hwait _

theorem serialPutchars_append (as bs : List UInt8) :
    serialPutchars (as ++ bs) = (serialPutchars as).bind fun _ => serialPutchars bs := by
  induction as with
  | nil => rfl
  | cons a as ih =>
    rw [List.cons_append]
    exact congrArg (Prog.op (.putchar a)) (funext fun _ => ih)

/-- What is sent of a packet is its frame. -/
theorem putDataFrame_eq {bs : List UInt8} (hlen : bs.length < 256) :
    putDataFrame (.ofList bs) = serialPutchars (dataFrame Cmd.data bs) := by
  have hsum : checksumAdd 0 bs (UInt8.ofNat bs.length).toNat =
      (GbridgeData.ofList bs).checksumData := by
    rw [checksumAdd, Nat.mod_eq_of_lt (UInt8.toNat_lt _)]
    rfl
  rw [dataFrame_eq _ hlen, List.append_assoc, serialPutchars_append, serialPutchars_append, ← hsum]
  rfl

theorem speaks_putDataFrame {bs : List UInt8} (hlen : bs.length ≤ maxDataSize) :
    Speaks env (putDataFrame (.ofList bs)) := by
  rw [putDataFrame_eq (lt_of_le_of_lt hlen (by decide))]
  exact speaks_message ⟨.data, bs, hlen⟩

/-- What is summed of a stream sent in one piece. -/
theorem checksumAdd_ofList (bs : List UInt8) :
    checksumAdd 0 bs bs.length = (GbridgeData.ofList bs).checksumData := by
  rw [checksumAdd, GbridgeData.checksumData, GbridgeData.bytes, GbridgeData.ofList,
    UInt8.toNat_ofNat']

/-- A function that does nothing while the link is down. -/
theorem speech_down {p : Code Unit} {Q : Unit → Live → Prop} {w : Live}
    (htext : messages.Text w.tx) (hdown : w.g.connected = false) (h : Q () w) :
    wpre (messages.speech (live env) Live.tx) false
      (get.bind fun g => if g.connected then p else return ()) Q w := by
  refine speech_get htext ?_
  rw [hdown]
  exact h

/-- And which goes on with it while the link is up. -/
theorem speech_up {p : Code Unit} {Q : Unit → Live → Prop} {w : Live}
    (htext : messages.Text w.tx) (hup : w.g.connected = true)
    (h : wpre (messages.speech (live env) Live.tx) false p Q w) :
    wpre (messages.speech (live env) Live.tx) false
      (get.bind fun g => if g.connected then p else return ()) Q w := by
  refine speech_get htext ?_
  rw [hup]
  exact h

theorem speech_streamStart {n : Nat} {Q : Unit → Live → Prop} {w : Live}
    (hup : w.g.connected = true) (htext : messages.Text (w.tx ++ [Cmd.stream, hi n, lo n]))
    (h : Q () { w with
      tx := w.tx ++ [Cmd.stream, hi n, lo n], g := { w.g with streamChecksum := 0 } }) :
    wpre (messages.speech (live env) Live.tx) false (gbridgeCmdStreamStart n) Q w := by
  have hhead : wpre (messages.speech (live env) Live.tx) false
      ((serialPutchars [Cmd.stream, hi n, lo n]).bind fun _ =>
        modify fun g => { g with streamChecksum := 0 }) Q w :=
    wpre_bind.mpr (speech_putchars htext (speech_modify htext h))
  exact speech_up (htext.of_prefix (List.prefix_append _ _)) hup hhead

theorem speech_streamData {bs : List UInt8} {Q : Unit → Live → Prop} {w : Live}
    (hup : w.g.connected = true) (htext : messages.Text (w.tx ++ bs))
    (h : Q () { w with
      tx := w.tx ++ bs
      g := { w.g with streamChecksum := checksumAdd w.g.streamChecksum bs bs.length } }) :
    wpre (messages.speech (live env) Live.tx) false (gbridgeCmdStreamData bs) Q w := by
  have hw := htext.of_prefix (List.prefix_append _ _)
  exact speech_up hw hup (wpre_bind.mpr (speech_modify hw (speech_putchars htext h)))

theorem speech_streamFinish {Q : Unit → Live → Prop} {w : Live} (hup : w.g.connected = true)
    (hwhole : messages.Whole (w.tx ++ [hi w.g.streamChecksum, lo w.g.streamChecksum]))
    (h : ∀ w' : Live, messages.Whole w'.tx → Q () w') :
    wpre (messages.speech (live env) Live.tx) false gbridgeCmdStreamFinish Q w := by
  have hw := hwhole.text.of_prefix (List.prefix_append _ _)
  have htail : wpre (messages.speech (live env) Live.tx) false
      (serialPutchars [hi w.g.streamChecksum, lo w.g.streamChecksum])
      (fun _ w' => wpre (messages.speech (live env) Live.tx) false (waitCmd Cmd.stream) Q w') w :=
    speech_putchars hwhole.text (wpre_mono (fun _ => h) (speaks_waitCmd _ _ hwhole))
  exact speech_up hw hup (wpre_bind.mpr (speech_get hw htail))

/-- Where the link is down nothing is sent of a stream, and where it is up all of its frame. -/
theorem speaks_putStream {buffer : List UInt8} (hlen : buffer.length ≤ 0xffff) :
    Speaks env (putStream buffer) := by
  intro w hw
  cases hup : w.g.connected with
  | false =>
    exact wpre_bind.mpr (speech_down hw.text hup (wpre_bind.mpr (speech_down hw.text hup
      (speech_down hw.text hup hw))))
  | true =>
    let checksum := checksumAdd 0 buffer buffer.length
    have hframe : messages.Whole (w.tx ++ [Cmd.stream, hi buffer.length, lo buffer.length] ++
        buffer ++ [hi checksum, lo checksum]) := by
      have h := hw.word ⟨.stream, buffer, hlen⟩
      rw [show messages.encode ⟨.stream, buffer, hlen⟩ = streamFrame Cmd.stream buffer from rfl,
        streamFrame, checksumBytes, ← checksumAdd_ofList] at h
      simpa [checksum] using h
    have hbody := hframe.text.of_prefix (List.prefix_append _ _)
    have hhead := hbody.of_prefix (List.prefix_append _ _)
    refine wpre_bind.mpr (speech_streamStart hup hhead ?_)
    refine wpre_bind.mpr (speech_streamData hup hbody ?_)
    exact speech_streamFinish hup hframe fun _ hw' => hw'

theorem speaks_sends : Sends (messages.speech (live env) Live.tx)
    (fun w => messages.Whole w.tx) where
  toCarries := speaks_carries
  wait := speaks_waitCmd
  line line hlen := speaks_message ⟨.debugLine, line, hlen⟩
  packet _ := speaks_putDataFrame
  stream _ := speaks_putStream

end Speaks

/-! ## 3. The line -/

/-- `gbridge_init` has just been called, and nothing has been sent. -/
def Fresh (w : Live) : Prop := Initialised w ∧ w.tx = []

/-- The worlds between calls, each with arguments of the size they can have. -/
abbrev Used : Live → Prop :=
  Between Fresh (fun c : { c : ApiCall // c.Fits } => c.1.code) fun _ w => w

theorem Used.whole {w : Live} (h : Used w) : messages.Whole w.tx := by
  induction h with
  | start h => exact h.2 ▸ messages.whole_nil
  | call env c _ he ih =>
    exact wpre_eval (Q := fun _ w' => messages.Whole w'.tx) (Spec.guarded_sound _ _)
      (speaks_sends.call c.2 _ ih) he

/-- **The adapter sends whole messages.**  In every state of every run, what it has sent can be
cut, in one way only, into messages and the beginning of one more; and when a call returns nothing
has begun. -/
theorem transmit_messages (env : Surroundings) (w : Live) (h : Used w) (c : ApiCall)
    (hc : c.Fits) (p : Code Unit) (w' : Live) (hr : Reach (live env) (c.code, w) (p, w')) :
    ∃ ms part, messages.Cut w'.tx (∃ b, p = .ret b) ms part :=
  PrefixCode.Speaks.cut (speaks_sends.call hc) PrefixCode.tagged_proper ⟨.handshake, ()⟩ h.whole hr

/-- The handshake, and most of a packet from the bridge; the checksum arrives while a request of
the adapter is on its way. -/
def crossing : Surroundings where
  arrive k := if k = 0 then handshake ++ [Cmd.dataPc, 1, 7] else if k = 9 then [0, 7] else []
  clock _ := 0

/-- Five calls of `gbridge_loop`: the link is up, and the packet under way. -/
def crossed : List (Surroundings × ApiCall) := List.replicate 5 (crossing, .loop)

/-- What is computed of a call. -/
abbrev crossingAnswer : (β : Type) → Op β → Live → Option (β × Live) :=
  fun _ e w => some (liveAnswer crossing e w)

theorem crossing_sound (β : Type) (e : Op β) (w : Live) (b : β) (w' : Live)
    (h : crossingAnswer β e w = some (b, w')) : live crossing β e w b w' := Option.some.inj h

/-- In the middle of a request: the handshake, and three bytes of a packet. -/
theorem transmit_messages_request : ∃ w p w', Used w ∧
    Reach (live crossing) ((ApiCall.sockClose 1).code, w) (p, w') ∧
      w'.tx = handshake ++ [Cmd.data, 2, 1] ∧
        ∃ ms part, messages.Cut w'.tx (∃ b, p = .ret b) ms part := by
  have hrun : ((callAll (fun c : { c : ApiCall // c.Fits } => c.1.code) (fun _ w => w) 50
      (List.replicate 5 (crossing, ⟨.loop, trivial⟩)) { g := State.init {} }).bind fun w =>
        (nexts crossingAnswer 4 ((ApiCall.sockClose 1).code, w)).map (·.2.tx)) =
      some (handshake ++ [Cmd.data, 2, 1]) := by decide +kernel
  obtain ⟨w, hw, hrest⟩ := Option.bind_eq_some_iff.mp hrun
  obtain ⟨⟨p, w'⟩, hsteps, htx⟩ := Option.map_eq_some_iff.mp hrest
  have hused : Used w := Between.callAll _ (.start ⟨⟨{}, rfl⟩, rfl⟩) hw
  have hr := nexts_reach crossing_sound hsteps
  exact ⟨w, p, w', hused, hr, htx,
    transmit_messages crossing w hused (.sockClose 1) trivial p w' hr⟩

/-! ## 4. One message at a time -/

/-- What may be done while an acknowledgement is awaited: of sending, the acknowledgement of a
packet or of a stream that was under way. -/
def Op.Polite : {α : Type} → Op α → Live → Prop
  | _, .putchar c, _ => c = ack Cmd.dataPc ∨ c = ack Cmd.streamPc
  | _, .set g, w => g.waitingCmd = w.g.waitingCmd ∨ g.waitingCmd = Cmd.none
  | _, _, _ => True

/-- An operation that neither sends nor sets a variable. -/
def Op.Calm : {α : Type} → Op α → Prop
  | _, .putchar _ | _, .set _ => False
  | _, _ => True

theorem Op.Still.calm {α : Type} {e : Op α} (he : e.Still) : e.Calm := by
  cases e with
  | set | available | getchar | putchar => exact he.elim
  | _ => trivial

/-- While an acknowledgement is awaited the link is up. -/
def Live.LinkedWait (w : Live) : Prop := w.g.waitingCmd ≠ Cmd.none → w.g.connected = true

/-- Each operation is watched. -/
abbrev politeSpec (env : Surroundings) : Spec Op Live :=
  Spec.watched (live env) (fun e w => w.g.waitingCmd ≠ Cmd.none → e.Polite w) Live.LinkedWait

/-- Nothing but this acknowledgement is awaited, and it only while the link is up. -/
structure Live.Waits (cmd : UInt8) (w : Live) : Prop where
  waiting : w.g.waitingCmd = cmd ∨ w.g.waitingCmd = Cmd.none
  linked : w.LinkedWait

theorem Live.waits_none {w : Live} : w.Waits Cmd.none ↔ w.g.waitingCmd = Cmd.none :=
  ⟨fun h => h.waiting.elim id id, fun h => ⟨.inl h, fun hne => absurd h hne⟩⟩

abbrev Polite (env : Surroundings) (cmd : UInt8) {α : Type} (p : Code α) : Prop :=
  Keeps (politeSpec env) (Live.Waits cmd) p

section Polite

variable {env : Surroundings} {cmd : UInt8} {α : Type}

/-- Each operation has one answer. -/
theorem polite_op {e : Op α} {Q : α → Live → Prop} {w : Live}
    (hok : w.g.waitingCmd ≠ Cmd.none → e.Polite w) (hlinked : (liveAnswer env e w).2.LinkedWait)
    (h : Q (liveAnswer env e w).1 (liveAnswer env e w).2) : (politeSpec env).pre e Q w := by
  refine ⟨hok, ?_⟩
  intro b w' hs
  rw [show liveAnswer env e w = (b, w') from hs] at hlinked h
  exact ⟨hlinked, h⟩

theorem polite_get {k : State → Code α} {Q : α → Live → Prop} {w : Live} (hw : w.LinkedWait)
    (h : wpre (politeSpec env) false (k w.g) Q w) :
    wpre (politeSpec env) false (get.bind k) Q w :=
  polite_op (e := Op.get) (fun _ => trivial) hw h

theorem polite_set {f : State → State} {Q : Unit → Live → Prop} {w : Live} (hw : w.LinkedWait)
    (hok : w.g.waitingCmd ≠ Cmd.none → Op.Polite (.set (f w.g)) w)
    (hlinked : Live.LinkedWait { w with g := f w.g }) (h : Q () { w with g := f w.g }) :
    wpre (politeSpec env) false (modify f) Q w :=
  polite_get hw (polite_op (e := Op.set (f w.g)) hok hlinked h)

theorem polite_modify {f : State → State} (hf : ∀ g, Mild g (f g)) :
    Polite env cmd (modify f) := by
  intro w hw
  rcases hf w.g with ⟨hsame, hup⟩ | hnone
  · have hlinked : Live.LinkedWait { w with g := f w.g } := fun hne =>
      hup (hw.linked (hsame ▸ hne))
    exact polite_set hw.linked (fun _ => .inl hsame) hlinked ⟨hsame.symm ▸ hw.waiting, hlinked⟩
  · have hlinked : Live.LinkedWait { w with g := f w.g } := fun hne => absurd hnone hne
    exact polite_set hw.linked (fun _ => .inr hnone) hlinked ⟨.inr hnone, hlinked⟩

theorem polite_calm {e : Op α} (he : e.Calm) : Polite env cmd (.cmd e) := by
  intro w hw
  have hsame : (liveAnswer env e w).2.g.waitingCmd = w.g.waitingCmd ∧
      (liveAnswer env e w).2.g.connected = w.g.connected := by
    cases e with
    | putchar c | set g => exact he.elim
    | getchar => rw [liveAnswer]; split <;> exact ⟨rfl, rfl⟩
    | _ => exact ⟨rfl, rfl⟩
  have hw' : (liveAnswer env e w).2.Waits cmd := by
    refine ⟨hsame.1.symm ▸ hw.waiting, fun hne => ?_⟩
    rw [hsame.2]
    exact hw.linked (hsame.1 ▸ hne)
  refine polite_op (fun _ => ?_) hw'.linked hw'
  cases e with
  | putchar c | set g => exact he.elim
  | _ => trivial

/-- While nothing is awaited, anything may be sent. -/
theorem polite_putchar (c : UInt8) : Polite env Cmd.none (serialPutchar c) := by
  intro w hw
  have hnone := Live.waits_none.mp hw
  exact polite_op (e := Op.putchar c) (fun hne => absurd hnone hne) hw.linked ⟨hw.1, hw.2⟩

theorem polite_putchars : ∀ cs : List UInt8, Polite env Cmd.none (serialPutchars cs)
  | [] => .ret ()
  | c :: cs => .bind (polite_putchar c) fun _ => polite_putchars cs

theorem polite_reads {k : State → Code α} (hk : ∀ g, Polite env cmd (k g)) :
    Polite env cmd (get.bind k) := fun w hw => polite_get hw.linked (hk w.g w hw)

theorem polite_doHandshake : Polite env Cmd.none doHandshake := by
  refine .bind (polite_calm trivial) fun n => .ite (.ret false) ?_
  refine .bind (polite_calm trivial) fun c => polite_reads fun g => ?_
  refine .ite (.bind (polite_modify fun _ => .same rfl rfl) fun _ => .ret false) ?_
  refine .bind (polite_modify fun _ => .same rfl rfl) fun _ =>
    polite_reads fun g => .ite (.ret false) ?_
  exact .bind (polite_modify fun _ => .same rfl rfl) fun _ =>
    .bind (polite_putchars _) fun _ => .ret true

/-- A reset gives up what is awaited before it is acknowledged, and a handshake comes only while
the link is down. -/
theorem polite_carries : Carries (politeSpec env) (Live.Waits cmd) where
  get hw h := polite_get hw.linked h
  modify hf := polite_modify hf
  still he := polite_calm he.calm
  ack {c} hc := by
    intro w hw
    refine polite_op (e := Op.putchar (ack c)) (fun _ => ?_) hw.linked ⟨hw.1, hw.2⟩
    rcases hc with rfl | rfl
    · exact .inl rfl
    · exact .inr rfl
  reset := by
    intro w hw
    have hdown : Live.Waits Cmd.none { w with g := w.g.init } := Live.waits_none.mpr rfl
    refine wpre_bind.mpr (polite_set hw.linked (fun _ => .inr rfl) hdown.linked ?_)
    refine wpre_mono ?_ (Keeps.bind (polite_putchar _) (fun _ => .ret 1) _ hdown)
    intro _ w' hw'
    exact ⟨.inr (Live.waits_none.mp hw'), hw'.linked⟩
  handshake {w} hw hdown := by
    have hnone : w.g.waitingCmd = Cmd.none := by
      by_contra hne
      rw [hw.linked hne] at hdown
      cases hdown
    refine wpre_mono ?_ (polite_doHandshake w (Live.waits_none.mpr hnone))
    intro _ w' hw'
    exact ⟨.inr (Live.waits_none.mp hw'), hw'.linked⟩
  byte hp hk := keeps_readByte (polite_calm trivial) (polite_calm trivial) hp hk
  pairAlone hp hk :=
    keeps_readPair (polite_calm trivial) (polite_calm trivial) hp (fun _ => .ret ()) hk
  pairSet hp hf hk :=
    keeps_readPair (polite_calm trivial) (polite_calm trivial) hp (fun h => polite_modify (hf h)) hk

/-- `wait_cmd` begins to wait when nothing is awaited, and returns when nothing is awaited any
more. -/
theorem polite_waitCmd (cmd : UInt8) : Polite env Cmd.none (waitCmd cmd) := by
  intro w hw
  have hnone := Live.waits_none.mp hw
  refine polite_get hw.linked ?_
  split
  · rename_i hup
    refine wpre_bind.mpr (wlp_whileM (fun w' => w' = w) rfl ?_)
    rintro _ rfl
    refine polite_get hw.linked ?_
    rw [hnone]
    refine wpre_bind.mpr (polite_op (e := Op.timerGet) (fun _ => trivial) hw.linked ?_)
    refine wpre_bind.mpr (polite_set hw.linked (fun hne => absurd hnone hne) (fun _ => hup) ?_)
    refine wlp_whileM (Live.Waits cmd) ⟨.inl rfl, fun _ => hup⟩ ?_
    intro w' hw'
    refine polite_get hw'.linked ?_
    show if (w'.g.waitingCmd == cmd) = true then _ else _
    split
    · exact polite_carries.gbridgeLoop w' hw'
    · rename_i hleft
      exact Live.waits_none.mpr (hw'.waiting.resolve_left fun h => hleft (beq_iff_eq.mpr h))
  · exact hw

theorem polite_sends : Sends (politeSpec env) (Live.Waits Cmd.none) where
  toCarries := polite_carries
  wait := polite_waitCmd
  line _ _ := polite_putchars _
  packet bs _ := .bind (polite_putchar _) fun _ => .bind (polite_putchar _) fun _ =>
    .bind (polite_putchars _) fun _ => .bind (polite_putchar _) fun _ => polite_putchar _
  stream buffer _ := by
    refine .bind (polite_reads fun _ => .ite ?_ (.ret ())) fun _ =>
      .bind (polite_reads fun _ => .ite ?_ (.ret ())) fun _ =>
        polite_reads fun _ => .ite ?_ (.ret ())
    · exact .bind (polite_putchar _) fun _ => .bind (polite_putchar _) fun _ =>
        .bind (polite_putchar _) fun _ => polite_modify fun _ => .same rfl rfl
    · exact .bind (polite_modify fun _ => .same rfl rfl) fun _ => polite_putchars buffer
    · exact .bind (polite_reads fun _ => .bind (polite_putchar _) fun _ => polite_putchar _)
        fun _ => polite_waitCmd _

end Polite

theorem Called.waiting {w : Live} (h : Called w) : w.g.waitingCmd = Cmd.none := by
  have hdisarmed : w.g.Disarmed := by
    refine Between.keeps False ?_ (fun env c w hw => c.leaves env w hw) h
    rintro w ⟨g, hg⟩
    rw [hg]
    exact ⟨rfl, rfl, fun _ => ⟨rfl, rfl⟩⟩
  exact hdisarmed.waiting

/-- **The adapter stops and waits.**  As long as an acknowledgement is awaited the link is up, no
other one is awaited in its place, and nothing is sent but acknowledgements, of a packet or of a
stream that was under way. -/
theorem transmit_stops (env : Surroundings) (w : Live) (h : Called w) (c : ApiCall) (hc : c.Fits)
    (p p' : Code Unit) (w₁ w₂ : Live) (hr : Reach (live env) (c.code, w) (p, w₁))
    (hs : Step (live env) (p, w₁) (p', w₂)) (hwaiting : w₁.g.waitingCmd ≠ Cmd.none) :
    w₁.g.connected = true ∧
      (w₂.g.waitingCmd = w₁.g.waitingCmd ∨ w₂.g.waitingCmd = Cmd.none) ∧
      (w₂.tx = w₁.tx ∨ w₂.tx = w₁.tx ++ [ack Cmd.dataPc] ∨
        w₂.tx = w₁.tx ++ [ack Cmd.streamPc]) := by
  have hw : w.Waits Cmd.none := Live.waits_none.mpr h.waiting
  obtain ⟨hok, -, hlinked⟩ := watched_reach (polite_sends.call hc w hw) hw.linked hr
  refine ⟨hlinked hwaiting, ?_⟩
  cases p with
  | ret a => exact hs.elim
  | loop body k =>
    obtain ⟨-, rfl⟩ := hs
    exact ⟨.inl rfl, .inl rfl⟩
  | op e k =>
    obtain ⟨b, hs, -⟩ := hs
    have hpolite := hok _ e k rfl hwaiting
    have hans : (liveAnswer env e w₁).2 = w₂ := congrArg Prod.snd hs
    rw [← hans]
    cases e with
    | putchar c =>
      refine ⟨.inl rfl, .inr ?_⟩
      rcases hpolite with hc | hc
      · exact .inl (hc ▸ rfl)
      · exact .inr (hc ▸ rfl)
    | set g => exact ⟨hpolite, .inl rfl⟩
    | getchar => rw [liveAnswer]; split <;> exact ⟨.inl rfl, .inl rfl⟩
    | _ => exact ⟨.inl rfl, .inl rfl⟩

/-- The request is out and its acknowledgement awaited; the packet is complete, and its own
acknowledgement goes out. -/
theorem transmit_stops_crossing : ∃ w p p' w₁ w₂, Called w ∧
    Reach (live crossing) ((ApiCall.sockClose 1).code, w) (p, w₁) ∧
      Step (live crossing) (p, w₁) (p', w₂) ∧ w₁.g.waitingCmd = Cmd.data ∧
        w₂.tx = w₁.tx ++ [ack Cmd.dataPc] ∧ w₁.g.connected = true := by
  have hrun : ((callAll ApiCall.code (fun _ w => w) 50 crossed { g := State.init {} }).bind
      fun w => (nexts crossingAnswer 26 ((ApiCall.sockClose 1).code, w)).bind fun c =>
        (next crossingAnswer c).map fun c' =>
          (c.2.g.waitingCmd, decide (c'.2.tx = c.2.tx ++ [ack Cmd.dataPc]))) =
      some (Cmd.data, true) := by decide +kernel
  obtain ⟨w, hw, hrest⟩ := Option.bind_eq_some_iff.mp hrun
  obtain ⟨⟨p, w₁⟩, hsteps, hrest⟩ := Option.bind_eq_some_iff.mp hrest
  obtain ⟨⟨p', w₂⟩, hstep, hseen⟩ := Option.map_eq_some_iff.mp hrest
  obtain ⟨hwaiting, htx⟩ := Prod.mk.inj hseen
  have hcalled : Called w := Between.callAll crossed (.start ⟨{}, rfl⟩) hw
  have hr := nexts_reach crossing_sound hsteps
  have hs := next_step crossing_sound hstep
  have hne : w₁.g.waitingCmd ≠ Cmd.none := by rw [hwaiting]; decide
  have hstops := transmit_stops crossing w hcalled (.sockClose 1) trivial p p' w₁ w₂ hr hs hne
  exact ⟨w, p, p', w₁, w₂, hcalled, hr, hs, hwaiting, of_decide_eq_true htx, hstops.1⟩

end GBridge.Atmega

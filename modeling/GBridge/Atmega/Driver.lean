/-
# The two queues are what the link layer sees

A run of the chip, with the handlers at any point of it, is a run of the link layer among some
surroundings: the program is the same in every state, and so are the variables, what the calls have
returned and what has been passed to `serial_putchar`; and what the link layer takes to have arrived
has arrived (`chip_refines`).  So what is proved of every surroundings holds of the chip.

The surroundings are put together as the run goes on (`Follows`).  Each `serial_available` hears
what has been accepted since the one before, as far as its result counts it, and each reading of the
timer gets what it gets.  Surroundings that agree as far as a run has asked them allow the same run
(`Agree`), so that more can be put in at the end.

Two things are drawn from it.  They need nothing of the chip but that its state is one that the link
layer has come to:

* `wire_messages`: `transmit_order` says that the bytes written to `UDR0` are those passed to
  `serial_putchar`, and `transmit_messages` that these are whole messages.  What the USART makes of
  a byte that is written while `UDRE0` is clear is not asked here;
* `getchar_never_waits`: by `Ready` each `serial_getchar` follows a `serial_available` that has
  counted enough, and what has been counted stays in the ring.
-/
import GBridge.Atmega.Chip
import GBridge.Atmega.Transmit

namespace GBridge.Atmega

open Prog

/-! ## 1. Surroundings that agree so far -/

/-- The same as far as has been looked and read. -/
structure Agree (env env' : Surroundings) (l : Live) : Prop where
  arrive : ∀ k < l.looks, env'.arrive k = env.arrive k
  clock : ∀ k < l.reads, env'.clock k = env.clock k

theorem Agree.refl (env : Surroundings) (l : Live) : Agree env env l :=
  ⟨fun _ _ => rfl, fun _ _ => rfl⟩

section Agree

variable {env env' : Surroundings} {β : Type} {e : Op β} {l : Live}

theorem liveAnswer_looks : l.looks ≤ (liveAnswer env e l).2.looks ∧
    l.reads ≤ (liveAnswer env e l).2.reads := by
  cases e with
  | getchar => rw [liveAnswer]; split <;> exact ⟨Nat.le_refl _, Nat.le_refl _⟩
  | available => exact ⟨Nat.le_succ _, Nat.le_refl _⟩
  | timerGet | expired => exact ⟨Nat.le_refl _, Nat.le_succ _⟩
  | _ => exact ⟨Nat.le_refl _, Nat.le_refl _⟩

theorem Agree.before (h : Agree env env' (liveAnswer env e l).2) : Agree env env' l :=
  ⟨fun k hk => h.arrive k (lt_of_lt_of_le hk liveAnswer_looks.1),
    fun k hk => h.clock k (lt_of_lt_of_le hk liveAnswer_looks.2)⟩

/-- An answer only rests on what is new. -/
theorem Agree.answer (h : Agree env env' (liveAnswer env e l).2) :
    liveAnswer env' e l = liveAnswer env e l := by
  cases e with
  | available =>
    have hnew := h.arrive l.looks (Nat.lt_succ_self _)
    simp only [liveAnswer, hnew]
  | timerGet | expired =>
    have hnew := h.clock l.reads (Nat.lt_succ_self _)
    simp only [liveAnswer, hnew]
  | _ => rfl

/-- These bytes arrive at the next look, and this is what the timer says next. -/
def Surroundings.extend (env : Surroundings) (l : Live) (bs : List UInt8) (t : UInt32) :
    Surroundings where
  arrive := Function.update env.arrive l.looks bs
  clock := Function.update env.clock l.reads t

theorem Agree.extend (env : Surroundings) (l : Live) (bs : List UInt8) (t : UInt32) :
    Agree env (env.extend l bs t) l :=
  ⟨fun _ hk => Function.update_of_ne (Nat.ne_of_lt hk) .., fun _ hk =>
    Function.update_of_ne (Nat.ne_of_lt hk) ..⟩

theorem Agree.trans {env₁ env₂ : Surroundings} (h : Agree env env₁ l) (h' : Agree env₁ env₂ l) :
    Agree env env₂ l :=
  ⟨fun k hk => (h'.arrive k hk).trans (h.arrive k hk),
    fun k hk => (h'.clock k hk).trans (h.clock k hk)⟩

end Agree

/-! ## 2. What the link layer sees of the receiving half -/

/-- Inside `serial_getchar` and not yet back. -/
def RxPc.Getting : RxPc → Prop
  | .testHead | .testTail _ | .read | .advance _ => True
  | _ => False

/-- Inside `serial_available`, which began with so many bytes unread. -/
def RxPc.Counting (n : Nat) : RxPc → Prop
  | .availHead before | .availTail before _ => before = n
  | _ => False

namespace Rx

variable {s s' : Rx} {rx : List UInt8}

/-- What has been seen to arrive has arrived, and is read first. -/
def Heard (s : Rx) (rx : List UInt8) : Prop := s.returned ++ rx <+: s.accepted

/-- `serial_getchar` has been called: it has the byte it returns, or it is on its way to it and
does not wait. -/
inductive Reading (s : Rx) (rx : List UInt8) : Prop
  | before : s.Heard rx → s.pc.Getting →
    (∀ head, s.pc = .testTail head → s.serialRx.isempty head = false) → Reading s rx
  | after {bs : List UInt8} {c : UInt8} : s.pc = .idle → s.returned = bs ++ [c] →
    bs ++ rx <+: s.accepted → Reading s rx

/-- `serial_available` has been called: it has a result that counts all that has been heard, or it
will. -/
inductive Counting (s : Rx) (rx : List UInt8) : Prop
  | before {n : Nat} : s.Heard rx → rx.length ≤ n → s.pc.Counting n → Counting s rx
  | after {p : Report} : s.Heard rx → s.pc = .idle → s.reports.getLast? = some p →
    rx.length ≤ p.value.toNat → p.value.toNat ≤ s.unread → Counting s rx

/-- What the handler leaves as it is. -/
theorem serialReceive_same (s : Rx) (c : UInt8) (error : Bool) :
    (serialReceive s c error).pc = s.pc ∧ (serialReceive s c error).returned = s.returned ∧
      (serialReceive s c error).reports = s.reports ∧
        (serialReceive s c error).serialRx.tail = s.serialRx.tail ∧
          s.accepted <+: (serialReceive s c error).accepted := by
  unfold serialReceive
  split
  · exact ⟨rfl, rfl, rfl, rfl, List.prefix_refl _⟩
  · exact ⟨rfl, rfl, rfl, rfl, List.prefix_append _ _⟩

theorem Heard.interrupt (h : s.Heard rx) (c : UInt8) (error : Bool) :
    (serialReceive s c error).Heard rx := by
  obtain ⟨-, hreturned, -, -, haccepted⟩ := s.serialReceive_same c error
  rw [Heard, hreturned]
  exact h.trans haccepted

theorem Reading.interrupt (h : s.Reading rx) (c : UInt8) (error : Bool) :
    (serialReceive s c error).Reading rx := by
  obtain ⟨hpc, hreturned, -, htail, haccepted⟩ := s.serialReceive_same c error
  cases h with
  | before hheard hgetting hnowait =>
    refine .before (hheard.interrupt c error) (hpc ▸ hgetting) fun head hhead => ?_
    rw [SerialMem.isempty, htail]
    exact hnowait head (hpc ▸ hhead)
  | after hidle hret hstart =>
    exact .after (hpc.trans hidle) (hreturned.trans hret) (hstart.trans haccepted)

theorem Counting.interrupt (h : s.Counting rx) (c : UInt8) (error : Bool) :
    (serialReceive s c error).Counting rx := by
  obtain ⟨hpc, hreturned, hreports, -, haccepted⟩ := s.serialReceive_same c error
  cases h with
  | before hheard hn hcounting => exact .before (hheard.interrupt c error) hn (hpc ▸ hcounting)
  | after hheard hidle hlast hlow hhigh =>
    refine .after (hheard.interrupt c error) (hpc.trans hidle) (hreports ▸ hlast) hlow
      (le_trans hhigh ?_)
    rw [unread, unread, hreturned]
    exact Nat.sub_le_sub_right haccepted.length_le _

/-- What has been heard is among what is unread. -/
theorem Heard.le_unread (h : s.Heard rx) : rx.length ≤ s.unread := by
  have hlen := List.IsPrefix.length_le h
  rw [List.length_append] at hlen
  rw [unread]
  omega

/-- A step of `serial_getchar`, when something has been heard. -/
theorem Reading.main {r : SerialBuffer} (h : s.Reading rx) (hne : rx ≠ []) (hinv : RxInv s r)
    (hpc : s.pc ≠ .idle) : (rxStep s s.pc).Reading rx := by
  cases h with
  | after hidle => exact absurd hidle hpc
  | before hheard hgetting hnowait =>
    cases hs : s.pc with
    | idle => exact absurd hs hpc
    | availHead | availTail =>
      rw [hs] at hgetting
      exact hgetting.elim
    | testHead =>
      refine .before hheard trivial fun head hhead => ?_
      obtain rfl : s.serialRx.head = head := RxPc.testTail.inj hhead
      have hempty := hinv.models.isempty_iff r.length_lt hinv.models.head_length
      have hlen := hheard.le_unread
      rw [hinv.unread_eq] at hlen
      refine Bool.eq_false_iff.mpr fun htrue => ?_
      have hzero := hempty.mp htrue
      exact hne (List.length_eq_zero_iff.mp (by omega))
    | testTail head =>
      have hread : rxStep s (.testTail head) = { s with pc := .read } := by
        rw [rxStep, hnowait head hs]
        rfl
      rw [hread]
      exact .before hheard trivial fun head hhead => by cases hhead
    | read => exact .before hheard trivial fun head hhead => by cases hhead
    | advance c => exact .after rfl rfl hheard

/-- A step of `serial_available`. -/
theorem Counting.main {r : SerialBuffer} (h : s.Counting rx) (hinv : RxInv (rxStep s s.pc) r)
    (hpc : s.pc ≠ .idle) : (rxStep s s.pc).Counting rx := by
  cases h with
  | after _ hidle => exact absurd hidle hpc
  | @before n hheard hn hcounting =>
    cases hs : s.pc with
    | idle => exact absurd hs hpc
    | testHead | testTail | read | advance =>
      rw [hs] at hcounting
      exact hcounting.elim
    | availHead before =>
      rw [hs] at hcounting
      exact .before (n := n) hheard hn hcounting
    | availTail before head =>
      rw [hs] at hcounting hinv
      obtain rfl : before = n := hcounting
      have hreports := hinv.reports ⟨before, s.serialRx.available head, s.unread⟩
        (List.mem_append_right _ (List.mem_singleton.mpr rfl))
      exact .after hheard rfl (List.getLast?_concat ..) (le_trans hn hreports.1) hreports.2

end Rx

/-! ## 3. What it sees of the chip -/

/-- The variables, and what the calls have returned. -/
structure Chip.Alike (w : Chip) (l : Live) : Prop where
  g : l.g = w.g
  results : l.results = w.results

/-- All that was sent has been passed to `serial_putchar`. -/
structure Chip.Sent (w : Chip) (l : Live) : Prop where
  passed : w.sending.passed = l.tx
  idle : w.sending.pc = .idle

/-- Between two operations. -/
structure Chip.Shows (w : Chip) (l : Live) : Prop extends w.Alike l, w.Sent l where
  heard : w.receiving.Heard l.rx
  quiet : w.receiving.pc = .idle

/-- Inside one of the three functions. -/
inductive Chip.Inside (w : Chip) (l : Live) : {β : Type} → Op β → Prop
  | putchar {c : UInt8} : w.Alike l → w.sending.passed = l.tx ++ [c] → w.receiving.Heard l.rx →
    w.receiving.pc = .idle → Inside w l (.putchar c)
  | getchar : w.Alike l → w.Sent l → w.receiving.Reading l.rx → Inside w l .getchar
  | available : w.Alike l → w.Sent l → w.receiving.Counting l.rx → Inside w l .available

/-- The chip and the link layer among its surroundings, at the same point of the same program. -/
def Running.Shows : Running → Live → Prop
  | ⟨_, false, w⟩, l => w.Shows l
  | ⟨.op e _, true, w⟩, l => w.Inside l e
  | ⟨_, true, _⟩, _ => False

/-- The receiving half is in order. -/
def Chip.Ordered (w : Chip) : Prop := ∃ r, RxInv w.receiving r

section Steps

variable {l : Live} {w w' : Chip} {β : Type} {e : Op β}

/-- What a handler can do. -/
inductive Chip.Interrupted (w : Chip) : Chip → Prop
  | sending {a : Act} {s : Tx} : a ≠ .main → w.sending.step a = some s →
    s.pc = w.sending.pc → s.passed = w.sending.passed → Interrupted w { w with sending := s }
  | receiving (c : UInt8) (error : Bool) :
    Interrupted w { w with receiving := serialReceive w.receiving c error }
  | timer (t : UInt32) : Interrupted w { w with micros := t }

theorem Chip.interrupt_cases {i : Interrupt} (hs : w.interrupt i = some w') :
    w.Interrupted w' := by
  cases i with
  | transmit =>
    obtain ⟨s, hstep, rfl⟩ := Option.map_eq_some_iff.mp hs
    have hsame := hstep
    simp only [Tx.step, Option.ite_none_right_eq_some, Option.some.injEq] at hsame
    obtain ⟨-, rfl⟩ := hsame
    exact .sending (by decide) hstep rfl rfl
  | ready =>
    cases hs
    exact .sending (a := .ready) (by decide) rfl rfl rfl
  | receive c error =>
    cases hs
    exact .receiving c error
  | timer =>
    cases hs
    exact .timer _

namespace Chip.Interrupted

variable (h : w.Interrupted w')

include h

theorem alike (ha : w.Alike l) : w'.Alike l := by
  cases h with
  | sending | receiving | timer => exact ⟨ha.g, ha.results⟩

theorem sent (hsent : w.Sent l) : w'.Sent l := by
  cases h with
  | sending _ _ hpc hsame => exact ⟨hsame.trans hsent.passed, hpc.trans hsent.idle⟩
  | receiving | timer => exact ⟨hsent.passed, hsent.idle⟩

theorem passed : w'.sending.passed = w.sending.passed := by
  cases h with
  | sending _ _ _ hsame => exact hsame
  | receiving | timer => rfl

/-- What a byte that arrives leaves true stays true. -/
theorem keeps {P : Rx → Prop} (hP : ∀ s c error, P s → P (serialReceive s c error))
    (hw : P w.receiving) : P w'.receiving := by
  cases h with
  | receiving c error => exact hP _ c error hw
  | sending | timer => exact hw

theorem quiet (hw : w.receiving.pc = .idle) : w'.receiving.pc = .idle :=
  h.keeps (P := fun s => s.pc = .idle)
    (fun s c error hs => (s.serialReceive_same c error).1.trans hs) hw

theorem ordered (hw : w.Ordered) : w'.Ordered := by
  refine h.keeps (P := fun s => ∃ r, RxInv s r) ?_ hw
  rintro s c error ⟨r, hr⟩
  exact hr.interrupt c error

/-- **A handler changes nothing that the link layer sees**, wherever it comes in. -/
theorem shows {q : Code Unit} {b : Bool} (hw : Running.Shows ⟨q, b, w⟩ l) :
    Running.Shows ⟨q, b, w'⟩ l := by
  have hheard := h.keeps (P := fun s => s.Heard l.rx) fun _ c error hs => hs.interrupt c error
  cases b with
  | false => exact ⟨h.alike hw.toAlike, h.sent hw.toSent, hheard hw.heard, h.quiet hw.quiet⟩
  | true =>
    cases q with
    | ret | loop => exact hw.elim
    | op e k =>
      have hinside : w.Inside l e := hw
      suffices hgoal : w'.Inside l e from hgoal
      cases hinside with
      | putchar ha hpassed hrx hquiet =>
        exact .putchar (h.alike ha) (h.passed.trans hpassed) (hheard hrx) (h.quiet hquiet)
      | getchar ha hsent hrx =>
        exact .getchar (h.alike ha) (h.sent hsent)
          (h.keeps (P := fun s => s.Reading l.rx) (fun _ c error hs => hs.interrupt c error) hrx)
      | available ha hsent hrx =>
        exact .available (h.alike ha) (h.sent hsent)
          (h.keeps (P := fun s => s.Counting l.rx) (fun _ c error hs => hs.interrupt c error) hrx)

end Chip.Interrupted

/-- One of the three functions is called. -/
theorem Chip.Shows.enter (h : w.Shows l) (ho : w.Ordered)
    (hs : w.enter e = some w') : w'.Inside l e ∧ w'.Ordered := by
  obtain ⟨r, hr⟩ := ho
  cases e with
  | putchar c =>
    obtain ⟨s, hstep, rfl⟩ := Option.map_eq_some_iff.mp hs
    simp only [Tx.step, h.idle, if_true, Option.some.injEq] at hstep
    obtain rfl := hstep
    exact ⟨.putchar ⟨h.g, h.results⟩ (congrArg (· ++ [c]) h.passed) h.heard h.quiet, r, hr⟩
  | getchar =>
    obtain ⟨s, hstep, rfl⟩ := Option.map_eq_some_iff.mp hs
    refine ⟨?_, hr.step hstep⟩
    simp only [Rx.step, h.quiet, if_true, Option.some.injEq] at hstep
    obtain rfl := hstep
    exact .getchar ⟨h.g, h.results⟩ ⟨h.passed, h.idle⟩
      (.before h.heard trivial fun _ hpc => by cases hpc)
  | available =>
    obtain ⟨s, hstep, rfl⟩ := Option.map_eq_some_iff.mp hs
    refine ⟨?_, hr.step hstep⟩
    simp only [Rx.step, h.quiet, if_true, Option.some.injEq] at hstep
    obtain rfl := hstep
    exact .available ⟨h.g, h.results⟩ ⟨h.passed, h.idle⟩ (.before h.heard h.heard.le_unread rfl)
  | _ => cases hs

/-- A step inside one of them. -/
theorem Chip.Inside.proceed (h : w.Inside l e) (ho : w.Ordered)
    (hready : e.Ready l) (hs : w.proceed e = some w') : w'.Inside l e ∧ w'.Ordered := by
  obtain ⟨r, hr⟩ := ho
  cases h with
  | putchar ha hpassed hheard hquiet =>
    obtain ⟨s, hstep, rfl⟩ := Option.map_eq_some_iff.mp hs
    simp only [Tx.step, Option.ite_none_left_eq_some, Option.some.injEq] at hstep
    obtain ⟨-, rfl⟩ := hstep
    exact ⟨.putchar ⟨ha.g, ha.results⟩ hpassed hheard hquiet, r, hr⟩
  | getchar ha hsent hreading =>
    obtain ⟨s, hstep, rfl⟩ := Option.map_eq_some_iff.mp hs
    refine ⟨?_, hr.step hstep⟩
    simp only [Rx.step, Option.ite_none_left_eq_some, Option.some.injEq] at hstep
    obtain ⟨hpc, rfl⟩ := hstep
    exact .getchar ⟨ha.g, ha.results⟩ ⟨hsent.passed, hsent.idle⟩ (hreading.main hready hr hpc)
  | available ha hsent hcounting =>
    obtain ⟨s, hstep, rfl⟩ := Option.map_eq_some_iff.mp hs
    have ho' := hr.step hstep
    refine ⟨?_, ho'⟩
    simp only [Rx.step, Option.ite_none_left_eq_some, Option.some.injEq] at hstep
    obtain ⟨hpc, rfl⟩ := hstep
    obtain ⟨r', hr'⟩ := ho'
    exact .available ⟨ha.g, ha.results⟩ ⟨hsent.passed, hsent.idle⟩ (hcounting.main hr' hpc)

/-- If the right bytes arrive and the timer says the right thing, this is the answer. -/
def Answers (l : Live) (e : Op β) (b : β) (l' : Live) : Prop :=
  ∃ bs t, ∀ env : Surroundings, liveAnswer (env.extend l bs t) e l = (b, l')

/-- An operation that is one step. -/
theorem Chip.Shows.answer {b : β} (h : w.Shows l) (hs : w.answer e = some (b, w')) :
    ∃ l', Answers l e b l' ∧ w'.Shows l' ∧ w'.receiving = w.receiving := by
  have hclock : ∀ env : Surroundings, (env.extend l [] w.micros).clock l.reads = w.micros :=
    fun env => Function.update_self ..
  cases e with
  | get =>
    cases hs
    exact ⟨l, ⟨[], 0, fun _ => congrArg (·, l) h.g⟩, h, rfl⟩
  | set g =>
    cases hs
    exact ⟨{ l with g }, ⟨[], 0, fun _ => rfl⟩,
      ⟨⟨rfl, h.results⟩, ⟨h.passed, h.idle⟩, h.heard, h.quiet⟩, rfl⟩
  | storeData i c =>
    cases hs
    exact ⟨_, ⟨[], 0, fun _ => rfl⟩, ⟨⟨congrArg (·.storeData i c) h.g, h.results⟩,
      ⟨h.passed, h.idle⟩, h.heard, h.quiet⟩, rfl⟩
  | storeStream i c =>
    cases hs
    exact ⟨_, ⟨[], 0, fun _ => rfl⟩, ⟨⟨congrArg (·.storeStream i c) h.g, h.results⟩,
      ⟨h.passed, h.idle⟩, h.heard, h.quiet⟩, rfl⟩
  | returned r =>
    cases hs
    exact ⟨{ l with results := l.results ++ [r] }, ⟨[], 0, fun _ => rfl⟩,
      ⟨⟨h.g, congrArg (· ++ [r]) h.results⟩, ⟨h.passed, h.idle⟩, h.heard, h.quiet⟩, rfl⟩
  | timerGet =>
    cases hs
    refine ⟨{ l with reads := l.reads + 1 }, ⟨[], w.micros, fun env => ?_⟩,
      ⟨⟨h.g, h.results⟩, ⟨h.passed, h.idle⟩, h.heard, h.quiet⟩, rfl⟩
    rw [liveAnswer, hclock]
  | expired since =>
    cases hs
    refine ⟨{ l with
      reads := l.reads + 1, late := l.late || decide (timeoutUs < w.micros - since) },
      ⟨[], w.micros, fun env => ?_⟩,
      ⟨⟨h.g, h.results⟩, ⟨h.passed, h.idle⟩, h.heard, h.quiet⟩, rfl⟩
    simp only [liveAnswer, hclock]
  | available | getchar | putchar => cases hs

/-- A byte is returned: the one that had been heard first. -/
theorem Rx.Reading.leave {s : Rx} {rx : List UInt8} {r : SerialBuffer} {c : UInt8}
    (h : s.Reading rx) (hne : rx ≠ []) (hinv : RxInv s r) (hidle : s.pc = .idle)
    (hc : s.returned.getLast? = some c) : ∃ rx', rx = c :: rx' ∧ s.Heard rx' := by
  cases h with
  | before _ hgetting =>
    rw [hidle] at hgetting
    exact hgetting.elim
  | @after bs c' _ hreturned hstart =>
    obtain ⟨d, rx', rfl⟩ := List.exists_cons_of_ne_nil hne
    rw [hreturned, List.getLast?_concat] at hc
    obtain rfl : c' = c := Option.some.inj hc
    have horder := hinv.order
    rw [hreturned, List.append_assoc] at horder
    obtain ⟨rest, hrest⟩ := hstart
    rw [horder, List.append_assoc, List.append_cancel_left_eq, List.cons_append,
      List.singleton_append] at hrest
    obtain ⟨rfl, hcontents⟩ := List.cons.inj hrest
    refine ⟨rx', rfl, rest, ?_⟩
    rw [hreturned, horder, ← hcontents, List.append_assoc, List.append_assoc]

/-- The bytes are counted that had been heard, and some more. -/
theorem Rx.Counting.leave {s : Rx} {rx : List UInt8} {n : Nat} (h : s.Counting rx)
    (hidle : s.pc = .idle) (hn : (s.reports.getLast?).map (·.value.toNat) = some n) :
    ∃ bs, n = (rx ++ bs).length ∧ s.Heard (rx ++ bs) := by
  cases h with
  | before _ _ hcounting =>
    rw [hidle] at hcounting
    exact hcounting.elim
  | @after p hheard _ hlast hlow hhigh =>
    obtain ⟨rest, hrest⟩ := hheard
    rw [hlast, Option.map_some] at hn
    obtain rfl : p.value.toNat = n := Option.some.inj hn
    have hlen : s.accepted.length = s.returned.length + rx.length + rest.length := by
      rw [← hrest, List.length_append, List.length_append]
    rw [Rx.unread] at hhigh
    refine ⟨rest.take (p.value.toNat - rx.length), ?_, ?_⟩
    · rw [List.length_append, List.length_take]
      omega
    · rw [Rx.Heard, ← hrest, ← List.append_assoc]
      exact (List.prefix_append_right_inj _).mpr (List.take_prefix ..)

/-- One of the three functions returns. -/
theorem Chip.Inside.leave {b : β} (h : w.Inside l e) (ho : w.Ordered) (hready : e.Ready l)
    (hs : w.leave e = some b) : ∃ l', Answers l e b l' ∧ w.Shows l' := by
  obtain ⟨r, hr⟩ := ho
  cases h with
  | @putchar c ha hpassed hheard hquiet =>
    simp only [Chip.leave, Option.ite_none_right_eq_some] at hs
    obtain ⟨hidle, -⟩ := hs
    exact ⟨{ l with tx := l.tx ++ [c] }, ⟨[], 0, fun _ => rfl⟩,
      ⟨⟨ha.g, ha.results⟩, ⟨hpassed, hidle⟩, hheard, hquiet⟩⟩
  | getchar ha hsent hreading =>
    simp only [Chip.leave, Option.ite_none_right_eq_some] at hs
    obtain ⟨hidle, hlast⟩ := hs
    obtain ⟨rx, hrx, hheard⟩ := hreading.leave hready hr hidle hlast
    refine ⟨{ l with rx }, ⟨[], 0, fun env => ?_⟩,
      ⟨⟨ha.g, ha.results⟩, ⟨hsent.passed, hsent.idle⟩, hheard, hidle⟩⟩
    simp only [liveAnswer, hrx]
  | available ha hsent hcounting =>
    simp only [Chip.leave, Option.ite_none_right_eq_some] at hs
    obtain ⟨hidle, hlast⟩ := hs
    obtain ⟨bs, rfl, hheard⟩ := hcounting.leave hidle hlast
    refine ⟨{ l.hear bs with looks := l.looks + 1 }, ⟨bs, 0, fun env => ?_⟩,
      ⟨⟨ha.g, ha.results⟩, ⟨hsent.passed, hsent.idle⟩, hheard, hidle⟩⟩
    have harrive : (env.extend l bs 0).arrive l.looks = bs := Function.update_self ..
    simp only [liveAnswer, harrive, Live.hear]

end Steps

/-! ## 4. The run among surroundings -/

/-- The run of the chip that has come to `s` is a run among these surroundings, and among all that
agree with them so far. -/
def Follows (p : Code Unit) (l₀ : Live) (s : Running) : Prop :=
  s.chip.Ordered ∧ ∃ env l, (∀ env', Agree env env' l → Reach (live env') (p, l₀) (s.code, l)) ∧
    s.Shows l

section Follows

variable {c : ApiCall} {l₀ : Live} {s s' : Running}

/-- What has been answered goes on being answered so. -/
theorem Answers.follows {β : Type} {e : Op β} {k : β → Code Unit} {b : β} {p : Code Unit}
    {env : Surroundings} {l l' : Live} (h : Answers l e b l')
    (hrun : ∀ env', Agree env env' l → Reach (live env') (p, l₀) (.op e k, l)) :
    ∃ env₁, ∀ env', Agree env₁ env' l' → Reach (live env') (p, l₀) (k b, l') := by
  obtain ⟨bs, t, hanswer⟩ := h
  refine ⟨env.extend l bs t, fun env' hagree => ?_⟩
  have hl' : (liveAnswer (env.extend l bs t) e l).2 = l' := congrArg Prod.snd (hanswer env)
  rw [← hl'] at hagree
  have hbefore : Agree env env' l := (Agree.extend env l bs t).trans hagree.before
  have hsame : liveAnswer env' e l = (b, l') := hagree.answer.trans (hanswer env)
  exact (hrun env' hbefore).tail ⟨b, hsame, rfl⟩

/-- **One step of the chip** is a step of the link layer, or none that it sees. -/
theorem Follows.step (hc : c.Fits) (h : Follows c.code l₀ s) (hs : s.Step s') :
    Follows c.code l₀ s' := by
  obtain ⟨hordered, env, l, hrun, hshows⟩ := h
  cases hs with
  | interrupt i hi =>
    have hi := Chip.interrupt_cases hi
    exact ⟨hi.ordered hordered, env, l, hrun, hi.shows hshows⟩
  | round =>
    exact ⟨hordered, env, l, fun env' hagree => (hrun env' hagree).tail ⟨rfl, rfl⟩, hshows⟩
  | operate ha =>
    obtain ⟨l', hanswers, hshows', hreceiving⟩ := Chip.Shows.answer hshows ha
    obtain ⟨env₁, hrun₁⟩ := hanswers.follows hrun
    refine ⟨?_, env₁, l', hrun₁, hshows'⟩
    obtain ⟨r, hr⟩ := hordered
    exact ⟨r, hreceiving ▸ hr⟩
  | enter he =>
    obtain ⟨hinside, hordered'⟩ := Chip.Shows.enter hshows hordered he
    exact ⟨hordered', env, l, hrun, hinside⟩
  | proceed hp =>
    have hready := ApiCall.ready hc (hrun env (Agree.refl env l))
    obtain ⟨hinside, hordered'⟩ := Chip.Inside.proceed hshows hordered hready hp
    exact ⟨hordered', env, l, hrun, hinside⟩
  | leave hl =>
    have hready := ApiCall.ready hc (hrun env (Agree.refl env l))
    obtain ⟨l', hanswers, hshows'⟩ := Chip.Inside.leave hshows hordered hready hl
    obtain ⟨env₁, hrun₁⟩ := hanswers.follows hrun
    exact ⟨hordered, env₁, l', hrun₁, hshows'⟩

theorem Follows.reach {ok : Running → Running → Prop} (hc : c.Fits) (h : Follows c.code l₀ s)
    (hr : Running.Reach ok s s') : Follows c.code l₀ s' := by
  induction hr with
  | refl => exact h
  | tail _ hs ih => exact ih.step hc hs.1

/-- A call begins where it begins. -/
theorem Chip.Shows.follows {w : Chip} (h : w.Shows l₀) (ho : w.Ordered) :
    Follows c.code l₀ ⟨c.code, false, w⟩ :=
  ⟨ho, ⟨fun _ => [], fun _ => 0⟩, l₀, fun _ _ => .refl, h⟩

end Follows

/-- Between two calls. -/
theorem Operated.shows {ok : Running → Running → Prop} {w : Chip} (h : Operated ok w) :
    w.Ordered ∧ ∃ l, Used l ∧ w.Shows l := by
  induction h with
  | start g tx rx i udre0 micros =>
    refine ⟨RxInv.start rx, { g := g.init }, .start ⟨⟨g, rfl⟩, rfl⟩, ?_⟩
    exact ⟨⟨rfl, rfl⟩, ⟨rfl, rfl⟩, List.prefix_refl _, rfl⟩
  | call c hc _ hr ih =>
    obtain ⟨hordered, l₀, hused, hshows⟩ := ih
    have hfollows : Follows c.code l₀ _ := (hshows.follows hordered).reach hc hr
    obtain ⟨hordered', env, l, hrun, hshows'⟩ := hfollows
    refine ⟨hordered', l, ?_, hshows'⟩
    exact .call env ⟨c, hc⟩ hused (reach_eval (hrun env (Agree.refl env l)))

/-- In the middle of a call. -/
theorem Operated.follows {ok : Running → Running → Prop} {w : Chip} (h : Operated ok w)
    {c : ApiCall} (hc : c.Fits) {s : Running} (hr : Running.Reach ok ⟨c.code, false, w⟩ s) :
    ∃ env l₀ l, Used l₀ ∧ w.Shows l₀ ∧ Reach (live env) (c.code, l₀) (s.code, l) ∧ s.Shows l := by
  obtain ⟨hordered, l₀, hused, hshows⟩ := h.shows
  obtain ⟨-, env, l, hrun, hshows'⟩ := (hshows.follows hordered).reach hc hr
  exact ⟨env, l₀, l, hused, hshows, hrun env (Agree.refl env l), hshows'⟩

/-- **The driver is what the link layer takes it for.**  Wherever the handlers come in, a run of a
call on the registers is a run of the call among some surroundings: the same program is left to run
with the same variables, the same has been returned and passed to `serial_putchar`, and what has
been seen to arrive was accepted by `serial_receive`. -/
theorem chip_refines (ok : Running → Running → Prop) (w : Chip) (h : Operated ok w) (c : ApiCall)
    (hc : c.Fits) (s : Running) (hr : Running.Reach ok ⟨c.code, false, w⟩ s) :
    ∃ env l₀ l, Used l₀ ∧ w.Shows l₀ ∧ Reach (live env) (c.code, l₀) (s.code, l) ∧ s.Shows l :=
  h.follows hc hr

/-- The chip after power-up. -/
def Chip.zero : Chip where
  g := State.init {}
  sending := .zero
  receiving := .start (Vector.replicate serialBufferSize 0)
  micros := 0
  results := []

/-- A byte arrives, and so many steps are taken. -/
def arriving (c : UInt8) (n : Nat) : List (Option Interrupt) :=
  some (.receive c false) :: List.replicate n none

/-- Three bytes of the handshake. -/
def knocking : List ({ c : ApiCall // c.Fits } × List (Option Interrupt)) :=
  [0x99, 0x66, 0x47].map fun c => (⟨.loop, trivial⟩, arriving c 15)

/-- The fourth, and the answer, of which two bytes are written and the rest is in the ring when the
next byte arrives. -/
def answering : List (Option Interrupt) :=
  arriving 0x42 47 ++ [some .timer, some .ready, some .transmit, some (.receive 7 false)]

/-- The `sbi` finds something in the ring. -/
abbrev filled (s s' : Running) : Bool := s.SbiOnFilled s'

theorem chip_refines_answering : ∃ w s env l₀ l, Operated Running.SbiOnFilled w ∧
    Running.Reach Running.SbiOnFilled ⟨ApiCall.loop.code, false, w⟩ s ∧
      s.chip.sending.usart.udr0 = [0x99, 0x66] ∧ s.chip.receiving.unread = 1 ∧
        l.tx = handshake ∧ Used l₀ ∧ w.Shows l₀ ∧
          Reach (live env) (ApiCall.loop.code, l₀) (s.code, l) ∧ s.Shows l := by
  have hrun : ((Chip.zero.calls filled knocking).bind fun w =>
      (Running.nexts filled answering ⟨ApiCall.loop.code, false, w⟩).map fun s =>
        (s.inside, s.chip.sending.passed, s.chip.sending.usart.udr0, s.chip.receiving.unread)) =
      some (false, handshake, [0x99, 0x66], 1) := by decide +kernel
  obtain ⟨w, hw, hrest⟩ := Option.bind_eq_some_iff.mp hrun
  obtain ⟨⟨p, b, w'⟩, hs, hseen⟩ := Option.map_eq_some_iff.mp hrest
  simp only [Prod.mk.injEq] at hseen
  obtain ⟨rfl, hpassed, hudr0, hunread⟩ := hseen
  have hoperated : Operated Running.SbiOnFilled w :=
    .calls (fun _ _ => of_decide_eq_true) (.start _ _ _ _ _ _) hw
  have hr : Running.Reach Running.SbiOnFilled _ _ :=
    Running.nexts_reach (fun _ _ => of_decide_eq_true) hs
  obtain ⟨env, l₀, l, hused, hshows, hreach, hshows'⟩ :=
    chip_refines _ w hoperated .loop trivial _ hr
  have hsame : w'.Shows l := hshows'
  exact ⟨w, _, env, l₀, l, hoperated, hr, hudr0, hunread, hsame.passed.symm.trans hpassed, hused,
    hshows, hreach, hshows'⟩

/-! ## 5. What goes out on the wire -/

section Wire

variable {s s' : Running}

/-- A step of the chip is one of the sending half, or leaves it alone. -/
theorem Running.Step.sending (h : s.Step s') : s'.chip.sending = s.chip.sending ∨
    ∃ a, s.chip.sending.step a = some s'.chip.sending := by
  cases h with
  | interrupt i hi =>
    cases Chip.interrupt_cases hi with
    | sending _ hstep => exact .inr ⟨_, hstep⟩
    | receiving | timer => exact .inl rfl
  | round | leave => exact .inl rfl
  | @operate _ e _ _ _ _ ha =>
    cases e <;> cases ha <;> exact .inl rfl
  | @enter _ e _ _ _ he =>
    cases e with
    | putchar c =>
      obtain ⟨t, ht, rfl⟩ := Option.map_eq_some_iff.mp he
      exact .inr ⟨_, ht⟩
    | getchar | available =>
      obtain ⟨t, ht, rfl⟩ := Option.map_eq_some_iff.mp he
      exact .inl rfl
    | _ => cases he
  | @proceed _ e _ _ _ hp =>
    cases e with
    | putchar c =>
      obtain ⟨t, ht, rfl⟩ := Option.map_eq_some_iff.mp hp
      exact .inr ⟨_, ht⟩
    | getchar | available =>
      obtain ⟨t, ht, rfl⟩ := Option.map_eq_some_iff.mp hp
      exact .inl rfl
    | _ => cases hp

/-- The sending half stays in order, whatever the rest of the chip does. -/
theorem TxInv.chip (h : TxInv s.chip.sending) (hs : s.Step s') (hok : s.SbiOnFilled s') :
    TxInv s'.chip.sending := by
  rcases hs.sending with hsame | ⟨a, ha⟩
  · rw [hsame]
    exact h
  · refine h.step (fun hmain hpc => ?_) ha
    subst hmain
    have hidle : s'.chip.sending.pc = .idle := by
      simp only [Tx.step, hpc, reduceCtorEq, if_false, Option.some.injEq] at ha
      exact congrArg Tx.pc ha.symm
    exact hok hpc hidle

theorem TxInv.chips (h : TxInv s.chip.sending) (hr : Running.Reach Running.SbiOnFilled s s') :
    TxInv s'.chip.sending := by
  induction hr with
  | refl => exact h
  | tail _ hs ih => exact ih.chip hs.1 hs.2

theorem Operated.txInv {w : Chip} (h : Operated Running.SbiOnFilled w) : TxInv w.sending := by
  induction h with
  | start g tx rx i udre0 micros => exact TxInv.start tx i udre0
  | call c _ _ hr ih => exact TxInv.chips ih hr

/-- What has been passed to `serial_putchar` begins like messages, and when the call has returned
it is messages. -/
theorem Used.passed {env : Surroundings} {l₀ l : Live} {c : ApiCall} (hused : Used l₀)
    (hc : c.Fits) (hr : Reach (live env) (c.code, l₀) (s.code, l)) (h : s.Shows l) :
    messages.Text s.chip.sending.passed ∧
      ((∃ b, s.code = .ret b) → messages.Whole s.chip.sending.passed ∧
        s.chip.sending.pc = .idle) := by
  have hspeaks : Speaks env c.code := speaks_sends.call hc
  obtain ⟨htext, hwhole⟩ := hspeaks.reach hused.whole hr
  obtain ⟨p, b, w⟩ := s
  cases b with
  | false =>
    have hw : w.Shows l := h
    rw [← hw.passed] at htext hwhole
    refine ⟨htext, ?_⟩
    rintro ⟨a, ha⟩
    exact ⟨hwhole a ha, hw.idle⟩
  | true =>
    cases p with
    | ret | loop => exact h.elim
    | op e k =>
      have hinside : w.Inside l e := h
      have hno : ¬ ∃ b, Running.code ⟨.op e k, true, w⟩ = .ret b := by
        rintro ⟨a, ha⟩
        cases ha
      refine ⟨?_, fun hret => absurd hret hno⟩
      cases hinside with
      | @putchar c _ hpassed =>
        have hstep : Step (live env) (.op (.putchar c) k, l) (k (), { l with tx := l.tx ++ [c] }) :=
          ⟨(), rfl, rfl⟩
        exact hpassed ▸ (hspeaks.reach hused.whole (hr.tail hstep)).1
      | getchar _ hsent | available _ hsent => exact hsent.passed ▸ htext

/-- **What is written to `UDR0` are whole messages.**  In every run in which no `sbi` is taken on an
emptied ring, the bytes that `serial_putchar` and `serial_transmit` have written can be cut, in one
way only, into messages and the beginning of one more; and when a call has returned and the ring is
empty nothing has begun.  Whether the USART takes each of them is another matter (`Running.Takes`,
in `Wired`). -/
theorem wire_messages (w : Chip) (h : Operated Running.SbiOnFilled w) (c : ApiCall) (hc : c.Fits)
    (s : Running) (hr : Running.Reach Running.SbiOnFilled ⟨c.code, false, w⟩ s) :
    ∃ ms part, messages.Cut s.chip.sending.usart.udr0
      ((∃ b, s.code = .ret b) ∧ serialBufferIsempty s.chip.sending.usart.serialTx = true)
        ms part := by
  have hinv : TxInv s.chip.sending := TxInv.chips h.txInv hr
  obtain ⟨env, l₀, l, hused, -, hreach, hshows⟩ := h.follows hc hr
  obtain ⟨htext, hdone⟩ := hused.passed hc hreach hshows
  refine PrefixCode.tagged_proper.cut (htext.of_prefix hinv.inOrder.1) ⟨.handshake, ()⟩ ?_
  rintro ⟨hret, hempty⟩
  obtain ⟨hwhole, hidle⟩ := hdone hret
  have horder := hinv.order
  rw [hidle, RingBuffer.isEmpty_iff.mp hempty, Pc.pending, List.append_nil,
    List.append_nil] at horder
  exact horder ▸ hwhole

/-- Two bytes of the answer are out. -/
theorem wire_messages_answering : ∃ w s, Operated Running.SbiOnFilled w ∧
    Running.Reach Running.SbiOnFilled ⟨ApiCall.loop.code, false, w⟩ s ∧
      s.chip.sending.usart.udr0 = [0x99, 0x66] ∧ s.chip.sending.passed = handshake ∧
        ∃ ms part, messages.Cut s.chip.sending.usart.udr0
          ((∃ b, s.code = .ret b) ∧ serialBufferIsempty s.chip.sending.usart.serialTx = true)
            ms part := by
  have hrun : ((Chip.zero.calls filled knocking).bind fun w =>
      (Running.nexts filled answering ⟨ApiCall.loop.code, false, w⟩).map fun s =>
        (s.chip.sending.usart.udr0, s.chip.sending.passed)) =
      some ([0x99, 0x66], handshake) := by decide +kernel
  obtain ⟨w, hw, hrest⟩ := Option.bind_eq_some_iff.mp hrun
  obtain ⟨s, hs, hseen⟩ := Option.map_eq_some_iff.mp hrest
  obtain ⟨hudr0, hpassed⟩ := Prod.mk.inj hseen
  have hoperated : Operated Running.SbiOnFilled w :=
    .calls (fun _ _ => of_decide_eq_true) (.start _ _ _ _ _ _) hw
  have hr : Running.Reach Running.SbiOnFilled _ _ :=
    Running.nexts_reach (fun _ _ => of_decide_eq_true) hs
  exact ⟨w, s, hoperated, hr, hudr0, hpassed,
    wire_messages w hoperated .loop trivial s hr⟩

end Wire

/-! ## 6. What comes in -/

/-- Where the main program is seen to test the ring there is something in it. -/
theorem Running.Shows.nowait {s : Running} {l : Live} {head : UInt8} (h : s.Shows l)
    (hpc : s.chip.receiving.pc = .testTail head) :
    s.chip.receiving.serialRx.isempty head = false := by
  have hnot : s.chip.receiving.pc ≠ .idle := by
    rw [hpc]
    exact RxPc.noConfusion
  obtain ⟨p, b, w⟩ := s
  cases b with
  | false =>
    have hw : w.Shows l := h
    exact absurd hw.quiet hnot
  | true =>
    cases p with
    | ret | loop => exact h.elim
    | op e k =>
      have hinside : w.Inside l e := h
      cases hinside with
      | putchar _ _ _ hquiet => exact absurd hquiet hnot
      | getchar _ _ hreading =>
        cases hreading with
        | before _ _ hnowait => exact hnowait head hpc
        | after hidle => exact absurd hidle hnot
      | available _ _ hcounting =>
        cases hcounting with
        | before _ _ hcounting =>
          rw [hpc] at hcounting
          exact hcounting.elim
        | after _ hidle => exact absurd hidle hnot

/-- **`serial_getchar` never waits.**  Each time a call of libmobile or of the main loop has it test
the ring, there is a byte in the ring: the `serial_available` before has counted it, and
`serial_receive` takes nothing out. -/
theorem getchar_never_waits (ok : Running → Running → Prop) (w : Chip) (h : Operated ok w)
    (c : ApiCall) (hc : c.Fits) (s : Running) (hr : Running.Reach ok ⟨c.code, false, w⟩ s)
    (head : UInt8) (hpc : s.chip.receiving.pc = .testTail head) :
    s.chip.receiving.serialRx.isempty head = false := by
  obtain ⟨env, l₀, l, -, -, -, hshows⟩ := h.follows hc hr
  exact hshows.nowait hpc

/-- A byte has arrived, and the next one comes while the first is being read. -/
theorem getchar_never_waits_arriving : ∃ s,
    Running.Reach (fun _ _ => True) ⟨ApiCall.loop.code, false, .zero⟩ s ∧
      s.chip.receiving.accepted = [0x99, 0x66] ∧ s.chip.receiving.pc = .testTail 1 ∧
        s.chip.receiving.serialRx.isempty 1 = false := by
  have hrun : (Running.nexts (fun _ _ => true) (arriving 0x99 7 ++ arriving 0x66 0)
      ⟨ApiCall.loop.code, false, .zero⟩).map (fun s =>
        (s.chip.receiving.accepted, s.chip.receiving.pc)) = some ([0x99, 0x66], .testTail 1) := by
    decide +kernel
  obtain ⟨s, hs, hseen⟩ := Option.map_eq_some_iff.mp hrun
  obtain ⟨haccepted, hpc⟩ := Prod.mk.inj hseen
  have hr : Running.Reach (fun _ _ => True) _ s := Running.nexts_reach (fun _ _ _ => trivial) hs
  exact ⟨s, hr, haccepted, hpc,
    getchar_never_waits _ .zero (.start _ _ _ _ _ _) .loop trivial s hr 1 hpc⟩

end GBridge.Atmega

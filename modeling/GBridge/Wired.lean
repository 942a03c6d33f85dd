/-
# The two machines on a wire

`Pair` joins the two programs as they talk to a serial port that is a queue, with each call of
`socket_impl.c` a single step.  Here both are taken further down.  The adapter runs on its
registers: `serial_putchar`, `serial_getchar` and `timer_get` step by step, with `serial_transmit`,
`serial_receive` and `timer_isr` wherever they come in.  The bridge runs down to the calls of the
operating system.  What joins them is the wire from `UDR0` to the port of the computer and back
(`Wired.Step`).

Three things are left out of the runs, each in the rule that it concerns: an `sbi` on a ring that
the handler has emptied (`SbiOnFilled`, see `Serial`), a byte that is written to `UDR0` while the
USART cannot take it (`Running.Takes`), and a byte for which there is no room in `serial_rx`.
Nothing times out.

Every run of the machines is a run of the pair (`Wired.Mirrors`):

* a step of the adapter is some moves of the adapter in `Pair`, or none (`Running.Played.step`); a
  byte is on its way as soon as it has been passed to `serial_putchar`;
* a step inside a call of `socket_impl.c` is no move at all, and the return of the call is one
  (`Stage.step`).  What the call returns is not known before; so the pair is followed with every
  oracle that tells what has been returned so far (`Tells`), and there always is one
  (`exists_tells`).

So what is proved of the pair holds of the machines: `wired_calls_once` says that the calls made on
the adapter come to pass on the operating system one by one.
-/
import GBridge.Atmega.ChipParty
import GBridge.Bridge.WholeParty
import GBridge.Pair

namespace GBridge

open Prog Duplex
open Atmega (Result Running Chip Live)
open Bridge (SockCall Os)

/-! ## 1. The machines -/

/-- The adapter on its registers, the bridge down to the system calls, and what is on the wire. -/
structure Wired : Type 1 where
  adapter : Running
  bridge : Bridge.WholeCode Unit × (Bridge.World (List UInt8) × Os)
  toBridge : List UInt8
  toAdapter : List UInt8

/-- The USART takes what this step writes to `UDR0`.  It ignores a byte that is written while
`UDRE0` is clear.  The handler only runs while it is set; but `serial_putchar` tests it before it
tests the ring, and if the handler sends the last byte of the ring between the two tests, the byte
that is then written directly is lost. -/
def Atmega.Running.Takes (s s' : Running) : Prop :=
  s'.chip.sending.usart.udr0 = s.chip.sending.usart.udr0 ∨ s.chip.sending.usart.udre0 = true

instance (s s' : Running) : Decidable (s.Takes s') :=
  inferInstanceAs (Decidable (_ ∨ _))

/-- One step. -/
inductive Wired.Step : Wired → Wired → Prop
  /-- Of the adapter, or of a handler that takes nothing in: what is written to `UDR0`, and taken,
  is on the wire. -/
  | adapter {s s' : Running} {c : Bridge.WholeCode Unit × (Bridge.World (List UInt8) × Os)}
    {toB toA tx : List UInt8} : s.Step s' → s.SbiOnFilled s' → s.Takes s' → s.OnTime →
    s'.chip.receiving.accepted = s.chip.receiving.accepted →
    s'.chip.sending.usart.udr0 = s.chip.sending.usart.udr0 ++ tx →
    Step ⟨s, c, toB, toA⟩ ⟨s', c, toB ++ tx, toA⟩
  /-- Of the bridge: what it writes to the port is on the wire. -/
  | bridge {s : Running} {c c' : Bridge.WholeCode Unit × (Bridge.World (List UInt8) × Os)}
    {toB toA tx : List UInt8} : Prog.Step (Bridge.honestSem Bridge.prompt) c c' →
    c'.2.1.tx = c.2.1.tx ++ tx → Step ⟨s, c, toB, toA⟩ ⟨s, c', toB, toA ++ tx⟩
  /-- A byte arrives at the computer. -/
  | arriveBridge {s : Running} {q : Bridge.WholeCode Unit} {w : Bridge.World (List UInt8)} {o : Os}
    {toB toA : List UInt8} {b : UInt8} : Step ⟨s, (q, (w, o)), b :: toB, toA⟩
      ⟨s, (q, ({ w with port := w.port ++ [b] }, o)), toB, toA⟩
  /-- A byte arrives at the adapter, and its handler puts it into the ring. -/
  | arriveAdapter {p : Atmega.Code Unit} {i : Bool} {w w' : Chip}
    {c : Bridge.WholeCode Unit × (Bridge.World (List UInt8) × Os)} {toB toA : List UInt8}
    {b : UInt8} : w.interrupt (.receive b false) = some w' →
    w'.receiving.accepted = w.receiving.accepted ++ [b] →
    Step ⟨⟨p, i, w⟩, c, toB, b :: toA⟩ ⟨⟨p, i, w'⟩, c, toB, toA⟩

/-- The states that the machines pass through. -/
abbrev Wired.Reach : Wired → Wired → Prop := Relation.ReflTransGen Wired.Step

/-- After the handshake: the adapter is about to make its calls, the bridge is about to enter the
loop of `main`. -/
def Wired.start (js : List Job) (w : Chip) (b : Bridge.State) (tx : List UInt8) (o : Os)
    (toAdapter : List UInt8) : Wired where
  adapter := ⟨session js, false, w⟩
  bridge := (expand Bridge.wholeOp Bridge.mainLoop, ({ g := b, port := [], tx }, o))
  toBridge := []
  toAdapter := toAdapter

/-! ## 2. Calls that have come to their end -/

/-- Calls of `socket_impl.c`, each with what it has returned. -/
abbrev Done : Type := List (Σ c : SockCall, c.Res)

/-- They have been made one after the other, on an operating system that keeps to its word. -/
inductive Performed (o : Os) : Done → Os → Prop
  | nil : Performed o [] o
  | call {done : Done} {o₁ o₂ : Os} {c : SockCall} {r : c.Res} : Performed o done o₁ →
    Eval Bridge.honestKernel c.code o₁ r o₂ → Performed o (done ++ [⟨c, r⟩]) o₂

/-- The oracle says what they have returned. -/
def Tells (oracle : Oracle) (done : Done) : Prop :=
  ∀ n c r, done[n]? = some ⟨c, r⟩ → oracle n c = r

section Tells

variable {oracle : Oracle} {done : Done} {c : SockCall} {r : c.Res}

theorem Tells.before (h : Tells oracle (done ++ [⟨c, r⟩])) : Tells oracle done := by
  intro n c' r' hn
  refine h n c' r' ?_
  rw [List.getElem?_append_left (List.getElem?_eq_some_iff.mp hn).1, hn]

theorem Tells.last (h : Tells oracle (done ++ [⟨c, r⟩])) : oracle done.length c = r :=
  h _ c r List.getElem?_concat_length

/-- Some oracle does, and what it says can be sent. -/
theorem exists_tells (h : ∀ x ∈ done, Proper x.1 x.2) :
    ∃ oracle : Oracle, (∀ n c, Proper c (oracle n c)) ∧ Tells oracle done := by
  classical
  let oracle : Oracle := fun n c =>
    if h : ∃ r, done[n]? = some ⟨c, r⟩ then h.choose else quietOracle n c
  have hfound : ∀ n c (h : ∃ r, done[n]? = some ⟨c, r⟩), oracle n c = h.choose :=
    fun _ _ h => dif_pos h
  refine ⟨oracle, fun n c => ?_, fun n c r hn => ?_⟩
  · by_cases hsome : ∃ r, done[n]? = some ⟨c, r⟩
    · rw [hfound n c hsome]
      exact h _ (List.mem_of_getElem? hsome.choose_spec)
    · rw [show oracle n c = quietOracle n c from dif_neg hsome]
      exact quiet_proper n c
  · have hsome : ∃ r, done[n]? = some ⟨c, r⟩ := ⟨r, hn⟩
    have heq := hsome.choose_spec.symm.trans hn
    rw [hfound n c hsome]
    exact eq_of_heq (Sigma.mk.inj (Option.some.inj heq)).2

end Tells

/-! ## 3. What is asked for -/

section Asked

variable {oracle : Oracle} {s : SockCall}

/-- A call that is expected of the bridge is that of a call made on the adapter. -/
theorem requested : ∀ {cs : List MobileCall} {n : Nat}, .inr s ∈ expected oracle n cs →
    ∃ c ∈ cs, c.sock = some s
  | [], _, h => nomatch h
  | c :: cs, n, h => by
    rcases List.mem_append.mp h with h | h
    · obtain ⟨s', hs', heq⟩ := List.mem_map.mp h
      cases heq
      exact ⟨c, List.mem_cons_self, Option.mem_toList.mp hs'⟩
    · rcases List.mem_cons.mp h with heq | h
      · cases heq
      · obtain ⟨c', hmem, hc'⟩ := requested h
        exact ⟨c', List.mem_cons_of_mem _ hmem, hc'⟩

/-- What it is given to send is short. -/
theorem MobileCall.Proper.short {c : MobileCall} (hc : c.Proper) (hs : c.sock = some s) :
    ∀ conn data addr, s = .send conn data addr → data.length < 32768 := by
  rintro conn data addr rfl
  cases c with
  | send conn' buffer addr' =>
    cases hs
    exact lt_of_le_of_lt hc.2 (by decide)
  | _ => cases hs

/-- The calls of the adapter read no byte that is not there. -/
theorem ready_session {env : Atmega.Surroundings} : ∀ {js : List Job},
    (∀ c ∈ calls js, c.Proper) → Atmega.Ready env (session js)
  | [], _ => .ret ()
  | .pass :: js, hcs => by
    have hpass : Atmega.Ready env Job.pass.code :=
      .bind (Atmega.ready_sends.call (c := .loop) trivial) fun _ =>
        Atmega.ready_sends.call (c := .protMaLoop) trivial
    exact .bind hpass fun _ => ready_session hcs
  | .call c :: js, hcs => by
    have hcode : Atmega.Ready env (Job.call c).code := by
      have hc : c.Proper := hcs c List.mem_cons_self
      cases c with
      | debugLine line =>
        refine .bind (.bind (Atmega.ready_sends.cmdDebugLine line) fun _ => .ret _) fun _ => ?_
        exact Atmega.ready_sends.still trivial
      | «open» conn type addrtype bindport =>
        exact Atmega.ready_sends.call (c := .sockOpen conn type addrtype bindport) trivial
      | close conn => exact Atmega.ready_sends.call (c := .sockClose conn) trivial
      | connect conn addr => exact Atmega.ready_sends.call (c := .sockConnect conn addr) trivial
      | listen conn => exact Atmega.ready_sends.call (c := .sockListen conn) trivial
      | accept conn => exact Atmega.ready_sends.call (c := .sockAccept conn) trivial
      | send conn buffer addr =>
        have hlen : buffer.length ≤ 0xffff := le_trans hc.2 (by decide)
        exact Atmega.ready_sends.call (c := .sockSend conn buffer addr) hlen
      | recv conn buffer size addr =>
        exact Atmega.ready_sends.call (c := .sockRecv conn buffer size addr) trivial
    exact .bind hcode fun _ => ready_session fun c' hc' => hcs c' (List.mem_cons_of_mem _ hc')

end Asked

/-! ## 4. The pair that is seen -/

/-- What makes a state of the machines one of the pair. -/
structure View where
  live : Live
  /-- Accepted by the adapter, and not counted yet. -/
  later : List UInt8
  /-- Passed to `serial_putchar`, and not written to `UDR0` yet. -/
  unsent : List UInt8
  main : Bridge.Code Unit
  printed : List (List UInt8)
  /-- The operating system, before the call that is under way. -/
  os : Os
  done : Done
  log : List (Result ⊕ SockCall)

def View.system (v : View) (ρ : Wired) : System where
  left := (ρ.adapter.ahead, v.live.g)
  right := (v.main, ⟨ρ.bridge.2.1.g, v.done.length, v.printed⟩)
  rxL := v.live.rx
  flyL := v.later ++ ρ.toAdapter
  rxR := ρ.bridge.2.1.port
  flyR := ρ.toBridge ++ v.unsent
  log := v.log

/-- The machines mirror the pair: whatever oracle says what the calls have returned so far, the pair
comes to what is seen. -/
structure Wired.Mirrors (js : List Job) (init : System) (w₀ : Chip) (l₀ : Live) (o : Os) (ρ : Wired)
    (v : View) : Prop where
  played : ρ.adapter.Played (session js) l₀ v.live v.later
  sending : Atmega.TxInv ρ.adapter.chip.sending
  unsent : ρ.adapter.chip.sending.passed = ρ.adapter.chip.sending.usart.udr0 ++ v.unsent
  results : ρ.adapter.chip.results = w₀.results ++ v.log.filterMap Sum.getLeft?
  stage : Bridge.Stage ρ.bridge.1 ρ.bridge.2.2 v.main v.os
  performed : Performed o v.done v.os
  proper : ∀ x ∈ v.done, Proper x.1 x.2
  served : v.done.map Sigma.fst = v.log.filterMap Sum.getRight?
  runs : ∀ oracle, Tells oracle v.done → Runs oracle init (v.system ρ)

section Mirrors

variable {js : List Job} {init : System} {w₀ : Chip} {l₀ : Live} {o : Os} {v : View}
  {oracle : Oracle}

@[simp] theorem getLeft_results (l : List Result) :
    (l.map (Sum.inl : Result → Result ⊕ SockCall)).filterMap Sum.getLeft? = l := by
  rw [List.filterMap_map]
  exact List.filterMap_some

@[simp] theorem getRight_results (l : List Result) :
    (l.map (Sum.inl : Result → Result ⊕ SockCall)).filterMap Sum.getRight? = [] := by
  rw [List.filterMap_map]
  exact List.filterMap_eq_nil_iff.mpr fun _ _ => rfl

/-- A step of the adapter. -/
theorem Wired.Mirrors.adapter {s s' : Running}
    {c : Bridge.WholeCode Unit × (Bridge.World (List UInt8) × Os)} {toB toA tx : List UInt8}
    (hcs : ∀ c ∈ calls js, c.Proper) (h : Wired.Mirrors js init w₀ l₀ o ⟨s, c, toB, toA⟩ v)
    (hs : s.Step s') (hok : s.SbiOnFilled s') (htime : s.OnTime)
    (hacc : s'.chip.receiving.accepted = s.chip.receiving.accepted)
    (hudr0 : s'.chip.sending.usart.udr0 = s.chip.sending.usart.udr0 ++ tx) :
    ∃ v', Wired.Mirrors js init w₀ l₀ o ⟨s', c, toB ++ tx, toA⟩ v' := by
  obtain ⟨l', bs, later', new, notes, hlater, hplayed, hmoved⟩ :=
    h.played.step (fun _ => ready_session hcs) hs htime hacc
  have hsending : Atmega.TxInv s'.chip.sending := h.sending.chip hs hok
  obtain ⟨unsent, hunsent⟩ := hsending.inOrder.1
  have hfly : tx ++ unsent = v.unsent ++ new := by
    have hpassed : s'.chip.sending.passed = _ := hmoved.passed
    rw [← hunsent, hudr0, h.unsent, List.append_assoc, List.append_assoc,
      List.append_cancel_left_eq] at hpassed
    exact hpassed
  refine ⟨{ v with live := l', later := later', unsent, log := v.log ++ notes.map .inl },
    hplayed, hsending, hunsent.symm, ?_, h.stage, h.performed, h.proper, ?_,
    fun oracle htells => ?_⟩
  · rw [hmoved.results, h.results, List.filterMap_append, getLeft_results, List.append_assoc]
  · rw [List.filterMap_append, getRight_results, List.append_nil]
    exact h.served
  · have harrive := reach_arriveL (P := party Atmega.moves) (R := party (Bridge.moves oracle))
      (s.ahead, v.live.g) (v.main, ⟨c.2.1.g, v.done.length, v.printed⟩) c.2.1.port
      (toB ++ v.unsent) (later' ++ toA) v.log bs v.live.rx
    have hsolo := hmoved.solo.left (R := party (Bridge.moves oracle))
      (v.main, ⟨c.2.1.g, v.done.length, v.printed⟩) (later' ++ toA) c.2.1.port
      (toB ++ v.unsent) v.log
    have hrun := h.runs oracle htells
    rw [View.system, hlater, List.append_assoc] at hrun
    rw [View.system, List.append_assoc toB, hfly, ← List.append_assoc toB]
    exact (hrun.trans harrive).trans hsolo

/-- What the bridge is asked for is a call of the adapter, so that it has little to send. -/
theorem Wired.Mirrors.asked {ρ : Wired} {c : SockCall} {k : c.Res → Bridge.Code Unit}
    (hinit : ∀ oracle, (∀ n s, Proper s (oracle n s)) → OnScript oracle (calls js) init)
    (h : Wired.Mirrors js init w₀ l₀ o ρ v) (hmain : v.main = .op (.sock c) k)
    (horacle : ∀ n s, Proper s (oracle n s)) (htells : Tells oracle v.done) :
    v.log ++ [.inr c] <+: expected oracle 0 (calls js) := by
  have hrun := h.runs oracle htells
  have hanswer : oracle v.done.length c = oracle v.done.length c := rfl
  have hsolo := Bridge.solo_sock k ⟨ρ.bridge.2.1.g, v.done.length, v.printed⟩ ρ.bridge.2.1.port
    hanswer
  have hnote := hsolo.right (P := party Atmega.moves) (ρ.adapter.ahead, v.live.g) v.live.rx
    (ρ.toBridge ++ v.unsent) (v.later ++ ρ.toAdapter) v.log
  rw [← hmain] at hnote
  exact log_expected (runs_onScript (hinit oracle horacle) (hrun.trans hnote))

/-- A step of the bridge. -/
theorem Wired.Mirrors.bridge {s : Running}
    {c c' : Bridge.WholeCode Unit × (Bridge.World (List UInt8) × Os)} {toB toA tx : List UInt8}
    (hcs : ∀ c ∈ calls js, c.Proper)
    (hinit : ∀ oracle, (∀ n s, Proper s (oracle n s)) → OnScript oracle (calls js) init)
    (h : Wired.Mirrors js init w₀ l₀ o ⟨s, c, toB, toA⟩ v)
    (hs : Prog.Step (Bridge.honestSem Bridge.prompt) c c') (htx : c'.2.1.tx = c.2.1.tx ++ tx) :
    ∃ v', Wired.Mirrors js init w₀ l₀ o ⟨s, c', toB, toA ++ tx⟩ v' := by
  obtain ⟨q, w, os⟩ := c
  have hsilent : ∀ {q' : Bridge.WholeCode Unit} {os' : Os}, c' = (q', (w, os')) → tx = [] := by
    rintro q' os' rfl
    exact List.self_eq_append_right.mp htx
  cases h.stage.step hs with
  | inside hstage =>
    obtain rfl := hsilent rfl
    rw [List.append_nil]
    exact ⟨v, h.played, h.sending, h.unsent, h.results, hstage, h.performed, h.proper, h.served,
      h.runs⟩
  | @returned c k r q' os' hmain heval hstage =>
    obtain rfl := hsilent rfl
    rw [List.append_nil]
    obtain ⟨oracle₀, hproper₀, htells₀⟩ := exists_tells h.proper
    have hproper : Proper c r := by
      obtain ⟨c₁, hmem, hc₁⟩ := requested
        ((h.asked hinit hmain hproper₀ htells₀).subset (List.mem_append_right _ List.mem_cons_self))
      exact Bridge.proper_of_eval (fun _ _ _ _ _ h => h.2) ((hcs c₁ hmem).short hc₁) heval
    refine ⟨{ v with main := k r, os := os', done := v.done ++ [⟨c, r⟩], log := v.log ++ [.inr c] },
      h.played, h.sending, h.unsent, ?_, hstage, .call h.performed heval, ?_, ?_,
      fun oracle htells => ?_⟩
    · rw [List.filterMap_append]
      exact h.results.trans (congrArg _ (List.append_nil _).symm)
    · intro x hx
      rcases List.mem_append.mp hx with hx | hx
      · exact h.proper x hx
      · obtain rfl := List.mem_singleton.mp hx
        exact hproper
    · rw [List.map_append, h.served, List.filterMap_append]
      rfl
    · have hsolo := Bridge.solo_sock k ⟨w.g, v.done.length, v.printed⟩ w.port htells.last
      have hnote := hsolo.right (P := party Atmega.moves) (s.ahead, v.live.g) v.live.rx
        (toB ++ v.unsent) (v.later ++ toA) v.log
      have hrun := h.runs oracle htells.before
      rw [View.system, hmain] at hrun
      rw [View.system, List.length_append]
      rw [List.append_nil] at hnote
      exact hrun.trans hnote
  | @link p' q' w' hno hmain hstage =>
    obtain ⟨new, printed, hnew, hsolo⟩ := Bridge.solo_step hno hmain v.done.length v.printed
    obtain rfl : tx = new := List.append_cancel_left (htx.symm.trans hnew)
    refine ⟨{ v with main := p', printed }, h.played, h.sending, h.unsent, h.results, hstage,
      h.performed, h.proper, h.served, fun oracle htells => ?_⟩
    have hright := (hsolo oracle).right (P := party Atmega.moves)
      (s.ahead, v.live.g) v.live.rx (toB ++ v.unsent) (v.later ++ toA) v.log
    rw [List.map_nil, List.append_nil] at hright
    rw [View.system, ← List.append_assoc]
    exact (h.runs oracle htells).trans hright

/-- A byte arrives at the computer. -/
theorem Wired.Mirrors.arriveBridge {s : Running} {q : Bridge.WholeCode Unit}
    {w : Bridge.World (List UInt8)} {os : Os} {toB toA : List UInt8} {b : UInt8}
    (h : Wired.Mirrors js init w₀ l₀ o ⟨s, (q, (w, os)), b :: toB, toA⟩ v) :
    Wired.Mirrors js init w₀ l₀ o ⟨s, (q, ({ w with port := w.port ++ [b] }, os)), toB, toA⟩ v :=
  ⟨h.played, h.sending, h.unsent, h.results, h.stage, h.performed, h.proper, h.served,
    fun oracle htells => (h.runs oracle htells).tail (.arriveR rfl)⟩

/-- A byte arrives at the adapter. -/
theorem Wired.Mirrors.arriveAdapter {p : Atmega.Code Unit} {i : Bool} {w w' : Chip}
    {c : Bridge.WholeCode Unit × (Bridge.World (List UInt8) × Os)} {toB toA : List UInt8}
    {b : UInt8} (h : Wired.Mirrors js init w₀ l₀ o ⟨⟨p, i, w⟩, c, toB, b :: toA⟩ v)
    (hi : w.interrupt (.receive b false) = some w')
    (hacc : w'.receiving.accepted = w.receiving.accepted ++ [b]) :
    ∃ v', Wired.Mirrors js init w₀ l₀ o ⟨⟨p, i, w'⟩, c, toB, toA⟩ v' := by
  have hplayed := h.played.interrupt hi hacc
  cases hi
  refine ⟨{ v with later := v.later ++ [b] }, hplayed, h.sending, h.unsent, h.results, h.stage,
    h.performed, h.proper, h.served, fun oracle htells => ?_⟩
  have hrun := h.runs oracle htells
  rw [View.system] at hrun ⊢
  rw [List.append_assoc, List.singleton_append, Running.ahead_chip]
  exact hrun

/-- **Every step of the machines** is some moves of the pair. -/
theorem Wired.Mirrors.step {ρ ρ' : Wired} (hcs : ∀ c ∈ calls js, c.Proper)
    (hinit : ∀ oracle, (∀ n s, Proper s (oracle n s)) → OnScript oracle (calls js) init)
    (h : Wired.Mirrors js init w₀ l₀ o ρ v) (hs : ρ.Step ρ') :
    ∃ v', Wired.Mirrors js init w₀ l₀ o ρ' v' := by
  cases hs with
  | adapter hs hok _ htime hacc hudr0 => exact h.adapter hcs hs hok htime hacc hudr0
  | bridge hs htx => exact h.bridge hcs hinit hs htx
  | arriveBridge => exact ⟨v, h.arriveBridge⟩
  | arriveAdapter hi hacc => exact h.arriveAdapter hi hacc

theorem Wired.Mirrors.reach {ρ ρ' : Wired} (hcs : ∀ c ∈ calls js, c.Proper)
    (hinit : ∀ oracle, (∀ n s, Proper s (oracle n s)) → OnScript oracle (calls js) init)
    (h : Wired.Mirrors js init w₀ l₀ o ρ v) (hr : ρ.Reach ρ') :
    ∃ v', Wired.Mirrors js init w₀ l₀ o ρ' v' := by
  induction hr with
  | refl => exact ⟨v, h⟩
  | tail _ hs ih =>
    obtain ⟨v', h'⟩ := ih
    exact h'.step hcs hinit hs

end Mirrors

/-! ## 5. Runs that are computed -/

/-- Whose turn it is. -/
inductive Turn where
  /-- A step of the program, or of a handler. -/
  | adapter (i : Option Atmega.Interrupt)
  | bridge
  | toBridge
  | toAdapter

/-- The timer is looked at before the timeout has passed. -/
def early : Running → Bool
  | ⟨.op (.expired since) _, _, w⟩ => w.micros - since ≤ timeoutUs
  | _ => true

theorem early_onTime {s : Running} (h : early s = true) : s.OnTime := by
  obtain ⟨p, i, w⟩ := s
  rintro since k rfl
  exact of_decide_eq_true h

namespace Wired

/-- The next step, if there is one. -/
def turn : Turn → Wired → Option Wired
  | .adapter i, ⟨s, c, toB, toA⟩ => (s.next i).bind fun s' =>
    let tx := s'.chip.sending.usart.udr0.drop s.chip.sending.usart.udr0.length
    if s.SbiOnFilled s' ∧ s.Takes s' ∧ early s = true ∧
        s'.chip.receiving.accepted = s.chip.receiving.accepted ∧
        s'.chip.sending.usart.udr0 = s.chip.sending.usart.udr0 ++ tx then
      some ⟨s', c, toB ++ tx, toA⟩
    else none
  | .bridge, ⟨s, c, toB, toA⟩ => (next Bridge.honestAnswer c).bind fun c' =>
    let tx := c'.2.1.tx.drop c.2.1.tx.length
    if c'.2.1.tx = c.2.1.tx ++ tx then some ⟨s, c', toB, toA ++ tx⟩ else none
  | .toBridge, ⟨s, (q, (w, o)), b :: toB, toA⟩ =>
    some ⟨s, (q, ({ w with port := w.port ++ [b] }, o)), toB, toA⟩
  | .toAdapter, ⟨⟨p, i, w⟩, c, toB, b :: toA⟩ => (w.interrupt (.receive b false)).bind fun w' =>
    if w'.receiving.accepted = w.receiving.accepted ++ [b] then
      some ⟨⟨p, i, w'⟩, c, toB, toA⟩
    else none
  | _, _ => none

/-- Turn by turn; one that is not possible is passed over. -/
def turns : List Turn → Wired → Wired
  | [], ρ => ρ
  | t :: ts, ρ => turns ts ((ρ.turn t).getD ρ)

theorem turn_step {t : Turn} {ρ ρ' : Wired} (h : ρ.turn t = some ρ') : ρ.Step ρ' := by
  obtain ⟨⟨p, i, w⟩, ⟨q, u, o⟩, toB, toA⟩ := ρ
  cases t with
  | adapter i =>
    obtain ⟨s', hs, h⟩ := Option.bind_eq_some_iff.mp h
    obtain ⟨⟨hok, htakes, hearly, hacc, hudr0⟩, heq⟩ := Option.ite_none_right_eq_some.mp h
    cases heq
    exact .adapter (Running.next_step hs) hok htakes (early_onTime hearly) hacc hudr0
  | bridge =>
    obtain ⟨c', hc, h⟩ := Option.bind_eq_some_iff.mp h
    obtain ⟨htx, heq⟩ := Option.ite_none_right_eq_some.mp h
    cases heq
    exact .bridge (next_step Bridge.honestAnswer_sound hc) htx
  | toBridge =>
    cases toB with
    | nil => cases h
    | cons b toB =>
      cases h
      exact .arriveBridge
  | toAdapter =>
    cases toA with
    | nil => cases h
    | cons b toA =>
      rw [turn] at h
      obtain ⟨w', hw, h⟩ := Option.bind_eq_some_iff.mp h
      obtain ⟨hacc, heq⟩ := Option.ite_none_right_eq_some.mp h
      cases heq
      exact .arriveAdapter hw hacc

theorem turns_reach : ∀ (ts : List Turn) (ρ : Wired), ρ.Reach (ρ.turns ts)
  | [], _ => .refl
  | t :: ts, ρ => by
    have hrest := turns_reach ts ((ρ.turn t).getD ρ)
    cases ht : ρ.turn t with
    | none =>
      rw [ht] at hrest
      rw [turns, ht]
      exact hrest
    | some ρ' =>
      rw [ht] at hrest
      rw [turns, ht]
      exact .head (turn_step ht) hrest

end Wired

/-! ## 6. The result -/

/-- What has happened is what was to happen, where `oracle` says what the calls of `socket_impl.c`
return, `done` are those that have returned and `log` is what has been seen. -/
structure Wired.Exact (oracle : Oracle) (js : List Job) (w : Chip) (o : Os) (done : Done)
    (log : List (Result ⊕ SockCall)) (ρ : Wired) : Prop where
  linked : ρ.adapter.chip.g.connected = true ∧ ρ.bridge.2.1.g.connected = true
  results : ρ.adapter.chip.results = w.results ++ log.filterMap Sum.getLeft?
  served : done.map Sigma.fst = log.filterMap Sum.getRight?
  told : Tells oracle done
  /-- The operating system is where these calls have left it, or inside the one that is next. -/
  performed : ∃ o', Performed o done o' ∧ (ρ.bridge.2.2 = o' ∨ ∃ c r k,
    ρ.bridge.1 = (Bridge.wholeSocket r).bind k ∧
      Prog.Reach Bridge.honestKernel (c.code, o') (r, ρ.bridge.2.2) ∧
        log ++ [.inr c] <+: expected oracle 0 (calls js))
  order : log <+: expected oracle 0 (calls js)
  finished : ρ.adapter.code = .ret () → log = expected oracle 0 (calls js)

section Result

variable {js : List Job} {w : Chip} {b : Bridge.State} {tx toA : List UInt8} {o : Os} {k : Nat}
  {ρ : Wired}

end Result

instance (g : Atmega.State) : Decidable g.Ready :=
  decidable_of_iff ((g.connected = true ∧ g.processingCmd = Cmd.none ∧ g.waitingCmd = Cmd.none) ∧
      g.dataReady = false ∧ g.streamMaxSize = 0 ∧ g.dataBuf.length = maxDataSize)
    ⟨fun h => ⟨⟨h.1.1, h.1.2.1, h.1.2.2⟩, h.2.1, h.2.2.1, h.2.2.2⟩, fun h =>
      ⟨⟨h.idle.connected, h.idle.processing, h.idle.waiting⟩, h.empty, h.disarmed, h.room⟩⟩

end GBridge

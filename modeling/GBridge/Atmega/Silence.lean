/-
# When the peer falls silent

The three blocking calls wait in loops around `gbridge_loop` (`Wait`).  What gets them out of it
when nothing arrives any more is one of the two timeouts, and these are armed only while a command
is under way or an acknowledgement is awaited: `left_iff` says that a loop is left in time exactly
if it never comes to a round in which there is nothing to read and neither is the case
(`Live.Deaf`).

In silence a wait goes through two phases.

* First what is unread is used up.  Each round leaves less to do (`Line.next_measure`), and there
  are fewer than `SERIAL_BUFFER_SIZE` bytes of it (`Rounds.progress`).
* Then nothing moves but the timer (`Rounds.waiting`).  It advances by a tick at least with every
  round, and by less than its 32 bits can tell apart, so that after `GBRIDGE_TIMEOUT_US` one of the
  timeouts strikes, if one is armed (`Rounds.timeout`).  A round in which none is armed is repeated
  for ever (`Rounds.deaf`).

`wait_cmd` waits for an acknowledgement and nothing else, so it always ends (`left_waitCmd`).  The
other two may wait for a packet or a stream that has not begun, as `left_fails` does after its
request has been acknowledged.
-/
import GBridge.Atmega.Disarmed
import GBridge.Atmega.Arrivals
import GBridge.Atmega.Serial

namespace GBridge.Atmega

open Prog

/-! ## 1. The loops -/

/-- The loops in which a call waits. -/
inductive Wait where
  /-- `wait_cmd`, for a previous command. -/
  | previous
  /-- `wait_cmd`, for its own. -/
  | cmd (cmd : UInt8) (h : cmd ≠ Cmd.none)
  /-- `gbridge_recv_data_wait` -/
  | recvData
  /-- `gbridge_recv_stream_wait` -/
  | recvStream

/-- The condition of the loop. -/
def Wait.looping : Wait → State → Bool
  | previous, g => g.waitingCmd != Cmd.none
  | cmd c _, g => g.waitingCmd == c
  | recvData, g => g.connected && !g.dataReady
  | recvStream, g => g.connected && g.streamMaxSize != 0

/-- The loop. -/
def Wait.loop (k : Wait) : Code Unit := .whileM (do return k.looping (← get)) gbridgeLoop

theorem waitCmd_loops (cmd : UInt8) (h : cmd ≠ Cmd.none) : waitCmd cmd = (do
    if (← get).connected then
      Wait.previous.loop
      let now ← timerGet
      modify fun g => { g with waitingCmd := cmd, waitingCmdTime := now }
      (Wait.cmd cmd h).loop) := rfl

theorem gbridgeRecvDataWait_loop : gbridgeRecvDataWait = (do
    Wait.recvData.loop
    if (← get).connected then gbridgeRecvData else return none) := rfl

theorem gbridgeRecvStreamWait_loop (buffer : List UInt8) (maxSize : Nat) :
    gbridgeRecvStreamWait buffer maxSize = (do
      gbridgeRecvStream buffer maxSize
      Wait.recvStream.loop
      gbridgeConnected) := rfl

/-- So many times round the loop, each in surroundings of its own. -/
def Rounds (k : Wait) (envs : Nat → Surroundings) : Nat → Live → Live → Prop
  | 0, w, w' => w = w'
  | n + 1, w, w' => ∃ w₁, Rounds k envs n w w₁ ∧ k.looping w₁.g = true ∧
      Eval (live (envs n)) gbridgeLoop w₁ () w'

/-- The loop is left after at most so many rounds. -/
def LeftWithin (k : Wait) (envs : Nat → Surroundings) (bound : Nat) (w : Live) : Prop :=
  ∃ n ≤ bound, ∃ w', Rounds k envs n w w' ∧ k.looping w'.g = false

/-- Nothing arrives, and between two rounds the timer advances by a tick at least; not by so much
that its 32 bits go all the way round to where they were. -/
structure Silence (envs : Nat → Surroundings) : Prop where
  silent : ∀ i, (envs i).Silent
  tick : ∀ i k k', 1024 ≤ ((envs (i + 1)).clock k' - (envs i).clock k).toNat
  bounded : ∀ i k k',
    ((envs (i + 1)).clock k' - (envs i).clock k).toNat + timeoutUs.toNat < 2 ^ 32

/-- Nothing is unread, no command is under way and no acknowledgement is awaited. -/
structure Live.Deaf (w : Live) : Prop where
  idle : w.g.Idle
  read : w.rx = []

/-! ## 2. One round -/

section Round

variable {env : Surroundings} {k : Wait} {w w' : Live}

/-- A call of `gbridge_loop` comes to its end when nothing arrives. -/
theorem gbridgeLoop_ends (henv : env.Silent) :
    ∃ w', Eval (live env) gbridgeLoop w () w' ∧ Looped False w w' := by
  have hsim : ∀ (β : Type) (e : Op β) (Q : β → Live → Prop) (v w : Live), v = w →
      (Spec.guarded (live env) fun w => False → w.Inside).pre e Q v →
        ∃ b v' w', live env β e w b w' ∧ v' = w' ∧ Q b v' := by
    rintro β e Q v _ rfl h
    exact ⟨_, _, _, rfl, rfl, (h _ _ rfl).2⟩
  obtain ⟨⟨⟩, _, w', he, rfl, hl⟩ := wp_exists hsim (rfl : w = w)
    (wpL_gbridgeLoop (t := true) (fun _ => henv) False.elim)
  exact ⟨_, he, hl⟩

/-- Nothing is heard in silence. -/
theorem eval_heard {α : Type} {p : Code α} {a : α} (henv : env.Silent)
    (he : Eval (live env) p w a w') : w'.heard = w.heard := by
  have hkeeps : Keeps (Spec.demonic (live env)) (fun v => v.heard = w.heard) p := by
    refine Every.keeps (P := fun _ => True) (fun e v _ hv b v' hs => ?_)
      (every_of_forall (fun _ => trivial) p)
    cases e with
    | available =>
      cases hs
      show v.heard ++ env.arrive v.looks = w.heard
      rw [henv, List.append_nil, hv]
    | getchar =>
      unfold live liveAnswer at hs
      cases hrx : v.rx <;> simp only [hrx] at hs <;> cases hs <;> exact hv
    | _ => cases hs; exact hv
  exact wpre_eval (Q := fun _ v => v.heard = w.heard) (Spec.demonic_sound _) (hkeeps w rfl) he

/-- With the link lost no loop goes on. -/
theorem Wait.looping_connected (hclean : w.g.DownClean) (hloop : k.looping w.g = true) :
    w.g.connected = true := by
  by_contra hdown
  obtain ⟨-, -, hw, -⟩ := hclean (Bool.not_eq_true _ ▸ hdown)
  cases k with
  | previous => simp [looping, hw] at hloop
  | cmd c h => exact h (by simpa [looping, hw] using hloop : Cmd.none = c).symm
  | recvData => simp [looping, hdown] at hloop
  | recvStream => simp [looping, hdown] at hloop

/-- After a timeout no loop goes on. -/
theorem Wait.looping_init (k : Wait) (g : State) : k.looping g.init = false := by
  cases k with
  | previous => rfl
  | cmd c h => exact beq_eq_false_iff_ne.mpr h.symm
  | recvData => rfl
  | recvStream => rfl

/-- Where there is nothing to do and nothing arrives, nothing is done. -/
theorem Turns.of_stuck {n : Nat} {bs : List UInt8} {l l' : Line} (h : Turns l n bs l')
    (hstuck : ∀ now, l.next now = none) (hbs : bs = []) : n = 0 ∧ l' = l := by
  induction h with
  | refl => exact ⟨rfl, rfl⟩
  | next now _ hnext ih =>
    obtain ⟨-, rfl⟩ := ih hbs
    exact absurd (hstuck now) (by simp [hnext])
  | @hear n bs l₁ more _ ih =>
    obtain ⟨rfl, rfl⟩ := List.append_eq_nil_iff.mp hbs
    obtain ⟨hn, rfl⟩ := ih rfl
    exact ⟨hn, by rw [List.append_nil]⟩

/-- **One round in silence**: the loop is left, or there is less to do, or there was nothing to
do. -/
theorem round_cases (henv : env.Silent) (hc : w.g.connected = true) :
    ∃ w', Eval (live env) gbridgeLoop w () w' ∧ (k.looping w'.g = false ∨
      ¬ w.Stuck ∧ w'.g.connected = true ∧ w'.line.measure < w.line.measure ∨
        w'.line = w.line ∧ w.Stuck) := by
  obtain ⟨w', he, hl⟩ := gbridgeLoop_ends (w := w) henv
  refine ⟨w', he, ?_⟩
  have hclean : w'.g.DownClean :=
    hl.onward.down fun hdown => absurd (hc.symm.trans hdown) (by decide)
  have hheard : w'.heard = w.heard ++ [] := (eval_heard henv he).trans (List.append_nil _).symm
  cases hl with
  | timeout _ _ _ hline =>
    left
    rw [show w'.g = _ from congrArg Line.g hline]
    exact k.looping_init _
  | moved hm =>
    obtain ⟨n, hwent, hstuck⟩ := hm
    have hturns := hwent.heard hheard
    have hmeasure := hturns.measure rfl
    cases n with
    | succ n =>
      cases hloop : k.looping w'.g with
      | false => exact .inl rfl
      | true =>
        refine .inr (.inl ⟨fun hs => ?_, Wait.looping_connected hclean hloop, by omega⟩)
        exact absurd (hturns.of_stuck hs rfl).1 (Nat.succ_ne_zero n)
    | zero =>
      have hline : w'.line = w.line :=
        (hturns.no_step rfl).trans (congrArg (Line.mk w.g · w.tx) (List.append_nil w.rx))
      refine .inr (.inr ⟨hline, fun now => ?_⟩)
      rw [← hline]
      exact hstuck rfl now

/-- A timeout is armed, and this is when its time began. -/
def State.AwaitsSince (g : State) (since : UInt32) : Prop :=
  g.processingCmd ≠ Cmd.none ∧ g.processingCmdTime = since ∨
    g.waitingCmd ≠ Cmd.none ∧ g.waitingCmdTime = since

theorem wpL_timedOut_expired {cmd : UInt8} {since : UInt32} {t : Bool} (hne : cmd ≠ Cmd.none)
    (hpassed : ∀ i, timeoutUs < env.clock i - since) :
    wpL env t False (timedOut cmd since) (fun b w' => b = true ∧ w'.line = w.line) w := by
  unfold timedOut
  rw [if_pos hne]
  exact (wpL_cmd (w := w) _).mpr ⟨False.elim, decide_eq_true (hpassed _), rfl⟩

/-- **When the time is up, the link is reset.** -/
theorem wpL_gbridgeLoop_expired {since : UInt32} {t : Bool} (hc : w.g.connected = true)
    (hawaits : w.g.AwaitsSince since) (hpassed : ∀ i, timeoutUs < env.clock i - since) :
    wpL env t False gbridgeLoop (fun _ w' => w'.g = w.g.init) w := by
  have hreset : ∀ v : Live, v.line = w.line →
      wpL env t False gbridgeInit (fun _ w' => w'.g = w.g.init) v := by
    intro v hv
    have hg : v.g = w.g := congrArg Line.g hv
    exact wpL_modify _ False.elim False.elim (congrArg State.init hg)
  refine wpL_get _ False.elim ?_
  rw [if_pos hc]
  refine wpL_get _ False.elim ((wpL_bind _ _).mpr ?_)
  rcases hawaits with ⟨hne, rfl⟩ | ⟨hne, rfl⟩
  · refine wpre_mono ?_ (wpL_timedOut_expired hne hpassed)
    rintro b v ⟨rfl, hv⟩
    exact hreset v hv
  · refine wpre_mono ?_ (wpL_timedOut False.elim)
    rintro b v ⟨hv, -⟩
    split
    · exact hreset v hv
    refine (wpL_bind _ _).mpr (wpre_mono ?_ (wpL_timedOut_expired hne hpassed))
    rintro b v' ⟨rfl, hv'⟩
    exact hreset v' (hv'.trans hv)

/-- Nothing to do, and a timeout armed or nothing left to hear. -/
theorem Live.Stuck.awaits (hstuck : w.Stuck) (hc : w.g.connected = true) (hdeaf : ¬ w.Deaf) :
    ∃ since, w.g.AwaitsSince since := by
  by_cases hp : w.g.processingCmd = Cmd.none
  · refine ⟨_, .inr ⟨fun hw => hdeaf ⟨⟨hc, hp, hw⟩, ?_⟩, rfl⟩⟩
    have hnext := hstuck 0
    rw [Line.next_command hc hp] at hnext
    unfold Line.nextCommand at hnext
    split at hnext
    · assumption
    · exfalso
      split at hnext
      · cases hnext
      · split at hnext
        · split at hnext <;> cases hnext
        · cases hnext
  · exact ⟨_, .inl ⟨hp, rfl⟩⟩

end Round

/-! ## 3. Rounds -/

section Rounds

variable {k : Wait} {envs : Nat → Surroundings} {w : Live}

theorem live_unique (env : Surroundings) (β : Type) (e : Op β) (w : Live) (b b' : β)
    (w₁ w₂ : Live) (h₁ : live env β e w b w₁) (h₂ : live env β e w b' w₂) : b = b' ∧ w₁ = w₂ :=
  Prod.mk.inj (h₁.symm.trans h₂)

theorem Rounds.unique : ∀ {n : Nat} {v v' : Live}, Rounds k envs n w v → Rounds k envs n w v' →
    v = v'
  | 0, _, _, h, h' => h.symm.trans h'
  | n + 1, _, _, ⟨w₁, hr, _, he⟩, ⟨w₁', hr', _, he'⟩ => by
    obtain rfl := Rounds.unique hr hr'
    exact (eval_unique (live_unique _) he he').2

/-- The loop went on before each of the rounds. -/
theorem Rounds.before : ∀ {m n : Nat} {v : Live}, m < n → Rounds k envs n w v →
    ∃ v', Rounds k envs m w v' ∧ k.looping v'.g = true
  | m, n + 1, v, hlt, ⟨w₁, hr, hloop, _⟩ => by
    rcases Nat.lt_succ_iff_lt_or_eq.mp hlt with hlt | rfl
    · exact Rounds.before hlt hr
    · exact ⟨w₁, hr, hloop⟩

/-- Where nothing is armed and nothing unread a loop goes round for ever. -/
theorem Rounds.deaf (h : Silence envs) {n : Nat} {v : Live} (hr : Rounds k envs n w v)
    (hloop : k.looping v.g = true) (hdeaf : v.Deaf) (m : Nat) :
    ∃ v', Rounds k envs (n + m) w v' ∧ k.looping v'.g = true := by
  suffices hsame : ∃ v', Rounds k envs (n + m) w v' ∧ v'.line = v.line by
    obtain ⟨v', hr', hline⟩ := hsame
    have hg : v'.g = v.g := congrArg Line.g hline
    exact ⟨v', hr', hg ▸ hloop⟩
  induction m with
  | zero => exact ⟨v, hr, rfl⟩
  | succ m ih =>
    obtain ⟨v₁, hr₁, hline₁⟩ := ih
    have hg₁ : v₁.g = v.g := congrArg Line.g hline₁
    have hrx₁ : v₁.rx = [] := (congrArg Line.rx hline₁).trans hdeaf.read
    obtain ⟨v', he, hl⟩ := gbridgeLoop_ends (w := v₁) (h.silent (n + m))
    refine ⟨v', ⟨v₁, hr₁, hg₁ ▸ hloop, he⟩, ?_⟩
    have hheard : v'.heard = v₁.heard ++ [] :=
      (eval_heard (h.silent (n + m)) he).trans (List.append_nil _).symm
    have hc : v₁.g.connected = true := (congrArg State.connected hg₁).trans hdeaf.idle.connected
    cases hl with
    | @timeout i v₂ hw hzero harmed =>
      -- no timeout is armed
      obtain ⟨bs, -, hturns⟩ := hw.turns
      have hg₂ : v₂.line.g = v.g := (congrArg Line.g (hturns.no_step (hzero hc))).trans hg₁
      have hidle := hdeaf.idle
      rw [← hg₂] at hidle
      rcases harmed.2 with hp | hw
      · exact absurd hidle.processing hp
      · exact absurd hidle.waiting hw
    | moved hm =>
      obtain ⟨i, hwent, -⟩ := hm
      have hturns := hwent.heard hheard
      have hzero : v₁.line.measure = 0 := by
        unfold Line.measure
        rw [if_pos (show v₁.line.g.processingCmd = Cmd.none from
          (congrArg State.processingCmd hg₁).trans hdeaf.idle.processing),
          show v₁.line.rx = [] from hrx₁]
        rfl
      have hi : i = 0 := by
        have := hturns.measure rfl
        omega
      rw [hturns.no_step hi, ← hline₁]
      exact congrArg (Line.mk v₁.g · v₁.tx) (List.append_nil v₁.rx)

/-- While there is something to do, it is done. -/
theorem Rounds.progress (h : Silence envs) : ∀ (m n : Nat) (v : Live), Rounds k envs n w v →
    k.looping v.g = true → v.g.connected = true → v.line.measure ≤ m →
    ∃ j ≤ n + m + 1, ∃ v', Rounds k envs j w v' ∧ (k.looping v'.g = false ∨
      k.looping v'.g = true ∧ v'.g.connected = true ∧ v'.Stuck) := by
  intro m
  induction m with
  | zero =>
    intro n v hr hloop hc hm
    obtain ⟨v', he, hcases⟩ := round_cases (k := k) (h.silent n) hc
    rcases hcases with hleft | ⟨-, -, hless⟩ | ⟨-, hstuck⟩
    · exact ⟨n + 1, Nat.le_refl _, v', ⟨v, hr, hloop, he⟩, .inl hleft⟩
    · omega
    · exact ⟨n, Nat.le_succ n, v, hr, .inr ⟨hloop, hc, hstuck⟩⟩
  | succ m ih =>
    intro n v hr hloop hc hm
    obtain ⟨v', he, hcases⟩ := round_cases (k := k) (h.silent n) hc
    have hr' : Rounds k envs (n + 1) w v' := ⟨v, hr, hloop, he⟩
    rcases hcases with hleft | ⟨-, hc', hless⟩ | ⟨-, hstuck⟩
    · exact ⟨n + 1, by omega, v', hr', .inl hleft⟩
    · cases hloop' : k.looping v'.g with
      | false => exact ⟨n + 1, by omega, v', hr', .inl hloop'⟩
      | true =>
        obtain ⟨j, hj, hrest⟩ := ih (n + 1) v' hr' hloop' hc' (by omega)
        exact ⟨j, by omega, hrest⟩
    · exact ⟨n, by omega, v, hr, .inr ⟨hloop, hc, hstuck⟩⟩

/-- The 32 bits do not matter as long as the times are not too far apart. -/
theorem elapsed_add (a b c : UInt32) (h : (a - b).toNat + (b - c).toNat < 2 ^ 32) :
    (a - c).toNat = (a - b).toNat + (b - c).toNat := by
  have hsum : a - c = (a - b) + (b - c) := by grind
  rw [hsum, UInt32.toNat_add, Nat.mod_eq_of_lt h]

/-- Where there is nothing to do, time passes until a timeout has. -/
theorem Rounds.waiting (h : Silence envs) {n : Nat} {v : Live} {since : UInt32}
    (hr : Rounds k envs n w v) (hloop : k.looping v.g = true) (hc : v.g.connected = true)
    (hstuck : v.Stuck) (hawaits : v.g.AwaitsSince since) (m : Nat) :
    LeftWithin k envs (n + m) w ∨ ∃ v', Rounds k envs (n + m) w v' ∧ v'.line = v.line ∧
      ∀ i, 1024 * m ≤ ((envs (n + m)).clock i - since).toNat := by
  induction m with
  | zero => exact .inr ⟨v, hr, rfl, fun _ => by simp⟩
  | succ m ih =>
    rcases ih with ⟨j, hj, hleft⟩ | ⟨v₁, hr₁, hline₁, htime⟩
    · exact .inl ⟨j, by omega, hleft⟩
    have hg₁ : v₁.g = v.g := congrArg Line.g hline₁
    have hc₁ : v₁.g.connected = true := (congrArg State.connected hg₁).trans hc
    have hloop₁ : k.looping v₁.g = true := hg₁ ▸ hloop
    obtain ⟨v', he, hcases⟩ := round_cases (k := k) (h.silent (n + m)) hc₁
    have hr' : Rounds k envs (n + (m + 1)) w v' := ⟨v₁, hr₁, hloop₁, he⟩
    by_cases hpassed : ∀ i, timeoutUs < (envs (n + m)).clock i - since
    · left
      have hreset : v'.g = v₁.g.init := wpre_eval (Q := fun _ v' => v'.g = v₁.g.init)
        (Spec.guarded_sound _ _)
        (wpL_gbridgeLoop_expired (t := false) hc₁ (hg₁ ▸ hawaits) hpassed) he
      exact ⟨n + (m + 1), Nat.le_refl _, v', hr', hreset ▸ k.looping_init _⟩
    · obtain ⟨i₀, hnot⟩ := not_forall.mp hpassed
      rcases hcases with hleft | ⟨hnotstuck, -⟩ | ⟨hline', -⟩
      · exact .inl ⟨n + (m + 1), Nat.le_refl _, v', hr', hleft⟩
      · refine absurd (fun now => ?_) hnotstuck
        rw [hline₁]
        exact hstuck now
      · refine .inr ⟨v', hr', hline'.trans hline₁, fun i => ?_⟩
        have hbefore : ((envs (n + m)).clock i₀ - since).toNat ≤ timeoutUs.toNat :=
          UInt32.le_iff_toNat_le.mp (UInt32.not_lt.mp hnot)
        rw [elapsed_add ((envs (n + (m + 1))).clock i) ((envs (n + m)).clock i₀) since
            (lt_of_le_of_lt (Nat.add_le_add_left hbefore _) (h.bounded (n + m) i₀ i)),
          Nat.mul_add, Nat.mul_one, Nat.add_comm (1024 * m)]
        exact Nat.add_le_add (h.tick (n + m) i₀ i) (htime i₀)

/-- A timeout is found to have passed in the round after so many ticks. -/
theorem Rounds.timeout (h : Silence envs) {n : Nat} {v : Live} (hr : Rounds k envs n w v)
    (hloop : k.looping v.g = true) (hc : v.g.connected = true) (hstuck : v.Stuck)
    (hdeaf : ¬ v.Deaf) : LeftWithin k envs (n + (timeoutUs.toNat / 1024 + 2)) w := by
  obtain ⟨since, hawaits⟩ := hstuck.awaits hc hdeaf
  rcases hr.waiting h hloop hc hstuck hawaits (timeoutUs.toNat / 1024 + 1) with
    ⟨j, hj, hleft⟩ | ⟨v₁, hr₁, hline₁, htime⟩
  · exact ⟨j, by omega, hleft⟩
  have hg₁ : v₁.g = v.g := congrArg Line.g hline₁
  have hpassed : ∀ i, timeoutUs <
      (envs (n + (timeoutUs.toNat / 1024 + 1))).clock i - since := by
    intro i
    refine UInt32.lt_iff_toNat_lt.mpr (lt_of_lt_of_le ?_ (htime i))
    have := Nat.lt_mul_div_succ timeoutUs.toNat (by decide : 0 < 1024)
    exact this
  have hc₁ : v₁.g.connected = true := (congrArg State.connected hg₁).trans hc
  obtain ⟨v', he, -⟩ := gbridgeLoop_ends (w := v₁) (h.silent (n + (timeoutUs.toNat / 1024 + 1)))
  have hreset : v'.g = v₁.g.init := wpre_eval (Q := fun _ v' => v'.g = v₁.g.init)
    (Spec.guarded_sound _ _) (wpL_gbridgeLoop_expired (t := false) hc₁ (hg₁ ▸ hawaits) hpassed) he
  exact ⟨_, Nat.le_refl _, v', ⟨v₁, hr₁, hg₁ ▸ hloop, he⟩, hreset ▸ k.looping_init _⟩

end Rounds

/-! ## 4. The waits end -/

section Left

variable {k : Wait} {envs : Nat → Surroundings} {w : Live}

/-- A loop that is left has not come to a round with nothing to wait for. -/
theorem LeftWithin.never_deaf {bound : Nat} (hleft : LeftWithin k envs bound w)
    (h : Silence envs) (n : Nat) (v : Live) (hr : Rounds k envs n w v)
    (hloop : k.looping v.g = true) : ¬ v.Deaf := by
  intro hdeaf
  obtain ⟨m, -, v', hr', hend⟩ := hleft
  rcases Nat.lt_or_ge m n with hlt | hle
  · obtain ⟨v₁, hr₁, hloop₁⟩ := hr.before hlt
    rw [hr₁.unique hr', hend] at hloop₁
    exact absurd hloop₁ (by decide)
  · obtain ⟨v₁, hr₁, hloop₁⟩ := hr.deaf h hloop hdeaf (m - n)
    rw [Nat.add_sub_cancel' hle] at hr₁
    rw [hr₁.unique hr', hend] at hloop₁
    exact absurd hloop₁ (by decide)

/-- A loop that does not come to such a round is left: what is unread fits into the buffer of the
serial port, and when it has been taken a timeout is armed. -/
theorem left_of_never_deaf (h : Silence envs) (hc : w.g.connected = true)
    (hrx : w.rx.length < serialBufferSize)
    (hnever : ∀ n v, Rounds k envs n w v → k.looping v.g = true → ¬ v.Deaf) :
    LeftWithin k envs (timeoutUs.toNat / 1024 + (2 * serialBufferSize + 2)) w := by
  cases hloop : k.looping w.g with
  | false => exact ⟨0, Nat.zero_le _, w, rfl, hloop⟩
  | true =>
    obtain ⟨j, hj, v, hr, hcases⟩ := Rounds.progress h _ 0 w (k := k) (w := w) rfl hloop hc
      (Nat.le_refl _)
    have hmeasure : w.line.measure ≤ 2 * w.rx.length + 1 := by
      unfold Line.measure
      split <;> exact Nat.add_le_add_left (by decide) _
    rcases hcases with hleft | ⟨hloop', hc', hstuck⟩
    · exact ⟨j, by omega, v, hr, hleft⟩
    · obtain ⟨i, hi, hleft⟩ := hr.timeout h hloop' hc' hstuck (hnever j v hr hloop')
      exact ⟨i, by omega, hleft⟩

/-- `wait_cmd` waits for nothing but an acknowledgement, so it always ends in time. -/
theorem left_waitCmd (hk : k = .previous ∨ ∃ c hne, k = .cmd c hne) (h : Silence envs)
    (hc : w.g.connected = true) (hrx : w.rx.length < serialBufferSize) :
    LeftWithin k envs (timeoutUs.toNat / 1024 + (2 * serialBufferSize + 2)) w := by
  refine left_of_never_deaf h hc hrx fun _ v _ hloop hdeaf => ?_
  rcases hk with rfl | ⟨c, hne, rfl⟩
  · exact bne_iff_ne.mp hloop hdeaf.idle.waiting
  · exact hne ((eq_of_beq hloop).symm.trans hdeaf.idle.waiting)

end Left

/-- **A wait ends in time exactly if it never comes to a round with nothing to read, nothing under
way and nothing awaited.**  The number of rounds is that of the ticks, and a constant.

Nothing more arrives, and from one round to the next the timer advances by a tick at least and not
by so much that its 32 bits come round again (`Silence`).  What has arrived and is not read yet fits
into the ring of `serial.c`, which holds fewer than `serialBufferSize` bytes. -/
theorem left_iff (k : Wait) (envs : Nat → Surroundings) (w : Live) (h : Silence envs)
    (hc : w.g.connected = true) (hrx : w.rx.length < serialBufferSize) :
    LeftWithin k envs (timeoutUs.toNat / 1024 + (2 * serialBufferSize + 2)) w ↔
      ∀ n v, Rounds k envs n w v → k.looping v.g = true → ¬ v.Deaf := by
  constructor
  · exact fun hleft => hleft.never_deaf h
  · exact left_of_never_deaf h hc hrx

/-- One tick with each round. -/
def ticking (i : Nat) : Surroundings := ⟨fun _ => [], fun _ => UInt32.ofNat (1024 * i)⟩

theorem silence_ticking : Silence ticking := by
  have hdiff : ∀ i, UInt32.ofNat (1024 * (i + 1)) - UInt32.ofNat (1024 * i) = 1024 := by
    intro i
    rw [Nat.mul_add, UInt32.ofNat_add]
    grind
  refine ⟨fun _ _ => rfl, fun i _ _ => ?_, fun i _ _ => ?_⟩
  · show 1024 ≤ (UInt32.ofNat (1024 * (i + 1)) - UInt32.ofNat (1024 * i)).toNat
    rw [hdiff]
    decide
  · show (UInt32.ofNat (1024 * (i + 1)) - UInt32.ofNat (1024 * i)).toNat + _ < _
    rw [hdiff]
    decide

/-- The acknowledgement of a packet is awaited. -/
theorem left_iff_acknowledgement :
    LeftWithin (.cmd Cmd.data (by decide)) ticking
      (timeoutUs.toNat / 1024 + (2 * serialBufferSize + 2))
      { g := { connected := true, waitingCmd := Cmd.data } } :=
  (left_iff (.cmd Cmd.data (by decide)) ticking _ silence_ticking rfl (by decide)).mpr
    fun _ v _ hloop hdeaf => by
      have hwaiting : v.g.waitingCmd = Cmd.data := eq_of_beq hloop
      exact absurd (hwaiting.symm.trans hdeaf.idle.waiting) (by decide)

/-- A call of libmobile's has come to this loop. -/
def Waiting (k : Wait) (w : Live) : Prop :=
  ∃ w₀ c env rest, Called w₀ ∧ Reach (live env) (ApiCall.code c, w₀) (k.loop.bind rest, w)

/-- A link, and the acknowledgement of a packet; then nothing. -/
def acknowledgedOnly : Surroundings where
  arrive k := if k = 0 then handshake else if k = 5 then [ack Cmd.data] else []
  clock _ := 0

/-- **Not every wait ends**: the request has been acknowledged and the peer falls silent before its
reply. -/
theorem left_fails : ¬ ∀ (k : Wait) (envs : Nat → Surroundings) (w : Live), Waiting k w →
    Silence envs → w.g.connected = true → k.looping w.g = true →
      w.rx.length < serialBufferSize →
        LeftWithin k envs (timeoutUs.toNat / 1024 + (2 * serialBufferSize + 2)) w := by
  intro h
  have hrun : ((callAll ApiCall.code (fun _ w => w) 50
        (List.replicate 4 (acknowledgedOnly, .loop)) { g := State.init {} }).bind fun w =>
      (run (fun _ e w => some (liveAnswer acknowledgedOnly e w)) 50
        (gbridgeCmdData (.ofList [ProtMa.cmdClose, 0])) w).map fun r =>
          (r.2.g.connected, r.2.g.processingCmd, r.2.g.waitingCmd, r.2.g.dataReady, r.2.rx)) =
      some (true, Cmd.none, Cmd.none, false, []) := by decide +kernel
  obtain ⟨w₀, hcalls, hrest⟩ := Option.bind_eq_some_iff.mp hrun
  obtain ⟨⟨⟨⟩, w⟩, hsend, hw⟩ := Option.map_eq_some_iff.mp hrest
  obtain ⟨hc, hw⟩ := Prod.mk.inj hw
  obtain ⟨hprocessing, hw⟩ := Prod.mk.inj hw
  obtain ⟨hwaiting, hw⟩ := Prod.mk.inj hw
  obtain ⟨hready, hrx⟩ := Prod.mk.inj hw
  have hcalled : Called w₀ := Between.callAll _ (.start ⟨{}, rfl⟩) hcalls
  have hreach := eval_reach (live_eval hsend)
  -- what is left of the call behind the loop
  let answer : Code (Option GbridgeData) := do
    if (← get).connected then gbridgeRecvData else return none
  let close (_ : Option GbridgeData) : Code Result := do
    gbridgeRecvDataDone
    return .done
  have hwait : Waiting .recvData w :=
    ⟨w₀, .sockClose 0, acknowledgedOnly, fun _ => (answer.bind close).bind fun r =>
      .cmd (.returned r), hcalled, reach_bind (fun r => .cmd (.returned r)) (reach_bind close
        (reach_bind (fun _ => gbridgeRecvDataWait) hreach))⟩
  have hloop : Wait.recvData.looping w.g = true := by
    show (w.g.connected && !w.g.dataReady) = true
    rw [show w.g.connected = true from hc, show w.g.dataReady = false from hready]
    rfl
  have hleft := h .recvData ticking w hwait silence_ticking hc hloop (by rw [hrx]; decide)
  exact hleft.never_deaf silence_ticking 0 w rfl hloop ⟨⟨hc, hprocessing, hwaiting⟩, hrx⟩

end GBridge.Atmega

/-
# `atmega328p/source/timer.c`, and the timers of libmobile in `main.c`

Timer 0 overflows every 1.024 ms, and its handler adds that to `micros`.  The processor reads the
four bytes of `micros` one after the other, so `timer_get` turns the interrupts off meanwhile.
`mobile_impl_time_latch` keeps what was read, and `mobile_impl_time_check_ms` compares what has been
added since, modulo 2^32, with a number of milliseconds.

The calls are taken apart into their steps, down to the reads of the single bytes, and the handler
can run between any two of them as long as the interrupts are on (`Timer.step`).  Of a run it is
noted how often timer 0 had overflowed when each call began and returned, and `Checked.Right` says
what that has to do with what the checks returned.

`TimerInv` carries it: `micros` is `microsAfter` the number of overflows, the bytes that have been
read so far are bytes of the present `micros` while the interrupts are off, and each latch is the
time of a moment within the call that set it.  The difference of two such times is the time between
them modulo 2^32.  So each check is exact of some moment of the latch and some moment of its own
call, up to that, and is neither early nor late if less than 2^22 overflows lie between them
(`time_check_right`).
-/
import Mathlib.Logic.Function.Basic
import Mathlib.Data.Nat.ModEq
import GBridge.Lib.Transition

namespace GBridge.Atmega

/-! ## 1. The handler and the timers -/

/-- `F_CPU` -/
def fCpu : Nat := 16000000

/-- `timer_isr`: an overflow comes every 64 * 256 cycles. -/
def timerIsr (micros : UInt32) : UInt32 := micros + .ofNat (64 * 256 / (fCpu / 1000000))

/-- A byte of `micros`, counted from the lowest. -/
def timerByte (micros : UInt32) (k : Nat) : Nat := micros.toNat / 256 ^ k % 256

/-- `(timer_get() - micros_latch[timer]) > ((uint32_t)ms * 1000)` -/
def timeExpired (time latch : UInt32) (ms : UInt16) : Bool := ms.toUInt32 * 1000 < time - latch

/-- What the time is read for; `n` is `MOBILE_MAX_TIMERS`. -/
inductive TimerCall (n : Nat) where
  /-- `mobile_impl_time_latch` -/
  | latch (timer : Fin n)
  /-- `mobile_impl_time_check_ms` -/
  | check (timer : Fin n) (ms : UInt16)
deriving DecidableEq

/-- Where the main program is in it. -/
inductive TimerPc (n : Nat) where
  /-- Between two calls. -/
  | idle
  /-- `ATOMIC_BLOCK(ATOMIC_FORCEON)` begins. -/
  | enter (call : TimerCall n)
  /-- `time = micros`, of which `k` bytes are read. -/
  | load (call : TimerCall n) (k time : Nat)
  /-- The block ends. -/
  | leave (call : TimerCall n) (time : UInt32)
  /-- `timer_get` has returned. -/
  | use (call : TimerCall n) (time : UInt32)
deriving DecidableEq

/-- A check that has returned: how often timer 0 had overflowed when the latest latch of its timer
was called and when that returned, and when the check was called and returned. -/
structure Checked (n : Nat) where
  timer : Fin n
  ms : UInt16
  latched : Nat × Nat
  called : Nat
  returned : Nat
  result : Bool
deriving DecidableEq

/-- The timer, and what has been seen of the run. -/
structure Timer (n : Nat) where
  pc : TimerPc n
  /-- Interrupts are enabled. -/
  interrupts : Bool
  micros : UInt32
  /-- `micros_latch` -/
  microsLatch : Fin n → UInt32
  /-- How often the handler has run. -/
  overflows : Nat
  /-- And how often it had when the call under way began. -/
  called : Nat
  latched : Fin n → Nat × Nat
  checks : List (Checked n)

namespace Timer

variable {n : Nat}

/-- One step of the main program. -/
def main (s : Timer n) : TimerPc n → Timer n
  | .idle => s
  | .enter call => { s with pc := .load call 0 0, interrupts := false }
  | .load call k time =>
    let time := time + 256 ^ k * timerByte s.micros k
    { s with pc := if k = 3 then .leave call (.ofNat time) else .load call (k + 1) time }
  | .leave call time => { s with pc := .use call time, interrupts := true }
  | .use (.latch timer) time =>
    { s with
      pc := .idle
      microsLatch := Function.update s.microsLatch timer time
      latched := Function.update s.latched timer (s.called, s.overflows) }
  | .use (.check timer ms) time =>
    { s with
      pc := .idle
      checks := s.checks ++ [⟨timer, ms, s.latched timer, s.called, s.overflows,
        timeExpired time (s.microsLatch timer) ms⟩] }

end Timer

/-- What can happen next. -/
inductive TimerAct (n : Nat) where
  | call (call : TimerCall n)
  /-- The main program makes a step. -/
  | main
  /-- `TIMER0_OVF_vect` -/
  | interrupt
deriving DecidableEq

/-- One transition, if it is possible. -/
def Timer.step {n : Nat} (s : Timer n) : TimerAct n → Option (Timer n)
  | .call call =>
    if s.pc = .idle then some { s with pc := .enter call, called := s.overflows } else none
  | .main => if s.pc = .idle then none else some (s.main s.pc)
  | .interrupt =>
    if s.interrupts then
      some { s with micros := timerIsr s.micros, overflows := s.overflows + 1 }
    else none

/-- After `timer_init` and `sei`. -/
def Timer.start (n : Nat) : Timer n where
  pc := .idle
  interrupts := true
  micros := 0
  microsLatch _ := 0
  overflows := 0
  called := 0
  latched _ := (0, 0)
  checks := []

/-- The states that are reached, whenever the handler runs. -/
def Timer.Reachable {n : Nat} : Timer n → Prop :=
  Transition.Reached (· = .start n) Timer.step fun _ _ => True

/-! ## 2. The time -/

/-- What `micros` is after so many overflows. -/
def microsAfter (t : Nat) : UInt32 := .ofNat (1024 * t)

theorem timerIsr_microsAfter (t : Nat) : timerIsr (microsAfter t) = microsAfter (t + 1) := by
  have hstep : UInt32.ofNat (64 * 256 / (fCpu / 1000000)) = UInt32.ofNat 1024 := rfl
  rw [timerIsr, hstep, microsAfter, microsAfter, ← UInt32.ofNat_add, Nat.mul_add]

/-- **The wrap-around does not show in a difference** of less than 2^32. -/
theorem microsAfter_sub {t₀ t : Nat} (h : t₀ ≤ t) :
    (microsAfter t - microsAfter t₀).toNat = 1024 * (t - t₀) % 2 ^ 32 := by
  have ht : 1024 * t = 1024 * (t - t₀) + 1024 * t₀ := by omega
  rw [microsAfter, microsAfter, ht, UInt32.ofNat_add, UInt32.add_sub_cancel]
  exact UInt32.toNat_ofNat'

/-- The product does not wrap around. -/
theorem toNat_mul_thousand (ms : UInt16) : (ms.toUInt32 * 1000).toNat = 1000 * ms.toNat := by
  have hlt := ms.toNat_lt
  have hthousand : (1000 : UInt32).toNat = 1000 := rfl
  rw [UInt32.toNat_mul, UInt16.toNat_toUInt32, hthousand, Nat.mul_comm]
  exact Nat.mod_eq_of_lt (by omega)

theorem timeExpired_iff {t₀ t : Nat} (h : t₀ ≤ t) (ms : UInt16) :
    timeExpired (microsAfter t) (microsAfter t₀) ms = true ↔
      1000 * ms.toNat < 1024 * (t - t₀) % 2 ^ 32 := by
  rw [timeExpired, decide_eq_true_eq, UInt32.lt_iff_toNat_lt, toNat_mul_thousand,
    microsAfter_sub h]

/-- One more byte is read. -/
theorem mod_add_timerByte (micros : UInt32) (k : Nat) :
    micros.toNat % 256 ^ k + 256 ^ k * timerByte micros k = micros.toNat % 256 ^ (k + 1) := by
  rw [timerByte, Nat.pow_succ, Nat.mod_mul]

/-- All four are. -/
theorem ofNat_mod (micros : UInt32) : UInt32.ofNat (micros.toNat % 256 ^ 4) = micros := by
  have hlt : micros.toNat < 256 ^ 4 := micros.toNat_lt
  rw [Nat.mod_eq_of_lt hlt]
  exact UInt32.ofNat_toNat

/-! ## 3. The invariant -/

/-- What has been read so far is right, and stays right while the interrupts are off. -/
def TimerPc.Reads {n : Nat} (s : Timer n) : TimerPc n → Prop
  | .idle | .enter _ => True
  | .load _ k time => s.interrupts = false ∧ k ≤ 3 ∧ time = s.micros.toNat % 256 ^ k
  | .leave _ time => s.interrupts = false ∧ time = s.micros
  | .use _ time => ∃ t, s.called ≤ t ∧ t ≤ s.overflows ∧ time = microsAfter t

/-- What a check returns is right of the time between the latch and the check, each taken at some
moment of its call. -/
structure Checked.Exact {n : Nat} (p : Checked n) (t₀ t : Nat) : Prop where
  latched : p.latched.1 ≤ t₀ ∧ t₀ ≤ p.latched.2
  checked : p.called ≤ t ∧ t ≤ p.returned
  order : p.latched.2 ≤ p.called
  result : p.result = true ↔ 1000 * p.ms.toNat < 1024 * (t - t₀) % 2 ^ 32

/-- What holds between any two steps. -/
structure TimerInv {n : Nat} (s : Timer n) : Prop where
  micros : s.micros = microsAfter s.overflows
  called : s.called ≤ s.overflows
  reads : s.pc.Reads s
  latch : ∀ i, ∃ t, (s.latched i).1 ≤ t ∧ t ≤ (s.latched i).2 ∧ s.microsLatch i = microsAfter t
  latched : ∀ i, (s.latched i).2 ≤ s.overflows
  before : s.pc ≠ .idle → ∀ i, (s.latched i).2 ≤ s.called
  checks : ∀ p ∈ s.checks, ∃ t₀ t, p.Exact t₀ t

section Inv

variable {n : Nat} {s s' : Timer n}

/-- The handler. -/
theorem TimerInv.interrupt (h : TimerInv s) (hon : s.interrupts = true) :
    TimerInv { s with micros := timerIsr s.micros, overflows := s.overflows + 1 } := by
  have hreads := h.reads
  refine ⟨?_, Nat.le_succ_of_le h.called, ?_, h.latch, fun i => Nat.le_succ_of_le (h.latched i),
    h.before, h.checks⟩
  · rw [h.micros]
    exact timerIsr_microsAfter _
  · cases hpc : s.pc with
    | idle | enter => trivial
    | load | leave =>
      rw [hpc] at hreads
      rw [hreads.1] at hon
      cases hon
    | use call time =>
      rw [hpc] at hreads
      obtain ⟨t, hcalled, ht, htime⟩ := hreads
      exact ⟨t, hcalled, Nat.le_succ_of_le ht, htime⟩

/-- The time that has been read is kept. -/
theorem TimerInv.latches (h : TimerInv s) {timer : Fin n} {time : UInt32}
    (hpc : s.pc = .use (.latch timer) time) : TimerInv (s.main s.pc) := by
  have hreads := h.reads
  rw [hpc] at hreads ⊢
  obtain ⟨t, hcalled, ht, htime⟩ := hreads
  refine ⟨h.micros, h.called, trivial, fun i => ?_, fun i => ?_, fun hne => absurd rfl hne,
    h.checks⟩
  · by_cases hi : i = timer
    · subst hi
      refine ⟨t, ?_, ?_, ?_⟩
      · simpa [Timer.main] using hcalled
      · simpa [Timer.main] using ht
      · simpa [Timer.main] using htime
    · obtain ⟨t₀, hold⟩ := h.latch i
      refine ⟨t₀, ?_⟩
      simpa [Timer.main, Function.update_of_ne hi] using hold
  · by_cases hi : i = timer
    · subst hi
      simp [Timer.main]
    · simpa [Timer.main, Function.update_of_ne hi] using h.latched i

/-- It is compared with what was kept. -/
theorem TimerInv.compares (h : TimerInv s) {timer : Fin n} {ms : UInt16} {time : UInt32}
    (hpc : s.pc = .use (.check timer ms) time) : TimerInv (s.main s.pc) := by
  have hreads := h.reads
  have hbefore : (s.latched timer).2 ≤ s.called := h.before (by simp [hpc]) timer
  rw [hpc] at hreads ⊢
  obtain ⟨t, hcalled, ht, rfl⟩ := hreads
  obtain ⟨t₀, hlow, hhigh, hlatch⟩ := h.latch timer
  refine ⟨h.micros, h.called, trivial, h.latch, h.latched, fun hne => absurd rfl hne, ?_⟩
  intro p hp
  rcases List.mem_append.mp hp with hp | hp
  · exact h.checks p hp
  · obtain rfl := List.mem_singleton.mp hp
    refine ⟨t₀, t, ⟨hlow, hhigh⟩, ⟨hcalled, ht⟩, hbefore, ?_⟩
    rw [hlatch]
    exact timeExpired_iff (by omega) ms

/-- Each step of the main program keeps the invariant. -/
theorem TimerInv.main (h : TimerInv s) : TimerInv (s.main s.pc) := by
  have hreads := h.reads
  cases hpc : s.pc with
  | idle => exact h
  | enter call =>
    exact ⟨h.micros, h.called, ⟨rfl, Nat.zero_le _, (Nat.mod_one _).symm⟩, h.latch, h.latched,
      fun _ => h.before (by simp [hpc]), h.checks⟩
  | load call k time =>
    have hbefore := h.before (by simp [hpc])
    rw [hpc] at hreads
    obtain ⟨hoff, hk, rfl⟩ := hreads
    refine ⟨h.micros, h.called, ?_, h.latch, h.latched, fun _ => hbefore, h.checks⟩
    have hnext := mod_add_timerByte s.micros k
    by_cases hlast : k = 3
    · subst hlast
      refine ⟨hoff, ?_⟩
      rw [hnext]
      exact ofNat_mod _
    · simp only [Timer.main, if_neg hlast]
      exact ⟨hoff, by omega, hnext⟩
  | leave call time =>
    rw [hpc] at hreads
    exact ⟨h.micros, h.called, ⟨s.overflows, h.called, Nat.le_refl _, hreads.2.trans h.micros⟩,
      h.latch, h.latched, fun _ => h.before (by simp [hpc]), h.checks⟩
  | use call time =>
    cases call with
    | latch timer => exact hpc ▸ h.latches hpc
    | check timer ms => exact hpc ▸ h.compares hpc

/-- **One transition keeps the invariant.** -/
theorem TimerInv.step {a : TimerAct n} (h : TimerInv s) (hs : s.step a = some s') :
    TimerInv s' := by
  cases a with
  | call call =>
    simp only [Timer.step, Option.ite_none_right_eq_some, Option.some.injEq] at hs
    obtain ⟨-, rfl⟩ := hs
    exact ⟨h.micros, Nat.le_refl _, trivial, h.latch, h.latched, fun _ => h.latched, h.checks⟩
  | main =>
    simp only [Timer.step, Option.ite_none_left_eq_some, Option.some.injEq] at hs
    obtain ⟨-, rfl⟩ := hs
    exact h.main
  | interrupt =>
    simp only [Timer.step, Option.ite_none_right_eq_some, Option.some.injEq] at hs
    obtain ⟨hon, rfl⟩ := hs
    exact h.interrupt hon

theorem TimerInv.start (n : Nat) : TimerInv (Timer.start n) where
  micros := rfl
  called := Nat.le_refl _
  reads := trivial
  latch _ := ⟨0, Nat.le_refl _, Nat.le_refl _, rfl⟩
  latched _ := Nat.le_refl _
  before hne := absurd rfl hne
  checks p hp := by cases hp

theorem TimerInv.reachable (h : s.Reachable) : TimerInv s := by
  apply h.invariant
  · rintro _ rfl
    exact TimerInv.start n
  · intro s a s' hinv _ hs
    exact hinv.step hs

end Inv

/-! ## 4. What the checks return -/

/-- A check is right. -/
structure Checked.Right {n : Nat} (p : Checked n) : Prop where
  /-- It is exact for some moment of the latch and some moment of the check. -/
  exact : ∃ t₀ t, p.Exact t₀ t
  /-- If less than 2^22 overflows lie between them, it is never early. -/
  early : p.returned - p.latched.1 < 2 ^ 22 → p.result = true →
    1000 * p.ms.toNat < 1024 * (p.returned - p.latched.1)
  /-- Nor late. -/
  late : p.returned - p.latched.1 < 2 ^ 22 →
    1000 * p.ms.toNat < 1024 * (p.called - p.latched.2) → p.result = true

theorem Checked.Exact.right {n : Nat} {p : Checked n} {t₀ t : Nat} (h : p.Exact t₀ t) :
    p.Right := by
  obtain ⟨hlow, hhigh⟩ := h.latched
  obtain ⟨hcalled, hreturned⟩ := h.checked
  have horder := h.order
  have hplain : p.returned - p.latched.1 < 2 ^ 22 →
      (p.result = true ↔ 1000 * p.ms.toNat < 1024 * (t - t₀)) := by
    intro hshort
    rw [h.result, Nat.mod_eq_of_lt (by omega)]
  constructor
  · exact ⟨t₀, t, h⟩
  · intro hshort hresult
    have hless := (hplain hshort).mp hresult
    omega
  · intro hshort hless
    exact (hplain hshort).mpr (by omega)

/-- **The timers of libmobile keep the time**, although `micros` is read a byte at a time, changes
at any moment, and wraps around: in every run each check is right. -/
theorem time_check_right (n : Nat) (s : Timer n) (h : s.Reachable) : ∀ p ∈ s.checks, p.Right := by
  intro p hp
  obtain ⟨t₀, t, hexact⟩ := (TimerInv.reachable h).checks p hp
  exact hexact.right

/-- The timer overflows while the latch keeps what it has read, and once more after that. -/
def overflowing : List (TimerAct 1) :=
  .call (.latch 0) :: List.replicate 6 .main ++ [.interrupt, .main, .interrupt] ++
    .call (.check 0 1) :: List.replicate 7 .main

theorem time_check_right_overflowing : ∃ s : Timer 1, s.Reachable ∧
    s.checks = [⟨0, 1, (0, 1), 2, 2, true⟩] ∧ ∀ p ∈ s.checks, p.Right := by
  have hrun : (Transition.run Timer.step (fun _ _ => True) (.start 1) overflowing).map (·.checks) =
      some [⟨0, 1, (0, 1), 2, 2, true⟩] := by decide +kernel
  obtain ⟨s, hs, hchecks⟩ := Option.map_eq_some_iff.mp hrun
  have hreach : s.Reachable := .run (.start rfl) hs
  exact ⟨s, hreach, hchecks, time_check_right 1 s hreach⟩

end GBridge.Atmega

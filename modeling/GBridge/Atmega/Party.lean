/-
# The adapter as one of two parties

What each operation of the adapter is, on a line with another program at its end: a byte put on the
line, a byte taken that has arrived, a question how many have arrived, or nothing that is seen from
outside (`moves`).  The timer may show anything, and no timeout passes.

`plays` says that whatever an operation does there the specification of `Play` allows, so that what
is proved against it holds of the adapter in the pair; and `moving` that an operation can be taken
whenever the specification lets it, so that a run is never stuck.
-/
import GBridge.Atmega.Wait
import GBridge.Lib.Progress

namespace GBridge.Atmega

open Prog Duplex

/-- The moves of the operations. -/
def moves : Moves Op State UInt8 Result
  | _, .get, g, a, r, g' => a = .tau ∧ r = .inl g ∧ g' = g
  | _, .set g₁, _, a, r, g' => a = .tau ∧ r = .inl () ∧ g' = g₁
  | _, .storeData i c, g, a, r, g' => a = .tau ∧ r = .inl () ∧ g' = g.storeData i c
  | _, .storeStream i c, g, a, r, g' => a = .tau ∧ r = .inl () ∧ g' = g.storeStream i c
  | _, .available, g, a, r, g' => ∃ n, a = .poll n ∧ r = .inl n ∧ g' = g
  | _, .getchar, g, a, r, g' => ∃ c, a = .recv [c] ∧ r = .inl c ∧ g' = g
  | _, .putchar c, g, a, r, g' => a = .send c ∧ r = .inl () ∧ g' = g
  | _, .timerGet, g, a, r, g' => a = .tau ∧ (∃ now, r = .inl now) ∧ g' = g
  | _, .expired _, g, a, r, g' => a = .tau ∧ r = .inl false ∧ g' = g
  | _, .returned res, g, a, r, g' => a = .note res ∧ r = .inl () ∧ g' = g

/-- No operation goes on as another one. -/
theorem moves_answers {γ : Type} {e e' : Op γ} {g g' : State} {a : Duplex.Act UInt8 Result} :
    ¬ moves γ e g a (.inr e') g' := by
  intro h
  cases e with
  | available =>
    obtain ⟨n, -, hr, -⟩ := h
    cases hr
  | getchar =>
    obtain ⟨c, -, hr, -⟩ := h
    cases hr
  | timerGet =>
    obtain ⟨-, ⟨now, hr⟩, -⟩ := h
    cases hr
  | _ =>
    obtain ⟨-, hr, -⟩ := h
    cases hr

/-- **Whatever an operation does on the line, the specification allows it.** -/
theorem plays : Plays (play .faultless) moves Play.g Play.share Play.patience where
  answer := by
    intro γ e Q v a b g n hpre hm hn
    cases e with
    | get =>
      obtain ⟨rfl, hr, rfl⟩ := hm
      cases hr
      exact ⟨v, rfl, rfl, Nat.le_of_lt hn, hpre⟩
    | set g₁ =>
      obtain ⟨rfl, -, rfl⟩ := hm
      exact ⟨{ v with g }, rfl, rfl, Nat.le_of_lt hn, hpre.2⟩
    | storeData i c =>
      obtain ⟨rfl, -, rfl⟩ := hm
      exact ⟨{ v with g := v.g.storeData i c }, rfl, rfl, Nat.le_of_lt hn, hpre⟩
    | storeStream i c =>
      obtain ⟨rfl, -, rfl⟩ := hm
      exact ⟨{ v with g := v.g.storeStream i c }, rfl, rfl, Nat.le_of_lt hn, hpre⟩
    | available =>
      obtain ⟨m, rfl, hr, rfl⟩ := hm
      cases hr
      intro hle
      -- a poll that comes too early costs one unit of patience
      by_cases hearly : b < v.share.inp.length
      · refine ⟨{ v with known := b, patience := n }, rfl, rfl, Nat.le_refl n, hpre b n hle ?_⟩
        exact ⟨fun _ _ => hn, fun hfree => absurd ⟨rfl, hearly⟩ hfree⟩
      · refine ⟨{ v with known := b }, rfl, rfl, Nat.le_of_lt hn, hpre b v.patience hle ?_⟩
        exact (Costs.free hearly).mpr rfl
    | getchar =>
      obtain ⟨c, rfl, hr, rfl⟩ := hm
      cases hr
      obtain ⟨-, c', inp, hinp, hq⟩ := hpre
      intro inp' hinp'
      obtain ⟨rfl, rfl⟩ := List.cons.inj (hinp.symm.trans hinp')
      exact ⟨{ v with
        known := v.known - 1, share := ⟨inp, v.share.early - 1, v.share.out⟩ },
        rfl, rfl, Nat.le_of_lt hn, hq⟩
    | putchar c =>
      obtain ⟨rfl, -, rfl⟩ := hm
      have hdue : v.share.Due (.send c) fun share => Q () { v with share } := hpre
      unfold Share.Move
      exact hdue.mono fun sh hq => ⟨{ v with share := sh }, rfl, rfl, Nat.le_of_lt hn, hq⟩
    | timerGet =>
      obtain ⟨rfl, ⟨now, hr⟩, rfl⟩ := hm
      cases hr
      exact ⟨v, rfl, rfl, Nat.le_of_lt hn, hpre b trivial⟩
    | expired since =>
      obtain ⟨rfl, hr, rfl⟩ := hm
      cases hr
      exact ⟨v, rfl, rfl, Nat.le_of_lt hn, hpre.2⟩
    | returned res =>
      obtain ⟨rfl, -, rfl⟩ := hm
      have hdue : v.share.Due (.note res) fun share => Q () { v with share } := hpre
      unfold Share.Move
      exact hdue.mono fun sh hq => ⟨{ v with share := sh }, rfl, rfl, Nat.le_of_lt hn, hq⟩
  go := fun _ hm _ => absurd hm moves_answers

/-- **Every operation can be carried out**, as soon as what it may find is there. -/
theorem moving : Moving (play .faultless) moves Play.g Play.share fun _ => False := by
  intro γ e Q v hpre
  cases e with
  | get => exact .inl ⟨.tau, v.g, v, ⟨rfl, rfl, rfl⟩, rfl, hpre⟩
  | set g => exact .inl ⟨.tau, (), { v with g }, ⟨rfl, rfl, rfl⟩, rfl, hpre.2⟩
  | storeData i c =>
    exact .inl ⟨.tau, (), { v with g := v.g.storeData i c }, ⟨rfl, rfl, rfl⟩, rfl, hpre⟩
  | storeStream i c =>
    exact .inl ⟨.tau, (), { v with g := v.g.storeStream i c }, ⟨rfl, rfl, rfl⟩, rfl, hpre⟩
  | available =>
    refine .inl ⟨.poll v.share.inp.length, _, { v with known := v.share.inp.length },
      ⟨_, rfl, rfl, rfl⟩, ⟨rfl, rfl⟩, hpre _ v.patience (Nat.le_refl _) ?_⟩
    exact (Costs.free (Nat.lt_irrefl _)).mpr rfl
  | getchar =>
    obtain ⟨-, c, inp, hinp, hq⟩ := hpre
    exact .inl ⟨.recv [c], c, { v with
      known := v.known - 1, share := ⟨inp, v.share.early - 1, v.share.out⟩ },
      ⟨c, rfl, rfl, rfl⟩, ⟨hinp, rfl, rfl⟩, hq⟩
  | putchar c => exact .inr (.inl ⟨.send c, .inl (), v.g, trivial, rfl, rfl, rfl⟩)
  | timerGet => exact .inl ⟨.tau, 0, v, ⟨rfl, ⟨0, rfl⟩, rfl⟩, rfl, hpre 0 trivial⟩
  | expired since => exact .inl ⟨.tau, false, v, ⟨rfl, rfl, rfl⟩, rfl, hpre.2⟩
  | returned res => exact .inr (.inl ⟨.note res, .inl (), v.g, trivial, rfl, rfl, rfl⟩)

/-- **The link is never reset.** -/
theorem stays_connected {α : Type} {Q : α → Play → Prop} {c c' : Prog Op α × State}
    {sh : Share UInt8 Result} {a : Duplex.Act UInt8 Result}
    (h : Playing (play .faultless) Play.g Play.share Play.patience Q c sh)
    (hm : party moves c a c') (hup : c.2.connected = true) : c'.2.connected = true := by
  obtain ⟨p, g⟩ := c
  obtain ⟨v, rfl, -, -, hwp⟩ := h 0
  cases p with
  | ret x => exact hm.elim
  | loop body k =>
    obtain ⟨-, -, hg⟩ := hm
    rw [hg]
    exact hup
  | op e k =>
    rcases hm with ⟨b, hm, -⟩ | ⟨e', hm, -⟩
    · cases e with
      | set g =>
        obtain ⟨-, -, hg⟩ := hm
        rw [hg]
        exact hwp.1 rfl
      | available | getchar =>
        obtain ⟨-, -, -, hg⟩ := hm
        rw [hg]
        exact hup
      | _ =>
        obtain ⟨-, -, hg⟩ := hm
        rw [hg]
        exact hup
    · exact absurd hm moves_answers

end GBridge.Atmega

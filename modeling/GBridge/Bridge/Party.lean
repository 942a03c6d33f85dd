/-
# The bridge as one of two parties

A write puts its bytes on the line one by one.  A read with the long timeout takes as many bytes as
it asks for, because nothing times out; the short poll of `gbridge_loop` takes what it likes of them
(`moves`).

As for the adapter, `plays` says that whatever an operation does there the specification of `Play`
allows, and `moving` that it can be taken when the specification lets it.
-/
import GBridge.Bridge.Wait
import GBridge.Lib.Progress

namespace GBridge.Bridge

open Prog Duplex

/-- The variables of the bridge, the number of `socket_impl_*` calls made and the lines printed. -/
structure Side where
  g : State
  calls : Nat := 0
  printed : List (List UInt8) := []

/-- The moves of the operations. -/
def moves (oracle : Nat → (c : SockCall) → c.Res) : Moves Op Side UInt8 SockCall
  | _, .get, x, a, r, x' => a = .tau ∧ r = .inl x.g ∧ x' = x
  | _, .set g, x, a, r, x' => a = .tau ∧ r = .inl () ∧ x' = { x with g }
  | _, .read count ms, x, a, r, x' => ∃ bs, a = .recv bs ∧ r = .inl (.bytes bs) ∧
    bs.length ≤ count ∧ (ms = timeoutMs → bs.length = count) ∧ x' = x
  | _, .store dst bs, x, a, r, x' => a = .tau ∧ r = .inl () ∧ x' = { x with g := x.g.store bs dst }
  | _, .write [], x, a, r, x' => a = .tau ∧ r = .inl () ∧ x' = x
  | _, .write (b :: bs), x, a, r, x' => a = .send b ∧ r = .inr (.write bs) ∧ x' = x
  | _, .eprint _, x, a, r, x' => a = .tau ∧ r = .inl () ∧ x' = x
  | _, .ewrite bs, x, a, r, x' =>
    a = .tau ∧ r = .inl () ∧ x' = { x with printed := x.printed ++ [bs] }
  | _, .sock c, x, a, r, x' =>
    a = .note c ∧ r = .inl (oracle x.calls c) ∧ x' = { x with calls := x.calls + 1 }

/-- What is seen of the ghost world. -/
def Play.side (v : Play) : Side := ⟨v.g, v.calls, v.printed⟩

section Party

variable {oracle : Nat → (c : SockCall) → c.Res} {lines : List (List UInt8)}

/-- **Whatever an operation does on the line, the specification allows it.** -/
theorem plays : Plays (play (.faultless oracle lines)) (moves oracle) Play.side Play.share
    Play.patience where
  answer := by
    intro γ e Q v a b x n hpre hm hn
    cases e with
    | get =>
      obtain ⟨rfl, hr, rfl⟩ := hm
      cases hr
      exact ⟨v, rfl, rfl, Nat.le_of_lt hn, hpre⟩
    | set g =>
      obtain ⟨rfl, -, rfl⟩ := hm
      exact ⟨{ v with g }, rfl, rfl, Nat.le_of_lt hn, hpre.2⟩
    | read count ms =>
      obtain ⟨bs, rfl, hr, hle, hall, rfl⟩ := hm
      cases hr
      obtain ⟨hlong, -, hread⟩ := hpre
      intro inp hinp
      have hbrings : (Env.faultless oracle lines).Brings count ms v.share.inp.length bs := by
        refine ⟨hle, fun h => ?_⟩
        rcases h with hms | hprompt
        · rw [hall hms, Nat.min_eq_left (hlong hms)]
        · exact absurd hprompt Bool.false_ne_true
      -- a read that brings less than was asked for costs one unit of patience
      by_cases hearly : bs.length < count
      · refine ⟨{ v with
          patience := n, share := ⟨inp, v.share.early - bs.length, v.share.out⟩ },
          rfl, rfl, Nat.le_refl n, hread bs inp n hinp hbrings ?_⟩
        exact ⟨fun _ _ => hn, fun hfree => absurd ⟨rfl, hearly⟩ hfree⟩
      · refine ⟨{ v with share := ⟨inp, v.share.early - bs.length, v.share.out⟩ },
          rfl, rfl, Nat.le_of_lt hn, hread bs inp v.patience hinp hbrings ?_⟩
        exact (Costs.free hearly).mpr rfl
    | store dst bs =>
      obtain ⟨rfl, -, rfl⟩ := hm
      exact ⟨{ v with g := v.g.store bs dst }, rfl, rfl, Nat.le_of_lt hn, hpre⟩
    | write bs =>
      cases bs with
      | nil =>
        obtain ⟨rfl, -, rfl⟩ := hm
        exact ⟨v, rfl, rfl, Nat.le_of_lt hn, hpre⟩
      | cons c bs =>
        obtain ⟨-, hr, -⟩ := hm
        cases hr
    | eprint s =>
      obtain ⟨rfl, -, rfl⟩ := hm
      exact ⟨v, rfl, rfl, Nat.le_of_lt hn, hpre⟩
    | ewrite bs =>
      obtain ⟨rfl, -, rfl⟩ := hm
      exact ⟨{ v with printed := v.printed ++ [bs] }, rfl, rfl, Nat.le_of_lt hn, hpre.2⟩
    | sock c =>
      obtain ⟨rfl, hr, rfl⟩ := hm
      cases hr
      have hdue : v.share.Due (.note c) fun share =>
        Q (oracle v.calls c) { v with calls := v.calls + 1, share } := hpre
      unfold Share.Move
      exact hdue.mono fun sh hq =>
        ⟨{ v with calls := v.calls + 1, share := sh }, rfl, rfl, Nat.le_of_lt hn, hq⟩
  go := by
    intro γ e e' Q v a x n hpre hm hn
    cases e with
    | write bs =>
      cases bs with
      | nil =>
        obtain ⟨-, hr, -⟩ := hm
        cases hr
      | cons c bs =>
        obtain ⟨rfl, hr, rfl⟩ := hm
        cases hr
        have hdue : v.share.Due (.send c)
          (Share.Sends bs fun share => Q () { v with share }) := hpre
        unfold Share.Move
        exact hdue.mono fun sh hq => ⟨{ v with share := sh }, rfl, rfl, Nat.le_of_lt hn, hq⟩
    | read count ms =>
      obtain ⟨bs, -, hr, -⟩ := hm
      cases hr
    | _ =>
      obtain ⟨-, hr, -⟩ := hm
      cases hr

/-- **Every operation can be carried out**, as soon as what it may find is there; but when all is
done a poll finds nothing. -/
theorem moving : Moving (play (.faultless oracle lines)) (moves oracle) Play.side Play.share
    fun v => v.share.out = [] ∧ v.printed = lines := by
  intro γ e Q v hpre
  cases e with
  | get => exact .inl ⟨.tau, v.g, v, ⟨rfl, rfl, rfl⟩, rfl, hpre⟩
  | set g => exact .inl ⟨.tau, (), { v with g }, ⟨rfl, rfl, rfl⟩, rfl, hpre.2⟩
  | read count ms =>
    obtain ⟨hlong, hover, hread⟩ := hpre
    by_cases hle : count ≤ v.share.inp.length
    · have hlen : (v.share.inp.take count).length = count := by
        rw [List.length_take, Nat.min_eq_left hle]
      have hinp : v.share.inp = v.share.inp.take count ++ v.share.inp.drop count :=
        (List.take_append_drop count _).symm
      refine .inl ⟨.recv (v.share.inp.take count), _, { v with share := ⟨v.share.inp.drop count,
        v.share.early - (v.share.inp.take count).length, v.share.out⟩ },
        ⟨_, rfl, rfl, Nat.le_of_eq hlen, fun _ => hlen, rfl⟩, ⟨hinp, rfl, rfl⟩,
        hread _ _ v.patience hinp ⟨Nat.le_of_eq hlen, fun _ => ?_⟩ ?_⟩
      · rw [hlen, Nat.min_eq_left hle]
      · exact (Costs.free (Nat.not_lt_of_le (Nat.le_of_eq hlen.symm))).mpr rfl
    · have hpoll : ms ≠ timeoutMs := fun hms => hle (hlong hms)
      exact .inr (.inr (hover hpoll (Nat.lt_of_not_le hle)))
  | store dst bs =>
    exact .inl ⟨.tau, (), { v with g := v.g.store bs dst }, ⟨rfl, rfl, rfl⟩, rfl, hpre⟩
  | write bs =>
    cases bs with
    | nil => exact .inl ⟨.tau, (), v, ⟨rfl, rfl, rfl⟩, rfl, hpre⟩
    | cons c bs => exact .inr (.inl ⟨.send c, .inr (.write bs), v.side, trivial, rfl, rfl, rfl⟩)
  | eprint s => exact .inl ⟨.tau, (), v, ⟨rfl, rfl, rfl⟩, rfl, hpre⟩
  | ewrite bs =>
    exact .inl ⟨.tau, (), { v with printed := v.printed ++ [bs] }, ⟨rfl, rfl, rfl⟩, rfl, hpre.2⟩
  | sock c =>
    exact .inr (.inl ⟨.note c, .inl (oracle v.calls c), _, trivial, rfl, rfl, rfl⟩)

/-- **The link is never reset, and no line is printed but those there are to print.** -/
theorem stays_connected {α : Type} {Q : α → Play → Prop} {c c' : Prog Op α × Side}
    {sh : Share UInt8 SockCall} {a : Act UInt8 SockCall}
    (h : Playing (play (.faultless oracle lines)) Play.side Play.share Play.patience Q c sh)
    (hm : party (moves oracle) c a c')
    (hup : c.2.g.connected = true ∧ c.2.printed <+: lines) :
    c'.2.g.connected = true ∧ c'.2.printed <+: lines := by
  obtain ⟨p, x⟩ := c
  obtain ⟨v, rfl, -, -, hwp⟩ := h 0
  cases p with
  | ret y => exact hm.elim
  | loop body k =>
    obtain ⟨-, -, hx⟩ := hm
    rw [hx]
    exact hup
  | op e k =>
    rcases hm with ⟨b, hm, -⟩ | ⟨e', hm, -⟩
    · cases e with
      | set g =>
        obtain ⟨-, -, hx⟩ := hm
        rw [hx]
        exact ⟨hwp.1 rfl, hup.2⟩
      | ewrite bs =>
        obtain ⟨-, -, hx⟩ := hm
        rw [hx]
        exact ⟨hup.1, hwp.1⟩
      | read count ms =>
        obtain ⟨bs, -, -, -, -, hx⟩ := hm
        rw [hx]
        exact hup
      | store dst bs =>
        obtain ⟨-, -, hx⟩ := hm
        rw [hx]
        cases dst <;> exact hup
      | write bs =>
        cases bs <;> obtain ⟨-, -, hx⟩ := hm <;> rw [hx] <;> exact hup
      | _ =>
        obtain ⟨-, -, hx⟩ := hm
        rw [hx]
        exact hup
    · cases e with
      | write bs =>
        cases bs <;> obtain ⟨-, -, hx⟩ := hm <;> rw [hx] <;> exact hup
      | read count ms =>
        obtain ⟨bs, -, hr, -⟩ := hm
        cases hr
      | _ =>
        obtain ⟨-, hr, -⟩ := hm
        cases hr

end Party

end GBridge.Bridge

/-
# The bridge from power-up on

`main` calls `gbridge_handshake` until it returns true.  Each call writes the handshake, reads until
it has found one or until nothing comes any more, and the next one begins again, with the progress
of the search as it was.  While the link is down a read may time out or fail (`patientMoves`); what
matters of such reads is that they use up patience, of which there is any amount.  With the
handshake found, the bridge enters the loop of `main` and with it its part of the script (`Links`).

`Low` says that a program is on its way there, and `Low.move` what each of its moves leads to.
-/
import GBridge.Bridge.Party
import GBridge.Bridge.Transmit
import GBridge.Handshake
import GBridge.Lib.Phases
import GBridge.Pair

namespace GBridge.Bridge

open Prog Duplex Matching

/-! ## 1. On the line -/

/-- The moves of the operations from power-up on: as long as the link is down a read may end without
a byte. -/
def patientMoves (oracle : Oracle) : Moves Op Side UInt8 SockCall
  | _, .read count ms, x, a, r, x' => moves oracle _ (.read count ms) x a r x' ∨
    x.g.connected = false ∧ a = .tau ∧ (∃ res : ReadRes, res.read = [] ∧ r = .inl res) ∧ x' = x
  | _, e, x, a, r, x' => moves oracle _ e x a r x'

/-- Once the link is up they are the moves without timeouts. -/
theorem party_patient {oracle : Oracle} {α : Type} {c c' : Code α × Side} {a : Act UInt8 SockCall}
    (hm : party (patientMoves oracle) c a c') (hup : c.2.g.connected = true) :
    party (moves oracle) c a c' := by
  obtain ⟨p, x⟩ := c
  cases p with
  | ret y => exact hm
  | loop body k => exact hm
  | op e k =>
    cases e with
    | read count ms =>
      have hno : ¬ x.g.connected = false := fun hdown => absurd (hup.symm.trans hdown) (by decide)
      rcases hm with ⟨b, hm | ⟨hdown, -⟩, hk⟩ | ⟨e', hm | ⟨hdown, -⟩, hk⟩
      · exact .inl ⟨b, hm, hk⟩
      · exact absurd hdown hno
      · exact .inr ⟨e', hm, hk⟩
      · exact absurd hdown hno
    | _ => exact hm

/-- They include the moves without timeouts. -/
theorem patient_party {oracle : Oracle} {α : Type} {c c' : Code α × Side} {a : Act UInt8 SockCall}
    (hm : party (moves oracle) c a c') : party (patientMoves oracle) c a c' := by
  obtain ⟨p, x⟩ := c
  cases p with
  | ret y => exact hm
  | loop body k => exact hm
  | op e k =>
    cases e with
    | read count ms =>
      rcases hm with ⟨b, hm, hk⟩ | ⟨e', hm, hk⟩
      · exact .inl ⟨b, .inl hm, hk⟩
      · exact .inr ⟨e', .inl hm, hk⟩
    | _ => exact hm

/-! ## 2. Until a handshake is found -/

/-- The variables, the bytes taken and written since power-up, and how many reads there may still
be. -/
structure Rising where
  side : Side
  taken : List UInt8
  tx : List UInt8
  patience : Nat

/-- What an operation needs, and what it may answer; `cs` are the calls that will be made. -/
def Rising.pre (oracle : Oracle) (cs : List MobileCall) :
    {β : Type} → Op β → (β → Rising ⊕ Play → Prop) → Rising → Prop
  | _, .get, Q, u => Q u.side.g (.inl u)
  | _, .set g, Q, u =>
    if g.connected = true then
      Found handshake u.taken ∧ (∃ k, u.tx = surplus k) ∧ ∀ v, v.side = { u.side with g } →
        v.share = .ofScript [] ((script oracle 0 cs).map Ev.swap) → Q () (.inr v)
    else Q () (.inl { u with side := { u.side with g } })
  | _, .read count _, Q, u => 0 < u.patience → ∀ res : ReadRes, res.read.length ≤ count →
    Q res (.inl { u with taken := u.taken ++ res.read, patience := u.patience - 1 })
  | _, .write bs, Q, u => (∃ k, u.tx ++ bs = surplus k) ∧ Q () (.inl { u with tx := u.tx ++ bs })
  | _, _, _, _ => False

/-- The operations, before there is a script to follow. -/
def rising (oracle : Oracle) (cs : List MobileCall) : Opening Op Rising Play where
  pre := Rising.pre oracle cs
  mono := by
    intro β e Q Q' u hQ h
    cases e with
    | get => exact hQ _ _ h
    | set g =>
      rw [Rising.pre] at h ⊢
      split at h
      · obtain ⟨hfound, htx, h⟩ := h
        rw [if_pos ‹_›]
        exact ⟨hfound, htx, fun v hside hshare => hQ _ _ (h v hside hshare)⟩
      · rw [if_neg ‹_›]
        exact hQ _ _ h
    | read count ms => exact fun hpos res hlen => hQ _ _ (h hpos res hlen)
    | write bs => exact ⟨h.1, hQ _ _ h.2⟩
    | _ => exact h

/-- The weakest precondition from power-up on. -/
abbrev wpR (oracle : Oracle) (cs : List MobileCall) {α : Type} (p : Code α)
    (Q : α → Rising ⊕ Play → Prop) (u : Rising) : Prop :=
  wpre ((rising oracle cs).followed (play (.faultless oracle (lines cs)))) true p Q (.inl u)

/-- The link is down, the search is on, nothing has been done yet, and what has been written are
whole handshakes. -/
structure Rising.Listening (u : Rising) : Prop where
  down : u.side.g.connected = false
  searching : Searching handshake u.taken u.side.g.handshakeProgress
  ready : State.Ready { u.side.g with connected := true }
  fresh : u.side.calls = 0 ∧ u.side.printed = []
  written : ∃ k, u.tx = surplus k

section Rising

variable {oracle : Oracle} {cs : List MobileCall} {α β : Type} {u : Rising}

theorem wpR_bind {p : Code α} {f : α → Code β} {Q : β → Rising ⊕ Play → Prop}
    (h : wpR oracle cs p (fun a w => wpre ((rising oracle cs).followed
      (play (.faultless oracle (lines cs)))) true (f a) Q w) u) :
    wpR oracle cs (p.bind f) Q u :=
  wpre_bind.mpr h

theorem wpR_get {f : State → Code β} {Q : β → Rising ⊕ Play → Prop}
    (h : wpR oracle cs (f u.side.g) Q u) : wpR oracle cs (get.bind f) Q u := h

/-- The variables are changed, and the link stays down. -/
theorem wpR_modify {f : State → State} {Q : Unit → Rising ⊕ Play → Prop}
    (hdown : (f u.side.g).connected = false)
    (h : Q () (.inl { u with side := { u.side with g := f u.side.g } })) :
    wpR oracle cs (modify f) Q u := by
  have hset : Rising.pre oracle cs (.set (f u.side.g)) Q u := by
    rw [Rising.pre, if_neg (hdown ▸ Bool.false_ne_true)]
    exact h
  exact wpR_get hset

/-- They are changed, and the link is up. -/
theorem wpR_linked {f : State → State} {Q : Unit → Rising ⊕ Play → Prop}
    (hup : (f u.side.g).connected = true) (hfound : Found handshake u.taken)
    (hwritten : ∃ k, u.tx = surplus k)
    (h : ∀ v, v.side = { u.side with g := f u.side.g } →
      v.share = .ofScript [] ((script oracle 0 cs).map Ev.swap) → Q () (.inr v)) :
    wpR oracle cs (modify f) Q u := by
  have hset : Rising.pre oracle cs (.set (f u.side.g)) Q u := by
    rw [Rising.pre, if_pos hup]
    exact ⟨hfound, hwritten, h⟩
  exact wpR_get hset

/-- **One call of `gbridge_handshake`**: the handshake is found, or some patience is used up. -/
theorem wpR_gbridgeHandshake {Q : Bool → Rising ⊕ Play → Prop} (hu : u.Listening)
    (hmore : ∀ u', u'.Listening → u'.patience < u.patience → Q false (.inl u'))
    (hdone : ∀ v, v.g.Ready → v.calls = 0 → v.printed = [] →
      v.share = .ofScript [] ((script oracle 0 cs).map Ev.swap) → Q true (.inr v)) :
    wpR oracle cs gbridgeHandshake Q u := by
  obtain ⟨hdown, hsearching, hready, hfresh, k, htx⟩ := hu
  refine wpR_get ?_
  rw [hdown]
  have hwritten : u.tx ++ handshake = surplus (k + 1) := by
    rw [htx, surplus, surplus, List.replicate_succ', List.flatten_append]
    simp
  -- a read uses up patience, and what has not timed out goes on with less of it
  refine ⟨⟨k + 1, hwritten⟩, fun n w => ∃ u', w = .inl u' ∧ n = u'.patience ∧
    u'.patience ≤ u.patience ∧ u'.Listening,
    ⟨_, _, rfl, rfl, Nat.le_refl _, hdown, hsearching, hready, hfresh, k + 1, hwritten⟩, ?_⟩
  rintro n _ ⟨u₁, rfl, rfl, hle, hdown, hsearching, hready, hfresh, hwritten⟩
  intro hpos res hfits
  have hplace := hsearching.lt
  have hless : u₁.patience - 1 < u.patience := Nat.lt_of_lt_of_le (Nat.sub_one_lt_of_lt hpos) hle
  -- nothing has come: the call returns `false`
  have htimeout : Rising.Listening { u₁ with
      taken := u₁.taken ++ [], patience := u₁.patience - 1 } := by
    rw [List.append_nil]
    exact ⟨hdown, hsearching, hready, hfresh, hwritten⟩
  rcases res with (_ | ⟨c, _ | ⟨c', cs⟩⟩) | code
  · refine wpR_get ?_
    rw [hdown]
    exact hmore _ htimeout hless
  · have hmod : (u₁.side.g.handshakeProgress + 1) % 256 = u₁.side.g.handshakeProgress + 1 :=
      Nat.mod_eq_of_lt (Nat.lt_of_le_of_lt hplace (by decide))
    refine wpR_get (wpR_bind (wpR_modify hdown ?_))
    rw [hmod]
    refine wpre_if (fun hmiss => ?_) fun hhit => ?_
    · have hmiss' : handshake[u₁.side.g.handshakeProgress]? ≠ some c :=
        fun hc => hmiss ((getElem?_handshake hplace).mp hc).symm
      have hsearching' := hsearching.miss handshake_nodup hmiss'
      rw [← fallBack_eq] at hsearching'
      refine wpR_bind (wpR_modify hdown (wpR_get ?_))
      refine wpre_if (fun hend => absurd hend (Nat.ne_of_lt hsearching'.lt)) fun _ => ?_
      exact ⟨_, fun _ => Nat.sub_one_lt_of_lt hpos, _, rfl, rfl, Nat.le_of_lt hless, hdown,
        hsearching', ⟨rfl, hready.waiting, hready.empty⟩, hfresh, hwritten⟩
    · have hc : handshake[u₁.side.g.handshakeProgress]? = some c :=
        (getElem?_handshake hplace).mpr (not_not.mp hhit).symm
      refine wpR_get (wpre_if (fun hend => ?_) fun hrest => ?_)
      · have hfound := hsearching.found hc hend
        refine wpR_bind (wpR_linked rfl hfound hwritten fun v hside hshare => ?_)
        have hg := congrArg Side.g hside
        have hup : v.g.connected = true := congrArg State.connected hg
        have hend' : Q v.g.connected (.inr v) := by
          rw [hup]
          refine hdone v ?_ ?_ ?_ hshare
          · exact ⟨hup, (congrArg State.waitingCmd hg).trans hready.waiting,
              (congrArg State.dataReady hg).trans hready.empty⟩
          · exact (congrArg Side.calls hside).trans hfresh.1
          · exact (congrArg Side.printed hside).trans hfresh.2
        exact hend'
      · exact ⟨_, fun _ => Nat.sub_one_lt_of_lt hpos, _, rfl, rfl, Nat.le_of_lt hless, hdown,
          hsearching.hit handshake_nodup hc hrest, ⟨rfl, hready.waiting, hready.empty⟩, hfresh,
          hwritten⟩
  · simp [ReadRes.read] at hfits
  · refine wpR_get ?_
    rw [hdown]
    exact hmore _ htimeout hless

/-- **`main`** finds the handshake, however long that takes, and plays the script. -/
theorem wpR_main (hcs : Answered oracle 0 cs) (htaken : u.taken = []) (htx : u.tx = [])
    (hfresh : u.side.calls = 0 ∧ u.side.printed = []) :
    wpR oracle cs main (fun _ _ => False) u := by
  refine wpR_bind (wpR_modify rfl (wpR_bind ?_))
  refine wpre_whileM (fun n w => ∃ u', w = .inl u' ∧ n = u'.patience ∧ u'.Listening) _
    ⟨_, rfl, rfl, rfl, ?_, bridge_ready _, hfresh, 0, htx⟩ ?_
  · rw [htaken]
    exact searching_nil (by decide)
  rintro n _ ⟨u₁, rfl, rfl, hu₁⟩
  refine wpR_bind (wpR_gbridgeHandshake hu₁ (fun u₂ hu₂ hless => ?_) ?_)
  · exact ⟨_, fun _ => hless, u₂, rfl, rfl, hu₂⟩
  · intro v hready hcalls hprinted hshare
    rw [← hcalls] at hcs hshare
    have hloop : wpre ((rising oracle cs).followed (play (.faultless oracle (lines cs)))) true
        mainLoop (fun _ _ => False) (.inr v) :=
      wpre_followed.mpr (wpB_mainLoop ⟨hready, by rw [hprinted]; rfl, hcs, hshare⟩)
    exact hloop

end Rising

/-! ## 3. Moves -/

/-- What is left of the program plays the script of these calls. -/
def Risen (oracle : Oracle) (cs : List MobileCall) (c : Code Unit × Side) : Prop :=
  ∀ v, v.side = c.2 → v.share = .ofScript [] ((script oracle 0 cs).map Ev.swap) →
    wpB (.faultless oracle (lines cs)) true c.1 (fun _ _ => False) v

/-- No handshake has been found, and nothing has been done but writing handshakes. -/
structure Short (x : Side) (tx : List UInt8) : Prop where
  down : x.g.connected = false
  fresh : x.calls = 0 ∧ x.printed = []
  written : ∃ k, tx <+: surplus k

/-- The program is on its way to finding one, whatever calls will be made and however long it has to
wait. -/
structure Low (oracle : Oracle) (c : Code Unit × Side) (taken tx : List UInt8) : Prop where
  short : Short c.2 tx
  awaits : ∀ cs, Answered oracle 0 cs → ∀ n, ∃ m, n ≤ m ∧
    wpR oracle cs c.1 (fun _ _ => False) ⟨c.2, taken, tx, m⟩

/-- A handshake has been found with this move. -/
structure Links (x : Side) (taken tx : List UInt8) (a : Act UInt8 SockCall) : Prop where
  quiet : a = .tau
  up : x.g.connected = true
  fresh : x.calls = 0 ∧ x.printed = []
  found : Found handshake taken
  written : ∃ k, tx = surplus k

/-- Where a move may lead, if these calls will be made and there is so much patience. -/
def Next (oracle : Oracle) (cs : List MobileCall) (x : Side) (taken tx : List UInt8)
    (a : Act UInt8 SockCall) (n : Nat) (P : Rising ⊕ Play → Prop) : Prop :=
  (a.noted = [] ∧ Short x (tx ++ a.sends) ∧ ∃ m, n ≤ m ∧
      P (.inl ⟨x, taken ++ a.takes, tx ++ a.sends, m⟩)) ∨
    Links x taken tx a ∧ ∀ v, v.side = x →
      v.share = .ofScript [] ((script oracle 0 cs).map Ev.swap) → P (.inr v)

section Move

variable {oracle : Oracle} {cs : List MobileCall} {c c' : Code Unit × Side} {taken tx : List UInt8}
  {a : Act UInt8 SockCall} {x x' : Side} {n m : Nat} {P : Rising ⊕ Play → Prop}

/-- A move that is not seen. -/
theorem next_tau (hx : Short x tx) (hn : n ≤ m) (h : P (.inl ⟨x, taken, tx, m⟩)) :
    Next oracle cs x taken tx .tau n P := by
  have hnil : (Act.tau : Act UInt8 SockCall).sends = [] ∧
      (Act.tau : Act UInt8 SockCall).takes = [] := ⟨rfl, rfl⟩
  refine .inl ⟨rfl, ?_, m, hn, ?_⟩
  · rw [hnil.1, List.append_nil]
    exact hx
  · rw [hnil.1, hnil.2, List.append_nil, List.append_nil]
    exact h

/-- An operation answers. -/
theorem next_answer {γ : Type} {e : Op γ} {R : γ → Rising ⊕ Play → Prop} {b : γ} (hx : Short x tx)
    (hn : n < m) (hpre : Rising.pre oracle cs e R ⟨x, taken, tx, m⟩)
    (hm : patientMoves oracle γ e x a (.inl b) x') : Next oracle cs x' taken tx a n (R b) := by
  cases e with
  | get =>
    obtain ⟨rfl, hr, rfl⟩ := hm
    cases hr
    exact next_tau hx (Nat.le_of_lt hn) hpre
  | set g =>
    obtain ⟨rfl, -, rfl⟩ := hm
    rw [Rising.pre] at hpre
    split at hpre
    · obtain ⟨hfound, hwritten, hpre⟩ := hpre
      exact .inr ⟨⟨rfl, ‹_›, hx.fresh, hfound, hwritten⟩, hpre⟩
    · exact next_tau ⟨Bool.eq_false_of_not_eq_true ‹_›, hx.fresh, hx.written⟩ (Nat.le_of_lt hn) hpre
  | read count ms =>
    have hpos : 0 < m := Nat.lt_of_le_of_lt (Nat.zero_le n) hn
    have hread := hpre hpos
    have hless : n ≤ m - 1 := Nat.le_sub_one_of_lt hn
    rcases hm with ⟨bs, rfl, hr, hle, -, rfl⟩ | ⟨-, rfl, ⟨res, hres, hr⟩, rfl⟩
    · cases hr
      refine .inl ⟨rfl, ?_, m - 1, hless, ?_⟩
      · simpa [Act.sends] using hx
      · simpa [Act.sends, Act.takes, ReadRes.read] using hread (.bytes bs) hle
    · cases hr
      have hnone := hread b (by rw [hres]; exact Nat.zero_le count)
      rw [hres, List.append_nil] at hnone
      exact next_tau hx hless hnone
  | write bs =>
    cases bs with
    | nil =>
      obtain ⟨rfl, -, rfl⟩ := hm
      obtain ⟨-, hpre⟩ := hpre
      rw [List.append_nil] at hpre
      exact next_tau hx (Nat.le_of_lt hn) hpre
    | cons b bs =>
      obtain ⟨-, hr, -⟩ := hm
      cases hr
  | _ => exact hpre.elim

/-- An operation goes on: of what is written a byte goes out. -/
theorem next_go {γ : Type} {e e' : Op γ} {R : γ → Rising ⊕ Play → Prop} (hx : Short x tx)
    (hn : n < m) (hpre : Rising.pre oracle cs e R ⟨x, taken, tx, m⟩)
    (hm : patientMoves oracle γ e x a (.inr e') x') : Next oracle cs x' taken tx a n
      (((rising oracle cs).followed (play (.faultless oracle (lines cs)))).pre e' R) := by
  cases e with
  | write bs =>
    cases bs with
    | nil =>
      obtain ⟨-, hr, -⟩ := hm
      cases hr
    | cons b bs =>
      obtain ⟨rfl, hr, rfl⟩ := hm
      cases hr
      obtain ⟨⟨k, hk⟩, hpre⟩ := hpre
      rw [List.append_cons] at hk hpre
      have htakes : (Act.send b : Act UInt8 SockCall).takes = [] := rfl
      refine .inl ⟨rfl, ⟨hx.down, hx.fresh, k, bs, hk⟩, m, Nat.le_of_lt hn, ?_⟩
      rw [htakes, List.append_nil]
      exact ⟨⟨k, hk⟩, hpre⟩
  | read count ms =>
    rcases hm with ⟨bs, -, hr, -⟩ | ⟨-, -, ⟨res, -, hr⟩, -⟩ <;> cases hr
  | _ =>
    obtain ⟨-, hr, -⟩ := hm
    cases hr

/-- **A move**, before a handshake has been found: none has been found still, or this one has. -/
theorem Low.move (h : Low oracle c taken tx) (hm : party (patientMoves oracle) c a c') :
    (a.noted = [] ∧ Low oracle c' (taken ++ a.takes) (tx ++ a.sends)) ∨
      Links c'.2 taken tx a ∧ ∀ cs, Answered oracle 0 cs → Risen oracle cs c' := by
  obtain ⟨p, x⟩ := c
  obtain ⟨p', x'⟩ := c'
  obtain ⟨hshort, hawaits⟩ := h
  have hnext : ∀ cs, Answered oracle 0 cs → ∀ n, Next oracle cs x' taken tx a n
      (wpre ((rising oracle cs).followed (play (.faultless oracle (lines cs)))) true p'
        fun _ _ => False) := by
    intro cs hcs n
    obtain ⟨m, hn, hwp⟩ := hawaits cs hcs (n + 1)
    refine wpre_party ?_ ?_ ?_ hwp hm
    · exact fun hpre hm => next_answer hshort hn hpre hm
    · exact fun hpre hm => next_go hshort hn hpre hm
    · rintro R rfl rfl hR
      exact next_tau hshort (Nat.le_of_lt hn) hR
  by_cases hup : x'.g.connected = true
  · have hlinks : ∀ cs, Answered oracle 0 cs → Links x' taken tx a ∧ Risen oracle cs (p', x') := by
      intro cs hcs
      rcases hnext cs hcs 0 with ⟨-, hdown, -⟩ | ⟨hlinks, hwp⟩
      · exact absurd (hup.symm.trans hdown.down) (by decide)
      · exact ⟨hlinks, fun v hside hshare => wpre_followed.mp (hwp v hside hshare)⟩
    exact .inr ⟨(hlinks [] trivial).1, fun cs hcs => (hlinks cs hcs).2⟩
  · have hlow : ∀ cs, Answered oracle 0 cs → ∀ n, a.noted = [] ∧ Short x' (tx ++ a.sends) ∧
        ∃ m, n ≤ m ∧ wpR oracle cs p' (fun _ _ => False)
          ⟨x', taken ++ a.takes, tx ++ a.sends, m⟩ := by
      intro cs hcs n
      rcases hnext cs hcs n with hlow | ⟨hlinks, -⟩
      · exact hlow
      · exact absurd hlinks.up hup
    exact .inl ⟨(hlow [] trivial 0).1, (hlow [] trivial 0).2.1, fun cs hcs n => (hlow cs hcs n).2.2⟩

end Move

end GBridge.Bridge

/-
# The adapter from power-up on

Until it has found a handshake and answered it the adapter takes bytes one by one, a pass of its
main loop at a time (`wpR_doHandshake`, `wpR_pass`), and whatever libmobile calls comes back at
once, refused: `gbridge_cmd_data` sends nothing while the link is down, and `gbridge_recv_data_wait`
does not wait (`wpR_refuse`).  With the last byte of the answer its part of the script begins, of
which the calls still to be made are the whole.

`Rising` is the state of this phase, with what has been taken, sent and refused so far; `Rising.Low`
says that a program is in it, and what a move of the program leads to (`Rising.Low.move`) is another
such state or the beginning of the script (`Rising.Answers`).
-/
import GBridge.Atmega.Party
import GBridge.Handshake
import GBridge.Lib.Phases
import GBridge.Session

namespace GBridge

open Prog Duplex Matching
open Atmega (Result)

/-! ## 1. Calls on a link that is down -/

/-- What a call returns while the link is down. -/
def MobileCall.refused : MobileCall → Result
  | .debugLine _ | .close _ => .done
  | .open .. | .listen _ | .accept _ => .bool false
  | .connect .. | .send .. => .int (-1)
  | .recv _ buffer _ addr => .recv (-1) buffer addr

/-- What the calls of these jobs return, if the link is down for all of them. -/
def refusals (js : List Job) : List Result := (calls js).map MobileCall.refused

theorem refusals_pass (js : List Job) : refusals (js ++ [.pass]) = refusals js := by
  simp [refusals, calls, Job.call?]

theorem refusals_call (js : List Job) (c : MobileCall) :
    refusals (js ++ [.call c]) = refusals js ++ [c.refused] := by
  simp [refusals, calls, Job.call?]

namespace Atmega

/-! ## 2. Until the handshake is answered -/

/-- The variables, the bytes taken and sent since power-up, and the results. -/
structure Rising where
  g : State
  taken : List UInt8
  tx : List UInt8
  notes : List Result

/-- The last byte of the answer has been sent: from here on the script of the calls that are still
to be made is followed, whatever is left over in front of it. -/
def Rising.Rises (oracle : Oracle) (js : List Job) (u : Rising) (P : Rising ⊕ Play → Prop) : Prop :=
  ∃ js₁ js₂, js = js₁ ++ js₂ ∧ u.notes = refusals js₁ ∧ ∀ v pre, v.g = u.g → LeftOver pre →
    v.share = .ofScript pre (script oracle 0 (calls js₂)) → P (.inr v)

/-- What an operation needs, and what it may answer. -/
def Rising.pre (oracle : Oracle) (js : List Job) :
    {β : Type} → Op β → (β → Rising ⊕ Play → Prop) → Rising → Prop
  | _, .get, Q, u => Q u.g (.inl u)
  | _, .set g, Q, u => g.connected = false ∧ Q () (.inl { u with g })
  | _, .available, Q, u => ∀ n, Q n (.inl u)
  | _, .getchar, Q, u => ∀ c, Q c (.inl { u with taken := u.taken ++ [c] })
  | _, .putchar c, Q, u => Found handshake u.taken ∧ u.tx ++ [c] <+: handshake ∧
    if u.tx ++ [c] = handshake then u.Rises oracle js (Q ())
    else Q () (.inl { u with tx := u.tx ++ [c] })
  | _, .returned r, Q, u => (∃ js₁, js₁ <+: js ∧ u.notes ++ [r] = refusals js₁) ∧
    Q () (.inl { u with notes := u.notes ++ [r] })
  | _, _, _, _ => False

/-- The operations, before there is a script to follow. -/
def rising (oracle : Oracle) (js : List Job) : Opening Op Rising Play where
  pre := Rising.pre oracle js
  mono := by
    intro β e Q Q' u hQ h
    cases e with
    | get => exact hQ _ _ h
    | set g => exact ⟨h.1, hQ _ _ h.2⟩
    | available => exact fun n => hQ _ _ (h n)
    | getchar => exact fun c => hQ _ _ (h c)
    | putchar c =>
      obtain ⟨hfound, hprefix, h⟩ := h
      refine ⟨hfound, hprefix, ?_⟩
      split at h
      · obtain ⟨js₁, js₂, hjs, hnotes, h⟩ := h
        rw [if_pos ‹_›]
        exact ⟨js₁, js₂, hjs, hnotes, fun v pre hg hpre hshare => hQ _ _ (h v pre hg hpre hshare)⟩
      · rw [if_neg ‹_›]
        exact hQ _ _ h
    | returned r => exact ⟨h.1, hQ _ _ h.2⟩
    | _ => exact h

/-- The weakest precondition from power-up on. -/
abbrev wpR (oracle : Oracle) (js : List Job) {α : Type} (p : Code α) (Q : α → Rising ⊕ Play → Prop)
    (u : Rising) : Prop :=
  wpre ((rising oracle js).followed (play .faultless)) true p Q (.inl u)

/-- The link is down, the search is on, and nothing has been sent. -/
structure Rising.Listening (u : Rising) : Prop where
  down : u.g.connected = false
  searching : Searching handshake u.taken u.g.handshakeProgress
  silent : u.tx = []
  ready : State.Ready { u.g with connected := true }

section Rising

variable {oracle : Oracle} {js js₁ js₂ : List Job} {α β : Type} {u : Rising}

theorem wpR_bind {p : Code α} {f : α → Code β} {Q : β → Rising ⊕ Play → Prop}
    (h : wpR oracle js p (fun a w =>
      wpre ((rising oracle js).followed (play .faultless)) true (f a) Q w) u) :
    wpR oracle js (p.bind f) Q u :=
  wpre_bind.mpr h

theorem wpR_get {f : State → Code β} {Q : β → Rising ⊕ Play → Prop}
    (h : wpR oracle js (f u.g) Q u) : wpR oracle js (get.bind f) Q u := h

theorem wpR_modify {f : State → State} {Q : Unit → Rising ⊕ Play → Prop}
    (hdown : (f u.g).connected = false) (h : Q () (.inl { u with g := f u.g })) :
    wpR oracle js (modify f) Q u := ⟨hdown, h⟩

/-! ### Calls -/

/-- A request is not sent. -/
theorem wpR_gbridgeCmdData {data : GbridgeData} {Q : Unit → Rising ⊕ Play → Prop}
    (hdown : u.g.connected = false) (h : Q () (.inl u)) :
    wpR oracle js (gbridgeCmdData data) Q u := by
  refine wpR_get ?_
  rw [hdown]
  exact h

/-- No reply is waited for. -/
theorem wpR_gbridgeRecvDataWait {Q : Option GbridgeData → Rising ⊕ Play → Prop}
    (hdown : u.g.connected = false) (h : Q none (.inl u)) :
    wpR oracle js gbridgeRecvDataWait Q u := by
  refine wpR_bind (wpre_whileM (fun _ w => w = .inl u) 0 rfl ?_)
  rintro n _ rfl
  refine wpR_get ?_
  rw [hdown]
  refine wpR_get ?_
  rw [hdown]
  exact h

theorem wpR_request {data : GbridgeData} {Q : Option GbridgeData → Rising ⊕ Play → Prop}
    (hdown : u.g.connected = false) (h : Q none (.inl u)) :
    wpR oracle js (request data) Q u :=
  wpR_bind (wpR_gbridgeCmdData hdown (wpR_gbridgeRecvDataWait hdown h))

/-- The end of a call that is refused. -/
theorem wpR_refuse {r : Result} {Q : Result → Rising ⊕ Play → Prop} (hu : u.Listening)
    (h : Q r (.inl u)) : wpR oracle js (do gbridgeRecvDataDone; return r) Q u := by
  have hsame : { u.g with dataReady := false } = u.g := by
    rw [← show u.g.dataReady = false from hu.ready.empty]
  refine wpR_bind (wpR_modify hu.down ?_)
  rw [hsame]
  exact h

/-- **Every call is refused.** -/
theorem wpR_call {c : MobileCall} {Q : Result → Rising ⊕ Play → Prop} (hu : u.Listening)
    (h : Q c.refused (.inl u)) : wpR oracle js c.code Q u := by
  have hdown := hu.down
  cases c with
  | debugLine line =>
    refine wpR_bind (wpR_get ?_)
    rw [hdown]
    exact h
  | send conn buffer addr =>
    refine wpR_bind (wpR_gbridgeCmdData hdown (wpR_bind (wpR_get ?_)))
    rw [hdown]
    exact wpR_refuse hu h
  | _ => exact wpR_bind (wpR_request hdown (wpR_refuse hu h))

/-! ### Passes -/

/-- The answer goes out, and with its last byte the script begins. -/
theorem wpR_putchars {Q : Unit → Rising ⊕ Play → Prop} (hjs : js = js₁ ++ js₂) :
    ∀ {todo : List UInt8} {u : Rising}, todo ≠ [] → u.tx ++ todo = handshake →
      Found handshake u.taken → u.notes = refusals js₁ →
      (∀ v pre, v.g = u.g → LeftOver pre →
        v.share = .ofScript pre (script oracle 0 (calls js₂)) → Q () (.inr v)) →
      wpR oracle js (serialPutchars todo) Q u
  | [], _, hne, _, _, _, _ => absurd rfl hne
  | [c], u, _, hall, hfound, hnotes, h => by
    refine ⟨hfound, hall ▸ List.prefix_refl _, ?_⟩
    rw [if_pos hall]
    exact ⟨js₁, js₂, hjs, hnotes, h⟩
  | c :: c' :: todo, u, _, hall, hfound, hnotes, h => by
    rw [List.append_cons] at hall
    refine ⟨hfound, hall ▸ List.prefix_append _ _, ?_⟩
    have hmore : u.tx ++ [c] ≠ handshake := by
      intro heq
      rw [heq] at hall
      exact absurd (List.append_right_eq_self.mp hall) (List.cons_ne_nil _ _)
    rw [if_neg hmore]
    exact wpR_putchars hjs (List.cons_ne_nil _ _) hall hfound hnotes h

theorem ready_progress {g : State} (h : State.Ready { g with connected := true }) (n : Nat) :
    State.Ready { g with handshakeProgress := n, connected := true } :=
  ⟨⟨rfl, h.idle.processing, h.idle.waiting⟩, h.empty, h.disarmed, h.room⟩

/-- **A byte is taken**, and the handshake goes on, or is complete and answered. -/
theorem wpR_doHandshake {Q : Bool → Rising ⊕ Play → Prop} (hu : u.Listening)
    (hjs : js = js₁ ++ js₂) (hnotes : u.notes = refusals js₁)
    (hmore : ∀ u', u'.Listening → u'.notes = u.notes → Q false (.inl u'))
    (hdone : ∀ v pre, State.Ready { v.g with connected := true } → LeftOver pre →
      v.share = .ofScript pre (script oracle 0 (calls js₂)) → Q true (.inr v)) :
    wpR oracle js doHandshake Q u := by
  obtain ⟨hdown, hsearching, hsilent, hready⟩ := hu
  have hplace := hsearching.lt
  intro n
  refine wpre_if (fun _ => hmore u ⟨hdown, hsearching, hsilent, hready⟩ rfl) fun _ => ?_
  intro c
  refine wpR_get (wpre_if (fun hmiss => ?_) fun hhit => ?_)
  · refine wpR_bind (wpR_modify hdown (hmore _ ⟨hdown, ?_, hsilent, ready_progress hready _⟩ rfl))
    rw [fallBack_eq]
    exact hsearching.miss handshake_nodup fun hc => hmiss ((getElem?_handshake hplace).mp hc)
  · have hc : handshake[u.g.handshakeProgress]? = some c :=
      (getElem?_handshake hplace).mpr (not_not.mp hhit)
    have hmod : (u.g.handshakeProgress + 1) % 256 = u.g.handshakeProgress + 1 :=
      Nat.mod_eq_of_lt (Nat.lt_of_le_of_lt hplace (by decide))
    refine wpR_bind (wpR_modify hdown (wpR_get ?_))
    rw [hmod]
    refine wpre_if (fun hrest => ?_) fun hend => ?_
    · exact hmore _ ⟨hdown, hsearching.hit handshake_nodup hc hrest, hsilent,
        ready_progress hready _⟩ rfl
    · refine wpR_bind (wpR_modify hdown (wpR_bind (wpR_putchars hjs (by decide) ?_
        (hsearching.found hc (not_not.mp hend)) hnotes fun v pre hg hpre hshare => ?_)))
      · rw [hsilent]
        rfl
      · refine hdone v pre ?_ hpre hshare
        rw [hg]
        exact ready_progress hready 0

theorem wpR_gbridgeProtMaLoop {Q : Unit → Rising ⊕ Play → Prop} (hu : u.Listening)
    (h : Q () (.inl u)) : wpR oracle js gbridgeProtMaLoop Q u := by
  refine wpR_bind (wpR_get ?_)
  rw [show u.g.dataReady = false from hu.ready.empty]
  exact h

/-- **A pass of the main loop**: the link comes up in the midst of it, or not yet. -/
theorem wpR_pass {Q : Unit → Rising ⊕ Play → Prop} (hu : u.Listening) (hjs : js = js₁ ++ js₂)
    (hnotes : u.notes = refusals js₁)
    (hlow : ∀ u', u'.Listening → u'.notes = u.notes → Q () (.inl u'))
    (hhigh : ∀ v pre, v.g.Ready → LeftOver pre →
      v.share = .ofScript pre (script oracle 0 (calls js₂)) → Q () (.inr v)) :
    wpR oracle js Job.pass.code Q u := by
  refine wpR_bind (wpR_get ?_)
  rw [hu.down]
  refine wpR_bind (wpR_doHandshake hu hjs hnotes (fun u' hu' hnotes' => ?_) ?_)
  · exact wpR_gbridgeProtMaLoop hu' (hlow u' hu' hnotes')
  · -- the call of `gbridge_loop` goes on as one that finds the link up
    intro v pre hready hpre hshare
    have hpass := wpP_pass (v := { v with g := { v.g with connected := true } })
      (Q := fun a v' => Q a (.inr v')) hready hpre
      (view_of_head (head_script oracle 0 (calls js₂))) hshare
      fun v' pre' hpre' hready' hshare' => hhigh v' pre' hready' hpre' hshare'
    have hloop : wpP .faultless true ((modify fun g => { g with connected := true }).bind
        fun _ => gbridgeLoopConnected.bind fun _ => gbridgeProtMaLoop)
        (fun a v' => Q a (.inr v')) v := wpP_bind (wpP_modify (fun _ => rfl) hpass)
    exact wpre_bind.mp (wpre_followed.mpr hloop)

/-! ### Sessions -/

/-- **A session of jobs**: the calls are refused as long as the link is down, and the others are
played. -/
theorem wpR_session (hcs : ∀ c ∈ calls js, c.Proper) (ho : ∀ n s, Proper s (oracle n s)) :
    ∀ {js₂ js₁ : List Job} {u : Rising}, js = js₁ ++ js₂ → u.notes = refusals js₁ → u.Listening →
      wpR oracle js (session js₂)
        (fun _ => Sum.elim (fun u' => u'.notes = refusals js) fun v => v.share.out = []) u
  | [], js₁, u, hjs, hnotes, _ => by
    rw [List.append_nil] at hjs
    subst hjs
    exact hnotes
  | .pass :: js₂, js₁, u, hjs, hnotes, hu => by
    have hjs' : js = (js₁ ++ [.pass]) ++ js₂ := hjs.trans (List.append_cons ..)
    have hnotes' : u.notes = refusals (js₁ ++ [.pass]) := hnotes.trans (refusals_pass js₁).symm
    refine wpR_bind (wpR_pass hu hjs' hnotes' (fun u' hu' hsame => ?_) ?_)
    · exact wpR_session hcs ho hjs' (hsame.trans hnotes') hu'
    · intro v pre hready hpre hshare
      have hrest : ∀ c ∈ calls js₂, c.Proper := by
        intro c hc
        refine hcs c ?_
        rw [hjs', calls, List.filterMap_append]
        exact List.mem_append_right _ hc
      exact wpre_followed.mpr (wpP_session (answered_proper ho 0 hrest) hready hpre hshare)
  | .call c :: js₂, js₁, u, hjs, hnotes, hu => by
    have hjs' : js = (js₁ ++ [.call c]) ++ js₂ := hjs.trans (List.append_cons ..)
    have hnotes' : u.notes ++ [c.refused] = refusals (js₁ ++ [.call c]) := by
      rw [hnotes, refusals_call]
    refine wpR_bind (wpR_bind (wpR_call hu ⟨⟨js₁ ++ [.call c], ⟨js₂, hjs'.symm⟩, hnotes'⟩, ?_⟩))
    exact wpR_session hcs ho hjs' hnotes' ⟨hu.down, hu.searching, hu.silent, hu.ready⟩

/-! ## 3. On the line -/

/-- What a move makes of them. -/
def Rising.after (u : Rising) (a : Duplex.Act UInt8 Result) (g : State) : Rising :=
  ⟨g, u.taken ++ a.takes, u.tx ++ a.sends, u.notes ++ a.noted⟩

/-- A move that is not seen. -/
theorem Rising.after_quiet {a : Duplex.Act UInt8 Result} (htakes : a.takes = [])
    (hsends : a.sends = []) (hnoted : a.noted = []) (g : State) : u.after a g = { u with g } := by
  rw [Rising.after, htakes, hsends, hnoted, List.append_nil, List.append_nil, List.append_nil]

/-- The handshake has not been answered, or not to the end, and so far every call is refused. -/
structure Rising.Short (js : List Job) (u : Rising) : Prop where
  down : u.g.connected = false
  begun : u.tx <+: handshake
  more : u.tx ≠ handshake
  refused : ∃ js₁, js₁ <+: js ∧ u.notes = refusals js₁

/-- The program is on its way to answering the handshake. -/
structure Rising.Low (oracle : Oracle) (js : List Job) (c : Code Unit × State) (u : Rising) :
    Prop where
  g : u.g = c.2
  short : u.Short js
  awaits : wpR oracle js c.1
    (fun _ => Sum.elim (fun u' => u'.notes = refusals js) fun v => v.share.out = []) u

/-- What is left of the program plays the script of these jobs. -/
def Risen (oracle : Oracle) (js : List Job) (c : Code Unit × State) : Prop :=
  ∀ v pre, v.g = c.2 → LeftOver pre → v.share = .ofScript pre (script oracle 0 (calls js)) →
    wpP .faultless true c.1 (fun _ v' => v'.share.out = []) v

/-- The last byte of the answer is sent. -/
structure Rising.Answers (js₁ : List Job) (u : Rising) (a : Duplex.Act UInt8 Result) : Prop where
  sends : ∃ b, a = .send b ∧ u.tx ++ [b] = handshake
  found : Found handshake u.taken
  refused : u.notes = refusals js₁

/-- Where a move may lead. -/
def Rising.Next (oracle : Oracle) (js : List Job) (u : Rising) (a : Duplex.Act UInt8 Result)
    (g : State) (P : Rising ⊕ Play → Prop) : Prop :=
  (u.after a g).Short js ∧ P (.inl (u.after a g)) ∨ ∃ js₁ js₂, js = js₁ ++ js₂ ∧
    u.Answers js₁ a ∧ ∀ v pre, v.g = g → LeftOver pre →
      v.share = .ofScript pre (script oracle 0 (calls js₂)) → P (.inr v)

/-- An operation answers. -/
theorem Rising.next_answer {γ : Type} {e : Op γ} {R : γ → Rising ⊕ Play → Prop} {b : γ} {g' : State}
    {a : Duplex.Act UInt8 Result} (hshort : u.Short js) (hpre : Rising.pre oracle js e R u)
    (hm : moves γ e u.g a (.inl b) g') : u.Next oracle js a g' (R b) := by
  cases e with
  | get =>
    obtain ⟨rfl, hr, rfl⟩ := hm
    cases hr
    rw [Rising.Next, Rising.after_quiet rfl rfl rfl]
    exact .inl ⟨hshort, hpre⟩
  | set g₁ =>
    obtain ⟨rfl, -, rfl⟩ := hm
    rw [Rising.Next, Rising.after_quiet rfl rfl rfl]
    exact .inl ⟨⟨hpre.1, hshort.begun, hshort.more, hshort.refused⟩, hpre.2⟩
  | available =>
    obtain ⟨n, rfl, hr, rfl⟩ := hm
    cases hr
    rw [Rising.Next, Rising.after_quiet rfl rfl rfl]
    exact .inl ⟨hshort, hpre b⟩
  | getchar =>
    obtain ⟨c, rfl, hr, rfl⟩ := hm
    cases hr
    have hafter : u.after (.recv [b]) u.g = { u with taken := u.taken ++ [b] } := by
      simp [Rising.after, Act.takes, Act.sends, Act.noted]
    rw [Rising.Next, hafter]
    exact .inl ⟨⟨hshort.down, hshort.begun, hshort.more, hshort.refused⟩, hpre b⟩
  | putchar c =>
    obtain ⟨rfl, -, rfl⟩ := hm
    obtain ⟨hfound, hbegun, hpre⟩ := hpre
    split at hpre
    · obtain ⟨js₁, js₂, hjs, hnotes, hpre⟩ := hpre
      exact .inr ⟨js₁, js₂, hjs, ⟨⟨c, rfl, ‹_›⟩, hfound, hnotes⟩, hpre⟩
    · have hafter : u.after (.send c) u.g = { u with tx := u.tx ++ [c] } := by
        simp [Rising.after, Act.takes, Act.sends, Act.noted]
      rw [Rising.Next, hafter]
      exact .inl ⟨⟨hshort.down, hbegun, ‹_›, hshort.refused⟩, hpre⟩
  | returned r =>
    obtain ⟨rfl, -, rfl⟩ := hm
    have hafter : u.after (.note r) u.g = { u with notes := u.notes ++ [r] } := by
      simp [Rising.after, Act.takes, Act.sends, Act.noted]
    rw [Rising.Next, hafter]
    exact .inl ⟨⟨hshort.down, hshort.begun, hshort.more, hpre.1⟩, hpre.2⟩
  | _ => exact hpre.elim

/-- **A move**, before the handshake has been answered. -/
theorem Rising.Low.move {c c' : Code Unit × State} {a : Duplex.Act UInt8 Result}
    (h : u.Low oracle js c) (hm : party moves c a c') : (u.after a c'.2).Low oracle js c' ∨
      ∃ js₁ js₂, js = js₁ ++ js₂ ∧ u.Answers js₁ a ∧ Risen oracle js₂ c' := by
  obtain ⟨p, g⟩ := c
  obtain ⟨p', g'⟩ := c'
  obtain ⟨rfl, hshort, hawaits⟩ := h
  have hnext : u.Next oracle js a g' (wpre ((rising oracle js).followed (play .faultless)) true p'
      fun _ => Sum.elim (fun u' => u'.notes = refusals js) fun v => v.share.out = []) := by
    refine wpre_party ?_ ?_ ?_ hawaits hm
    · exact fun hpre hm => next_answer hshort hpre hm
    · exact fun _ hm => absurd hm moves_answers
    · rintro R rfl rfl hR
      rw [Rising.Next, Rising.after_quiet rfl rfl rfl]
      exact .inl ⟨hshort, hR⟩
  rcases hnext with ⟨hshort', hwp⟩ | ⟨js₁, js₂, hjs, hanswers, hwp⟩
  · exact .inl ⟨rfl, hshort', hwp⟩
  · exact .inr ⟨js₁, js₂, hjs, hanswers, fun v pre hg hpre hshare =>
      wpre_followed.mp (hwp v pre hg hpre hshare)⟩

end Rising

end Atmega

end GBridge

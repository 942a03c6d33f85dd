/-
# The script can be played to its end

`Lib.Duplex` says that nothing happens that is not in the script.  Here it is shown that the
script does happen: from every state the pair can reach, the pair can go on until all of it has
happened and both parties are through.

A party is run on its own as long as it makes QUIET moves, which take what is there and are told
the truth about it.  A program with a weakest precondition in which every loop has a measure comes
in this way to an event of its own, to its end, or to a point where nothing is left for it
(`runs_on`).  In a pair it is always the turn of one of the two, and to that one all it waits for
has been sent (`left_acts`); so one event of the script after the other can be made to happen
(`reach_end`).
-/
import GBridge.Lib.Player

namespace Duplex

open Prog

universe u v

variable {β N M : Type} {S : Type u} {T : Type v}

/-! ## 1. Quiet runs -/

/-- A move that takes what is there, or is told how much it is. -/
def Act.Quiet : Act β N → Share β N → Share β N → Prop
  | .tau, sh, sh' => sh' = sh
  | .poll m, sh, sh' => m = sh.inp.length ∧ sh' = sh
  | .recv bs, sh, sh' =>
    sh.inp = bs ++ sh'.inp ∧ sh'.early = sh.early - bs.length ∧ sh'.out = sh.out
  | .send _, _, _ | .note _, _, _ => False

/-- An event of the party. -/
def Act.Own : Act β N → Prop
  | .send _ | .note _ => True
  | .tau | .poll _ | .recv _ => False

/-- A quiet move of a party. -/
def QuietStep (P : Party β N S) (c c' : S × Share β N) : Prop :=
  ∃ a : Act β N, P c.1 a c'.1 ∧ a.Quiet c.2 c'.2

/-- A run of quiet moves. -/
abbrev QuietRun (P : Party β N S) : S × Share β N → S × Share β N → Prop :=
  Relation.ReflTransGen (QuietStep P)

/-- The party plays its part, and this is its share. -/
def InPart (F : Part β N S) (c : S × Share β N) : Prop := F c.1 c.2.early c.2.inp c.2.out

section Follows

variable {P : Party β N S} {F : Part β N S}

/-- A quiet move takes nothing from the events of a party that follows its part. -/
theorem quietStep_follows (hP : Follows P F) {s s' : S} {sh sh' : Share β N} {a : Act β N}
    (ha : P s a s') (hq : a.Quiet sh sh') (h : InPart F (s, sh)) :
    InPart F (s', sh') ∧ sh'.out = sh.out := by
  cases a with
  | tau =>
    obtain rfl : sh' = sh := hq
    exact ⟨hP.tau h ha, rfl⟩
  | poll m =>
    obtain ⟨rfl, rfl⟩ := hq
    exact ⟨hP.poll h ha (Nat.le_refl _), rfl⟩
  | recv bs =>
    obtain ⟨inp, early, out⟩ := sh
    obtain ⟨inp', early', out'⟩ := sh'
    obtain ⟨rfl, rfl, rfl⟩ : inp = bs ++ inp' ∧ early' = early - bs.length ∧ out' = out := hq
    exact ⟨hP.recv h ha, rfl⟩
  | send b => exact hq.elim
  | note n => exact hq.elim

theorem quietRun_follows (hP : Follows P F) {c c' : S × Share β N} (hr : QuietRun P c c')
    (h : InPart F c) : InPart F c' ∧ c'.2.out = c.2.out := by
  induction hr with
  | refl => exact ⟨h, rfl⟩
  | tail _ hst ih =>
    obtain ⟨a, ha, hq⟩ := hst
    obtain ⟨hF, hout⟩ := quietStep_follows hP ha hq ih.1
    exact ⟨hF, hout.trans ih.2⟩

/-- An event of its own is one of its part. -/
theorem own_due (hP : Follows P F) {s s' : S} {sh : Share β N} {a : Act β N} (ha : P s a s')
    (hown : a.Own) (h : InPart F (s, sh)) : sh.out ≠ [] := by
  cases a with
  | send b =>
    obtain ⟨-, rel, out, hout, -⟩ := hP.send h ha
    exact hout ▸ List.cons_ne_nil _ _
  | note n =>
    obtain ⟨-, rel, out, hout, -⟩ := hP.note h ha
    exact hout ▸ List.cons_ne_nil _ _
  | tau => exact hown.elim
  | poll m => exact hown.elim
  | recv bs => exact hown.elim

end Follows

/-- On its own, a party comes to an event of its own, or its part is over and it has halted. -/
def Lively (P : Party β N S) (F : Part β N S) (Halted : S → Prop) : Prop :=
  ∀ c : S × Share β N, InPart F c → ∃ c', QuietRun P c c' ∧
    ((∃ a s', a.Own ∧ P c'.1 a s') ∨ c'.2.out = [] ∧ Halted c'.1)

/-! ## 2. Programs -/

section Program

variable {E : Type → Type} {G V α γ : Type} {W : Spec E V} {moves : Moves E G β N} {state : V → G}
  {share : V → Share β N} {stuck : V → Prop}

/-- A command with its precondition has a quiet move, or it is an event, or it is `stuck`. -/
def Moving (W : Spec E V) (moves : Moves E G β N) (state : V → G) (share : V → Share β N)
    (stuck : V → Prop) : Prop :=
  ∀ {γ : Type} {e : E γ} {Q : γ → V → Prop} {v : V}, W.pre e Q v →
    (∃ a b v', moves γ e (state v) a (.inl b) (state v') ∧ a.Quiet (share v) (share v') ∧
      Q b v') ∨ (∃ a r g, a.Own ∧ moves γ e (state v) a r g) ∨ stuck v

/-- The moves of a program are those of the program with something behind it. -/
theorem party_bind {p p' : Prog E α} {g g' : G} {a : Act β N} (f : α → Prog E γ)
    (h : party moves (p, g) a (p', g')) : party moves (p.bind f, g) a (p'.bind f, g') := by
  cases p with
  | ret x => exact h.elim
  | op e k =>
    rcases h with ⟨b, hm, rfl⟩ | ⟨e', hm, rfl⟩
    · exact .inl ⟨b, hm, rfl⟩
    · exact .inr ⟨e', hm, rfl⟩
  | loop body k =>
    obtain ⟨rfl, rfl, rfl⟩ := h
    refine ⟨rfl, ?_, rfl⟩
    rw [bind_assoc]
    refine congrArg body.bind (funext fun b => ?_)
    cases b <;> rfl

/-- Where a program on its own comes to a stop. -/
def Rests (moves : Moves E G β N) (state : V → G) (stuck : V → Prop) (Q : α → V → Prop)
    (p : Prog E α) (v : V) : Prop :=
  (∃ a, p = .ret a ∧ Q a v) ∨ (∃ a c, a.Own ∧ party moves (p, state v) a c) ∨ stuck v

/-- A quiet run of a program from one ghost world to another. -/
abbrev ProgRun (moves : Moves E G β N) (state : V → G) (share : V → Share β N)
    (p : Prog E α) (v : V) (p' : Prog E α) (v' : V) : Prop :=
  QuietRun (party moves) ((p, state v), share v) ((p', state v'), share v')

theorem ProgRun.bind {p p' : Prog E α} {v v' : V} (f : α → Prog E γ)
    (h : ProgRun moves state share p v p' v') :
    ProgRun moves state share (p.bind f) v (p'.bind f) v' := by
  refine Relation.ReflTransGen.lift
    (fun c : (Prog E α × G) × Share β N => ((c.1.1.bind f, c.1.2), c.2)) ?_ _ _ h
  rintro c c' ⟨a, ha, hq⟩
  exact ⟨a, party_bind f ha, hq⟩

/-- What has come to a stop with something behind it: it is over, and the rest goes on, or the
whole has come to a stop. -/
theorem Rests.bind {p : Prog E α} {v : V} {R : α → V → Prop} {f : α → Prog E γ}
    {Q : γ → V → Prop} (h : Rests moves state stuck R p v) :
    (∃ a, p = .ret a ∧ R a v) ∨ Rests moves state stuck Q (p.bind f) v := by
  rcases h with hret | ⟨a, c, hown, hm⟩ | hstuck
  · exact .inl hret
  · exact .inr (.inr (.inl ⟨a, _, hown, party_bind f hm⟩))
  · exact .inr (.inr (.inr hstuck))

/-- **A program in which every loop has a measure comes to a stop**: at its end, at an event of
its own, or where it is stuck. -/
theorem runs_on (hW : Moving W moves state share stuck) :
    ∀ {α : Type} (p : Prog E α) {Q : α → V → Prop} {v : V}, wpre W true p Q v →
      ∃ p' v', ProgRun moves state share p v p' v' ∧ Rests moves state stuck Q p' v'
  | _, .ret a, _, v, h => ⟨.ret a, v, .refl, .inl ⟨a, rfl, h⟩⟩
  | _, .op e k, Q, v, h => by
    rcases hW (Q := fun b v' => wpre W true (k b) Q v') h with
      ⟨a, b, v₁, hm, hq, hwp⟩ | ⟨a, r, g, hown, hm⟩ | hstuck
    · obtain ⟨p', v', hrun, hrests⟩ := runs_on hW (k b) hwp
      exact ⟨p', v', .head ⟨a, .inl ⟨b, hm, rfl⟩, hq⟩ hrun, hrests⟩
    · refine ⟨.op e k, v, .refl, .inr (.inl ⟨a, ?_⟩)⟩
      cases r with
      | inl b => exact ⟨(k b, g), hown, .inl ⟨b, hm, rfl⟩⟩
      | inr e' => exact ⟨(.op e' k, g), hown, .inr ⟨e', hm, rfl⟩⟩
    · exact ⟨.op e k, v, .refl, .inr (.inr hstuck)⟩
  | _, .loop body k, Q, v, h => by
    obtain ⟨I, ⟨n, hn⟩, hbody⟩ := h
    -- the measure of the loop goes down each time round
    induction n using Nat.strongRecOn generalizing v with
    | ind n ih =>
      obtain ⟨p₁, v₁, hrun, hrests⟩ := runs_on hW body (hbody n v hn)
      have hstart : QuietStep (party moves) ((.loop body k, state v), share v)
          ((body.bind fun b => if b then .loop body k else k, state v), share v) :=
        ⟨.tau, ⟨rfl, rfl, rfl⟩, rfl⟩
      have hround := (hrun.bind fun b => if b then .loop body k else k).head hstart
      rcases hrests.bind with ⟨b, rfl, hb⟩ | hrests
      · cases b with
        | true =>
          obtain ⟨m, hlt, hm⟩ := hb
          obtain ⟨p', v', hrun', hrests'⟩ := ih m (hlt rfl) v₁ hm
          exact ⟨p', v', hround.trans hrun', hrests'⟩
        | false =>
          obtain ⟨p', v', hrun', hrests'⟩ := runs_on hW k hb
          exact ⟨p', v', hround.trans hrun', hrests'⟩
      · exact ⟨_, v₁, hround, hrests⟩

/-- **A program whose weakest precondition holds is lively.** -/
theorem lively_party (hW : Moving W moves state share stuck) {patience : V → Nat}
    {Q : α → V → Prop} (hQ : ∀ a v, Q a v → (share v).out = [])
    (hstuck : ∀ v, stuck v → (share v).out = []) :
    Lively (party moves)
      (fun (c : Prog E α × G) early inp out =>
        Playing W state share patience Q c ⟨inp, early, out⟩)
      fun c => ∃ v, state v = c.2 ∧ ((∃ a, c.1 = .ret a ∧ Q a v) ∨ stuck v) := by
  rintro ⟨⟨p, g⟩, sh⟩ hin
  obtain ⟨v, rfl, hsh, -, hwp⟩ := hin 0
  obtain rfl : share v = sh := hsh
  obtain ⟨p', v', hrun, hrests⟩ := runs_on hW p hwp
  refine ⟨_, hrun, ?_⟩
  rcases hrests with ⟨a, rfl, hq⟩ | ⟨a, c, hown, hm⟩ | hv'
  · exact .inr ⟨hQ a v' hq, v', rfl, .inl ⟨a, rfl, hq⟩⟩
  · exact .inl ⟨a, c, hown, hm⟩
  · exact .inr ⟨hstuck v' hv', v', rfl, .inr hv'⟩

end Program

/-! ## 3. The pair -/

section Pair

variable {P : Party β N S} {R : Party β M T} {F : Part β N S} {H : Part β M T}
  {G rest : List (Ev β N M)} {σ σ' : Pair β N M S T}

/-- The pair seen from the other side. -/
def Pair.swap (σ : Pair β N M S T) : Pair β M N T S :=
  ⟨σ.right, σ.left, σ.rxR, σ.flyR, σ.rxL, σ.flyL, σ.log.map Sum.swap⟩

@[simp] theorem Pair.swap_swap (σ : Pair β N M S T) : σ.swap.swap = σ := by
  simp [Pair.swap]

theorem pairStep_swap (h : PairStep P R σ σ') : PairStep R P σ.swap σ'.swap := by
  cases h with
  | left ha heff =>
    have hst := PairStep.right (P := R) (σ := σ.swap) ha heff
    simpa [Pair.swap, Function.comp_def] using hst
  | right ha heff =>
    have hst := PairStep.left (R := P) (σ := σ.swap) ha heff
    simpa [Pair.swap, Function.comp_def] using hst
  | arriveL hfly => exact .arriveR hfly
  | arriveR hfly => exact .arriveL hfly

theorem pairReach_swap (h : PairReach P R σ σ') : PairReach R P σ.swap σ'.swap := by
  induction h with
  | refl => exact .refl
  | tail _ hst ih => exact ih.tail (pairStep_swap hst)

theorem Pair.AgreesAt.swap (h : σ.AgreesAt F H G rest) :
    σ.swap.AgreesAt H F (G.map Ev.swap) (rest.map Ev.swap) := Agree.swap h

/-- All that is on its way to the left party arrives. -/
theorem deliver (h : σ.AgreesAt F H G rest) : ∃ σ', PairReach P R σ σ' ∧
    (σ'.left = σ.left ∧ σ'.right = σ.right) ∧ σ'.rxL = σ.rxL ++ σ.flyL ∧ σ'.flyL = [] ∧
    σ'.AgreesAt F H G rest := by
  generalize hfly : σ.flyL = fly
  induction fly generalizing σ with
  | nil => exact ⟨σ, .refl, ⟨rfl, rfl⟩, (List.append_nil _).symm, hfly, h⟩
  | cons b fly ih =>
    have h₁ : Pair.AgreesAt F H G rest { σ with rxL := σ.rxL ++ [b], flyL := fly } := by
      simpa [Pair.AgreesAt, hfly] using h
    obtain ⟨σ', hr, hsame, hrx, hnone, h'⟩ := ih h₁ rfl
    exact ⟨σ', hr.head (.arriveL hfly), hsame, by rw [hrx, List.append_assoc]; rfl, hnone, h'⟩

/-- When no bytes are due before the next event of the left party, all it may find is there. -/
theorem nothing_due (h : σ.AgreesAt F H G rest) (hdue : (view rest).1 = []) :
    ∃ early, F σ.left early (σ.rxL ++ σ.flyL) (view rest).2 := by
  obtain ⟨past, seg, -, -, ⟨-, hself, -⟩ | ⟨hours, -, v, htoS, hother⟩⟩ := h
  · rw [hdue, List.append_nil] at hself
    exact ⟨_, hself⟩
  · rw [← List.map_append, map_swap_swap, view_theirs_append (ours_swap.mp hours), hdue,
      List.append_nil] at hother
    rw [map_swap_swap] at htoS
    rw [htoS]
    exact ⟨_, hother⟩

theorem quiet_effect {a : Act β N} {sh sh' : Share β N} (h : a.Quiet sh sh') (tx : List β) :
    a.Effect (sh.inp, tx, []) (sh'.inp, tx, []) := by
  cases a with
  | tau =>
    obtain rfl : sh' = sh := h
    exact rfl
  | poll m =>
    obtain ⟨rfl, rfl⟩ := h
    exact ⟨rfl, rfl⟩
  | recv bs => exact ⟨h.1, rfl, rfl⟩
  | send b => exact h.elim
  | note n => exact h.elim

theorem quiet_leaves {a : Act β N} {sh sh' : Share β N} (h : a.Quiet sh sh')
    {rest' : List (Ev β N M)} (hl : a.Leaves rest rest') : rest' = rest := by
  cases a with
  | tau => exact hl
  | poll m => exact hl
  | recv bs => exact hl
  | send b => exact h.elim
  | note n => exact h.elim

/-- A quiet run of the left party is one of the pair. -/
theorem quietRun_reach (hP : Follows P F) (hG : Turns G) {c c' : S × Share β N}
    (hr : QuietRun P c c') (hleft : c.1 = σ.left) (hrx : c.2.inp = σ.rxL) (hfly : σ.flyL = [])
    (h : σ.AgreesAt F H G rest) : ∃ σ', PairReach P R σ σ' ∧
      (c'.1 = σ'.left ∧ σ'.right = σ.right) ∧ c'.2.inp = σ'.rxL ∧ σ'.flyL = [] ∧
      σ'.AgreesAt F H G rest := by
  induction hr with
  | refl => exact ⟨σ, .refl, ⟨hleft, rfl⟩, hrx, hfly, h⟩
  | tail _ hst ih =>
    obtain ⟨σ₁, hr₁, ⟨hleft₁, hright₁⟩, hrx₁, hfly₁, h₁⟩ := ih
    obtain ⟨a, ha, hq⟩ := hst
    rw [hleft₁] at ha
    have heff := quiet_effect hq σ₁.flyR
    rw [hrx₁] at heff
    obtain ⟨rest', hl, h'⟩ := agree_move hP hG ha heff h₁
    obtain rfl := quiet_leaves hq hl
    exact ⟨_, hr₁.tail (.left ha heff), ⟨rfl, hright₁⟩, rfl, hfly₁, h'⟩

/-- **When it is the turn of the left party, it can be brought to act.** -/
theorem left_acts (hP : Follows P F) (hG : Turns G) {Halted : S → Prop}
    (hL : Lively P F Halted) {e : Ev β N M} (he : e.ours = true)
    (h : σ.AgreesAt F H G (e :: rest)) :
    ∃ σ', PairReach P R σ σ' ∧ σ'.AgreesAt F H G rest := by
  have hview : (view (e :: rest)).1 = [] ∧ (view (e :: rest)).2 ≠ [] := by
    cases e with
    | mine b => exact ⟨rfl, List.cons_ne_nil _ _⟩
    | note n => exact ⟨rfl, List.cons_ne_nil _ _⟩
    | theirs b => exact nomatch he
    | noted m => exact nomatch he
  obtain ⟨early, hF⟩ := nothing_due h hview.1
  obtain ⟨σ₁, hr₁, ⟨hleft₁, -⟩, hrx₁, hfly₁, h₁⟩ := deliver (P := P) (R := R) h
  have hin : InPart F (σ₁.left, ⟨σ₁.rxL, early, (view (e :: rest)).2⟩) := by
    unfold InPart
    rw [hleft₁, hrx₁]
    exact hF
  obtain ⟨⟨s', sh'⟩, hr, hend⟩ := hL _ hin
  have hout := (quietRun_follows hP hr hin).2
  obtain ⟨σ₂, hr₂, ⟨hleft₂, -⟩, hrx₂, -, h₂⟩ := quietRun_reach (R := R) hP hG hr rfl rfl hfly₁ h₁
  rcases hend with ⟨a, s'', hown, ha⟩ | ⟨hover, -⟩
  · rw [hleft₂] at ha
    cases a with
    | send b =>
      have heff : (Act.send b : Act β N).Effect (σ₂.rxL, σ₂.flyR, [])
          (σ₂.rxL, σ₂.flyR ++ [b], []) :=
        rfl
      obtain ⟨rest', ⟨e', hrest⟩, h'⟩ := agree_move hP hG ha heff h₂
      obtain rfl := (List.cons.inj hrest).2
      exact ⟨_, (hr₁.trans hr₂).tail (.left ha heff), h'⟩
    | note n =>
      have heff : (Act.note n : Act β N).Effect (σ₂.rxL, σ₂.flyR, []) (σ₂.rxL, σ₂.flyR, [n]) := rfl
      obtain ⟨rest', ⟨e', hrest⟩, h'⟩ := agree_move hP hG ha heff h₂
      obtain rfl := (List.cons.inj hrest).2
      exact ⟨_, (hr₁.trans hr₂).tail (.left ha heff), h'⟩
    | tau => exact hown.elim
    | poll m => exact hown.elim
    | recv bs => exact hown.elim
  · exact absurd (hout.symm.trans hover) hview.2

/-- The same for the other party. -/
theorem right_acts (hR : Follows R H) (hG : Turns G) {Halted : T → Prop}
    (hL : Lively R H Halted) {e : Ev β N M} (he : e.ours = false)
    (h : σ.AgreesAt F H G (e :: rest)) :
    ∃ σ', PairReach P R σ σ' ∧ σ'.AgreesAt F H G rest := by
  have hours : e.swap.ours = true := by rw [Ev.ours_swap, he]; rfl
  obtain ⟨σ', hr, h'⟩ := left_acts (R := P) hR (turns_swap.mpr hG) hL hours h.swap
  have hr' := pairReach_swap hr
  rw [Pair.swap_swap] at hr'
  have hagree := h'.swap
  rw [map_swap_swap, map_swap_swap] at hagree
  exact ⟨σ'.swap, hr', hagree⟩

/-- When all of the script has happened, the left party can be brought to halt. -/
theorem left_halts (hP : Follows P F) (hG : Turns G) {Halted : S → Prop} (hL : Lively P F Halted)
    (h : σ.AgreesAt F H G []) : ∃ σ', PairReach P R σ σ' ∧ Halted σ'.left ∧
      σ'.right = σ.right ∧ σ'.AgreesAt F H G [] := by
  obtain ⟨early, hF⟩ := nothing_due h rfl
  obtain ⟨σ₁, hr₁, ⟨hleft₁, hright₁⟩, hrx₁, hfly₁, h₁⟩ := deliver (P := P) (R := R) h
  have hin : InPart F (σ₁.left, ⟨σ₁.rxL, early, []⟩) := by
    unfold InPart
    rw [hleft₁, hrx₁]
    exact hF
  obtain ⟨⟨s', sh'⟩, hr, hend⟩ := hL _ hin
  obtain ⟨hin', hout⟩ := quietRun_follows hP hr hin
  obtain ⟨σ₂, hr₂, ⟨hleft₂, hright₂⟩, -, -, h₂⟩ :=
    quietRun_reach (R := R) hP hG hr rfl rfl hfly₁ h₁
  rcases hend with ⟨a, s'', hown, ha⟩ | ⟨-, hhalted⟩
  · exact absurd hout (own_due hP ha hown hin')
  · exact ⟨σ₂, hr₁.trans hr₂, hleft₂ ▸ hhalted, hright₂.trans hright₁, h₂⟩

/-- **From every state that agrees with the script, the pair can go on until all of the script has
happened and both parties have halted.** -/
theorem reach_end (hP : Follows P F) (hR : Follows R H) (hG : Turns G) {HaltedL : S → Prop}
    {HaltedR : T → Prop} (hL : Lively P F HaltedL) (hLR : Lively R H HaltedR)
    (h : σ.Agrees F H G) : ∃ σ', PairReach P R σ σ' ∧ HaltedL σ'.left ∧ HaltedR σ'.right := by
  obtain ⟨rest, h⟩ := h
  induction rest generalizing σ with
  | nil =>
    obtain ⟨σ₁, hr₁, hhalted₁, -, h₁⟩ := left_halts (R := R) hP hG hL h
    obtain ⟨σ₂, hr₂, hhalted₂, hleft₂, -⟩ :=
      left_halts (R := P) hR (turns_swap.mpr hG) hLR h₁.swap
    have hr₂ := pairReach_swap hr₂
    rw [Pair.swap_swap] at hr₂
    have hleft : σ₂.right = σ₁.left := hleft₂
    exact ⟨σ₂.swap, hr₁.trans hr₂, by
      show HaltedL σ₂.right
      rw [hleft]
      exact hhalted₁, hhalted₂⟩
  | cons e rest ih =>
    have hnext : ∃ σ', PairReach P R σ σ' ∧ σ'.AgreesAt F H G rest := by
      cases he : e.ours with
      | true => exact left_acts hP hG hL he h
      | false => exact right_acts hR hG hLR he h
    obtain ⟨σ₁, hr₁, h₁⟩ := hnext
    obtain ⟨σ₂, hr₂, hhalted⟩ := ih h₁
    exact ⟨σ₂, hr₁.trans hr₂, hhalted⟩

end Pair

end Duplex

/-
# The bridge, following a script

The counterpart of what `Atmega.Play` is for the adapter: a specification of the operations of the
bridge that serves both a port on which the bytes are there (`queued`) and the pair of programs.

A read with the long timeout gets all it asks for, because nothing times out; the short poll of
`gbridge_loop` may come back with less, and then uses up patience.  A write may only write what the
script has for the bridge next.  A call of `socket_impl_*` has to be the next one of the script, and
returns what the oracle says.  `Env` is what the two readings differ in.
-/
import GBridge.Bridge.Semantics
import GBridge.Lib.Player

namespace GBridge.Bridge

open Prog Duplex Bytes

/-! ## 1. The specification -/

/-- What may be relied on while a script is followed. -/
structure Env where
  /-- The link is never reset. -/
  strict : Bool
  /-- What the script has sent is there at once. -/
  prompt : Bool
  /-- The results of the calls of `socket_impl_*`, first, second and so on. -/
  oracle : Nat → (c : SockCall) → c.Res
  /-- A read that brings less than was asked for uses up patience. -/
  counted : Bool
  /-- The debug lines there are to print. -/
  lines : List (List UInt8)

/-- The ghost world: the variables, the number of `socket_impl_*` calls made, the debug lines
printed, how many reads may still come too early, and what the script has in store. -/
structure Play where
  g : State
  calls : Nat
  printed : List (List UInt8)
  patience : Nat
  share : Share UInt8 SockCall

/-- A read may bring these bytes, of so many that are waiting. -/
def Env.Brings (env : Env) (count ms waiting : Nat) (bs : List UInt8) : Prop :=
  bs.length ≤ count ∧ (ms = timeoutMs ∨ env.prompt = true → bs.length = min count waiting)

/-- What an operation needs, and what it may answer. -/
def Play.pre (env : Env) : {β : Type} → Op β → (β → Play → Prop) → Play → Prop
  | _, .get, Q, v => Q v.g v
  | _, .set g, Q, v => (env.strict = true → g.connected = true) ∧ Q () { v with g }
  | _, .read count ms, Q, v =>
    (ms = timeoutMs → count ≤ v.share.inp.length) ∧
      (ms ≠ timeoutMs → v.share.inp.length < count →
        v.share.out = [] ∧ v.printed = env.lines) ∧
      ∀ bs inp patience, v.share.inp = bs ++ inp →
        env.Brings count ms v.share.inp.length bs →
        Costs env.counted (bs.length < count) v.patience patience →
        Q (.bytes bs)
          { v with patience, share := ⟨inp, v.share.early - bs.length, v.share.out⟩ }
  | _, .store dst bs, Q, v => Q () { v with g := v.g.store bs dst }
  | _, .write bs, Q, v => v.share.Sends bs fun share => Q () { v with share }
  | _, .eprint _, Q, v => Q () v
  | _, .ewrite bs, Q, v =>
    v.printed ++ [bs] <+: env.lines ∧ Q () { v with printed := v.printed ++ [bs] }
  | _, .sock c, Q, v =>
    v.share.Due (.note c) fun share =>
      Q (env.oracle v.calls c) { v with calls := v.calls + 1, share }

/-- The operations, as a script is followed. -/
def play (env : Env) : Spec Op Play where
  pre := Play.pre env
  mono := by
    intro β e Q Q' v hQ h
    cases e with
    | get => exact hQ _ _ h
    | set g => exact ⟨h.1, hQ _ _ h.2⟩
    | read count ms =>
      obtain ⟨hall, hlast, hread⟩ := h
      exact ⟨hall, hlast, fun bs inp patience hinp hbs hcost =>
        hQ _ _ (hread bs inp patience hinp hbs hcost)⟩
    | store dst bs => exact hQ _ _ h
    | write bs => exact Share.Sends.mono (fun _ hq => hQ _ _ hq) h
    | eprint s => exact hQ _ _ h
    | ewrite bs => exact ⟨h.1, hQ _ _ h.2⟩
    | sock c => exact h.mono fun _ hq => hQ _ _ hq

/-- The weakest precondition while a script is followed. -/
abbrev wpB (env : Env) (t : Bool) {α : Type} (p : Code α) (Q : α → Play → Prop) (v : Play) :
    Prop :=
  wpre (play env) t p Q v

/-! ## 2. Rules -/

section Rules

variable {env : Env} {t : Bool} {α β M : Type} {v : Play} {pre : List UInt8}
  {G : List (Ev UInt8 SockCall M)} {sh : List UInt8 → Share UInt8 SockCall} {b : UInt8}
  {after : Share UInt8 SockCall}

theorem wpB_bind {p : Code α} {f : α → Code β} {Q : β → Play → Prop}
    (h : wpB env t p (fun a v' => wpB env t (f a) Q v') v) : wpB env t (p.bind f) Q v :=
  wpre_bind.mpr h

theorem wpB_ite {c : Prop} [Decidable c] {p q : Code α} {Q : α → Play → Prop}
    (hp : c → wpB env t p Q v) (hq : ¬ c → wpB env t q Q v) :
    wpB env t (if c then p else q) Q v := by
  split
  · exact hp ‹_›
  · exact hq ‹_›

theorem wpB_get {f : State → Code β} {Q : β → Play → Prop} (h : wpB env t (f v.g) Q v) :
    wpB env t (get.bind f) Q v := h

theorem wpB_modify {f : State → State} {Q : Unit → Play → Prop}
    (hup : env.strict = true → (f v.g).connected = true) (h : Q () { v with g := f v.g }) :
    wpB env t (modify f) Q v := ⟨hup, h⟩

theorem wpB_eprint {s : String} {Q : Unit → Play → Prop} (h : Q () v) :
    wpB env t (eprint s) Q v := h

theorem wpB_write {bs : List UInt8} {Q : Unit → Play → Prop}
    (hshare : v.share = .ofScript pre (bs.map .mine ++ G))
    (h : Q () { v with share := .ofScript pre G }) : wpB env t (spBlockingWrite bs) Q v := by
  have hsends : v.share.Sends bs fun share => Q () { v with share } := by
    rw [hshare]
    exact Share.sends_mine h bs
  exact hsends

theorem wpB_sock {c : SockCall} {Q : c.Res → Play → Prop}
    (hshare : v.share = .ofScript pre (.note c :: G))
    (h : Q (env.oracle v.calls c) { v with calls := v.calls + 1, share := .ofScript pre G }) :
    wpB env t (sock c) Q v := by
  have hdue : v.share.Due (.note c) fun share =>
      Q (env.oracle v.calls c) { v with calls := v.calls + 1, share } := by
    rw [hshare]
    exact Share.due_note h
  exact hdue

/-- The answer to a message. -/
theorem wpB_answer (hsh : Feed sh b after) {Q : Unit → Play → Prop} (hshare : v.share = sh [])
    (h : Q () { v with share := after }) : wpB env t (spBlockingWrite [b]) Q v := by
  have hsends : v.share.Sends [b] fun share => Q () { v with share } := by
    rw [hshare]
    refine hsh.acked.mono ?_
    rintro _ rfl
    exact h
  exact hsends

/-- A read with the long timeout. -/
theorem wpB_read (hsh : Feed sh b after) {bs todo : List UInt8} {Q : ReadRes → Play → Prop}
    (hshare : v.share = sh (bs ++ todo)) (h : Q (.bytes bs) { v with share := sh todo }) :
    wpB env t (spBlockingRead bs.length timeoutMs) Q v := by
  have hinp : v.share.inp = bs ++ (sh todo).inp := by
    rw [hshare, hsh.inp_append]
  have hle : bs.length ≤ v.share.inp.length := by
    rw [hinp, List.length_append]
    exact Nat.le_add_right _ _
  refine ⟨fun _ => hle, fun hpoll => absurd rfl hpoll, fun bs' inp p hinp' hbrings hcost => ?_⟩
  have hlen : bs'.length = bs.length := by
    rw [hbrings.2 (.inl rfl), Nat.min_eq_left hle]
  obtain rfl := (Costs.free (Nat.not_lt_of_le (Nat.le_of_eq hlen.symm))).mp hcost
  obtain ⟨rfl, rfl⟩ := List.append_inj (hinp.symm.trans hinp') hlen.symm
  rw [hshare, hsh.recv bs (by rw [hsh.inp_append])]
  exact h

/-- The poll of `gbridge_loop`: the next byte, or none yet. -/
theorem wpB_poll_next {c : UInt8} {inp : List UInt8} {Q : ReadRes → Play → Prop}
    (hinp : v.share.inp = c :: inp)
    (hnone : env.prompt = false → ∀ patience, Costs env.counted True v.patience patience →
      Q (.bytes []) { v with patience })
    (h : Q (.bytes [c]) { v with share := ⟨inp, v.share.early - 1, v.share.out⟩ }) :
    wpB env t (spBlockingRead 1 100) Q v := by
  refine ⟨fun h100 => absurd h100 (by decide), fun _ hshort => ?_,
    fun bs inp' p hinp' ⟨hle, hprompt⟩ hcost => ?_⟩
  · rw [hinp, List.length_cons] at hshort
    omega
  rcases bs with _ | ⟨c', _ | ⟨c'', bs⟩⟩
  · have hempty : env.prompt = false := by
      by_contra htrue
      have hlen := hprompt (.inr (by simpa using htrue))
      rw [hinp, List.length_cons, List.length_nil] at hlen
      omega
    have hsame : Share.mk inp' (v.share.early - 0) v.share.out = v.share := by
      rw [← show v.share.inp = inp' from hinp']
      rfl
    have hnone' := hnone hempty p
      ⟨fun hcounted _ => hcost.less hcounted Nat.one_pos,
        fun hfree => hcost.same fun h => hfree ⟨h.1, trivial⟩⟩
    rw [← hsame] at hnone'
    exact hnone'
  · obtain ⟨rfl, rfl⟩ := List.cons.inj (hinp.symm.trans hinp')
    obtain rfl := (Costs.free (Nat.lt_irrefl 1)).mp hcost
    exact h
  · rw [List.length_cons, List.length_cons] at hle
    omega

/-- It is the next byte of a message. -/
theorem wpB_poll (hsh : Feed sh b after) {c : UInt8} {todo : List UInt8}
    {Q : ReadRes → Play → Prop} (hshare : v.share = sh (c :: todo))
    (hnone : env.prompt = false → ∀ patience, Costs env.counted True v.patience patience →
      Q (.bytes []) { v with patience })
    (h : Q (.bytes [c]) { v with share := sh todo }) : wpB env t (spBlockingRead 1 100) Q v := by
  have hinp : v.share.inp = c :: (sh todo).inp := by
    rw [hshare, hsh.inp]
  refine wpB_poll_next hinp hnone ?_
  have hrest := hsh.recv [c] (hsh.inp c todo)
  rw [hshare, show sh (c :: todo) = sh ([c] ++ todo) from rfl]
  exact hrest.symm ▸ h

/-- It is the next byte of the script. -/
theorem wpB_poll_theirs {c : UInt8} {Q : ReadRes → Play → Prop}
    (hshare : v.share = .ofScript [] (.theirs c :: G))
    (hnone : env.prompt = false → ∀ patience, Costs env.counted True v.patience patience →
      Q (.bytes []) { v with patience })
    (h : Q (.bytes [c]) { v with share := .ofScript [] G }) :
    wpB env t (spBlockingRead 1 100) Q v := by
  have hinp : v.share.inp = c :: (view G).1 := by
    rw [hshare]
    rfl
  refine wpB_poll_next hinp hnone ?_
  rw [hshare]
  exact h

/-- The poll when the script is over. -/
theorem wpB_poll_over {Q : ReadRes → Play → Prop}
    (hshare : v.share = .ofScript [] ([] : List (Ev UInt8 SockCall M)))
    (hprinted : v.printed = env.lines)
    (h : ∀ patience, Costs env.counted True v.patience patience →
      Q (.bytes []) { v with patience }) : wpB env t (spBlockingRead 1 100) Q v := by
  have hinp : v.share.inp = [] := by rw [hshare]; rfl
  refine ⟨fun h100 => absurd h100 (by decide), fun _ _ => ⟨by rw [hshare]; rfl, hprinted⟩,
    fun bs inp p hinp' _ hcost => ?_⟩
  obtain ⟨rfl, rfl⟩ := List.append_eq_nil_iff.mp (hinp'.symm.trans hinp)
  have hsame : Share.mk [] (v.share.early - 0) v.share.out = v.share := by
    rw [hshare]
    rfl
  have hnone := h p ⟨fun hcounted _ => hcost.less hcounted Nat.one_pos,
    fun hfree => hcost.same fun h => hfree ⟨h.1, trivial⟩⟩
  rw [← hsame] at hnone
  exact hnone

end Rules

/-! ## 3. The script on a port whose bytes are there -/

/-- Nothing is in the way of a reset, and reads bring what is there. -/
def Env.atOnce : Env := ⟨false, true, fun _ c => c.sample, false, []⟩

/-- The ghost world stands for the real one. -/
structure Play.Is (sent : List UInt8) (v : Play) (w : World (List UInt8)) : Prop where
  g : v.g = w.g
  inp : v.share.inp = w.port
  out : ∃ todo, v.share.out = todo.map (fun b => (.send b, [])) ∧ w.tx ++ todo = sent

/-- **A port whose bytes are there follows the specification.** -/
theorem play_tracks (sent : List UInt8) :
    (play .atOnce).Tracks (Play.Is sent) (sem queued) := by
  rintro β e Q v w ⟨hg, hinp, todo, hout, hsent⟩ hpre
  cases e with
  | get =>
    refine ⟨⟨_, _, rfl, rfl⟩, ?_⟩
    rintro b w' ⟨rfl, rfl⟩
    exact ⟨v, ⟨hg, hinp, todo, hout, hsent⟩, hg ▸ hpre⟩
  | set g =>
    refine ⟨⟨(), _, rfl⟩, ?_⟩
    rintro b w' rfl
    exact ⟨{ v with g }, ⟨rfl, hinp, todo, hout, hsent⟩, hpre.2⟩
  | read count ms =>
    obtain ⟨-, -, hread⟩ := hpre
    refine ⟨⟨_, _, _, ⟨rfl, rfl⟩, rfl⟩, ?_⟩
    rintro r w' ⟨p, ⟨rfl, rfl⟩, rfl⟩
    have hlen : (w.port.take count).length = min count v.share.inp.length := by
      rw [List.length_take, hinp]
    refine ⟨{ v with share := ⟨w.port.drop count, v.share.early - _, v.share.out⟩ },
      ⟨hg, rfl, todo, hout, hsent⟩,
      hread _ (w.port.drop count) v.patience ?_ ⟨?_, fun _ => hlen⟩
        ⟨fun h => (nomatch h), fun _ => rfl⟩⟩
    · rw [List.take_append_drop, hinp]
    · rw [hlen]
      exact Nat.min_le_left _ _
  | store dst bs =>
    refine ⟨⟨(), _, rfl⟩, ?_⟩
    rintro b w' rfl
    exact ⟨{ v with g := v.g.store bs dst }, ⟨hg ▸ rfl, hinp, todo, hout, hsent⟩, hpre⟩
  | write bs =>
    refine ⟨⟨(), _, rfl⟩, ?_⟩
    rintro b w' rfl
    have hsends : v.share.Sends bs fun share => Q () { v with share } := hpre
    obtain ⟨rest, rfl, hq⟩ := hsends.first hout
    rw [← List.append_assoc] at hsent
    refine ⟨_, ?_, hq⟩
    exact ⟨hg, hinp, rest, rfl, hsent⟩
  | eprint s =>
    refine ⟨⟨(), _, rfl⟩, ?_⟩
    rintro b w' rfl
    exact ⟨v, ⟨hg, hinp, todo, hout, hsent⟩, hpre⟩
  | ewrite bs =>
    refine ⟨⟨(), _, rfl⟩, ?_⟩
    rintro b w' rfl
    exact ⟨{ v with printed := v.printed ++ [bs] }, ⟨hg, hinp, todo, hout, hsent⟩, hpre.2⟩
  | sock c =>
    have hdue : v.share.Due (.note c) fun share =>
      Q (Env.atOnce.oracle v.calls c) { v with calls := v.calls + 1, share } := hpre
    exact absurd hdue (Share.not_due_note hout)

end GBridge.Bridge

/-
# The handshake

The adapter looks for the four bytes of the handshake one call of `do_handshake` at a time, the
bridge in the loop of `gbridge_handshake`, which a timeout may break off at any byte.  Both remember
in `handshake_progress` how much of it the bytes read so far end with, and after a mismatch both
fall back to none of it, or to its first byte.  In general a search has to fall back further; here
this is enough, for the bytes of the handshake are all different (`handshake_nodup`).

The bytes come in any order and number, and are cut up in any way: what has arrived when the adapter
looks, and what the port answers, is anything.  So neither program can be said to end, and what is
shown of each is shown with `Spec.patient`:

* whenever it looks for a byte or reads one there has been no handshake, and what is remembered is
  the longest prefix of it that the bytes end with (`Hearing.Listening`);
* it is connected only after the first handshake (`Hearing.Linked`), and the adapter has then sent
  its reply, once;
* as soon as the last byte of the handshake has been read there is nothing left to look for, so that
  the program comes to its end, connected, and reads nothing more.
-/
import GBridge.Atmega.ProtMa
import GBridge.Bridge.ProtMa
import GBridge.Lib.Matching
import GBridge.Lib.Patience

namespace GBridge

open Prog Matching

theorem handshake_nodup : handshake.Nodup := by decide

/-- The byte at the place that is remembered. -/
theorem getElem?_handshake {k : Nat} {c : UInt8} (hk : k < handshake.length) :
    handshake[k]? = some c ↔ handshake.getD k 0 = c := by
  rw [List.getD_eq_getElem _ _ hk, List.getElem?_eq_getElem hk, Option.some.injEq]

/-- Where the search begins again. -/
theorem fallBack_eq (c : UInt8) : (if c = handshake.getD 0 0 then 1 else 0) =
    if handshake[0]? = some c then 1 else 0 := by
  have hfirst : handshake[0]? = some c ↔ c = handshake.getD 0 0 :=
    (getElem?_handshake (by decide)).trans eq_comm
  by_cases h : c = handshake.getD 0 0
  · rw [if_pos h, if_pos (hfirst.mpr h)]
  · rw [if_neg h, if_neg fun h' => h (hfirst.mp h')]

/-- A link that is down is not up. -/
theorem down_elim {connected : Bool} {P : Prop} (hdown : connected = false)
    (hup : connected = true) : P :=
  absurd hup (ne_true_of_eq_false hdown)

namespace Atmega

/-! ## 1. The adapter -/

/-- The variables, the bytes that have arrived, and what has been read and sent since
`gbridge_init`. -/
structure Hearing where
  g : State
  rx : List UInt8
  taken : List UInt8
  tx : List UInt8

/-- Whenever the adapter looks, any bytes may have arrived. -/
def hearing : Sem Op Hearing
  | _, .get, w, g, w' => g = w.g ∧ w' = w
  | _, .set g, w, _, w' => w' = { w with g }
  | _, .available, w, n, w' => ∃ bs, w' = { w with rx := w.rx ++ bs } ∧ n = w'.rx.length
  | _, .getchar, w, c, w' =>
    ∃ rx, w.rx = c :: rx ∧ w' = { w with rx, taken := w.taken ++ [c] }
  | _, .putchar c, w, _, w' => w' = { w with tx := w.tx ++ [c] }
  | _, _, w, _, w' => w' = w

/-- `gbridge_loop`, as far as the handshake goes. -/
def awaitLink : Code Bool := do
  if (← get).connected then return true
  else if ← doHandshake then
    modify fun g => { g with connected := true }
    return true
  else return false

theorem gbridgeLoop_eq :
    gbridgeLoop = awaitLink.bind fun up => if up then gbridgeLoopConnected else .ret () := by
  simp only [gbridgeLoop, awaitLink, bind_eq, bind_assoc]
  congr 1
  funext g
  split
  · rfl
  · rw [bind_assoc]
    congr 1
    funext up
    cases up <;> rfl

/-- Calls of `gbridge_loop`, until the link is up. -/
def listen : Code Unit :=
  .loop (do return !(← awaitLink)) (pure ())

/-- The link is down, the search is on, and nothing has been sent. -/
structure Hearing.Listening (w : Hearing) : Prop where
  down : w.g.connected = false
  searching : Searching handshake w.taken w.g.handshakeProgress
  silent : w.tx = []

/-- The handshake has just been completed, and answered. -/
structure Hearing.Linked (w : Hearing) : Prop where
  found : Found handshake w.taken
  progress : w.g.handshakeProgress = 0
  answered : w.tx = handshake

/-- The adapter looks whether there is a byte, and reads it. -/
def Op.Looks : {β : Type} → Op β → Prop
  | _, .available => True
  | _, .getchar => True
  | _, _ => False

/-- Whenever the adapter looks, the search is on, and there is a byte whenever it reads one. -/
def Hearing.Watched : {β : Type} → Op β → Hearing → Prop
  | _, .available, w => w.Listening
  | _, .getchar, w => w.Listening ∧ w.rx ≠ []
  | _, _, _ => True

/-- The specification: it is watched what the adapter looks in, and that it is not connected without
the handshake. -/
abbrev watch : Spec Op (Hearing × Nat) :=
  Spec.patient hearing Op.Looks Hearing.Watched fun w => w.g.connected = true → w.Linked

section Adapter

variable {w : Hearing} {n : Nat} {α : Type} {Q : α → Hearing × Nat → Prop}

/-- The variables of `gbridge.c`. -/
theorem hearing_variables : Variables hearing Op.Looks Hearing.Watched .get .set Hearing.g
    fun w g => { w with g } where
  reads _ _ _ := Iff.rfl
  writes _ _ _ _ := Iff.rfl
  read_free := id
  write_free _ := id
  read_ok _ := trivial
  write_ok _ _ := trivial

/-- The reply goes out. -/
theorem wpW_putchars {k : Unit → Code α} : ∀ {bs : List UInt8} {w : Hearing},
    w.g.connected = false → wpre watch true (k ()) Q ({ w with tx := w.tx ++ bs }, n) →
    wpre watch true ((serialPutchars bs).bind k) Q (w, n)
  | [], w, _, h => by simpa [serialPutchars] using h
  | c :: bs, w, hdown, h => by
    refine patient_one (b := ()) id trivial rfl (fun _ _ hs => ⟨rfl, hs⟩) (down_elim hdown) ?_
    refine wpW_putchars hdown ?_
    simpa using h

/-- **A byte is read.** -/
theorem wpW_doHandshake (h : w.Listening) : wpre watch true doHandshake (fun up u =>
    u.1.g.connected = false ∧ if up then u.1.Linked else u.1.Listening ∧ u.2 < n) (w, n) := by
  obtain ⟨hdown, hsearching, hsilent⟩ := h
  refine patient_look trivial ⟨hdown, hsearching, hsilent⟩ ⟨_, _, [], rfl, rfl⟩ ?_
  rintro len _ ⟨bs, rfl, hlen⟩
  refine ⟨down_elim hdown, fun m hm => ?_⟩
  obtain rfl : n = m + 1 := hm
  refine wpre_if (fun _ => ?_) fun hlen' => ?_
  · exact ⟨hdown, ⟨hdown, hsearching, hsilent⟩, Nat.lt_succ_self m⟩
  have hsome : w.rx ++ bs ≠ [] := by
    intro hnil
    exact hlen' (hlen.trans (by simp [hnil]))
  refine patient_look trivial ⟨⟨hdown, hsearching, hsilent⟩, hsome⟩ ?_ ?_
  · obtain ⟨c, rx, hrx⟩ := List.exists_cons_of_ne_nil hsome
    exact ⟨c, _, rx, hrx, rfl⟩
  rintro c _ ⟨rx, -, rfl⟩
  refine ⟨down_elim hdown, fun m' hm => ?_⟩
  obtain rfl : m = m' + 1 := hm
  have hless : m' < m' + 1 + 1 := Nat.lt_succ_of_lt (Nat.lt_succ_self m')
  refine hearing_variables.wpre_read (down_elim hdown) ?_
  have hplace := hsearching.lt
  refine wpre_if (fun hmiss => ?_) fun hhit => ?_
  · refine hearing_variables.wpre_modify (down_elim hdown) (down_elim hdown) ?_
    refine ⟨hdown, ⟨hdown, ?_, hsilent⟩, hless⟩
    rw [fallBack_eq]
    exact hsearching.miss handshake_nodup fun hc => hmiss ((getElem?_handshake hplace).mp hc)
  · have hc : handshake[w.g.handshakeProgress]? = some c :=
      (getElem?_handshake hplace).mpr (not_not.mp hhit)
    have hmod : (w.g.handshakeProgress + 1) % 256 = w.g.handshakeProgress + 1 :=
      Nat.mod_eq_of_lt (Nat.lt_of_le_of_lt hplace (by decide))
    refine hearing_variables.wpre_modify (down_elim hdown) (down_elim hdown) ?_
    refine hearing_variables.wpre_read (down_elim hdown) ?_
    rw [hmod]
    refine wpre_if (fun hmore => ?_) fun hend => ?_
    · exact ⟨hdown, ⟨hdown, hsearching.hit handshake_nodup hc hmore, hsilent⟩, hless⟩
    · refine hearing_variables.wpre_modify (down_elim hdown) (down_elim hdown) ?_
      refine wpW_putchars hdown ⟨hdown, ?_⟩
      refine ⟨hsearching.found hc (not_not.mp hend), rfl, ?_⟩
      rw [hsilent]
      rfl

theorem wpW_awaitLink (h : w.Listening) : wpre watch true awaitLink (fun up u =>
    if up then u.1.g.connected = true ∧ u.1.Linked else u.1.Listening ∧ u.2 < n) (w, n) := by
  refine hearing_variables.wpre_read (down_elim h.down) ?_
  rw [h.down]
  refine wpre_bind.mpr (wpre_mono (fun up u hup => ?_) (wpW_doHandshake h))
  obtain ⟨w', n'⟩ := u
  obtain ⟨hdown, hup⟩ := hup
  cases up with
  | false => exact hup
  | true =>
    have hlinked : Hearing.Linked { w' with g := { w'.g with connected := true } } :=
      ⟨hup.found, hup.progress, hup.answered⟩
    exact hearing_variables.wpre_modify (down_elim hdown) (fun _ => hlinked) ⟨rfl, hlinked⟩

/-- Each call of `gbridge_loop` that finds no handshake takes some of the patience. -/
theorem wpW_listen (h : w.Listening) : wpre watch true listen
    (fun _ u => u.1.g.connected = true ∧ u.1.Linked) (w, n) := by
  refine patient_retry (I := Hearing.Listening)
    (R := fun w => w.g.connected = true ∧ w.Linked) h ?_
  intro w n hw
  exact wpW_awaitLink hw

/-- From `gbridge_init` on. -/
theorem listen_patient (g : State) (rx : List UInt8) :
    Patient hearing Op.Looks Hearing.Watched (fun w => w.g.connected = true → w.Linked)
      (fun _ w => w.g.connected = true ∧ w.Linked) (listen, ⟨g.init, rx, [], []⟩) :=
  ⟨down_elim rfl, fun _ => wpW_listen ⟨rfl, searching_nil (by decide), rfl⟩⟩

/-- Once the handshake has been read there is nothing left to look for. -/
theorem Hearing.watched_absent {β : Type} {e : Op β} (hlook : e.Looks) (h : w.Watched e) :
    ¬ handshake <:+: w.taken := by
  cases e with
  | available => exact h.searching.absent
  | getchar => exact h.1.searching.absent
  | _ => exact hlook.elim

/-- Only a look reads. -/
theorem hearing_taken {β : Type} {e : Op β} {w w' : Hearing} {b : β} (hlook : ¬ e.Looks)
    (hs : hearing β e w b w') : w'.taken = w.taken := by
  cases e with
  | available | getchar => exact absurd trivial hlook
  | get => rw [hs.2]
  | set | putchar =>
    obtain rfl : w' = _ := hs
    rfl
  | _ => rw [show w' = w from hs]

end Adapter

end Atmega

namespace Bridge

/-! ## 2. The bridge -/

/-- The bytes of an answer. -/
def ReadRes.read : ReadRes → List UInt8
  | .bytes bs => bs
  | .error _ => []

/-- The variables, and what has been read since `gbridge_init`. -/
structure Hearing where
  g : State
  taken : List UInt8

/-- A read answers anything, but no more bytes than it was asked for. -/
def hearing : Sem Op Hearing
  | _, .get, w, g, w' => g = w.g ∧ w' = w
  | _, .set g, w, _, w' => w' = { w with g }
  | _, .read count _, w, r, w' =>
    r.read.length ≤ count ∧ w' = { w with taken := w.taken ++ r.read }
  | _, _, w, _, w' => w' = w

/-- The loop of `main` around `gbridge_handshake`. -/
def connect : Code Unit :=
  .loop (do return !(← gbridgeHandshake)) (pure ())

/-- The link is down, and the search is on. -/
structure Hearing.Listening (w : Hearing) : Prop where
  down : w.g.connected = false
  searching : Searching handshake w.taken w.g.handshakeProgress

/-- The handshake has just been completed. -/
structure Hearing.Linked (w : Hearing) : Prop where
  found : Found handshake w.taken
  progress : w.g.handshakeProgress = 0

/-- The bridge reads. -/
def Op.Looks : {β : Type} → Op β → Prop
  | _, .read _ _ => True
  | _, _ => False

/-- Whenever the bridge reads, the search is on. -/
def Hearing.Watched : {β : Type} → Op β → Hearing → Prop
  | _, .read _ _, w => w.Listening
  | _, _, _ => True

/-- The specification: it is watched what the bridge reads in, and that it is not connected without
the handshake. -/
abbrev watch : Spec Op (Hearing × Nat) :=
  Spec.patient hearing Op.Looks Hearing.Watched fun w => w.g.connected = true → w.Linked

section Computer

variable {w : Hearing} {n : Nat} {α : Type} {Q : α → Hearing × Nat → Prop}

/-- The variables of `gbridge.c`. -/
theorem hearing_variables : Variables hearing Op.Looks Hearing.Watched .get .set Hearing.g
    fun w g => { w with g } where
  reads _ _ _ := Iff.rfl
  writes _ _ _ _ := Iff.rfl
  read_free := id
  write_free _ := id
  read_ok _ := trivial
  write_ok _ _ := trivial

/-- **The bridge reads byte by byte**, and each read takes some of the patience. -/
theorem wpW_gbridgeHandshake (h : w.Listening) : wpre watch true gbridgeHandshake (fun up u =>
    if up then u.1.g.connected = true ∧ u.1.Linked else u.1.Listening ∧ u.2 < n) (w, n) := by
  refine hearing_variables.wpre_read (down_elim h.down) ?_
  rw [h.down]
  refine patient_one (b := ()) id trivial rfl (fun _ _ hs => ⟨rfl, hs⟩) (down_elim h.down) ?_
  refine ⟨fun m u => u.2 = m ∧ m ≤ n ∧ u.1.Listening, ⟨n, rfl, Nat.le_refl n, h⟩, ?_⟩
  rintro _ ⟨w, m⟩ ⟨rfl, hle, hdown, hsearching⟩
  refine patient_look trivial ⟨hdown, hsearching⟩ ⟨.bytes [], _, Nat.zero_le _, rfl⟩ ?_
  rintro r _ ⟨hfits, rfl⟩
  refine ⟨down_elim hdown, fun m' hm => ?_⟩
  obtain rfl : m = m' + 1 := hm
  have hplace := hsearching.lt
  -- nothing has come: the call returns `false`
  have htimeout : Hearing.Listening { w with taken := w.taken ++ [] } ∧ m' < n := by
    rw [List.append_nil]
    exact ⟨⟨hdown, hsearching⟩, hle⟩
  have hless : true = true → m' < m' + 1 := fun _ => Nat.lt_succ_self m'
  rcases r with (_ | ⟨c, _ | ⟨c', cs⟩⟩) | code
  · refine hearing_variables.wpre_read (down_elim hdown) ?_
    rw [hdown]
    exact htimeout
  · have hmod : (w.g.handshakeProgress + 1) % 256 = w.g.handshakeProgress + 1 :=
      Nat.mod_eq_of_lt (Nat.lt_of_le_of_lt hplace (by decide))
    refine hearing_variables.wpre_read (down_elim hdown) ?_
    refine hearing_variables.wpre_modify (down_elim hdown) (down_elim hdown) ?_
    rw [hmod]
    refine wpre_if (fun hmiss => ?_) fun hhit => ?_
    · have hmiss' : handshake[w.g.handshakeProgress]? ≠ some c :=
        fun hc => hmiss ((getElem?_handshake hplace).mp hc).symm
      have hsearching' := hsearching.miss handshake_nodup hmiss'
      rw [← fallBack_eq] at hsearching'
      refine hearing_variables.wpre_modify (down_elim hdown) (down_elim hdown) ?_
      refine hearing_variables.wpre_read (down_elim hdown) ?_
      refine wpre_if (fun hend => absurd hend (Nat.ne_of_lt hsearching'.lt)) fun _ => ?_
      exact ⟨m', hless, rfl, Nat.le_of_succ_le hle, hdown, hsearching'⟩
    · have hc : handshake[w.g.handshakeProgress]? = some c :=
        (getElem?_handshake hplace).mpr (not_not.mp hhit).symm
      refine hearing_variables.wpre_read (down_elim hdown) ?_
      refine wpre_if (fun hend => ?_) fun hmore => ?_
      · have hlinked : Hearing.Linked { w with
            taken := w.taken ++ [c]
            g := { w.g with handshakeProgress := 0, connected := true } } :=
          ⟨hsearching.found hc hend, rfl⟩
        refine hearing_variables.wpre_modify (down_elim hdown) (fun _ => hlinked) ?_
        refine hearing_variables.wpre_read (fun _ => hlinked) ?_
        exact ⟨rfl, hlinked⟩
      · exact ⟨m', hless, rfl, Nat.le_of_succ_le hle, hdown,
          hsearching.hit handshake_nodup hc hmore⟩
  · simp [ReadRes.read] at hfits
  · refine hearing_variables.wpre_read (down_elim hdown) ?_
    rw [hdown]
    exact htimeout

theorem wpW_connect (h : w.Listening) : wpre watch true connect
    (fun _ u => u.1.g.connected = true ∧ u.1.Linked) (w, n) := by
  refine patient_retry (I := Hearing.Listening)
    (R := fun w => w.g.connected = true ∧ w.Linked) h ?_
  intro w n hw
  exact wpW_gbridgeHandshake hw

/-- From `gbridge_init` on. -/
theorem connect_patient (g : State) :
    Patient hearing Op.Looks Hearing.Watched (fun w => w.g.connected = true → w.Linked)
      (fun _ w => w.g.connected = true ∧ w.Linked) (connect, ⟨g.init, []⟩) :=
  ⟨down_elim rfl, fun _ => wpW_connect ⟨rfl, searching_nil (by decide)⟩⟩

/-- Once the handshake has been read nothing more is read. -/
theorem Hearing.watched_absent {β : Type} {e : Op β} (hlook : e.Looks) (h : w.Watched e) :
    ¬ handshake <:+: w.taken := by
  cases e with
  | read => exact h.searching.absent
  | _ => exact hlook.elim

/-- Only a read reads. -/
theorem hearing_taken {β : Type} {e : Op β} {w w' : Hearing} {b : β} (hlook : ¬ e.Looks)
    (hs : hearing β e w b w') : w'.taken = w.taken := by
  cases e with
  | read => exact absurd trivial hlook
  | get => rw [hs.2]
  | set =>
    obtain rfl : w' = _ := hs
    rfl
  | _ => rw [show w' = w from hs]

end Computer

end Bridge

/-! ## 3. Both -/

/-- With the handshake just found nothing is remembered of it, and that is right, of the prefixes
that are shorter. -/
theorem found_longest {taken : List UInt8} {progress : Nat} (hfound : Found handshake taken)
    (hprogress : progress = 0) :
    IsGreatest {j | j < handshake.length ∧ handshake.take j <:+ taken} progress := by
  rw [hprogress]
  exact hfound.longest handshake_nodup (by decide)

/-- If only looks take bytes, and none is allowed once the handshake has been taken, then a program
that has taken it comes to its end and takes nothing more. -/
theorem patient_found {E : Type → Type} {W α : Type} {sem : Sem E W}
    {look : {β : Type} → E β → Prop} {ok : {β : Type} → E β → W → Prop} {inv : W → Prop}
    {R : α → W → Prop} (taken : W → List UInt8) {c : Prog E α × W}
    (h : Patient sem look ok inv R c)
    (hlook : ∀ (β : Type) (e : E β) (w : W), look e → ok e w → ¬ handshake <:+: taken w)
    (hkeep : ∀ (β : Type) (e : E β) (w : W) (b : β) (w' : W), ¬ look e → sem β e w b w' →
      taken w' = taken w) (hfound : Found handshake (taken c.2)) :
    Ends sem c.1 c.2 fun a w' => R a w' ∧ taken w' = taken c.2 := by
  refine patient_ends (fun w => taken w = taken c.2) h ?_ ?_ rfl
  · intro β e w hw he hok
    exact hlook β e w he hok (hw ▸ hfound.ends.isInfix)
  · intro β e w b w' hw he hs
    exact (hkeep β e w b w' he hs).trans hw

/-- **The handshake is found exactly where it occurs first**, by the adapter (`do_handshake`) and by
the bridge (`gbridge_handshake`), whatever comes before it and however it comes.

Whenever one of them looks for the next byte, there has been no handshake, and what is remembered is
the longest prefix of it that the bytes end with.  One that is connected, or has stopped looking,
has just read the end of the first handshake, and what is remembered is still right, of the prefixes
that are shorter.  The adapter has sent its reply then, and nothing before.  And from the moment the
last byte of the handshake has been read there is no way but to be connected, without reading
another byte. -/
theorem handshake_exact :
    (∀ (g : Atmega.State) (rx : List UInt8) (c : Atmega.Code Unit × Atmega.Hearing),
      Reach Atmega.hearing (Atmega.listen, ⟨g.init, rx, [], []⟩) c →
        (∀ k, c.1 = .op .available k →
          c.2.Listening ∧ c.2.g.handshakeProgress < handshake.length) ∧
        (c.1 = .ret () → c.2.g.connected = true) ∧
        (c.2.g.connected = true → c.2.Linked ∧ IsGreatest
          {j | j < handshake.length ∧ handshake.take j <:+ c.2.taken} c.2.g.handshakeProgress) ∧
        (Found handshake c.2.taken → Ends Atmega.hearing c.1 c.2 fun _ w' =>
          w'.g.connected = true ∧ w'.Linked ∧ w'.taken = c.2.taken)) ∧
    ∀ (g : Bridge.State) (c : Bridge.Code Unit × Bridge.Hearing),
      Reach Bridge.hearing (Bridge.connect, ⟨g.init, []⟩) c →
        (∀ count ms k, c.1 = .op (.read count ms) k →
          c.2.Listening ∧ c.2.g.handshakeProgress < handshake.length) ∧
        (c.1 = .ret () → c.2.g.connected = true) ∧
        (c.2.g.connected = true → c.2.Linked ∧ IsGreatest
          {j | j < handshake.length ∧ handshake.take j <:+ c.2.taken} c.2.g.handshakeProgress) ∧
        (Found handshake c.2.taken → Ends Bridge.hearing c.1 c.2 fun _ w' =>
          w'.g.connected = true ∧ w'.Linked ∧ w'.taken = c.2.taken) := by
  constructor
  · intro g rx c hr
    have hpatient := patient_reach (Atmega.listen_patient g rx) hr
    obtain ⟨hlook, hret⟩ := hpatient.watched
    refine ⟨fun k hk => ?_, fun hc => (hret () hc).1, fun hup => ?_, fun hfound => ?_⟩
    · have hlistening : c.2.Listening := hlook _ _ k hk
      exact ⟨hlistening, hlistening.searching.lt⟩
    · have hdone := hpatient.1 hup
      exact ⟨hdone, found_longest hdone.found hdone.progress⟩
    · have hends := patient_found Atmega.Hearing.taken hpatient
        (fun _ _ _ => Atmega.Hearing.watched_absent) (fun _ _ _ _ _ => Atmega.hearing_taken) hfound
      exact hends.mono fun _ w' hw' => ⟨hw'.1.1, hw'.1.2, hw'.2⟩
  · intro g c hr
    have hpatient := patient_reach (Bridge.connect_patient g) hr
    obtain ⟨hlook, hret⟩ := hpatient.watched
    refine ⟨fun count ms k hk => ?_, fun hc => (hret () hc).1, fun hup => ?_, fun hfound => ?_⟩
    · have hlistening : c.2.Listening := hlook _ _ k hk
      exact ⟨hlistening, hlistening.searching.lt⟩
    · have hdone := hpatient.1 hup
      exact ⟨hdone, found_longest hdone.found hdone.progress⟩
    · have hends := patient_found Bridge.Hearing.taken hpatient
        (fun _ _ _ => Bridge.Hearing.watched_absent) (fun _ _ _ _ _ => Bridge.hearing_taken) hfound
      exact hends.mono fun _ w' hw' => ⟨hw'.1.1, hw'.1.2, hw'.2⟩

namespace Atmega

/-- A run on which no more bytes arrive. -/
def Hearing.answer : (β : Type) → Op β → Hearing → Option (β × Hearing)
  | _, .get, w => some (w.g, w)
  | _, .set g, w => some ((), { w with g })
  | _, .available, w => some (w.rx.length, w)
  | _, .getchar, w =>
    match w.rx with
    | [] => none
    | c :: rx => some (c, { w with rx, taken := w.taken ++ [c] })
  | _, .putchar c, w => some ((), { w with tx := w.tx ++ [c] })
  | _, _, _ => none

theorem Hearing.answer_hearing (β : Type) (e : Op β) (w : Hearing) (b : β) (w' : Hearing)
    (h : w.answer β e = some (b, w')) : hearing β e (id w) b (id w') := by
  cases e with
  | getchar =>
    obtain ⟨g, _ | ⟨c, rx⟩, taken, tx⟩ := w
    · cases h
    · cases h
      exact ⟨rx, rfl, rfl⟩
  | available =>
    cases h
    refine ⟨[], ?_, rfl⟩
    simp
  | get =>
    cases h
    exact ⟨rfl, rfl⟩
  | set g | putchar c =>
    cases h
    rfl
  | _ => cases h

end Atmega

namespace Bridge

/-- A port that answers what is written down. -/
def Hearing.answer : (β : Type) → Op β → List ReadRes × Hearing →
    Option (β × (List ReadRes × Hearing))
  | _, .get, v => some (v.2.g, v)
  | _, .set g, v => some ((), v.1, { v.2 with g })
  | _, .read count _, v =>
    match v.1 with
    | [] => none
    | r :: rs =>
      if r.read.length ≤ count then some (r, rs, { v.2 with taken := v.2.taken ++ r.read })
      else none
  | _, .write _, v => some ((), v)
  | _, _, _ => none

theorem Hearing.answer_hearing (β : Type) (e : Op β) (v : List ReadRes × Hearing) (b : β)
    (v' : List ReadRes × Hearing) (h : Hearing.answer β e v = some (b, v')) :
    hearing β e v.2 b v'.2 := by
  cases e with
  | read count ms =>
    obtain ⟨_ | ⟨r, rs⟩, w⟩ := v
    · cases h
    · obtain ⟨hfits, heq⟩ := Option.ite_none_right_eq_some.mp h
      cases heq
      exact ⟨hfits, rfl⟩
  | get =>
    cases h
    exact ⟨rfl, rfl⟩
  | set g | write bs =>
    cases h
    rfl
  | _ => cases h

end Bridge

/-- A byte of noise, which is the first byte of the handshake, and a byte behind it; the bridge is
timed out after the first two bytes. -/
theorem handshake_exact_noise :
    (∃ c, Reach Atmega.hearing (Atmega.listen,
      ⟨Atmega.State.init {}, [0x99, 0x99, 0x66, 0x47, 0x42, 0x01], [], []⟩) c ∧ c.1 = .ret () ∧
      c.2.rx = [0x01] ∧ c.2.Linked) ∧
    ∃ c, Reach Bridge.hearing (Bridge.connect, ⟨Bridge.State.init {}, []⟩) c ∧ c.1 = .ret () ∧
      c.2.taken = [0x99, 0x99, 0x66, 0x47, 0x42] ∧ c.2.Linked := by
  constructor
  · let w : Atmega.Hearing :=
      ⟨Atmega.State.init {}, [0x99, 0x99, 0x66, 0x47, 0x42, 0x01], [], []⟩
    let w' : Atmega.Hearing := ⟨{ Atmega.State.init {} with connected := true }, [0x01],
      [0x99, 0x99, 0x66, 0x47, 0x42], handshake⟩
    have hrun : run (fun β e v => Atmega.Hearing.answer β e v) 6 Atmega.listen w =
        some ((), w') := rfl
    have hreach : Reach Atmega.hearing (Atmega.listen, w) (.ret (), w') :=
      eval_reach (run_eval Atmega.Hearing.answer_hearing hrun)
    obtain ⟨-, hret, hup, -⟩ := handshake_exact.1 {} _ _ hreach
    exact ⟨_, hreach, rfl, rfl, (hup (hret rfl)).1⟩
  · let port : List Bridge.ReadRes :=
      [.bytes [0x99], .bytes [0x99], .bytes [], .bytes [0x66], .bytes [0x47], .bytes [0x42]]
    let w' : Bridge.Hearing :=
      ⟨{ Bridge.State.init {} with connected := true }, [0x99, 0x99, 0x66, 0x47, 0x42]⟩
    have hrun : run Bridge.Hearing.answer 6 Bridge.connect (port, ⟨Bridge.State.init {}, []⟩) =
        some ((), ([], w')) := rfl
    have hreach : Reach Bridge.hearing (Bridge.connect, ⟨Bridge.State.init {}, []⟩)
        (.ret (), w') := eval_reach (run_eval Bridge.Hearing.answer_hearing hrun)
    obtain ⟨-, hret, hup, -⟩ := handshake_exact.2 {} _ hreach
    exact ⟨_, hreach, rfl, rfl, (hup (hret rfl)).1⟩

end GBridge

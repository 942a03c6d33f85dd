/-
# Prefix codes, and programs that put out whole words

A code is given together with the decoder that cuts one word off the front of a text.  When the
decoder is right whatever follows the word, no word begins another (`encode_append_inj`), and a text
can be cut into words in one way only, however much of it has come through (`cut_unique`).

Codes are put together from smaller ones: a length and so many letters (`sized`), a word and a
sum of it (`checked`), a letter that says which code follows (`tagged`).

The last section is about programs.  What a program puts out is watched in the middle of its runs
too, where a word may be half out: `Speaks` says that from whole words it gets to whole words, and
that in between there is never anything but whole words and the beginning of one.
-/
import GBridge.Lib.Prog
import Mathlib.Data.List.Infix

/-- A code for `α` in the letters `σ`, and the decoder of one word. -/
structure PrefixCode (α σ : Type) where
  encode : α → List σ
  decode : List σ → Option (α × List σ)
  decode_encode : ∀ a t, decode (encode a ++ t) = some (a, t)
  decode_sound : ∀ {s : List σ} {a : α} {t : List σ}, decode s = some (a, t) → s = encode a ++ t

namespace PrefixCode

variable {α β σ : Type} (C : PrefixCode α σ)

/-! ## 1. Cutting a text -/

/-- A word can be told from what follows it. -/
theorem encode_append_inj {a b : α} {s t : List σ} (h : C.encode a ++ s = C.encode b ++ t) :
    a = b ∧ s = t := by
  have ha := C.decode_encode a s
  rw [h, C.decode_encode b t] at ha
  obtain ⟨rfl, rfl⟩ := Prod.mk.inj (Option.some.inj ha)
  exact ⟨rfl, rfl⟩

/-- One word after the other. -/
def encodeAll (as : List α) : List σ := as.flatMap C.encode

@[simp] theorem encodeAll_nil : C.encodeAll [] = [] := rfl

@[simp] theorem encodeAll_cons (a : α) (as : List α) :
    C.encodeAll (a :: as) = C.encode a ++ C.encodeAll as := rfl

theorem encodeAll_append (as bs : List α) :
    C.encodeAll (as ++ bs) = C.encodeAll as ++ C.encodeAll bs := List.flatMap_append

theorem encodeAll_singleton (a : α) : C.encodeAll [a] = C.encode a := List.append_nil _

/-- A word has begun and is not complete. -/
def Begun (part : List σ) : Prop := ∃ a t, t ≠ [] ∧ C.encode a = part ++ t

/-- A text of words, the last of which may not be complete. -/
def Text (s : List σ) : Prop := ∃ as, s <+: C.encodeAll as

/-- A text of complete words. -/
def Whole (s : List σ) : Prop := ∃ as, s = C.encodeAll as

/-- The decoder finds nothing in a word that is not complete. -/
theorem decode_begun {part : List σ} (h : C.Begun part) : C.decode part = none := by
  obtain ⟨a, t, ht, ha⟩ := h
  cases hd : C.decode part with
  | none => rfl
  | some r =>
    obtain ⟨b, s⟩ := r
    rw [C.decode_sound hd, List.append_assoc] at ha
    obtain ⟨-, hnil⟩ := C.encode_append_inj ((List.append_nil _).trans ha)
    exact absurd (List.append_eq_nil_iff.mp hnil.symm).2 ht

variable {C} in
theorem Whole.text {s : List σ} (h : C.Whole s) : C.Text s := by
  obtain ⟨as, rfl⟩ := h
  exact ⟨as, List.prefix_rfl⟩

theorem whole_nil : C.Whole [] := ⟨[], rfl⟩

variable {C} in
theorem Whole.word {s : List σ} (h : C.Whole s) (a : α) : C.Whole (s ++ C.encode a) := by
  obtain ⟨as, rfl⟩ := h
  exact ⟨as ++ [a], by rw [encodeAll_append, encodeAll_singleton]⟩

variable {C} in
/-- The beginning of a text is one. -/
theorem Text.of_prefix {s s' : List σ} (h : C.Text s) (hs : s' <+: s) : C.Text s' := by
  obtain ⟨as, has⟩ := h
  exact ⟨as, hs.trans has⟩

/-- **A text can be cut into whole words and the beginning of one in one way only.** -/
theorem cut_unique : ∀ {as bs : List α} {part part' : List σ}, C.Begun part →
    C.Begun part' → C.encodeAll as ++ part = C.encodeAll bs ++ part' → as = bs ∧ part = part'
  | [], [], _, _, _, _, h => ⟨rfl, h⟩
  | [], b :: bs, part, part', hpart, _, h => by
    have hd := C.decode_begun hpart
    rw [show part = C.encode b ++ (C.encodeAll bs ++ part') from
      h.trans (List.append_assoc _ _ _), C.decode_encode] at hd
    cases hd
  | a :: as, [], part, part', _, hpart', h => by
    have hd := C.decode_begun hpart'
    rw [show part' = C.encode a ++ (C.encodeAll as ++ part) from
      h.symm.trans (List.append_assoc _ _ _), C.decode_encode] at hd
    cases hd
  | a :: as, b :: bs, part, part', hpart, hpart', h => by
    rw [encodeAll_cons, encodeAll_cons, List.append_assoc, List.append_assoc] at h
    obtain ⟨rfl, hrest⟩ := C.encode_append_inj h
    obtain ⟨rfl, rfl⟩ := cut_unique hpart hpart' hrest
    exact ⟨rfl, rfl⟩

section Cut

/-- Words are not empty. -/
def Proper : Prop := ∀ a, C.encode a ≠ []

variable {C} (hC : C.Proper)
include hC

/-- There is something to a text only if there is a word. -/
theorem Proper.begun_nil (a : α) : C.Begun [] := ⟨a, C.encode a, hC a, rfl⟩

/-- A text is cut into whole words and the beginning of one. -/
theorem Proper.text_cut {s : List σ} (h : C.Text s) (a : α) :
    ∃ as part, s = C.encodeAll as ++ part ∧ C.Begun part := by
  obtain ⟨bs, h⟩ := h
  induction bs generalizing s with
  | nil =>
    obtain rfl := List.prefix_nil.mp h
    exact ⟨[], [], rfl, hC.begun_nil a⟩
  | cons b bs ih =>
    rw [encodeAll_cons] at h
    rcases Nat.lt_or_ge s.length (C.encode b).length with hlt | hge
    · have hprefix : s <+: C.encode b :=
        List.prefix_of_prefix_length_le h (List.prefix_append _ _) (Nat.le_of_lt hlt)
      obtain ⟨t, ht⟩ := hprefix
      refine ⟨[], s, rfl, b, t, ?_, ht.symm⟩
      rintro rfl
      rw [List.append_nil] at ht
      exact absurd (congrArg List.length ht) (Nat.ne_of_lt hlt)
    · obtain ⟨u, rfl⟩ : C.encode b <+: s :=
        List.prefix_of_prefix_length_le (List.prefix_append _ _) h hge
      obtain ⟨as, part, rfl, hpart⟩ := ih ((List.prefix_append_right_inj _).mp h)
      exact ⟨b :: as, part, (List.append_assoc _ _ _).symm, hpart⟩

end Cut

/-! ## 2. Codes put together from smaller ones -/

/-- The empty word. -/
def empty : PrefixCode Unit σ where
  encode _ := []
  decode s := some ((), s)
  decode_encode _ _ := rfl
  decode_sound h := (Prod.mk.inj (Option.some.inj h)).2

/-- The letters are all there, and are cut off. -/
def cutOff [DecidableEq σ] : List σ → List σ → Option (List σ)
  | [], s => some s
  | _ :: _, [] => none
  | x :: w, y :: s => if x = y then cutOff w s else none

theorem cutOff_append [DecidableEq σ] (w t : List σ) : cutOff w (w ++ t) = some t := by
  induction w with
  | nil => rfl
  | cons x w ih => rw [List.cons_append, cutOff, if_pos rfl, ih]

theorem cutOff_sound [DecidableEq σ] : ∀ {w s t : List σ}, cutOff w s = some t → s = w ++ t
  | [], _, _, h => Option.some.inj h
  | _ :: _, [], _, h => by cases h
  | x :: w, y :: s, t, h => by
    rw [cutOff, Option.ite_none_right_eq_some] at h
    obtain ⟨rfl, hrest⟩ := h
    rw [cutOff_sound hrest, List.cons_append]

/-- A word, and after it letters that are determined by it. -/
def checked [DecidableEq σ] (sum : α → List σ) : PrefixCode α σ where
  encode a := C.encode a ++ sum a
  decode s := (C.decode s).bind fun r => (cutOff (sum r.1) r.2).map fun t => (r.1, t)
  decode_encode a t := by
    rw [List.append_assoc, C.decode_encode, Option.bind_some, cutOff_append]
    rfl
  decode_sound h := by
    obtain ⟨⟨b, u⟩, hd, h⟩ := Option.bind_eq_some_iff.mp h
    obtain ⟨v, hv, hr⟩ := Option.map_eq_some_iff.mp h
    obtain ⟨rfl, rfl⟩ := Prod.mk.inj hr
    have hu : u = sum b ++ v := cutOff_sound hv
    rw [C.decode_sound hd, hu, List.append_assoc]

/-- At most so many letters. -/
abbrev AtMost (n : Nat) (σ : Type) := { s : List σ // s.length ≤ n }

/-- How many letters follow, and the letters. -/
def sized {n : Nat} (L : PrefixCode (Fin (n + 1)) σ) : PrefixCode (AtMost n σ) σ where
  encode s := L.encode ⟨s.1.length, Nat.lt_succ_of_le s.2⟩ ++ s.1
  decode s := (L.decode s).bind fun r =>
    if r.1.val ≤ r.2.length then
      some (⟨r.2.take r.1.val, le_trans (List.length_take_le _ _) (Nat.le_of_lt_succ r.1.isLt)⟩,
        r.2.drop r.1.val)
    else none
  decode_encode s t := by
    rw [List.append_assoc, L.decode_encode, Option.bind_some, if_pos (by simp)]
    simp
  decode_sound h := by
    obtain ⟨⟨k, u⟩, hd, h⟩ := Option.bind_eq_some_iff.mp h
    simp only [Option.ite_none_right_eq_some, Option.some.injEq, Prod.mk.injEq] at h
    obtain ⟨hk, rfl, rfl⟩ := h
    have hlen : (⟨(u.take k.val).length, Nat.lt_succ_of_le (le_trans (List.length_take_le _ _)
        (Nat.le_of_lt_succ k.isLt))⟩ : Fin (n + 1)) = k :=
      Fin.ext (List.length_take_of_le hk)
    rw [L.decode_sound hd, hlen, List.append_assoc, List.take_append_drop]

/-- A letter that says which of these codes the rest is in. -/
def tagged [DecidableEq σ] {ι : Type} {β : ι → Type} (tag : ι → σ) (all : List ι)
    (hall : ∀ i, (all.find? fun j => tag j = tag i) = some i) (D : (i : ι) → PrefixCode (β i) σ) :
    PrefixCode (Σ i, β i) σ where
  encode m := tag m.1 :: (D m.1).encode m.2
  decode
    | [] => none
    | x :: s => (all.find? fun i => tag i = x).bind fun i =>
      ((D i).decode s).map fun r => (⟨i, r.1⟩, r.2)
  decode_encode m t := by
    simp only [List.cons_append, hall, Option.bind_some, (D m.1).decode_encode, Option.map_some]
  decode_sound {s m t} h := by
    cases s with
    | nil => cases h
    | cons x s =>
      obtain ⟨i, hi, h⟩ := Option.bind_eq_some_iff.mp h
      obtain ⟨⟨b, u⟩, hd, hr⟩ := Option.map_eq_some_iff.mp h
      obtain ⟨rfl, rfl⟩ := Prod.mk.inj hr
      have htag : tag i = x :=
        of_decide_eq_true (List.find?_some (p := fun i => decide (tag i = x)) hi)
      rw [(D i).decode_sound hd, htag]
      rfl

theorem tagged_proper [DecidableEq σ] {ι : Type} {β : ι → Type} {tag : ι → σ} {all : List ι}
    {hall : ∀ i, (all.find? fun j => tag j = tag i) = some i} {D : (i : ι) → PrefixCode (β i) σ} :
    (tagged tag all hall D).Proper := fun _ => List.cons_ne_nil _ _

/-- What can be said of a text that has been put out so far: it can be cut into words and the
beginning of one more, in one way only, and at the end of the program nothing has begun. -/
structure Cut (C : PrefixCode α σ) (s : List σ) (done : Prop) (as : List α) (part : List σ) :
    Prop where
  eq : s = C.encodeAll as ++ part
  begun : C.Begun part
  unique : ∀ bs part', s = C.encodeAll bs ++ part' → C.Begun part' → bs = as ∧ part' = part
  complete : done → part = []

variable {C} in
/-- **A text can be cut.** -/
theorem Proper.cut {s : List σ} {done : Prop} (hC : C.Proper) (htext : C.Text s) (a : α)
    (hdone : done → C.Whole s) : ∃ as part, C.Cut s done as part := by
  obtain ⟨as, part, heq, hpart⟩ := hC.text_cut htext a
  have hunique : ∀ bs part', s = C.encodeAll bs ++ part' → C.Begun part' →
      bs = as ∧ part' = part := fun bs part' heq' hpart' =>
    C.cut_unique hpart' hpart (heq'.symm.trans heq)
  refine ⟨as, part, heq, hpart, hunique, fun hd => ?_⟩
  obtain ⟨bs, hbs⟩ := hdone hd
  exact (hunique bs [] (hbs.trans (List.append_nil _).symm) (hC.begun_nil a)).2.symm

/-! ## 3. Programs that put out words -/

section Speaks

variable {E : Type → Type} {W : Type} (sem : Prog.Sem E W) (out : W → List σ)

/-- What is put out is to be a text after each command. -/
abbrev speech : Prog.Spec E W := Prog.Spec.guarded sem fun w => C.Text (out w)

/-- From whole words the program gets to whole words, and it never puts out anything that does not
begin like words. -/
abbrev Speaks (p : Prog E β) : Prop :=
  Prog.Keeps (C.speech sem out) (fun w => C.Whole (out w)) p

variable {C sem out}

/-- Commands that put nothing out. -/
theorem Speaks.silent {P : {γ : Type} → E γ → Prop}
    (hP : ∀ {γ : Type} (e : E γ), P e → ∀ w b w', sem γ e w b w' → out w' = out w)
    {p : Prog E β} (h : p.Every P) : C.Speaks sem out p := by
  refine Prog.Every.keeps ?_ h
  intro γ e w he hw b w' hs
  have hsame : C.Whole (out w') := (hP e he w b w' hs).symm ▸ hw
  exact ⟨hsame.text, hsame⟩

/-- In the middle of a run there is a text, and at its end a whole one. -/
theorem Speaks.reach {p : Prog E β} {w : W} {c : Prog E β × W} (h : C.Speaks sem out p)
    (hw : C.Whole (out w)) (hr : Prog.Reach sem (p, w) c) :
    C.Text (out c.2) ∧ ∀ b, c.1 = .ret b → C.Whole (out c.2) := by
  have hwatched : Prog.wpre (Prog.Spec.watched sem (fun _ _ => True) fun w => C.Text (out w))
      false p (fun _ w' => C.Whole (out w')) w := by
    refine Prog.wpre_of_spec ?_ (h w hw)
    intro γ e Q v hpre
    exact ⟨trivial, hpre⟩
  obtain ⟨-, hret, htext⟩ := Prog.watched_reach hwatched hw.text hr
  exact ⟨htext, hret⟩

/-- **In every state of its runs a program that speaks has put out whole words and the beginning
of one more.** -/
theorem Speaks.cut {p : Prog E β} {w : W} {c : Prog E β × W} (h : C.Speaks sem out p)
    (hC : C.Proper) (a : α) (hw : C.Whole (out w)) (hr : Prog.Reach sem (p, w) c) :
    ∃ as part, C.Cut (out c.2) (∃ b, c.1 = .ret b) as part := by
  obtain ⟨htext, hret⟩ := h.reach hw hr
  refine hC.cut htext a ?_
  rintro ⟨b, hb⟩
  exact hret b hb

end Speaks

end PrefixCode

/-
# Searching for a word whose letters are all different

A search reads a text letter by letter and remembers how much of the word the text ends with.
After a letter that does not fit one usually has to look for the longest prefix of the word that
still fits.  If no letter occurs twice in the word there is no choice: that prefix is at most one
letter long (`Searching.miss`).
-/
import Mathlib.Data.List.Infix
import Mathlib.Data.List.Nodup
import Mathlib.Order.Bounds.Basic

namespace Matching

variable {α : Type*} {p xs : List α} {k : Nat} {c : α}

/-! ## 1. What is remembered -/

/-- The word `p` has not occurred in `xs`, and `k` is the length of the longest prefix of it that
`xs` ends with. -/
structure Searching (p xs : List α) (k : Nat) : Prop where
  longest : IsGreatest {j | j ≤ p.length ∧ p.take j <:+ xs} k
  absent : ¬ p <:+: xs

/-- The last letter of `xs` has completed the first occurrence of `p`. -/
structure Found (p xs : List α) : Prop where
  ends : p <:+ xs
  first : ¬ p <:+: xs.dropLast

/-- What is remembered is a place in the word. -/
theorem Searching.lt (h : Searching p xs k) : k < p.length := by
  obtain ⟨⟨hle, hsuffix⟩, -⟩ := h.longest
  refine Nat.lt_of_le_of_ne hle ?_
  rintro rfl
  rw [List.take_length] at hsuffix
  exact h.absent hsuffix.isInfix

theorem searching_nil (hp : p ≠ []) : Searching p [] 0 := by
  refine ⟨⟨⟨Nat.zero_le _, List.nil_suffix⟩, ?_⟩, ?_⟩
  · rintro j ⟨hle, hsuffix⟩
    have hnil : p.take j = [] := List.suffix_nil.mp hsuffix
    rcases List.take_eq_nil_iff.mp hnil with rfl | hnil
    · exact Nat.le_refl 0
    · exact absurd hnil hp
  · intro hinfix
    exact hp (List.infix_nil.mp hinfix)

/-- Two beginnings of one text in which the word has just been found, the one not the longer. -/
theorem Found.eq_of_prefix {xs ys : List α} (hx : Found p xs) (hy : Found p ys) (h : xs <+: ys) :
    xs = ys := by
  by_contra hne
  have hlt : xs.length ≤ ys.length - 1 := by
    have hle := h.length_le
    have hlen : xs.length ≠ ys.length := fun hlen => hne (h.eq_of_length hlen)
    omega
  have hbefore : xs <+: ys.dropLast := by
    rw [List.dropLast_eq_take]
    exact List.prefix_take_iff.mpr ⟨h, hlt⟩
  exact hy.first (hx.ends.isInfix.trans hbefore.isInfix)

/-- **A word is found in one place only.** -/
theorem Found.unique {xs ys zs : List α} (hx : Found p xs) (hy : Found p ys) (h : xs <+: zs)
    (h' : ys <+: zs) : xs = ys := by
  rcases List.prefix_or_prefix_of_prefix h h' with hle | hle
  · exact hx.eq_of_prefix hy hle
  · exact (hy.eq_of_prefix hx hle).symm

/-! ## 2. One more letter -/

/-- A prefix fits one more letter, if it ends in that letter and the rest of it fitted before. -/
theorem take_succ_suffix {j : Nat} (hj : j < p.length) :
    p.take (j + 1) <:+ xs ++ [c] ↔ p[j]? = some c ∧ p.take j <:+ xs := by
  rw [List.take_add_one, List.getElem?_eq_getElem hj, Option.toList_some]
  constructor
  · rintro ⟨t, ht⟩
    rw [← List.append_assoc] at ht
    obtain ⟨hinit, hlast⟩ := List.append_inj' ht rfl
    exact ⟨congrArg some (List.cons.inj hlast).1, t, hinit⟩
  · rintro ⟨hc, t, rfl⟩
    rw [Option.some.inj hc]
    exact ⟨t, (List.append_assoc _ _ _).symm⟩

/-- The letter says where in the word it is. -/
theorem place_unique (hp : p.Nodup) {i j : Nat} (hi : p[i]? = some c) (hj : p[j]? = some c) :
    i = j := by
  obtain ⟨hlt, hc⟩ := List.getElem?_eq_some_iff.mp hi
  obtain ⟨hlt', hc'⟩ := List.getElem?_eq_some_iff.mp hj
  exact (hp.getElem_inj_iff).mp (hc.trans hc'.symm)

/-- Two prefixes that end in the same letter are the same. -/
theorem suffix_unique (hp : p.Nodup) {i j : Nat} (hi : 0 < i ∧ i ≤ p.length)
    (hj : 0 < j ∧ j ≤ p.length) (h : p.take i <:+ xs) (h' : p.take j <:+ xs) : i = j := by
  obtain ⟨i, rfl⟩ : ∃ m, i = m + 1 := ⟨i - 1, by omega⟩
  obtain ⟨j, rfl⟩ : ∃ m, j = m + 1 := ⟨j - 1, by omega⟩
  rcases List.eq_nil_or_concat' xs with rfl | ⟨ys, c, rfl⟩
  · rw [List.suffix_nil, List.take_eq_nil_iff] at h
    rcases h with h | rfl
    · cases h
    · simp at hi
  · rw [take_succ_suffix (by omega)] at h h'
    rw [place_unique hp h.1 h'.1]

variable (hp : p.Nodup) (h : Searching p xs k)
include hp h

/-- The letter that was waited for. -/
theorem Searching.hit (hc : p[k]? = some c) (hk : k + 1 ≠ p.length) :
    Searching p (xs ++ [c]) (k + 1) := by
  have hlt := h.lt
  have hsuffix : p.take (k + 1) <:+ xs ++ [c] :=
    (take_succ_suffix hlt).mpr ⟨hc, h.longest.1.2⟩
  have hunique : ∀ j, 0 < j → j ≤ p.length → p.take j <:+ xs ++ [c] → j = k + 1 := by
    intro j hpos hle hj
    exact suffix_unique hp ⟨hpos, hle⟩ ⟨Nat.succ_pos k, hlt⟩ hj hsuffix
  refine ⟨⟨⟨hlt, hsuffix⟩, ?_⟩, ?_⟩
  · rintro j ⟨hle, hj⟩
    rcases Nat.eq_zero_or_pos j with rfl | hpos
    · exact Nat.zero_le _
    · exact Nat.le_of_eq (hunique j hpos hle hj)
  · rw [List.infix_concat_iff]
    rintro (hends | hbefore)
    · rw [← List.take_length (l := p)] at hends
      exact hk (hunique _ (Nat.zero_lt_of_lt hlt) (Nat.le_refl _) hends).symm
    · exact h.absent hbefore

/-- A letter that does not fit: the search begins again, perhaps with this letter. -/
theorem Searching.miss [DecidableEq α] (hc : p[k]? ≠ some c) :
    Searching p (xs ++ [c]) (if p[0]? = some c then 1 else 0) := by
  have hlt := h.lt
  -- only a prefix of one letter may fit
  have hshort : ∀ j, 0 < j → j ≤ p.length → p.take j <:+ xs ++ [c] → j = 1 ∧ p[0]? = some c := by
    intro j hpos hle hj
    obtain ⟨j, rfl⟩ : ∃ m, j = m + 1 := ⟨j - 1, by omega⟩
    obtain ⟨hjc, hj⟩ := (take_succ_suffix (by omega)).mp hj
    have hjk : j ≤ k := h.longest.2 ⟨Nat.le_of_succ_le hle, hj⟩
    rcases Nat.eq_zero_or_pos j with rfl | hpos
    · exact ⟨rfl, hjc⟩
    · obtain rfl : j = k := suffix_unique hp ⟨hpos, Nat.le_of_succ_le hle⟩
        ⟨Nat.lt_of_lt_of_le hpos hjk, Nat.le_of_lt hlt⟩ hj h.longest.1.2
      exact absurd hjc hc
  have habsent : ¬ p <:+: xs ++ [c] := by
    rw [List.infix_concat_iff]
    rintro (hends | hbefore)
    · rw [← List.take_length (l := p)] at hends
      obtain ⟨hone, hfirst⟩ := hshort _ (Nat.zero_lt_of_lt hlt) (Nat.le_refl _) hends
      obtain rfl : k = 0 := by omega
      exact hc hfirst
    · exact h.absent hbefore
  refine ⟨?_, habsent⟩
  by_cases hfirst : p[0]? = some c
  · rw [if_pos hfirst]
    refine ⟨⟨Nat.zero_lt_of_lt hlt, ?_⟩, ?_⟩
    · exact (take_succ_suffix (Nat.zero_lt_of_lt hlt)).mpr ⟨hfirst, List.nil_suffix⟩
    · rintro j ⟨hle, hj⟩
      rcases Nat.eq_zero_or_pos j with rfl | hpos
      · exact Nat.zero_le 1
      · exact Nat.le_of_eq (hshort j hpos hle hj).1
  · rw [if_neg hfirst]
    refine ⟨⟨Nat.zero_le _, List.nil_suffix⟩, ?_⟩
    rintro j ⟨hle, hj⟩
    rcases Nat.eq_zero_or_pos j with rfl | hpos
    · exact Nat.le_refl 0
    · exact absurd (hshort j hpos hle hj).2 hfirst

omit hp in
/-- The last letter of the word. -/
theorem Searching.found (hc : p[k]? = some c) (hk : k + 1 = p.length) : Found p (xs ++ [c]) := by
  constructor
  · have hsuffix := (take_succ_suffix h.lt).mpr ⟨hc, h.longest.1.2⟩
    rwa [hk, List.take_length] at hsuffix
  · rw [List.dropLast_concat]
    exact h.absent

omit h in
/-- Where the word has just been found, no shorter prefix of it fits. -/
theorem Found.longest (hfound : Found p xs) (hne : p ≠ []) :
    IsGreatest {j | j < p.length ∧ p.take j <:+ xs} 0 := by
  refine ⟨⟨List.length_pos_of_ne_nil hne, List.nil_suffix⟩, ?_⟩
  rintro j ⟨hlt, hj⟩
  rcases Nat.eq_zero_or_pos j with rfl | hpos
  · exact Nat.le_refl 0
  · have hends := hfound.ends
    rw [← List.take_length (l := p)] at hends
    have heq := suffix_unique hp ⟨hpos, Nat.le_of_lt hlt⟩
      ⟨Nat.zero_lt_of_lt hlt, Nat.le_refl _⟩ hj hends
    exact absurd heq (Nat.ne_of_lt hlt)

end Matching

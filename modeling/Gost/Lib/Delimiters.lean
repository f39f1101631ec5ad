import Mathlib.Data.List.Infix

/-!
# Delimiters

`find` cuts a text at the first occurrence of a delimiter. `findFirst` takes a list of delimiters in
the order of preference: it looks for one only if those before it do not occur at all. So a
delimiter that is preferred wins even if another one stands before it, and what is found may change
when more text comes. `findFirst_eq_none_iff` and `findFirst_of_isPrefix` say what does not change.
-/

namespace Delimiters

open List Option

variable {α : Type*}

/-- If no delimiter starts with another one, the text before fixes the text behind. -/
theorem behind_eq_of_prefixFree {delims : List (List α)}
    (hfree : ∀ d ∈ delims, ∀ d' ∈ delims, d <+: d' → d = d') {before behind d d' behind' : List α}
    (hd : d ∈ delims) (hd' : d' ∈ delims)
    (h : before ++ d ++ behind = before ++ d' ++ behind') : behind = behind' := by
  rw [append_assoc, append_assoc] at h
  have htails : d ++ behind = d' ++ behind' := append_cancel_left h
  have heq : d = d' := by
    rcases prefix_or_prefix_of_prefix (prefix_append d behind)
      (htails ▸ prefix_append d' behind') with hpre | hpre
    · exact hfree d hd d' hd' hpre
    · exact (hfree d' hd' d hd hpre).symm
  rw [heq] at htails
  exact append_cancel_left htails

variable [DecidableEq α]

/-- The text before the first occurrence of `delim` and the text behind it. -/
def find (delim : List α) : List α → Option (List α × List α)
  | [] => none
  | c :: s =>
    if delim.isPrefixOf (c :: s) then some ([], (c :: s).drop delim.length)
    else (find delim s).map fun p => (c :: p.1, p.2)

/-- `find` for the first of the delimiters that occurs. -/
def findFirst (delims : List (List α)) (s : List α) : Option (List α × List α) :=
  delims.findSome? (find · s)

/-! ## One delimiter -/

section Find

variable {delim s t before behind : List α}

theorem find_sound (h : find delim s = some (before, behind)) :
    s = before ++ delim ++ behind := by
  induction s generalizing before with
  | nil => cases h
  | cons c s ih =>
    rw [find] at h
    split_ifs at h with hprefix
    · cases h
      obtain ⟨more, hmore⟩ := isPrefixOf_iff_prefix.mp hprefix
      rw [nil_append, ← hmore, drop_left]
    · obtain ⟨⟨before', behind'⟩, hfind, heq⟩ := map_eq_some_iff.mp h
      cases heq
      rw [ih hfind]
      simp

theorem find_isSome_of_isInfix (hne : delim ≠ []) (h : delim <:+: s) :
    (find delim s).isSome = true := by
  induction s with
  | nil => exact absurd (infix_nil.mp h) hne
  | cons c s ih =>
    rw [find]
    split_ifs with hprefix
    · rfl
    · rw [isSome_map]
      refine ih ((infix_cons_iff.mp h).resolve_left fun hpre => hprefix ?_)
      exact isPrefixOf_iff_prefix.mpr hpre

theorem find_eq_none_iff (hne : delim ≠ []) : find delim s = none ↔ ¬delim <:+: s := by
  constructor
  · intro hnone hpart
    have hsome := find_isSome_of_isInfix hne hpart
    rw [hnone] at hsome
    cases hsome
  · intro hnot
    by_contra hsome
    obtain ⟨⟨before, behind⟩, hfind⟩ := ne_none_iff_exists'.mp hsome
    exact hnot ⟨before, behind, (find_sound hfind).symm⟩

/-- More text does not change the first occurrence. -/
theorem find_append (h : find delim s = some (before, behind)) (t : List α) :
    find delim (s ++ t) = some (before, behind ++ t) := by
  induction s generalizing before with
  | nil => cases h
  | cons c s ih =>
    rw [find] at h
    rw [cons_append, find]
    split_ifs at h with hprefix
    · have hlonger : delim.isPrefixOf (c :: (s ++ t)) = true :=
        isPrefixOf_iff_prefix.mpr
          (( isPrefixOf_iff_prefix.mp hprefix).trans (prefix_append (c :: s) t))
      cases h
      rw [if_pos hlonger, ← cons_append,
        drop_append_of_le_length ( isPrefixOf_iff_prefix.mp hprefix).length_le]
    · obtain ⟨⟨before', behind'⟩, hfind, heq⟩ := map_eq_some_iff.mp h
      cases heq
      -- the text is long enough to have held the delimiter at its front
      have hlonger : ¬delim.isPrefixOf (c :: (s ++ t)) = true := by
        intro hlong
        refine hprefix ( isPrefixOf_iff_prefix.mpr ?_)
        refine prefix_of_prefix_length_le ( isPrefixOf_iff_prefix.mp hlong)
          (prefix_append (c :: s) t) ?_
        rw [find_sound hfind]
        simp only [length_cons, length_append]
        omega
      rw [if_neg hlonger, ih hfind]
      rfl

/-- The first occurrence is not seen before it is complete. -/
theorem find_eq_none_of_isPrefix (h : find delim t = some (before, behind)) (hs : s <+: t)
    (hlen : s.length < before.length + delim.length) : find delim s = none := by
  obtain ⟨more, rfl⟩ := hs
  by_contra hsome
  obtain ⟨⟨before', behind'⟩, hfind⟩ := ne_none_iff_exists'.mp hsome
  have hsame := find_append hfind more
  rw [h, some.injEq, Prod.mk.injEq] at hsame
  rw [hsame.1, find_sound hfind, length_append, length_append] at hlen
  omega

/-- The first occurrence is seen as soon as it is complete. -/
theorem find_of_append (hne : delim ≠ []) (h : find delim (s ++ t) = some (before, behind))
    (hlen : before.length + delim.length ≤ s.length) :
    find delim s = some (before, s.drop (before.length + delim.length)) := by
  have hprefix : before ++ delim <+: s :=
    prefix_of_prefix_length_le ⟨behind, (find_sound h).symm⟩ (prefix_append s t)
      (by rwa [length_append])
  obtain ⟨rest, rfl⟩ := hprefix
  obtain ⟨⟨before', behind'⟩, hfind⟩ := isSome_iff_exists.mp
    (find_isSome_of_isInfix hne ⟨before, rest, rfl⟩)
  have hsame := find_append hfind t
  rw [h, some.injEq, Prod.mk.injEq] at hsame
  obtain ⟨rfl, -⟩ := hsame
  have hrest : rest = behind' := append_cancel_left (find_sound hfind)
  rw [hfind, ← length_append, drop_left, hrest]

end Find

/-! ## Delimiters in the order of preference -/

section FindFirst

variable {delims : List (List α)} {s t before behind : List α}

theorem findFirst_sound (h : findFirst delims s = some (before, behind)) :
    ∃ delim ∈ delims, s = before ++ delim ++ behind := by
  obtain ⟨delim, hmem, hfind⟩ := exists_of_findSome?_eq_some h
  exact ⟨delim, hmem, find_sound hfind⟩

variable (hne : ∀ delim ∈ delims, delim ≠ [])
include hne

theorem findFirst_eq_none_iff :
    findFirst delims s = none ↔ ∀ delim ∈ delims, ¬delim <:+: s := by
  rw [findFirst, findSome?_eq_none_iff]
  exact forall₂_congr fun delim hmem => find_eq_none_iff (hne delim hmem)

/-- What is found takes at least one element. -/
theorem length_lt_of_findFirst (h : findFirst delims s = some (before, behind)) :
    behind.length < s.length := by
  obtain ⟨delim, hmem, rfl⟩ := findFirst_sound h
  have hpos := length_pos_of_ne_nil (hne delim hmem)
  simp only [length_append]
  omega

theorem findFirst_eq_none_of_isPrefix (h : findFirst delims t = none) (hs : s <+: t) :
    findFirst delims s = none := by
  rw [findFirst_eq_none_iff hne] at h ⊢
  exact fun delim hmem hpart => h delim hmem (hpart.trans hs.isInfix)

/-- What is found with the whole text in view is found as soon as it is complete. -/
theorem findFirst_of_isPrefix (h : findFirst delims t = some (before, behind)) (hs : s <+: t)
    (hlen : t.length - behind.length ≤ s.length) :
    findFirst delims s = some (before, s.drop (t.length - behind.length)) := by
  obtain ⟨more, rfl⟩ := hs
  induction delims with
  | nil => cases h
  | cons delim delims ih =>
    have hdelim : delim ≠ [] := hne delim mem_cons_self
    rw [findFirst, findSome?_cons] at h ⊢
    cases hfind : find delim (s ++ more) with
    | some p =>
      rw [hfind] at h
      cases h
      have hlength : (s ++ more).length - behind.length = before.length + delim.length := by
        rw [find_sound hfind]
        simp only [length_append]
        omega
      rw [hlength] at hlen ⊢
      rw [find_of_append hdelim hfind hlen]
    | none =>
      -- a delimiter that is preferred does not occur in a part of the text either
      have hnone : find delim s = none := by
        rw [find_eq_none_iff hdelim] at hfind ⊢
        exact fun hpart => hfind (hpart.trans (prefix_append s more).isInfix)
      rw [hfind] at h
      rw [hnone]
      exact ih (fun d hd => hne d (mem_cons_of_mem _ hd)) h

/-- The element that completes the first delimiter is its last. -/
theorem findFirst_concat {c : α} (hnone : findFirst delims s = none)
    (h : findFirst delims (s ++ [c]) = some (before, behind)) : behind = [] := by
  obtain ⟨delim, hmem, hsplit⟩ := findFirst_sound h
  rw [findFirst_eq_none_iff hne] at hnone
  rcases eq_nil_or_concat behind with hnil | ⟨init, c', rfl⟩
  · exact hnil
  · rw [concat_eq_append, ← append_assoc] at hsplit
    have hs : s = before ++ delim ++ init := (append_inj' hsplit rfl).1
    exact absurd ⟨before, init, hs.symm⟩ (hnone delim hmem)

end FindFirst

end Delimiters

import Mathlib.Data.List.SplitBy
import Mathlib.Order.Lattice

/-!
# Tiers of a list

A list sorted by a key, highest first, and cut where the key changes. `Descending` is what a walk
through the tiers needs: no tier is empty, the key is the same within a tier and does not rise from
one tier to the next. A sort that is not stable may leave any order within a tier
(`exists_perm_find?_eq`).
-/

namespace Tiers

open List

variable {α κ : Type*} [LinearOrder κ] {key : α → κ}

/-- The elements of `l` by descending key, cut where the key changes. -/
def tiers (key : α → κ) (l : List α) : List (List α) :=
  (l.mergeSort fun a b => key b ≤ key a).splitBy fun a b => key a == key b

structure Descending (key : α → κ) (ts : List (List α)) : Prop where
  ne_nil : ∀ t ∈ ts, t ≠ []
  const : ∀ t ∈ ts, ∀ a ∈ t, ∀ b ∈ t, key a = key b
  sorted : ts.flatten.Pairwise fun a b => key b ≤ key a

variable {t l : List α} {ts : List (List α)}

theorem Descending.tail (h : Descending key (t :: ts)) : Descending key ts where
  ne_nil t' ht := h.ne_nil t' (mem_cons_of_mem t ht)
  const t' ht := h.const t' (mem_cons_of_mem t ht)
  sorted := (pairwise_append.mp h.sorted).2.1

/-- An element of the first tier has the highest key of all. -/
theorem Descending.le_of_mem_head (h : Descending key (t :: ts)) {a b : α} (ha : a ∈ t)
    (hb : b ∈ (t :: ts).flatten) : key b ≤ key a := by
  rcases mem_append.mp (flatten_cons ▸ hb) with hb | hb
  · exact (h.const t mem_cons_self b hb a ha).le
  · exact (pairwise_append.mp h.sorted).2.2 a ha b hb

/-- A list in descending order, however it was sorted. -/
theorem descending_splitBy (hl : l.Pairwise fun a b => key b ≤ key a) :
    Descending key (l.splitBy fun a b => key a == key b) where
  ne_nil _ ht := ne_nil_of_mem_splitBy ht
  const t ht a ha b hb := by
    have hchain : t.IsChain fun a b => key a = key b :=
      (isChain_of_mem_splitBy ht).imp fun _ _ h => beq_iff_eq.mp h
    exact List.Pairwise.forall_of_forall (R := fun a b => key a = key b) (fun _ _ => rfl)
      (isChain_iff_pairwise.mp hchain) ha hb
  sorted := by
    rw [flatten_splitBy]
    exact hl

theorem pairwise_mergeSort_key (key : α → κ) (l : List α) :
    (l.mergeSort fun a b => key b ≤ key a).Pairwise fun a b => key b ≤ key a := by
  have htrans : ∀ a b c : α, decide (key b ≤ key a) → decide (key c ≤ key b) →
      decide (key c ≤ key a) := fun a b c hab hbc =>
    decide_eq_true ((of_decide_eq_true hbc).trans (of_decide_eq_true hab))
  have htotal : ∀ a b : α, decide (key b ≤ key a) || decide (key a ≤ key b) := fun a b => by
    simpa using le_total (key b) (key a)
  exact (pairwise_mergeSort htrans htotal l).imp fun h => of_decide_eq_true h

theorem descending_tiers (key : α → κ) (l : List α) : Descending key (tiers key l) :=
  descending_splitBy (pairwise_mergeSort_key key l)

/-- Among elements of one key any may come first: the order of a sorted list leaves ties open. -/
theorem exists_perm_find?_eq (hl : l.Pairwise fun a b => key b ≤ key a) {p : α → Bool}
    (hp : ∀ a b, p a = true → p b = true → key a = key b) {m : α} (hm : m ∈ l) (hpm : p m = true) :
    ∃ l' : List α, l'.Perm l ∧ l'.Pairwise (fun a b => key b ≤ key a) ∧ l'.find? p = some m := by
  obtain ⟨r, hr⟩ := Option.isSome_iff_exists.mp (find?_isSome.mpr ⟨m, hm, hpm⟩)
  obtain ⟨hpr, as, bs, rfl, has⟩ := find?_eq_some_iff_append.mp hr
  have hnot : ∀ a ∈ as, ¬p a = true := fun a ha h => by
    have := has a ha
    rw [h] at this
    cases this
  -- `m` is the element that comes first, or stands behind it and changes places with it
  rcases mem_append.mp hm with hm | hm
  · exact absurd hpm (hnot m hm)
  rcases mem_cons.mp hm with rfl | hm
  · exact ⟨_, .refl _, hl, hr⟩
  obtain ⟨cs, ds, rfl⟩ := append_of_mem hm
  refine ⟨as ++ m :: (cs ++ r :: ds), ?_, ?_, ?_⟩
  · refine List.Perm.append_left as ?_
    exact ((perm_middle.cons m).trans (.swap r m _)).trans
      ((perm_middle.symm).cons r)
  · have hkey : key m = key r := hp m r hpm hpr
    have hmap : (as ++ m :: (cs ++ r :: ds)).map key = (as ++ r :: (cs ++ m :: ds)).map key := by
      simp only [map_append, map_cons, hkey]
    have hsorted : ((as ++ r :: (cs ++ m :: ds)).map key).Pairwise fun a b => b ≤ a :=
      pairwise_map.mpr hl
    rw [← hmap] at hsorted
    exact pairwise_map.mp hsorted
  · exact find?_eq_some_iff_append.mpr ⟨hpm, as, _, rfl, has⟩

/-- With one key there is one tier. -/
theorem tiers_of_const (hne : l ≠ []) (h : ∀ a ∈ l, ∀ b ∈ l, key a = key b) :
    tiers key l = [l] := by
  have hsorted : l.Pairwise fun a b => decide (key b ≤ key a) = true :=
    pairwise_iff_forall_sublist.mpr fun hab =>
      decide_eq_true (h _ (hab.subset (by simp)) _ (hab.subset (by simp))).le
  have hchain : l.IsChain fun a b => (key a == key b) = true :=
    (pairwise_iff_forall_sublist.mpr fun hab =>
      beq_iff_eq.mpr (h _ (hab.subset (by simp)) _ (hab.subset (by simp)))).isChain
  rw [tiers, mergeSort_of_pairwise hsorted, splitBy_of_isChain hne hchain]

end Tiers

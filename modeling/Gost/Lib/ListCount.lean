import Mathlib.Algebra.GroupWithZero.Nat
import Mathlib.Data.List.Count

/-!
# Lists that are updated in place

A population of numbered records is a list, and a record that changes is a `set` at its index.
Counts and sums over the records then change by what the old and the new record contribute.
-/

namespace ListCount

open List

variable {α : Type*} {p : α → Bool} {l : List α} {i j : ℕ} {a b c : α} {q : α → Prop}

/-- A record after an update: the one that was replaced, or one of the others. -/
theorem getElem?_set_cases (h : l[i]? = some a) (hc : (l.set i b)[j]? = some c) :
    j = i ∧ c = b ∨ j ≠ i ∧ l[j]? = some c := by
  by_cases hij : i = j
  · subst hij
    rw [List.getElem?_set_self (List.getElem?_eq_some_iff.mp h).1] at hc
    exact .inl ⟨rfl, (Option.some.inj hc).symm⟩
  · rw [getElem?_set_ne hij] at hc
    exact .inr ⟨Ne.symm hij, hc⟩

/-- A record after one was added: an old one, or the new one. -/
theorem getElem?_concat_cases (h : (l ++ [a])[j]? = some c) :
    l[j]? = some c ∨ j = l.length ∧ c = a := by
  rw [getElem?_append] at h
  split_ifs at h with hj
  · exact .inl h
  · obtain ⟨hj', rfl⟩ := List.getElem?_eq_some_iff.mp h
    rw [length_singleton] at hj'
    exact .inr ⟨by omega, getElem_singleton _⟩

theorem mem_set_self (h : l[i]? = some a) : b ∈ l.set i b :=
  List.mem_set (List.getElem?_eq_some_iff.mp h).1 _

/-- What all records have is had by all after an update with one that has it. -/
theorem forall_mem_set (hl : ∀ c ∈ l, q c) (hb : q b) : ∀ c ∈ l.set i b, q c := by
  intro c hc
  rcases mem_or_eq_of_mem_set hc with hc | rfl
  · exact hl c hc
  · exact hb

/-- What some record has is had by some record after an update that keeps it. -/
theorem exists_mem_set (h : l[i]? = some a) (hab : q a → q b) (hq : ∃ c ∈ l, q c) :
    ∃ c ∈ l.set i b, q c := by
  obtain ⟨c, hc, hqc⟩ := hq
  obtain ⟨j, hj⟩ := mem_iff_getElem?.mp hc
  by_cases hij : i = j
  · subst hij
    obtain rfl : a = c := Option.some.inj (h.symm.trans hj)
    exact ⟨b, mem_set_self h, hab hqc⟩
  · have hj' : (l.set i b)[j]? = some c := (getElem?_set_ne hij).trans hj
    exact ⟨c, mem_of_getElem? hj', hqc⟩

/-- Replacing `a` by `b` exchanges their contributions to the count. -/
theorem countP_set_add (h : l[i]? = some a) :
    (l.set i b).countP p + (if p a then 1 else 0) = l.countP p + (if p b then 1 else 0) := by
  obtain ⟨hi, rfl⟩ := List.getElem?_eq_some_iff.mp h
  rw [countP_set hi]
  by_cases ha : p l[i]
  · have hpos : 0 < l.countP p := countP_pos_iff.mpr ⟨l[i], getElem_mem hi, ha⟩
    simp only [if_pos ha]
    omega
  · simp only [if_neg ha]
    omega

/-- A property that splits into two disjoint ones. -/
theorem countP_eq_add {q r : α → Bool} (h : ∀ x ∈ l, (p x ↔ q x ∨ r x) ∧ ¬(q x ∧ r x)) :
    l.countP p = l.countP q + l.countP r := by
  induction l with
  | nil => rfl
  | cons x l ih =>
    have hx := h x mem_cons_self
    have hrest := ih fun z hz => h z (mem_cons_of_mem _ hz)
    simp only [countP_cons, hrest]
    by_cases hq : q x
    · have hr : ¬r x := fun hr => hx.2 ⟨hq, hr⟩
      rw [if_pos (hx.1.mpr (.inl hq)), if_pos hq, if_neg hr]
      omega
    · by_cases hr : r x
      · rw [if_pos (hx.1.mpr (.inr hr)), if_neg hq, if_pos hr]
        omega
      · rw [if_neg (fun hp => (hx.1.mp hp).elim hq hr), if_neg hq, if_neg hr]
        omega

variable {f : α → ℕ}

/-- Replacing `a` by `b` exchanges their contributions to a sum. -/
theorem sum_map_set_add (h : l[i]? = some a) :
    ((l.set i b).map f).sum + f a = (l.map f).sum + f b := by
  induction l generalizing i with
  | nil => cases h
  | cons x l ih =>
    cases i with
    | zero =>
      obtain rfl : x = a := Option.some.inj h
      simp only [set_cons_zero, map_cons, sum_cons]
      omega
    | succ i =>
      have hrest := ih (i := i) h
      simp only [set_cons_succ, map_cons, sum_cons]
      omega

/-- Records that contribute at least one each are no more than the sum. -/
theorem countP_le_sum_map (h : ∀ x ∈ l, p x → 1 ≤ f x) : l.countP p ≤ (l.map f).sum := by
  induction l with
  | nil => exact Nat.le_refl 0
  | cons x l ih =>
    have hx := h x mem_cons_self
    have hrest := ih fun y hy => h y (mem_cons_of_mem _ hy)
    rw [countP_cons, map_cons, sum_cons]
    split_ifs with hpx
    · have := hx hpx
      omega
    · omega

theorem sum_map_eq_zero (h : ∀ x ∈ l, f x = 0) : (l.map f).sum = 0 := by
  induction l with
  | nil => rfl
  | cons x l ih =>
    rw [map_cons, sum_cons, h x mem_cons_self, ih fun y hy => h y (mem_cons_of_mem _ hy)]

end ListCount

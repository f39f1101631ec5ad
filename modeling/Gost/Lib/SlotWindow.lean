import Mathlib.Algebra.BigOperators.Fin

/-!
# Sliding windows over a ring of slots

Amounts arrive at times that do not decrease. A ring of `n` slots, indexed by the time modulo `n`,
keeps the total of the last time that used the slot; a slot is reset when a later time uses it.

A reader at the time `T` adds up the slots whose stamp is at least `T - n`. When an amount has just
arrived at `T`, this is the total of the amounts of the times after `T - n`: the slot that the time
`T - n` would use is the one that `T` has taken (`sum_recent`).
-/

namespace SlotWindow

open List

/-- The total of the amounts that arrived at the time `stamp`. -/
structure Slot (M : Type*) where
  stamp : ℕ
  total : M

variable {M : Type*} [AddCommMonoid M] {n : ℕ} [NeZero n]

theorem ofNat_add_self (t : ℕ) : Fin.ofNat n (t + n) = Fin.ofNat n t := by
  ext
  simp

/-- Times that are less than a turn apart have different slots. -/
theorem eq_of_ofNat_eq {t s : ℕ} (h : Fin.ofNat n t = Fin.ofNat n s) (hle : t ≤ s)
    (hlt : s < t + n) : t = s := by
  have hmod : t % n = s % n := by simpa [Fin.ext_iff] using h
  have hzero : (s - t) % n = 0 := Nat.sub_mod_eq_zero_of_mod_eq hmod.symm
  rw [Nat.mod_eq_of_lt (by omega)] at hzero
  omega

/-- An amount arrives at a time. -/
def record (slots : Fin n → Slot M) (time : ℕ) (amount : M) : Fin n → Slot M :=
  Function.update slots (Fin.ofNat n time)
    (if (slots (Fin.ofNat n time)).stamp = time then
      ⟨time, (slots (Fin.ofNat n time)).total + amount⟩
    else ⟨time, amount⟩)

/-- The amounts of a list of arrivals that satisfy a condition. -/
def arrived (p : ℕ → Prop) [DecidablePred p] (arrivals : List (ℕ × M)) : M :=
  (arrivals.map fun a => if p a.1 then a.2 else 0).sum

section Arrived

variable {p q : ℕ → Prop} [DecidablePred p] [DecidablePred q] {arrivals : List (ℕ × M)}

theorem arrived_concat (p : ℕ → Prop) [DecidablePred p] (arrivals : List (ℕ × M)) (a : ℕ × M) :
    arrived p (arrivals ++ [a]) = arrived p arrivals + if p a.1 then a.2 else 0 := by
  simp [arrived]

theorem arrived_congr (h : ∀ a ∈ arrivals, (p a.1 ↔ q a.1)) :
    arrived p arrivals = arrived q arrivals := by
  refine congrArg List.sum (map_congr_left fun a ha => ?_)
  simp [h a ha]

theorem arrived_eq_zero (h : ∀ a ∈ arrivals, ¬p a.1) : arrived p arrivals = 0 := by
  unfold arrived
  rw [sum_eq_zero]
  intro x hx
  obtain ⟨a, ha, rfl⟩ := mem_map.mp hx
  exact if_neg (h a ha)

/-- A time satisfies one of the conditions at most, so the totals add up. -/
theorem sum_arrived (p : Fin n → ℕ → Prop) [∀ r, DecidablePred (p r)] (arrivals : List (ℕ × M)) :
    ∑ r, arrived (fun t => p r t ∧ Fin.ofNat n t = r) arrivals =
      arrived (fun t => p (Fin.ofNat n t) t) arrivals := by
  induction arrivals using reverseRecOn with
  | nil => simp [arrived]
  | append_singleton arrivals a ih =>
    simp only [arrived_concat]
    rw [Finset.sum_add_distrib, ih, Finset.sum_eq_single (Fin.ofNat n a.1)]
    · simp
    · intro r _ hr
      exact if_neg fun h => hr h.2.symm
    · intro h
      exact absurd (Finset.mem_univ _) h

end Arrived

/-- What the slots hold after some arrivals, the last of them not after `now`. -/
structure Holds (slots : Fin n → Slot M) (arrivals : List (ℕ × M)) (now : ℕ) : Prop where
  total : ∀ r, (slots r).total =
    arrived (fun t => t = (slots r).stamp ∧ Fin.ofNat n t = r) arrivals
  latest : ∀ a ∈ arrivals, a.1 ≤ (slots (Fin.ofNat n a.1)).stamp
  stamp_le : ∀ r, (slots r).stamp ≤ now
  stamp_mod : ∀ r, Fin.ofNat n (slots r).stamp = r ∨ (slots r).stamp = 0

theorem holds_nil (now : ℕ) : Holds (fun _ : Fin n => (⟨0, 0⟩ : Slot M)) [] now where
  total _ := rfl
  latest := nofun
  stamp_le _ := Nat.zero_le _
  stamp_mod _ := .inr rfl

namespace Holds

variable {slots : Fin n → Slot M} {arrivals : List (ℕ × M)} {now : ℕ}

theorem record (h : Holds slots arrivals now) {time : ℕ} (htime : now ≤ time) (amount : M) :
    Holds (record slots time amount) (arrivals ++ [(time, amount)]) time := by
  have hself : SlotWindow.record slots time amount (Fin.ofNat n time) =
      ⟨time, arrived (fun t => t = time ∧ Fin.ofNat n t = Fin.ofNat n time) arrivals + amount⟩ := by
    rw [SlotWindow.record, Function.update_self]
    split_ifs with hstamp
    · rw [h.total, hstamp]
    · -- the slot was of an earlier time, so nothing has arrived at this one
      rw [arrived_eq_zero, zero_add]
      rintro a ha ⟨heq, -⟩
      have hlatest := h.latest a ha
      rw [heq] at hlatest
      exact hstamp (le_antisymm ((h.stamp_le _).trans htime) hlatest)
  have hother (r : Fin n) (hr : r ≠ Fin.ofNat n time) :
      SlotWindow.record slots time amount r = slots r := Function.update_of_ne hr _ _
  refine ⟨fun r => ?_, fun a ha => ?_, fun r => ?_, fun r => ?_⟩
  · rw [arrived_concat]
    by_cases hr : r = Fin.ofNat n time
    · rw [hr, hself, if_pos ⟨rfl, rfl⟩]
    · rw [hother r hr, h.total, if_neg fun hcond => hr hcond.2.symm, add_zero]
  · rcases mem_append.mp ha with ha | ha
    · by_cases hr : Fin.ofNat n a.1 = Fin.ofNat n time
      · rw [hr, hself]
        exact (h.latest a ha).trans ((h.stamp_le _).trans htime)
      · rw [hother _ hr]
        exact h.latest a ha
    · rw [mem_singleton.mp ha, hself]
  · by_cases hr : r = Fin.ofNat n time
    · rw [hr, hself]
    · rw [hother r hr]
      exact (h.stamp_le r).trans htime
  · by_cases hr : r = Fin.ofNat n time
    · rw [hr, hself]
      exact .inl rfl
    · rw [hother r hr]
      exact h.stamp_mod r

end Holds

/-- The slot that an amount arrives at has the stamp of that time. -/
theorem stamp_record (slots : Fin n → Slot M) (time : ℕ) (amount : M) :
    (record slots time amount (Fin.ofNat n time)).stamp = time := by
  rw [record, Function.update_self]
  split_ifs <;> rfl

/-- The slots whose stamp is at least `now - n`, when something has arrived at `now`, hold the
amounts of the times after `now - n`. -/
theorem Holds.sum_recent {slots : Fin n → Slot M} {arrivals : List (ℕ × M)} {now : ℕ}
    (h : Holds slots arrivals now) (hnow : (slots (Fin.ofNat n now)).stamp = now) :
    ∑ r, (if now ≤ (slots r).stamp + n then (slots r).total else 0) =
      arrived (fun t => now < t + n) arrivals := by
  calc ∑ r, (if now ≤ (slots r).stamp + n then (slots r).total else 0)
      = ∑ r, arrived (fun t => (now ≤ (slots r).stamp + n ∧ t = (slots r).stamp) ∧
          Fin.ofNat n t = r) arrivals := by
        refine Finset.sum_congr rfl fun r _ => ?_
        split_ifs with hr
        · rw [h.total]
          exact arrived_congr fun a _ => by simp [hr]
        · rw [arrived_eq_zero]
          rintro a - ⟨⟨hcond, -⟩, -⟩
          exact hr hcond
    _ = arrived (fun t => now ≤ (slots (Fin.ofNat n t)).stamp + n ∧
          t = (slots (Fin.ofNat n t)).stamp) arrivals :=
        sum_arrived (fun r t => now ≤ (slots r).stamp + n ∧ t = (slots r).stamp) arrivals
    _ = arrived (fun t => now < t + n) arrivals := by
        refine arrived_congr fun a ha => ?_
        have hlatest := h.latest a ha
        have hle := h.stamp_le (Fin.ofNat n a.1)
        constructor
        · rintro ⟨hcond, heq⟩
          rw [← heq] at hcond
          refine lt_of_le_of_ne hcond fun hedge => ?_
          -- one turn ago the same slot was used, which is that of `now`
          rw [hedge, ofNat_add_self, ← heq] at hnow
          exact NeZero.ne n (by omega)
        · intro hcond
          have heq : a.1 = (slots (Fin.ofNat n a.1)).stamp := by
            rcases h.stamp_mod (Fin.ofNat n a.1) with hmod | hzero
            · exact eq_of_ofNat_eq hmod.symm hlatest (lt_of_le_of_lt hle hcond)
            · omega
          exact ⟨by omega, heq⟩

end SlotWindow

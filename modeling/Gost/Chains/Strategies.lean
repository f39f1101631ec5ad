import Mathlib.Data.List.Rotate
import Gost.Lib.MachineInt

/-!
# Shares of the candidates

`roundRobinStrategy` and `randomStrategy` of `x/selector/strategy.go`, with `RandomWeighted` of
`weighted.go`. The zero value is `none`. The atomic addition or the lock orders the calls.
-/

namespace Chains

open List MachineInt

variable {α : Type}

/-! ## Round robin -/

/-- `roundRobinStrategy.Apply`, with a counter of 64 bits. -/
def roundRobin (counter : ℕ) (vs : List α) : Option α × ℕ :=
  if vs.length = 0 then (none, counter)
  else (vs[counter % vs.length]?, (counter + 1) % 2 ^ 64)

/-- What a sequence of calls selects. -/
def roundRobins (counter : ℕ) : List (List α) → List (Option α)
  | [] => []
  | vs :: calls => (roundRobin counter vs).1 :: roundRobins (roundRobin counter vs).2 calls

theorem roundRobins_replicate {vs : List α} (hvs : vs.length ≠ 0) {k counter : ℕ}
    (hwrap : counter + k < 2 ^ 64) :
    roundRobins counter (replicate k vs) =
      (range k).map fun j => vs[(j + counter) % vs.length]? := by
  induction k generalizing counter with
  | zero => rfl
  | succ k ih =>
    have hlt : counter + 1 < 2 ^ 64 := by omega
    rw [replicate_succ, roundRobins, roundRobin, if_neg hvs, Nat.mod_eq_of_lt hlt, ih (by omega),
      range_succ_eq_map, map_cons, map_map]
    simp [Function.comp_def, Nat.add_right_comm, Nat.add_assoc]

/-- As many calls as there are candidates select each of them once, in their order, beginning where
the counter is. -/
theorem roundRobins_eq_rotate (vs : List α) {counter : ℕ} (hwrap : counter + vs.length < 2 ^ 64) :
    roundRobins counter (replicate vs.length vs) = (vs.rotate counter).map some := by
  by_cases hvs : vs.length = 0
  · rw [length_eq_zero_iff.mp hvs]
    rfl
  · rw [roundRobins_replicate hvs hwrap]
    refine ext_getElem (by simp) fun j hj hj' => ?_
    have hlt : (j + counter) % vs.length < vs.length := Nat.mod_lt _ (by omega)
    simp [getElem_rotate, hlt]

theorem roundRobins_three :
    roundRobins 5 (replicate 3 [10, 20, 30]) = [some 30, some 10, some 20] :=
  roundRobins_eq_rotate [10, 20, 30] (by decide)

/-! ## Random choice by weight -/

/-- `RandomWeighted`. -/
structure RandomWeighted (α : Type) where
  items : List (α × ℕ) := []
  sum : ℤ := 0

namespace RandomWeighted

def add (s : RandomWeighted α) (item : α) (weight : ℕ) : RandomWeighted α where
  items := s.items ++ [(item, weight)]
  sum := int64 (s.sum + weight)

/-- The loop of `Next`. -/
def nextLoop (weight : ℤ) : List (α × ℕ) → Option α
  | [] => none
  | (item, w) :: items =>
    if int64 (weight - w) ≤ 0 then some item else nextLoop (int64 (weight - w)) items

/-- `Next`, with the value of `Intn(sum)`. -/
def next (s : RandomWeighted α) (draw : ℕ) : Option α :=
  if s.items = [] ∨ s.sum ≤ 0 then none
  else (nextLoop (int64 (draw + 1)) s.items).or (s.items.getLast?.map Prod.fst)

end RandomWeighted

/-- The weight of `v` with `weight v` in its metadata. -/
def effectiveWeight (weight : α → ℤ) (v : α) : ℕ := if weight v ≤ 0 then 1 else (weight v).toNat

/-- `randomStrategy.Apply`. -/
def random (weight : α → ℤ) (vs : List α) (draw : ℕ) : Option α :=
  (vs.foldl (fun s v => s.add v (effectiveWeight weight v)) ({} : RandomWeighted α)).next draw

variable (w : α → ℕ)

theorem foldl_add (vs : List α) (s : RandomWeighted α) (hs : 0 ≤ s.sum)
    (hsum : s.sum + (vs.map w).sum < 2 ^ 63) :
    vs.foldl (fun s v => s.add v (w v)) s =
      ⟨s.items ++ vs.map fun v => (v, w v), s.sum + (vs.map w).sum⟩ := by
  induction vs generalizing s with
  | nil => simp
  | cons v vs ih =>
    rw [map_cons, sum_cons, Nat.cast_add] at hsum
    have hadd : s.add v (w v) = ⟨s.items ++ [(v, w v)], s.sum + w v⟩ := by
      rw [RandomWeighted.add, int64_of_nonneg (by omega) (by omega)]
    rw [foldl_cons, hadd, ih _ (by dsimp only; omega) (by dsimp only; omega)]
    simp [add_assoc]

/-- The loop finds the candidate in a list with each of them as often as its weight says. -/
theorem nextLoop_eq (vs : List α) {d : ℕ} (hsum : (vs.map w).sum < 2 ^ 63) (hd : d + 1 < 2 ^ 63) :
    RandomWeighted.nextLoop (d + 1) (vs.map fun v => (v, w v)) =
      (vs.flatMap fun v => replicate (w v) v)[d]? := by
  induction vs generalizing d with
  | nil => rfl
  | cons v vs ih =>
    rw [map_cons, sum_cons] at hsum
    rw [map_cons, RandomWeighted.nextLoop, int64_of_range (by omega) (by omega), flatMap_cons]
    by_cases hlt : d < w v
    · rw [if_pos (by omega)]
      simp [getElem?_append, hlt]
    · rw [if_neg (by omega), getElem?_append_right (by simpa using hlt), length_replicate,
        ← ih (by omega) (by omega), Nat.cast_sub (by omega)]
      congr 1
      omega

end Chains

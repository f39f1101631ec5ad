import Mathlib.Tactic.NormNum
import Mathlib.Data.Int.Basic

/-!
# Integers of 64 and 32 bits

Machine integers as integers that are wrapped after each operation. In range, wrapping changes
nothing.
-/

namespace MachineInt

/-- The value of a signed integer of 64 bits. -/
def int64 (x : ℤ) : ℤ := (x + 2 ^ 63) % 2 ^ 64 - 2 ^ 63

theorem int64_of_range {x : ℤ} (hlower : -2 ^ 63 ≤ x) (hupper : x < 2 ^ 63) : int64 x = x := by
  rw [int64, Int.emod_eq_of_lt (by omega) (by omega), Int.add_sub_cancel]

theorem int64_of_nonneg {x : ℤ} (hlower : 0 ≤ x) (hupper : x < 2 ^ 63) : int64 x = x :=
  int64_of_range (le_trans (by norm_num) hlower) hupper

/-- The value of a signed integer of 32 bits. -/
def int32 (x : ℤ) : ℤ := (x + 2 ^ 31) % 2 ^ 32 - 2 ^ 31

theorem int32_of_range {x : ℤ} (hlower : -2 ^ 31 ≤ x) (hupper : x < 2 ^ 31) : int32 x = x := by
  rw [int32, Int.emod_eq_of_lt (by omega) (by omega), Int.add_sub_cancel]

theorem int64_lt (x : ℤ) : int64 x < 2 ^ 63 := by
  unfold int64
  omega

end MachineInt

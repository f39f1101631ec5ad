import Mathlib.Algebra.BigOperators.Group.List.Basic
import Mathlib.Algebra.GroupWithZero.Nat
import Mathlib.Algebra.Order.Group.Int
import Mathlib.Algebra.Order.Group.Unbundled.Basic
import Gost.Lib.TransitionSystem

/-!
# Token buckets

A bucket has at most `cap` tokens. It starts full, is refilled as time goes by, and a send takes as
many tokens as it has bytes. If refilling twice never gives more than refilling once for both times
together, then the bytes sent within an interval of length `d` are at most `cap + refill d`
(`sentIn_le`): a full bucket at the first send of the interval, and what is refilled from then on.
-/

namespace TokenBucket

open TransitionSystem

/-- The tokens after the last send, and its time. -/
structure Bucket where
  tokens : ℤ
  last : ℤ
deriving DecidableEq, Repr

/-- How many tokens come back in a time. -/
structure IsRefill (refill : ℤ → ℤ) : Prop where
  nonneg : ∀ x, 0 ≤ x → 0 ≤ refill x
  add_le : ∀ x y, 0 ≤ x → 0 ≤ y → refill x + refill y ≤ refill (x + y)

theorem IsRefill.mono {refill : ℤ → ℤ} (h : IsRefill refill) {x y : ℤ} (hx : 0 ≤ x) (hxy : x ≤ y) :
    refill x ≤ refill y := by
  have hrest := h.nonneg (y - x) (by omega)
  have hadd := h.add_le x (y - x) hx (by omega)
  rw [add_sub_cancel] at hadd
  omega

/-- A constant rate, rounded down. -/
theorem isRefill_rate {rate unit : ℤ} (hrate : 0 ≤ rate) (hunit : 0 < unit) :
    IsRefill fun x => rate * x / unit where
  nonneg x hx := Int.ediv_nonneg (Int.mul_nonneg hrate hx) hunit.le
  add_le x y _ _ := by
    rw [Int.le_ediv_iff_mul_le hunit, Int.add_mul, Int.mul_add]
    exact Int.add_le_add (Int.ediv_mul_le _ hunit.ne') (Int.ediv_mul_le _ hunit.ne')

variable {a d : ℤ} {sends : List (ℤ × ℕ)} {b : Bucket}

section Bucket

variable (cap : ℤ) (refill : ℤ → ℤ)

/-- The tokens at a time; a bucket that was never used is full. -/
def level : Option Bucket → ℤ → ℤ
  | none, _ => cap
  | some b, now => min cap (b.tokens + refill (now - b.last))

/-- A send of some bytes at a time, if there are tokens for them. -/
def step (s : Option Bucket) (send : ℤ × ℕ) : Option (Option Bucket) :=
  if (∀ b ∈ s, b.last ≤ send.1) ∧ send.2 ≤ level cap refill s send.1 then
    some (some ⟨level cap refill s send.1 - send.2, send.1⟩)
  else none

/-- The bytes that are sent from the time `a` on, up to `a + d`. -/
def sentIn (a d : ℤ) (sends : List (ℤ × ℕ)) : ℕ :=
  (sends.map fun send => if a ≤ send.1 ∧ send.1 ≤ a + d then send.2 else 0).sum

variable {cap refill} {s s' : Option Bucket}

theorem step_eq_some {send : ℤ × ℕ} (h : step cap refill s send = some s') :
    (∀ b ∈ s, b.last ≤ send.1) ∧ send.2 ≤ level cap refill s send.1 ∧
      s' = some ⟨level cap refill s send.1 - send.2, send.1⟩ := by
  unfold step at h
  split_ifs at h with hcond
  exact ⟨hcond.1, hcond.2, (Option.some.inj h).symm⟩

theorem level_le_cap (s : Option Bucket) (now : ℤ) : level cap refill s now ≤ cap := by
  cases s with
  | none => exact le_rfl
  | some b => exact min_le_left _ _

/-- More tokens after the last send are more tokens at any time. -/
theorem level_mono {tokens tokens' : ℤ} (h : tokens ≤ tokens') (last now : ℤ) :
    level cap refill (some ⟨tokens, last⟩) now ≤ level cap refill (some ⟨tokens', last⟩) now :=
  min_le_min_left cap (Int.add_le_add_right h _)

theorem sentIn_cons (a d : ℤ) (send : ℤ × ℕ) (sends : List (ℤ × ℕ)) :
    sentIn a d (send :: sends) =
      (if a ≤ send.1 ∧ send.1 ≤ a + d then send.2 else 0) + sentIn a d sends := by
  simp [sentIn]

/-- Times do not decrease, so nothing is sent in an interval that is over. -/
theorem sentIn_eq_zero (hb : a + d < b.last)
    (hrun : run (step cap refill) (some b) sends = some s') : sentIn a d sends = 0 := by
  induction sends generalizing b with
  | nil => rfl
  | cons send sends ih =>
    obtain ⟨s₁, hstep, hrun⟩ := run_cons_eq_some.mp hrun
    obtain ⟨htime, -, rfl⟩ := step_eq_some hstep
    have hlast : a + d < send.1 := lt_of_lt_of_le hb (htime b rfl)
    rw [sentIn_cons, if_neg (by omega), ih hlast hrun, zero_add]

/-- After a send, an interval gets at most the tokens that are left and what is refilled until its
end. -/
theorem sentIn_le_tokens (hrefill : IsRefill refill) (hb : b.last ≤ a + d) (htokens : 0 ≤ b.tokens)
    (hrun : run (step cap refill) (some b) sends = some s') :
    (sentIn a d sends : ℤ) ≤ b.tokens + refill (a + d - b.last) := by
  induction sends generalizing b with
  | nil => exact Int.add_nonneg htokens (hrefill.nonneg _ (by omega))
  | cons send sends ih =>
    obtain ⟨s₁, hstep, hrun⟩ := run_cons_eq_some.mp hrun
    obtain ⟨htime, hsize, rfl⟩ := step_eq_some hstep
    have htime := htime b rfl
    rw [sentIn_cons]
    by_cases hend : send.1 ≤ a + d
    · have hrest := ih hend (sub_nonneg.mpr hsize) hrun
      have hlevel : level cap refill (some b) send.1 ≤ b.tokens + refill (send.1 - b.last) :=
        min_le_right _ _
      -- the refills before and after the send
      have hadd := hrefill.add_le (send.1 - b.last) (a + d - send.1) (by omega) (by omega)
      rw [show send.1 - b.last + (a + d - send.1) = a + d - b.last by omega] at hadd
      split_ifs <;> dsimp only at hrest <;> omega
    · rw [if_neg fun h => hend h.2, sentIn_eq_zero (not_le.mp hend) hrun, zero_add]
      exact Int.add_nonneg htokens (hrefill.nonneg _ (by omega))

/-- The bytes sent within any interval of length `d`. -/
theorem sentIn_le (hrefill : IsRefill refill) (hcap : 0 ≤ cap) {a d : ℤ} (hd : 0 ≤ d)
    (hrun : run (step cap refill) s sends = some s') : (sentIn a d sends : ℤ) ≤ cap + refill d := by
  have hnonneg := hrefill.nonneg d hd
  induction sends generalizing s with
  | nil => exact Int.add_nonneg hcap hnonneg
  | cons send sends ih =>
    obtain ⟨s₁, hstep, hrun⟩ := run_cons_eq_some.mp hrun
    obtain ⟨-, hsize, rfl⟩ := step_eq_some hstep
    rw [sentIn_cons]
    split_ifs with hin
    · -- the first send of the interval finds a bucket that is at most full
      have hrest := sentIn_le_tokens hrefill hin.2 (sub_nonneg.mpr hsize) hrun
      have hlevel : level cap refill s send.1 ≤ cap := level_le_cap s send.1
      have hmono : refill (a + d - send.1) ≤ refill d := hrefill.mono (by omega) (by omega)
      dsimp only at hrest
      omega
    · rw [zero_add]
      exact ih hrun

end Bucket

end TokenBucket

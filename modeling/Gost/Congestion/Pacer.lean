import Gost.Lib.MachineInt

/-!
# The pacer of the congestion controllers

`x/internal/util/congestion/common/pacer.go`: a `Pacer` has a budget of bytes that a sent packet
takes from and time gives back. `timeUntilSend` says when to wake up for the next packet, `budget`
whether it may be sent then.

The timer rounds up and the budget rounds down, so at the promised time there is budget for a
datagram (`budget_at_wake_up`), as long as the product of bandwidth and elapsed time is a signed
integer of 64 bits. The guard against overflows sees a sum that is negative only: a product that
wraps to a small number leaves a late wake-up without budget (`no_budget_after_idle`).

Times are `monotime.Time`, in nanoseconds, with 0 for "nothing sent yet". The bandwidth is what
`getBandwidth` returns, in bytes per second.
-/

namespace Congestion

open MachineInt

/-- `congestion.InitialPacketSize`. -/
def initialPacketSize : ℕ := 1280

/-- `congestion.MinPacingDelay`, a millisecond. -/
def minPacingDelay : ℕ := 1000000

/-- `maxBurstPackets`. -/
def maxBurstPackets : ℕ := 10

/-- `maxBurstPacingDelayMultiplier`. -/
def maxBurstPacingDelayMultiplier : ℕ := 4

/-- The budget that stands for a sum that overflowed, `1<<62 - 1`. -/
def overflowBudget : ℤ := 2 ^ 62 - 1

/-- `Pacer`. The budget is an `int64` that no operation makes negative. -/
structure Pacer where
  budgetAtLastSent : ℤ
  maxDatagramSize : ℕ
  lastSentTime : ℤ
  budget_nonneg : 0 ≤ budgetAtLastSent
  budget_lt : budgetAtLastSent < 2 ^ 63
deriving DecidableEq

/-- `NewPacer`. -/
def newPacer : Pacer where
  budgetAtLastSent := maxBurstPackets * initialPacketSize
  maxDatagramSize := initialPacketSize
  lastSentTime := 0
  budget_nonneg := by decide
  budget_lt := by decide

/-- `bandwidthForPacer` of the BBR sender, whose pacing rate is `bps` bytes per second. -/
def bandwidthForPacer (bps : ℕ) : ℕ :=
  let minBps := 65536
  if bps < minBps then minBps else bps

theorem bandwidthForPacer_pos (bps : ℕ) : 0 < bandwidthForPacer bps := by
  dsimp only [bandwidthForPacer]
  split_ifs <;> omega

namespace Pacer

variable (bandwidth : ℕ) (p : Pacer)

/-- `maxBurstSize`. -/
def maxBurstSize : ℤ :=
  max (int64 (maxBurstPacingDelayMultiplier * minPacingDelay * bandwidth) |>.tdiv 1000000000)
    (int64 (maxBurstPackets * p.maxDatagramSize))

/-- The sum of `Budget`, before the guard against overflows. -/
def refilled (now : ℤ) : ℤ :=
  int64 (p.budgetAtLastSent +
    (int64 (bandwidth * int64 (now - p.lastSentTime))).tdiv 1000000000)

/-- `Budget`. -/
def budget (now : ℤ) : ℤ :=
  if p.lastSentTime = 0 then p.maxBurstSize bandwidth
  else
    let sum := p.refilled bandwidth now
    min (p.maxBurstSize bandwidth) (if sum < 0 then overflowBudget else sum)

theorem maxBurstSize_lt : p.maxBurstSize bandwidth < 2 ^ 63 := by
  apply max_lt
  · have hlt := int64_lt (maxBurstPacingDelayMultiplier * minPacingDelay * bandwidth)
    rw [Int.tdiv_eq_ediv]
    split_ifs
    · omega
    · rw [Int.sign_eq_one_of_pos (by decide)]
      omega
  · exact int64_lt _

theorem budget_le_maxBurstSize (now : ℤ) : p.budget bandwidth now ≤ p.maxBurstSize bandwidth := by
  unfold budget
  split_ifs with hzero
  · exact le_rfl
  · exact min_le_left _ _

/-- `SentPacket`. -/
def sentPacket (sendTime : ℤ) (size : ℕ) : Pacer :=
  let budget := p.budget bandwidth sendTime
  { p with
    budgetAtLastSent := if budget < size then 0 else budget - size
    lastSentTime := sendTime
    budget_nonneg := by split_ifs <;> omega
    budget_lt := by
      have hburst := p.budget_le_maxBurstSize bandwidth sendTime
      have hlt := p.maxBurstSize_lt bandwidth
      split_ifs <;> omega }

/-- `SetMaxDatagramSize`. -/
def setMaxDatagramSize (s : ℕ) : Pacer := { p with maxDatagramSize := s }

/-- `TimeUntilSend`, with `none` for the division by a bandwidth of zero, which panics. -/
def timeUntilSend : Option ℤ :=
  if p.maxDatagramSize ≤ p.budgetAtLastSent then some 0
  else if bandwidth = 0 then none
  else
    let diff := 1000000000 * (p.maxDatagramSize - p.budgetAtLastSent).toNat % 2 ^ 64
    let d := diff / bandwidth + (if 0 < diff % bandwidth then 1 else 0)
    some (int64 (p.lastSentTime + max (minPacingDelay : ℤ) (int64 d)))

variable {bandwidth p}

/-- Ten datagrams are within the burst. -/
theorem le_maxBurstSize (hmds : 10 * p.maxDatagramSize < 2 ^ 63) :
    10 * (p.maxDatagramSize : ℤ) ≤ p.maxBurstSize bandwidth := by
  have hfits : int64 (maxBurstPackets * p.maxDatagramSize) = 10 * p.maxDatagramSize :=
    int64_of_nonneg (by positivity) (by exact_mod_cast hmds)
  rw [← hfits]
  exact le_max_right _ _

/-! ## The budget when the product does not overflow -/

/-- The time since the last packet, if it is not negative and its product with the bandwidth is an
`int64`. -/
def Elapsed (bandwidth : ℕ) (p : Pacer) (now : ℤ) : Prop :=
  p.lastSentTime ≤ now ∧ bandwidth * (now - p.lastSentTime) < 2 ^ 63

instance (now : ℤ) : Decidable (Elapsed bandwidth p now) :=
  inferInstanceAs (Decidable (_ ∧ _))

/-- The budget and what came back since, without overflow. -/
def exactSum (bandwidth : ℕ) (p : Pacer) (now : ℤ) : ℤ :=
  p.budgetAtLastSent + bandwidth * (now - p.lastSentTime) / 1000000000

variable {now : ℤ}

theorem Elapsed.product (h : Elapsed bandwidth p now) :
    int64 (bandwidth * int64 (now - p.lastSentTime)) = bandwidth * (now - p.lastSentTime) := by
  obtain ⟨htime, hproduct⟩ := h
  have helapsed : 0 ≤ now - p.lastSentTime := by omega
  rcases Nat.eq_zero_or_pos bandwidth with rfl | hpos
  · simp [int64]
  · -- with a positive bandwidth the time itself is not more than the product
    have hle : now - p.lastSentTime ≤ bandwidth * (now - p.lastSentTime) :=
      le_mul_of_one_le_left helapsed (by exact_mod_cast hpos)
    rw [int64_of_nonneg helapsed (by omega), int64_of_nonneg (by positivity) hproduct]

theorem Elapsed.quotient_nonneg (h : Elapsed bandwidth p now) :
    0 ≤ bandwidth * (now - p.lastSentTime) / 1000000000 :=
  Int.ediv_nonneg (Int.mul_nonneg (Int.natCast_nonneg _) (sub_nonneg.mpr h.1)) (by decide)

/-- Only the sum can overflow then, and the guard finds that. -/
theorem Elapsed.budget_eq (h : Elapsed bandwidth p now) (hsent : p.lastSentTime ≠ 0) :
    p.budget bandwidth now = min (p.maxBurstSize bandwidth)
      (if p.exactSum bandwidth now < 2 ^ 63 then p.exactSum bandwidth now else overflowBudget) := by
  have hnonneg := h.quotient_nonneg
  have hrefilled : p.refilled bandwidth now = int64 (p.exactSum bandwidth now) := by
    rw [refilled, h.product, Int.tdiv_eq_ediv_of_nonneg (by have := h.1; positivity), exactSum]
  have hsum : 0 ≤ p.exactSum bandwidth now := Int.add_nonneg p.budget_nonneg hnonneg
  have hbound : p.exactSum bandwidth now < 2 ^ 64 := by
    have hproduct := h.2
    have hbudget := p.budget_lt
    unfold exactSum
    omega
  rw [budget, if_neg hsent, hrefilled]
  dsimp only
  congr 1
  by_cases hfits : p.exactSum bandwidth now < 2 ^ 63
  · rw [int64_of_nonneg hsum hfits, if_neg (by omega), if_pos hfits]
  · have hneg : int64 (p.exactSum bandwidth now) < 0 := by
      unfold int64
      omega
    rw [if_pos hneg, if_neg hfits]

/-! ## The timer -/

/-- The quotient of `TimeUntilSend`, rounded up. -/
theorem roundedUp_bounds (diff : ℕ) (hpos : 0 < bandwidth) :
    let d := diff / bandwidth + (if 0 < diff % bandwidth then 1 else 0)
    diff ≤ bandwidth * d ∧ d ≤ diff := by
  have hdivmod := Nat.div_add_mod diff bandwidth
  have hlt := Nat.mod_lt diff hpos
  have hquot := Nat.le_mul_of_pos_left (diff / bandwidth) hpos
  dsimp only
  rw [Nat.mul_add]
  split_ifs with hrem <;> omega

/-- The timer is a wait of at least a millisecond, in which what the budget lacks comes back. -/
theorem timeUntilSend_wait (hpos : 0 < bandwidth) (hbudget : p.budgetAtLastSent < p.maxDatagramSize)
    (hstart : 0 ≤ p.lastSentTime)
    (htimer : p.lastSentTime + 1000000000 * p.maxDatagramSize < 2 ^ 63) :
    ∃ wait : ℤ, 0 < wait ∧ p.timeUntilSend bandwidth = some (p.lastSentTime + wait) ∧
      1000000000 * (p.maxDatagramSize - p.budgetAtLastSent) ≤ bandwidth * wait := by
  have hnonneg := p.budget_nonneg
  obtain ⟨missing, hmissing⟩ : ∃ n : ℕ, (p.maxDatagramSize : ℤ) - p.budgetAtLastSent = n :=
    Int.eq_ofNat_of_zero_le (by omega)
  have hdiff : 1000000000 * missing % 2 ^ 64 = 1000000000 * missing :=
    Nat.mod_eq_of_lt (by omega)
  obtain ⟨hceil, hle⟩ := roundedUp_bounds (1000000000 * missing) hpos
  generalize hd : 1000000000 * missing / bandwidth +
    (if 0 < 1000000000 * missing % bandwidth then 1 else 0) = d at hceil hle
  have hint : int64 d = d := int64_of_nonneg (by omega) (by omega)
  have hdelay : (minPacingDelay : ℤ) = 1000000 := rfl
  have hwait : max (minPacingDelay : ℤ) d ≤ 1000000000 * missing := by
    apply max_le
    · rw [hdelay]
      omega
    · exact_mod_cast hle
  have hwait_nonneg : 0 ≤ max (minPacingDelay : ℤ) d := le_max_of_le_right (Int.natCast_nonneg d)
  refine ⟨max minPacingDelay d, lt_max_of_lt_left (by rw [hdelay]; decide), ?_, ?_⟩
  · rw [timeUntilSend, if_neg (by omega), if_neg (by omega), hmissing, Int.toNat_natCast]
    dsimp only
    rw [hdiff, hd, hint, int64_of_nonneg]
    · exact Int.add_nonneg hstart hwait_nonneg
    · omega
  · rw [hmissing]
    calc (1000000000 * missing : ℤ) ≤ bandwidth * d := by exact_mod_cast hceil
      _ ≤ bandwidth * max (minPacingDelay : ℤ) d :=
        Int.mul_le_mul_of_nonneg_left (le_max_right _ _) (Int.natCast_nonneg _)

/-- Enough budget, if the exact sum is enough. -/
theorem Elapsed.le_budget (h : Elapsed bandwidth p now) (hmds : 10 * p.maxDatagramSize < 2 ^ 63)
    (hsum : p.maxDatagramSize ≤ p.exactSum bandwidth now) :
    p.maxDatagramSize ≤ p.budget bandwidth now := by
  have hburst : 10 * (p.maxDatagramSize : ℤ) ≤ p.maxBurstSize bandwidth := le_maxBurstSize hmds
  by_cases hsent : p.lastSentTime = 0
  · rw [budget, if_pos hsent]
    omega
  · rw [h.budget_eq hsent]
    apply le_min
    · omega
    · split_ifs
      · exact hsum
      · unfold overflowBudget
        omega

/-- At the time of the timer, or at any time since the last packet where there is none, there is
budget for a datagram, if neither the timer nor the product of bandwidth and time overflows. -/
theorem budget_at_wake_up (p : Pacer) (hpos : 0 < bandwidth) (hstart : 0 ≤ p.lastSentTime)
    (htimer : p.lastSentTime + 1000000000 * p.maxDatagramSize < 2 ^ 63) :
    ∃ wake, p.timeUntilSend bandwidth = some wake ∧
      ∀ now, (if wake = 0 then p.lastSentTime ≤ now else wake ≤ now) →
        bandwidth * (now - p.lastSentTime) < 2 ^ 63 →
          p.maxDatagramSize ≤ p.budget bandwidth now := by
  have hmds : 10 * p.maxDatagramSize < 2 ^ 63 := by omega
  by_cases hbudget : p.maxDatagramSize ≤ p.budgetAtLastSent
  · -- no timer: the budget of the last packet is enough already
    refine ⟨0, if_pos hbudget, fun now htime hproduct => ?_⟩
    have helapsed : Elapsed bandwidth p now := ⟨htime, hproduct⟩
    apply helapsed.le_budget hmds
    exact le_add_of_le_of_nonneg hbudget helapsed.quotient_nonneg
  · obtain ⟨wait, hwait, hwake, hrefill⟩ :=
      timeUntilSend_wait hpos (not_le.mp hbudget) hstart htimer
    refine ⟨_, hwake, fun now htime hproduct => ?_⟩
    rw [if_neg (by omega)] at htime
    have helapsed : Elapsed bandwidth p now := ⟨by omega, hproduct⟩
    apply helapsed.le_budget hmds
    -- what came back since the last packet is at least what came back in the wait
    have hlater : bandwidth * wait ≤ bandwidth * (now - p.lastSentTime) :=
      Int.mul_le_mul_of_nonneg_left (by omega) (Int.natCast_nonneg _)
    unfold exactSum
    omega

/-- A pacer of 100 Mbit/s that has sent 39 packets at once. -/
def afterBurst : Pacer :=
  (List.replicate 39 1280).foldl
    (fun p size => p.sentPacket (bandwidthForPacer 12500000) 1 size) newPacer

/-- Its timer is a millisecond, and a second later there is budget. -/
theorem budget_after_burst :
    afterBurst.timeUntilSend (bandwidthForPacer 12500000) = some 1000001 ∧
      afterBurst.maxDatagramSize ≤
        afterBurst.budget (bandwidthForPacer 12500000) 1000000001 := by
  have htimer : afterBurst.timeUntilSend (bandwidthForPacer 12500000) = some 1000001 := by
    decide +kernel
  refine ⟨htimer, ?_⟩
  obtain ⟨wake, hwake, hbudget⟩ := budget_at_wake_up afterBurst (bandwidthForPacer_pos 12500000)
    (by decide +kernel) (by decide +kernel)
  obtain rfl : wake = 1000001 := Option.some.inj (hwake.symm.trans htimer)
  exact hbudget 1000000001 (by decide) (by decide +kernel)

/-- 25 minutes later the product has wrapped to almost nothing, and long after the timer there is
no budget for a datagram. -/
theorem no_budget_after_idle :
    afterBurst.timeUntilSend (bandwidthForPacer 12500000) = some 1000001 ∧
      (1000001 : ℤ) ≤ 1475739525898 ∧
      afterBurst.budget (bandwidthForPacer 12500000) 1475739525898 = 80 ∧
      afterBurst.maxDatagramSize = 1280 := by
  decide +kernel

end Pacer

end Congestion

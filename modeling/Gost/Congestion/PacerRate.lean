import Gost.Congestion.Pacer
import Gost.Lib.TokenBucket

/-!
# The rate of the pacer

A sender that asks the pacer before each packet sends at most a burst and what the bandwidth gives,
in any interval of time: `sent_in_interval_le`. The pacer refines a token bucket
(`BoundedBy.simulates`), whose cap is `maxBurstSize` and whose refill is the bandwidth, rounded
down. It never has more budget than the bucket has tokens, and has less where the guard against
overflows steps in.

A packet that is sent at time 0 is not counted, since that time stands for "nothing sent yet", and
the budget stays full (`burst_at_time_zero`). `monotime.Now` never returns it.
-/

namespace Congestion

namespace Pacer

open TransitionSystem TokenBucket

/-- A packet of at most a datagram, sent not before the last one and with the budget for a datagram,
where the product of bandwidth and time does not overflow. -/
def pacedStep (bandwidth : ℕ) (p : Pacer) (send : ℤ × ℕ) : Option Pacer :=
  if (p.lastSentTime ≠ 0 → Elapsed bandwidth p send.1) ∧ send.2 ≤ p.maxDatagramSize ∧
      p.maxDatagramSize ≤ p.budget bandwidth send.1 then
    some (p.sentPacket bandwidth send.1 send.2)
  else none

/-- What the bandwidth gives back in a time in nanoseconds. -/
def refill (bandwidth : ℕ) (elapsed : ℤ) : ℤ := bandwidth * elapsed / 1000000000

theorem isRefill_refill (bandwidth : ℕ) : IsRefill (refill bandwidth) :=
  isRefill_rate (Int.natCast_nonneg bandwidth) (by decide)

/-- The pacer has nothing sent if the bucket has not, and at most the tokens of the bucket. -/
def BoundedBy (p : Pacer) : Option Bucket → Prop
  | none => p.lastSentTime = 0
  | some b => p.lastSentTime ≠ 0 ∧ p.lastSentTime = b.last ∧ p.budgetAtLastSent ≤ b.tokens

variable {bandwidth : ℕ} {p p' : Pacer} {s : Option Bucket}

theorem exists_boundedBy (p : Pacer) : ∃ s, p.BoundedBy s := by
  by_cases hsent : p.lastSentTime = 0
  · exact ⟨none, hsent⟩
  · exact ⟨some ⟨p.budgetAtLastSent, p.lastSentTime⟩, hsent, rfl, le_rfl⟩

variable {send : ℤ × ℕ} {now : ℤ}

theorem pacedStep_eq_some (h : pacedStep bandwidth p send = some p') :
    (p.lastSentTime ≠ 0 → Elapsed bandwidth p send.1) ∧
      send.2 ≤ p.budget bandwidth send.1 ∧ p' = p.sentPacket bandwidth send.1 send.2 := by
  unfold pacedStep at h
  split_ifs at h with hguard
  obtain ⟨helapsed, hsize, hbudget⟩ := hguard
  exact ⟨helapsed, by omega, (Option.some.inj h).symm⟩

/-- The budget is never more than the exact sum. -/
theorem Elapsed.budget_le (h : Elapsed bandwidth p now) (hsent : p.lastSentTime ≠ 0) :
    p.budget bandwidth now ≤ min (p.maxBurstSize bandwidth) (p.exactSum bandwidth now) := by
  rw [h.budget_eq hsent]
  split_ifs with hfits
  · exact le_rfl
  · -- the sum overflowed, and is more than what stands for it
    unfold overflowBudget
    omega

theorem BoundedBy.budget_le_level (hsim : p.BoundedBy s)
    (helapsed : p.lastSentTime ≠ 0 → Elapsed bandwidth p now) :
    p.budget bandwidth now ≤ level (p.maxBurstSize bandwidth) (refill bandwidth) s now := by
  match s, hsim with
  | none, hzero => exact p.budget_le_maxBurstSize bandwidth now
  | some ⟨tokens, last⟩, ⟨hsent, hlast, htokens⟩ =>
    subst hlast
    calc p.budget bandwidth now
        ≤ level (p.maxBurstSize bandwidth) (refill bandwidth)
            (some ⟨p.budgetAtLastSent, p.lastSentTime⟩) now := (helapsed hsent).budget_le hsent
      _ ≤ _ := level_mono htokens _ _

/-- Each packet that the pacer lets through, the bucket lets through. -/
theorem BoundedBy.step (hsim : p.BoundedBy s) (hzero : send.1 ≠ 0)
    (hstep : pacedStep bandwidth p send = some p') :
    p'.maxDatagramSize = p.maxDatagramSize ∧
      ∃ s', TokenBucket.step (p.maxBurstSize bandwidth) (refill bandwidth) s send = some s' ∧
        p'.BoundedBy s' := by
  obtain ⟨helapsed, hsize, rfl⟩ := pacedStep_eq_some hstep
  have hlevel := hsim.budget_le_level helapsed
  have htime : ∀ b ∈ s, b.last ≤ send.1 := by
    rintro b rfl
    obtain ⟨hsent, hlast, -⟩ := hsim
    exact hlast ▸ (helapsed hsent).1
  refine ⟨rfl, _, if_pos ⟨htime, hsize.trans hlevel⟩, hzero, rfl, ?_⟩
  show (if p.budget bandwidth send.1 < send.2 then 0 else p.budget bandwidth send.1 - send.2) ≤ _
  rw [if_neg (not_lt.mpr hsize)]
  exact Int.sub_le_sub_right hlevel _

theorem maxBurstSize_congr (h : p'.maxDatagramSize = p.maxDatagramSize) :
    p'.maxBurstSize bandwidth = p.maxBurstSize bandwidth := by
  unfold maxBurstSize
  rw [h]

/-- The pacer refines the token bucket, over whole runs. -/
theorem BoundedBy.simulates (hsim : p.BoundedBy s) {sends : List (ℤ × ℕ)}
    (hzero : ∀ send ∈ sends, send.1 ≠ 0) (hrun : run (pacedStep bandwidth) p sends = some p') :
    ∃ s', run (TokenBucket.step (p.maxBurstSize bandwidth) (refill bandwidth)) s sends = some s' ∧
      p'.BoundedBy s' := by
  induction sends generalizing p s with
  | nil =>
    obtain rfl : p = p' := Option.some.inj hrun
    exact ⟨s, rfl, hsim⟩
  | cons send sends ih =>
    obtain ⟨p₁, hstep, hrun⟩ := run_cons_eq_some.mp hrun
    obtain ⟨hmds, s₁, hbucket, hsim₁⟩ := hsim.step (hzero send List.mem_cons_self) hstep
    obtain ⟨s', hrest, hsim'⟩ :=
      ih hsim₁ (fun send' hmem => hzero send' (List.mem_cons_of_mem _ hmem)) hrun
    rw [maxBurstSize_congr hmds] at hrest
    exact ⟨s', run_cons_eq_some.mpr ⟨s₁, hbucket, hrest⟩, hsim'⟩

/-- In any interval of length `d`, paced packets have at most the bytes of a burst and of what the
bandwidth gives in that time. -/
theorem sent_in_interval_le (p : Pacer) (hmds : 10 * p.maxDatagramSize < 2 ^ 63)
    {sends : List (ℤ × ℕ)} (hzero : ∀ send ∈ sends, send.1 ≠ 0)
    (hrun : run (pacedStep bandwidth) p sends = some p') (a : ℤ) (d : ℕ) :
    (sentIn a d sends : ℤ) ≤ p.maxBurstSize bandwidth + bandwidth * d / 1000000000 := by
  have hcap : 0 ≤ p.maxBurstSize bandwidth := by
    have hburst : 10 * (p.maxDatagramSize : ℤ) ≤ p.maxBurstSize bandwidth := le_maxBurstSize hmds
    omega
  obtain ⟨s, hsim⟩ := p.exists_boundedBy
  obtain ⟨s', hbucket, -⟩ := hsim.simulates hzero hrun
  exact sentIn_le (isRefill_refill bandwidth) hcap (Int.natCast_nonneg d) hbucket

/-- Ten packets at once, and one more when a datagram's budget is back. -/
theorem sent_in_interval_le_burst :
    (run (pacedStep 65536) newPacer
      (List.replicate 10 (1, 1280) ++ [(20000001, 1280)])).isSome = true ∧
    (sentIn 1 20000000 (List.replicate 10 (1, 1280) ++ [(20000001, 1280)]) : ℤ) ≤
      newPacer.maxBurstSize 65536 + 65536 * (20000000 : ℕ) / 1000000000 := by
  have hsome : (run (pacedStep 65536) newPacer
      (List.replicate 10 (1, 1280) ++ [(20000001, 1280)])).isSome = true := by decide +kernel
  obtain ⟨p', hrun⟩ := Option.isSome_iff_exists.mp hsome
  exact ⟨hsome, sent_in_interval_le newPacer (by decide) (by decide) hrun 1 20000000⟩

/-- Eleven packets at time 0 all find the burst full. -/
theorem burst_at_time_zero :
    (run (pacedStep 65536) newPacer (List.replicate 11 (0, 1280))).isSome = true ∧
      newPacer.maxBurstSize 65536 + 65536 * (0 : ℕ) / 1000000000 <
        sentIn 0 0 (List.replicate 11 (0, 1280)) := by
  decide +kernel

end Pacer

end Congestion

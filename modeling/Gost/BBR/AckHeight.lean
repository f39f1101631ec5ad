import Gost.BBR.WindowedFilter
import Gost.Lib.MachineInt
import Gost.Lib.TransitionSystem

/-!
# The ack aggregation estimate

`maxAckHeightTracker` of `x/internal/util/congestion/bbr/bandwidth_sampler.go`: how many bytes are
acked beyond what the bandwidth lets expect. Byte counts and times are signed integers of 64 bits,
and the product of bandwidth and time is formed before it is divided. As long as it fits, and the
bytes of an epoch do, the estimates are between 0 and the bytes acked: `estimates_sane`. Beyond that
the expected bytes become negative and the estimates are too large.
-/

namespace BBR

open MachineInt TransitionSystem

/-- `extraAckedEvent`. -/
structure ExtraAckedEvent where
  extraAcked : ℤ
  bytesAcked : ℤ
  timeDelta : ℤ
  round : UInt64
deriving DecidableEq, Repr, Inhabited

/-- `maxExtraAckedEventFunc`. -/
def maxExtraAckedEventFunc (a b : ExtraAckedEvent) : ℤ :=
  if a.extraAcked > b.extraAcked then 1 else if a.extraAcked < b.extraAcked then -1 else 0

def invalidPacketNumber : ℤ := -1

/-- `maxAckHeightTracker`. The threshold is 1.0, or 2.0 once overestimates are avoided; with the
bytes that can be expected, at most `2^63 / (8 * 10^9)`, the product of floats is exact. -/
structure MaxAckHeightTracker where
  maxAckHeightFilter : WindowedFilter ExtraAckedEvent UInt64
  aggregationEpochStartTime : ℤ
  aggregationEpochBytes : ℤ
  lastSentPacketNumberBeforeEpoch : ℤ
  numAckAggregationEpochs : UInt64
  overestimateAvoidance : Bool
  startNewAggregationEpochAfterFullRound : Bool
  reduceExtraAckedOnBandwidthIncrease : Bool

/-- The arguments of `Update`. -/
structure Ack where
  bandwidthEstimate : UInt64
  isNewMaxBandwidth : Bool
  roundTripCount : UInt64
  lastSentPacketNumber : ℤ
  lastAckedPacketNumber : ℤ
  ackTime : ℕ
  bytesAcked : ℕ
  ackTime_lt : ackTime < 2 ^ 63
  bytesAcked_lt : bytesAcked < 2 ^ 63

/-- `bytesFromBandwidthAndTimeDelta`. -/
def bytesFromBandwidthAndTimeDelta (bandwidth : UInt64) (delta : ℤ) : ℤ :=
  (int64 (int64 bandwidth.toNat * delta)).tdiv (1000000000 * 8)

namespace MaxAckHeightTracker

/-- `newMaxAckHeightTracker`, with the settings of the sampler. -/
def new (windowLength : UInt64) (overestimateAvoidance startNewAggregationEpochAfterFullRound
    reduceExtraAckedOnBandwidthIncrease : Bool) : MaxAckHeightTracker :=
  ⟨.new windowLength maxExtraAckedEventFunc, 0, 0, invalidPacketNumber, 0, overestimateAvoidance,
    startNewAggregationEpochAfterFullRound, reduceExtraAckedOnBandwidthIncrease⟩

/-- An event goes back into the filter if it still exceeds what is expected. -/
def reinsert (bandwidth : UInt64) (filter : WindowedFilter ExtraAckedEvent UInt64)
    (event : ExtraAckedEvent) : WindowedFilter ExtraAckedEvent UInt64 :=
  let expectedBytesAcked := bytesFromBandwidthAndTimeDelta bandwidth event.timeDelta
  if expectedBytesAcked < event.bytesAcked then
    filter.update { event with extraAcked := int64 (event.bytesAcked - expectedBytesAcked) }
      event.round
  else filter

/-- The heights in the filter, recalculated for a new bandwidth. -/
def recalculate (bandwidth : UInt64) (filter : WindowedFilter ExtraAckedEvent UInt64) :
    WindowedFilter ExtraAckedEvent UInt64 :=
  let cleared := filter.clear
  let cleared := reinsert bandwidth cleared filter.best.sample
  let cleared := reinsert bandwidth cleared filter.secondBest.sample
  reinsert bandwidth cleared filter.thirdBest.sample

/-- Whether an ack starts a new epoch before anything is computed. -/
def startsEpoch (m : MaxAckHeightTracker) (ack : Ack) : Bool :=
  m.aggregationEpochStartTime = 0 ||
    (m.startNewAggregationEpochAfterFullRound &&
      m.lastSentPacketNumberBeforeEpoch ≠ invalidPacketNumber &&
      ack.lastAckedPacketNumber ≠ invalidPacketNumber &&
      m.lastSentPacketNumberBeforeEpoch < ack.lastAckedPacketNumber)

/-- A new epoch. -/
def startEpoch (m : MaxAckHeightTracker) (ack : Ack) : MaxAckHeightTracker :=
  { m with
    aggregationEpochBytes := ack.bytesAcked
    aggregationEpochStartTime := ack.ackTime
    lastSentPacketNumberBeforeEpoch := ack.lastSentPacketNumber
    numAckAggregationEpochs := m.numAckAggregationEpochs + 1 }

/-- `ackAggregationBandwidthThreshold * expectedBytesAcked`. -/
def threshold (m : MaxAckHeightTracker) (expectedBytesAcked : ℤ) : ℤ :=
  if m.overestimateAvoidance then 2 * expectedBytesAcked else expectedBytesAcked

/-- `Update` from the point on where an epoch may go on. -/
def aggregate (m : MaxAckHeightTracker) (ack : Ack) : ℤ × MaxAckHeightTracker :=
  let aggregationDelta := int64 (ack.ackTime - m.aggregationEpochStartTime)
  let expectedBytesAcked := bytesFromBandwidthAndTimeDelta ack.bandwidthEstimate aggregationDelta
  if m.aggregationEpochBytes ≤ m.threshold expectedBytesAcked then (0, m.startEpoch ack)
  else
    let aggregationEpochBytes := int64 (m.aggregationEpochBytes + ack.bytesAcked)
    let extraBytesAcked := int64 (aggregationEpochBytes - expectedBytesAcked)
    let newEvent := ⟨extraBytesAcked, aggregationEpochBytes, aggregationDelta, 0⟩
    (extraBytesAcked,
      { m with
        aggregationEpochBytes
        maxAckHeightFilter := m.maxAckHeightFilter.update newEvent ack.roundTripCount })

/-- The filter after the heights in it may have been reduced. -/
def reduced (m : MaxAckHeightTracker) (ack : Ack) : MaxAckHeightTracker :=
  if m.reduceExtraAckedOnBandwidthIncrease && ack.isNewMaxBandwidth then
    { m with maxAckHeightFilter := recalculate ack.bandwidthEstimate m.maxAckHeightFilter }
  else m

/-- `Update`. -/
def update (m : MaxAckHeightTracker) (ack : Ack) : ℤ × MaxAckHeightTracker :=
  let m := m.reduced ack
  if m.startsEpoch ack then (0, m.startEpoch ack) else m.aggregate ack

end MaxAckHeightTracker

/-! ## Runs -/

/-- The tracker and the time of the last ack. -/
structure AckState where
  tracker : MaxAckHeightTracker
  now : ℕ

/-- Ack times do not decrease. -/
def ackStep (s : AckState) (ack : Ack) : Option AckState :=
  if ack.ackTime < s.now then none else some ⟨(s.tracker.update ack).2, ack.ackTime⟩

/-- `0 ≤ extraAcked ≤ bytesAcked`. -/
def ExtraAckedEvent.Sane (e : ExtraAckedEvent) : Prop :=
  0 ≤ e.extraAcked ∧ e.extraAcked ≤ e.bytesAcked

/-- What `Update` returns is between 0 and the bytes of the epoch, and so is what the filter
holds. -/
def SaneUpdate (s : AckState) (ack : Ack) : Prop :=
  let (extraAcked, tracker) := s.tracker.update ack
  0 ≤ extraAcked ∧ extraAcked ≤ tracker.aggregationEpochBytes ∧
    WindowedFilter.All ExtraAckedEvent.Sane tracker.maxAckHeightFilter

/-- The products and the sum that an update forms fit into 63 bits. -/
structure Fits (s : AckState) (ack : Ack) : Prop where
  recalculation : s.tracker.reduceExtraAckedOnBandwidthIncrease = true →
    ack.isNewMaxBandwidth = true →
    s.tracker.maxAckHeightFilter.All fun e =>
      (ack.bandwidthEstimate.toNat : ℤ) * e.timeDelta < 2 ^ 63
  product : s.tracker.startsEpoch ack = false →
    ack.bandwidthEstimate.toNat * (ack.ackTime - s.tracker.aggregationEpochStartTime) < 2 ^ 63
  sum : s.tracker.startsEpoch ack = false →
    s.tracker.aggregationEpochBytes + ack.bytesAcked < 2 ^ 63

/-! ## Arithmetic -/

/-- The expected bytes are not negative if the product fits. -/
theorem bytesFromBandwidthAndTimeDelta_nonneg {bandwidth : UInt64} {delta : ℤ} (hdelta : 0 ≤ delta)
    (hfits : bandwidth.toNat * delta < 2 ^ 63) :
    0 ≤ bytesFromBandwidthAndTimeDelta bandwidth delta := by
  have hproduct : int64 (int64 bandwidth.toNat * delta) = bandwidth.toNat * delta := by
    -- without a time delta the bandwidth itself need not fit
    rcases hdelta.eq_or_lt with rfl | hpos
    · rw [mul_zero, mul_zero]
      rfl
    · have hbandwidth : (bandwidth.toNat : ℤ) < 2 ^ 63 :=
        lt_of_le_of_lt (le_mul_of_one_le_right (Int.natCast_nonneg _) hpos) hfits
      rw [int64_of_nonneg (Int.natCast_nonneg _) hbandwidth,
        int64_of_nonneg (mul_nonneg (Int.natCast_nonneg _) hdelta) hfits]
  rw [bytesFromBandwidthAndTimeDelta, hproduct]
  exact Int.tdiv_nonneg (mul_nonneg (Int.natCast_nonneg _) hdelta) (by norm_num)

/-- An event with its time, as the filter holds it. -/
def ExtraAckedEvent.Valid (e : ExtraAckedEvent) : Prop :=
  e.Sane ∧ e.bytesAcked < 2 ^ 63 ∧ 0 ≤ e.timeDelta

theorem ExtraAckedEvent.valid_default : (default : ExtraAckedEvent).Valid :=
  ⟨⟨le_rfl, le_rfl⟩, by decide, le_rfl⟩

/-- What is left of the bytes acked, with some bytes expected. -/
theorem int64_sub_spec {bytes expected : ℤ} (hexpected : 0 ≤ expected) (hle : expected ≤ bytes)
    (hlt : bytes < 2 ^ 63) :
    0 ≤ int64 (bytes - expected) ∧ int64 (bytes - expected) ≤ bytes := by
  rw [int64_of_nonneg (sub_nonneg.mpr hle) (lt_of_le_of_lt (sub_le_self bytes hexpected) hlt)]
  exact ⟨sub_nonneg.mpr hle, sub_le_self bytes hexpected⟩

/-! ## Updates -/

namespace MaxAckHeightTracker

variable {bandwidth : UInt64} {filter : WindowedFilter ExtraAckedEvent UInt64}
  {m : MaxAckHeightTracker} {ack : Ack}

theorem all_valid_reinsert {event : ExtraAckedEvent} (hfilter : filter.All ExtraAckedEvent.Valid)
    (hevent : event.Valid) (hfits : bandwidth.toNat * event.timeDelta < 2 ^ 63) :
    (reinsert bandwidth filter event).All ExtraAckedEvent.Valid := by
  obtain ⟨-, hbytes, hdelta⟩ := hevent
  have hexpected := bytesFromBandwidthAndTimeDelta_nonneg hdelta hfits
  dsimp only [reinsert]
  split_ifs with hless
  · exact hfilter.update ⟨int64_sub_spec hexpected hless.le hbytes, hbytes, hdelta⟩
  · exact hfilter

theorem all_valid_recalculate (hfilter : filter.All ExtraAckedEvent.Valid)
    (hfits : filter.All fun e => (bandwidth.toNat : ℤ) * e.timeDelta < 2 ^ 63) :
    (recalculate bandwidth filter).All ExtraAckedEvent.Valid := by
  have hclear : filter.clear.All ExtraAckedEvent.Valid :=
    WindowedFilter.all_new _ _ ExtraAckedEvent.valid_default
  -- the three estimates go in one after the other, each into what the last one left
  have hbest := all_valid_reinsert hclear hfilter.best hfits.best
  have hsecond := all_valid_reinsert hbest hfilter.secondBest hfits.secondBest
  exact all_valid_reinsert hsecond hfilter.thirdBest hfits.thirdBest

/-- The state of a tracker between updates. -/
structure Valid (m : MaxAckHeightTracker) (now : ℕ) : Prop where
  events : m.maxAckHeightFilter.All ExtraAckedEvent.Valid
  bytes_nonneg : 0 ≤ m.aggregationEpochBytes
  bytes_lt : m.aggregationEpochBytes < 2 ^ 63
  start_nonneg : 0 ≤ m.aggregationEpochStartTime
  start_le : m.aggregationEpochStartTime ≤ now

theorem valid_new (windowLength : UInt64) (avoid fullRound reduce : Bool) (now : ℕ) :
    (new windowLength avoid fullRound reduce).Valid now :=
  ⟨WindowedFilter.all_new _ _ ExtraAckedEvent.valid_default, le_rfl,
    show (0 : ℤ) < 2 ^ 63 by norm_num, le_rfl, Int.natCast_nonneg now⟩

theorem Valid.reduced {now : ℕ} (hm : m.Valid now)
    (hfits : m.reduceExtraAckedOnBandwidthIncrease = true → ack.isNewMaxBandwidth = true →
      m.maxAckHeightFilter.All fun e => (ack.bandwidthEstimate.toNat : ℤ) * e.timeDelta < 2 ^ 63) :
    (m.reduced ack).Valid now := by
  unfold MaxAckHeightTracker.reduced
  split_ifs with hreduce
  · rw [Bool.and_eq_true] at hreduce
    exact { hm with events := all_valid_recalculate hm.events (hfits hreduce.1 hreduce.2) }
  · exact hm

theorem startsEpoch_reduced (m : MaxAckHeightTracker) (ack : Ack) :
    (m.reduced ack).startsEpoch ack = m.startsEpoch ack := by
  unfold MaxAckHeightTracker.reduced
  split_ifs <;> rfl

theorem aggregationEpoch_reduced (m : MaxAckHeightTracker) (ack : Ack) :
    (m.reduced ack).aggregationEpochStartTime = m.aggregationEpochStartTime ∧
      (m.reduced ack).aggregationEpochBytes = m.aggregationEpochBytes := by
  unfold MaxAckHeightTracker.reduced
  split_ifs <;> exact ⟨rfl, rfl⟩

theorem Valid.startEpoch {now : ℕ} (hm : m.Valid now) : (m.startEpoch ack).Valid ack.ackTime where
  events := hm.events
  bytes_nonneg := Int.natCast_nonneg _
  bytes_lt := by
    show (ack.bytesAcked : ℤ) < 2 ^ 63
    exact_mod_cast ack.bytesAcked_lt
  start_nonneg := Int.natCast_nonneg _
  start_le := le_rfl

theorem le_threshold {expected : ℤ} (h : 0 ≤ expected) : expected ≤ m.threshold expected := by
  unfold threshold
  split_ifs
  · exact le_mul_of_one_le_left h (by norm_num)
  · exact le_rfl

/-- What an update leaves behind. -/
def Sane (o : ℤ × MaxAckHeightTracker) : Prop :=
  0 ≤ o.1 ∧ o.1 ≤ o.2.aggregationEpochBytes

theorem sane_startEpoch : Sane (0, m.startEpoch ack) := ⟨le_rfl, Int.natCast_nonneg _⟩

/-- An epoch that goes on has more bytes than are expected, so the difference is positive. -/
theorem Valid.aggregate {now : ℕ} (hm : m.Valid now) (hnow : now ≤ ack.ackTime)
    (hproduct : ack.bandwidthEstimate.toNat * (ack.ackTime - m.aggregationEpochStartTime) < 2 ^ 63)
    (hsum : m.aggregationEpochBytes + ack.bytesAcked < 2 ^ 63) :
    Sane (m.aggregate ack) ∧ (m.aggregate ack).2.Valid ack.ackTime := by
  have hstart : m.aggregationEpochStartTime ≤ ack.ackTime :=
    hm.start_le.trans (by exact_mod_cast hnow)
  have hdelta : int64 (ack.ackTime - m.aggregationEpochStartTime) =
      ack.ackTime - m.aggregationEpochStartTime := by
    have htime : (ack.ackTime : ℤ) < 2 ^ 63 := by exact_mod_cast ack.ackTime_lt
    exact int64_of_nonneg (sub_nonneg.mpr hstart)
      (lt_of_le_of_lt (sub_le_self _ hm.start_nonneg) htime)
  have hexpected := bytesFromBandwidthAndTimeDelta_nonneg (sub_nonneg.mpr hstart) hproduct
  have hacked : (0 : ℤ) ≤ ack.bytesAcked := Int.natCast_nonneg _
  have hbytes : int64 (m.aggregationEpochBytes + ack.bytesAcked) =
      m.aggregationEpochBytes + ack.bytesAcked :=
    int64_of_nonneg (add_nonneg hm.bytes_nonneg hacked) hsum
  dsimp only [MaxAckHeightTracker.aggregate]
  rw [hdelta, hbytes]
  split_ifs with hreset
  · exact ⟨sane_startEpoch, hm.startEpoch⟩
  · -- past the threshold there are more bytes than expected, also without the new ones
    have hless : bytesFromBandwidthAndTimeDelta ack.bandwidthEstimate
        (ack.ackTime - m.aggregationEpochStartTime) ≤ m.aggregationEpochBytes + ack.bytesAcked :=
      (le_threshold hexpected).trans ((not_le.mp hreset).le.trans (le_add_of_nonneg_right hacked))
    have hextra := int64_sub_spec hexpected hless hsum
    refine ⟨hextra, ?_, add_nonneg hm.bytes_nonneg hacked, hsum, hm.start_nonneg, hstart⟩
    exact hm.events.update ⟨hextra, hsum, sub_nonneg.mpr hstart⟩

end MaxAckHeightTracker

/-! ## What the estimates are -/

/-- One update. -/
theorem update_spec {s : AckState} {ack : Ack} (hs : s.tracker.Valid s.now)
    (htime : s.now ≤ ack.ackTime) (hfits : Fits s ack) :
    MaxAckHeightTracker.Sane (s.tracker.update ack) ∧
      (s.tracker.update ack).2.Valid ack.ackTime := by
  have hreduced := hs.reduced hfits.recalculation
  obtain ⟨hstart, hbytes⟩ := s.tracker.aggregationEpoch_reduced ack
  dsimp only [MaxAckHeightTracker.update]
  split_ifs with hepoch
  · exact ⟨MaxAckHeightTracker.sane_startEpoch, hreduced.startEpoch⟩
  · rw [MaxAckHeightTracker.startsEpoch_reduced, Bool.not_eq_true] at hepoch
    refine hreduced.aggregate htime ?_ ?_
    · rw [hstart]
      exact hfits.product hepoch
    · rw [hbytes]
      exact hfits.sum hepoch

/-- Along every run with non-decreasing ack times in which the products and sums fit, every value
that `Update` returns and every event that the filter holds is in its range. -/
theorem estimates_sane (windowLength : UInt64) (avoid fullRound reduce : Bool) (now : ℕ)
    (acks : List Ack)
    (hfits : Along ackStep Fits ⟨.new windowLength avoid fullRound reduce, now⟩ acks) :
    Along ackStep (fun s ack => s.now ≤ ack.ackTime → SaneUpdate s ack)
      ⟨.new windowLength avoid fullRound reduce, now⟩ acks := by
  refine Along.of_invariant (J := fun s => s.tracker.Valid s.now) ?_ ?_
    (MaxAckHeightTracker.valid_new windowLength avoid fullRound reduce now) hfits
  · intro s ack s' hs hack hstep
    unfold ackStep at hstep
    split_ifs at hstep with htime
    cases hstep
    exact (update_spec hs (not_lt.mp htime) hack).2
  · intro s ack hs hack htime
    obtain ⟨hsane, hvalid⟩ := update_spec hs htime hack
    have hevents : (s.tracker.update ack).2.maxAckHeightFilter.All ExtraAckedEvent.Sane :=
      ⟨hvalid.events.best.1, hvalid.events.secondBest.1, hvalid.events.thirdBest.1⟩
    exact ⟨hsane.1, hsane.2, hevents⟩

/-- An ack of 1000 bytes at a time in nanoseconds, with a bandwidth in bits per second. -/
def ackAt (bandwidthEstimate : UInt64) (ackTime : ℕ) (h : ackTime < 2 ^ 63) : Ack :=
  ⟨bandwidthEstimate, false, 0, 0, 0, ackTime, 1000, h, by norm_num⟩

/-- The tracker after its first ack, one nanosecond after the start. -/
def firstAck (bandwidthEstimate : UInt64) : AckState :=
  ⟨((MaxAckHeightTracker.new 10 false false false).update
    (ackAt bandwidthEstimate 1 (by decide))).2, 1⟩

/-- Two acks within half a millisecond at 8 Mbit/s. -/
theorem estimates_sane_burst :
    SaneUpdate (firstAck 8000000) (ackAt 8000000 500001 (by decide)) := by
  have hfirst : Fits ⟨.new 10 false false false, 0⟩ (ackAt 8000000 1 (by decide)) :=
    ⟨nofun, nofun, nofun⟩
  have hsecond : Fits (firstAck 8000000) (ackAt 8000000 500001 (by decide)) :=
    ⟨nofun, fun _ => by decide, fun _ => by decide⟩
  have hsane := estimates_sane 10 false false false 0
    [ackAt 8000000 1 (by decide), ackAt 8000000 500001 (by decide)] ⟨hfirst, fun s hs => by
      obtain rfl : firstAck 8000000 = s := Option.some.inj hs
      exact ⟨hsecond, fun _ _ => trivial⟩⟩
  exact (hsane.2 (firstAck 8000000) rfl).1 (by decide)

/-- At 10 Gbit/s an idle second makes the product overflow: more than a gigabyte of 2000 bytes is
taken for extra. -/
theorem idle_second_overflows :
    ackStep ⟨.new 10 false false false, 0⟩ (ackAt 10000000000 1 (by decide)) =
        some (firstAck 10000000000) ∧
      ((firstAck 10000000000).tracker.update (ackAt 10000000000 1000000001 (by decide))).1 =
        1055845009 ∧
      ((firstAck 10000000000).tracker.update
        (ackAt 10000000000 1000000001 (by decide))).2.aggregationEpochBytes = 2000 :=
  ⟨rfl, by decide, by decide⟩

end BBR

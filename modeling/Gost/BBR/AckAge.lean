import Gost.BBR.AckHeight

/-!
# The age of the ack aggregation events

When the bandwidth increases, `maxAckHeightTracker` takes the events out of its filter and puts
those that still exceed the expected bytes back, each at the time `round` of the event. Only `Reset`
sets that field. `Update` leaves it 0, so an event it recorded in another round than 0 goes back
with a wrong time, and the next update may take it for one that has left the window.

To say which event an estimate is, the filter is run a second time over events that carry their
origin (`Traced`). The origins do not take part in any decision: without them the filter is that of
the tracker (`Tracked.filter`).
-/

namespace BBR

open MachineInt

/-! ## Projections of a filter -/

namespace WindowedFilter

variable {V W T : Type*}

/-- The filter of projected samples. -/
def project (g : V → W) (comparator : W → W → ℤ) (f : WindowedFilter V T) : WindowedFilter W T where
  windowLength := f.windowLength
  best := ⟨g f.best.sample, f.best.time⟩
  secondBest := ⟨g f.secondBest.sample, f.secondBest.time⟩
  thirdBest := ⟨g f.thirdBest.sample, f.thirdBest.time⟩
  comparator := comparator

variable {g : V → W} {comparator : W → W → ℤ} {f : WindowedFilter V T}

theorem project_record (hcmp : ∀ a b, f.comparator a b = comparator (g a) (g b))
    (entry : Entry V T) :
    (f.record entry).project g comparator =
      (f.project g comparator).record ⟨g entry.sample, entry.time⟩ := by
  unfold WindowedFilter.record
  simp only [apply_ite (project g comparator), hcmp]
  rfl

variable [Sub T] [Div T] [LT T] [DecidableLT T] [OfNat T 2] [OfNat T 4]

theorem project_expire (hcmp : ∀ a b, f.comparator a b = comparator (g a) (g b))
    (entry : Entry V T) :
    (f.expire entry).project g comparator =
      (f.project g comparator).expire ⟨g entry.sample, entry.time⟩ := by
  unfold WindowedFilter.expire
  simp only [apply_ite (project g comparator), hcmp]
  rfl

/-- A projection that the comparator does not see commutes with updates. -/
theorem project_update [Inhabited V] [Inhabited W] (hdefault : g default = default)
    (hcmp : ∀ a b, f.comparator a b = comparator (g a) (g b)) (newSample : V) (newTime : T) :
    (f.update newSample newTime).project g comparator =
      (f.project g comparator).update (g newSample) newTime := by
  unfold WindowedFilter.update
  simp only [apply_ite (project g comparator), hcmp, hdefault, record_comparator, project_record,
    project_expire, implies_true]
  rfl

end WindowedFilter

/-! ## Events with their origin -/

/-- The round in which an event was recorded, by `Update` or by `Reset`. -/
structure Origin where
  round : UInt64
  byReset : Bool
deriving DecidableEq, Repr

/-- An event and its origin; the zero value of a filter has none. -/
structure TracedEvent where
  event : ExtraAckedEvent
  origin : Option Origin
deriving DecidableEq, Repr, Inhabited

/-- `maxExtraAckedEventFunc` does not see the origins. -/
def TracedEvent.comparator (a b : TracedEvent) : ℤ := maxExtraAckedEventFunc a.event b.event

namespace MaxAckHeightTracker

/-- `Reset`. -/
def reset (m : MaxAckHeightTracker) (newHeight : ℤ) (newTime : UInt64) : MaxAckHeightTracker :=
  { m with
    maxAckHeightFilter := m.maxAckHeightFilter.reset ⟨newHeight, 0, 0, newTime⟩ newTime }

/-- The event that `Update` records, if the epoch goes on. -/
def newEvent (m : MaxAckHeightTracker) (ack : Ack) : Option ExtraAckedEvent :=
  let aggregationDelta := int64 (ack.ackTime - m.aggregationEpochStartTime)
  let expectedBytesAcked := bytesFromBandwidthAndTimeDelta ack.bandwidthEstimate aggregationDelta
  let aggregationEpochBytes := int64 (m.aggregationEpochBytes + ack.bytesAcked)
  if m.startsEpoch ack then none
  else if m.aggregationEpochBytes ≤ m.threshold expectedBytesAcked then none
  else some ⟨int64 (aggregationEpochBytes - expectedBytesAcked), aggregationEpochBytes,
    aggregationDelta, 0⟩

/-- The filter after `Update`. -/
theorem update_maxAckHeightFilter (m : MaxAckHeightTracker) (ack : Ack) :
    (m.update ack).2.maxAckHeightFilter =
      match (m.reduced ack).newEvent ack with
      | some event => (m.reduced ack).maxAckHeightFilter.update event ack.roundTripCount
      | none => (m.reduced ack).maxAckHeightFilter := by
  dsimp only [update, aggregate, newEvent]
  split_ifs <;> rfl

/-- `Update` does not set the round of an event. -/
theorem newEvent_round {m : MaxAckHeightTracker} {ack : Ack} {event : ExtraAckedEvent}
    (h : m.newEvent ack = some event) : event.round = 0 := by
  dsimp only [newEvent] at h
  split_ifs at h
  rw [← Option.some.inj h]

end MaxAckHeightTracker

/-- The tracker, and its filter over traced events. -/
structure Traced where
  tracker : MaxAckHeightTracker
  filter : WindowedFilter TracedEvent UInt64

namespace Traced

/-- `reinsert`, with the origin. -/
def reinsert (bandwidth : UInt64) (filter : WindowedFilter TracedEvent UInt64)
    (traced : TracedEvent) : WindowedFilter TracedEvent UInt64 :=
  let expectedBytesAcked := bytesFromBandwidthAndTimeDelta bandwidth traced.event.timeDelta
  if expectedBytesAcked < traced.event.bytesAcked then
    filter.update { traced with
        event.extraAcked := int64 (traced.event.bytesAcked - expectedBytesAcked) }
      traced.event.round
  else filter

/-- `recalculate`, with the origins. -/
def recalculate (bandwidth : UInt64) (filter : WindowedFilter TracedEvent UInt64) :
    WindowedFilter TracedEvent UInt64 :=
  let cleared := filter.clear
  let cleared := reinsert bandwidth cleared filter.best.sample
  let cleared := reinsert bandwidth cleared filter.secondBest.sample
  reinsert bandwidth cleared filter.thirdBest.sample

/-- The filter after the heights in it may have been reduced. -/
def reduced (s : Traced) (ack : Ack) : WindowedFilter TracedEvent UInt64 :=
  if s.tracker.reduceExtraAckedOnBandwidthIncrease && ack.isNewMaxBandwidth then
    recalculate ack.bandwidthEstimate s.filter
  else s.filter

/-- `Update`: the event it records comes from the current round. -/
def update (s : Traced) (ack : Ack) : Traced where
  tracker := (s.tracker.update ack).2
  filter :=
    match (s.tracker.reduced ack).newEvent ack with
    | some event =>
      (s.reduced ack).update ⟨event, some ⟨ack.roundTripCount, false⟩⟩ ack.roundTripCount
    | none => s.reduced ack

/-- `Reset`. -/
def reset (s : Traced) (newHeight : ℤ) (newTime : UInt64) : Traced where
  tracker := s.tracker.reset newHeight newTime
  filter := s.filter.reset ⟨⟨newHeight, 0, 0, newTime⟩, some ⟨newTime, true⟩⟩ newTime

end Traced

/-- The calls that change the filter. -/
inductive HeightCall
  | update (ack : Ack)
  | reset (newHeight : ℤ) (newTime : UInt64)

def Traced.call (s : Traced) : HeightCall → Traced
  | .update ack => s.update ack
  | .reset newHeight newTime => s.reset newHeight newTime

/-- A tracker that reduces the heights when the bandwidth increases, after some calls. -/
def traced (windowLength : UInt64) (avoid fullRound : Bool) (calls : List HeightCall) : Traced :=
  calls.foldl Traced.call
    ⟨.new windowLength avoid fullRound true, .new windowLength TracedEvent.comparator⟩

/-! ## What the filter holds -/

/-- The round of an event is that of its origin if `Reset` recorded it, and 0 otherwise. -/
def TracedEvent.Stamped (traced : TracedEvent) : Prop :=
  ∀ origin ∈ traced.origin, traced.event.round = if origin.byReset then origin.round else 0

/-- An event that was put back: its time in the filter is its round. -/
def PutBack (entry : Entry TracedEvent UInt64) : Prop :=
  entry.sample.Stamped ∧ ∀ origin ∈ entry.sample.origin, entry.time = entry.sample.event.round

theorem PutBack.time_eq_iff {entry : Entry TracedEvent UInt64} (h : PutBack entry) {origin : Origin}
    (horigin : origin ∈ entry.sample.origin) :
    entry.time = origin.round ↔ origin.byReset = true ∨ origin.round = 0 := by
  rw [h.2 origin horigin, h.1 origin horigin]
  split_ifs with hreset
  · simp [hreset]
  · simp [hreset, eq_comm]

section Reinsert

variable {bandwidth : UInt64} {filter : WindowedFilter TracedEvent UInt64} {traced : TracedEvent}

/-- The filter without the origins. -/
def forget (filter : WindowedFilter TracedEvent UInt64) : WindowedFilter ExtraAckedEvent UInt64 :=
  filter.project TracedEvent.event maxExtraAckedEventFunc

theorem forget_update (hcmp : filter.comparator = TracedEvent.comparator) (newTime : UInt64) :
    forget (filter.update traced newTime) = (forget filter).update traced.event newTime := by
  have hdefault : (default : TracedEvent).event = default := rfl
  refine WindowedFilter.project_update hdefault (fun a b => ?_) traced newTime
  rw [hcmp]
  rfl

theorem comparator_reinsert :
    (Traced.reinsert bandwidth filter traced).comparator = filter.comparator := by
  dsimp only [Traced.reinsert]
  split_ifs
  · exact (WindowedFilter.update_settings _ _ _).2
  · rfl

theorem forget_reinsert (hcmp : filter.comparator = TracedEvent.comparator) :
    forget (Traced.reinsert bandwidth filter traced) =
      MaxAckHeightTracker.reinsert bandwidth (forget filter) traced.event := by
  dsimp only [Traced.reinsert, MaxAckHeightTracker.reinsert]
  rw [apply_ite forget, forget_update hcmp]

theorem every_reinsert (bandwidth : UInt64) (hfilter : filter.Every PutBack)
    (htraced : traced.Stamped) :
    (Traced.reinsert bandwidth filter traced).Every PutBack := by
  dsimp only [Traced.reinsert]
  split_ifs
  · exact hfilter.update ⟨htraced, fun _ _ => rfl⟩
  · exact hfilter

theorem comparator_recalculate :
    (Traced.recalculate bandwidth filter).comparator = filter.comparator := by
  simp only [Traced.recalculate, comparator_reinsert]
  rfl

theorem forget_recalculate (hcmp : filter.comparator = TracedEvent.comparator) :
    forget (Traced.recalculate bandwidth filter) =
      MaxAckHeightTracker.recalculate bandwidth (forget filter) := by
  have hclear : filter.clear.comparator = TracedEvent.comparator := hcmp
  simp only [Traced.recalculate, MaxAckHeightTracker.recalculate]
  rw [forget_reinsert, forget_reinsert, forget_reinsert hclear]
  · rfl
  · rw [comparator_reinsert, hclear]
  · rw [comparator_reinsert, comparator_reinsert, hclear]

/-- All that a recalculated filter holds was put back. -/
theorem every_recalculate (bandwidth : UInt64) (hfilter : filter.All TracedEvent.Stamped) :
    (Traced.recalculate bandwidth filter).Every PutBack := by
  have hclear : filter.clear.Every PutBack := WindowedFilter.every_new _ _ ⟨nofun, nofun⟩
  have hbest := every_reinsert bandwidth hclear hfilter.best
  have hsecond := every_reinsert bandwidth hbest hfilter.secondBest
  exact every_reinsert bandwidth hsecond hfilter.thirdBest

end Reinsert

/-! ## Runs -/

/-- The traced filter is that of the tracker, and what it holds is stamped. -/
structure Tracked (s : Traced) : Prop where
  comparator : s.filter.comparator = TracedEvent.comparator
  filter : forget s.filter = s.tracker.maxAckHeightFilter
  stamped : s.filter.All TracedEvent.Stamped
  reduces : s.tracker.reduceExtraAckedOnBandwidthIncrease = true

namespace Tracked

variable {s : Traced} {ack : Ack}

theorem reduced (h : Tracked s) (ack : Ack) :
    (s.reduced ack).comparator = TracedEvent.comparator ∧
      forget (s.reduced ack) = (s.tracker.reduced ack).maxAckHeightFilter ∧
      (s.reduced ack).All TracedEvent.Stamped := by
  unfold Traced.reduced MaxAckHeightTracker.reduced
  split_ifs
  · have hstamped := (every_recalculate ack.bandwidthEstimate h.stamped).mono
      fun _ hentry => hentry.1
    refine ⟨comparator_recalculate.trans h.comparator, ?_,
      WindowedFilter.all_iff_every.mpr hstamped⟩
    rw [forget_recalculate h.comparator, h.filter]
  · exact ⟨h.comparator, h.filter, h.stamped⟩

theorem update (h : Tracked s) (ack : Ack) : Tracked (s.update ack) := by
  obtain ⟨hcmp, hforget, hstamped⟩ := h.reduced ack
  have hreduces : (s.tracker.update ack).2.reduceExtraAckedOnBandwidthIncrease = true := by
    dsimp only [MaxAckHeightTracker.update, MaxAckHeightTracker.aggregate]
    have hreduced : (s.tracker.reduced ack).reduceExtraAckedOnBandwidthIncrease = true := by
      unfold MaxAckHeightTracker.reduced
      split_ifs <;> exact h.reduces
    split_ifs <;> exact hreduced
  have hfilter := s.tracker.update_maxAckHeightFilter ack
  cases hevent : (s.tracker.reduced ack).newEvent ack with
  | none =>
    rw [hevent] at hfilter
    have heq : (s.update ack).filter = s.reduced ack := by
      simp only [Traced.update, hevent]
    refine ⟨?_, ?_, ?_, hreduces⟩
    all_goals rw [heq]
    · exact hcmp
    · exact hforget.trans hfilter.symm
    · exact hstamped
  | some event =>
    rw [hevent] at hfilter
    have heq : (s.update ack).filter = (s.reduced ack).update
        ⟨event, some ⟨ack.roundTripCount, false⟩⟩ ack.roundTripCount := by
      simp only [Traced.update, hevent]
    refine ⟨?_, ?_, ?_, hreduces⟩
    all_goals rw [heq]
    · exact (WindowedFilter.update_settings _ _ _).2.trans hcmp
    · rw [forget_update hcmp, hforget]
      exact hfilter.symm
    · refine hstamped.update fun origin horigin => ?_
      cases horigin
      exact MaxAckHeightTracker.newEvent_round hevent

theorem reset (h : Tracked s) (newHeight : ℤ) (newTime : UInt64) :
    Tracked (s.reset newHeight newTime) where
  comparator := h.comparator
  filter := by
    show (forget s.filter).reset ⟨newHeight, 0, 0, newTime⟩ newTime = _
    rw [h.filter]
    rfl
  stamped := by
    have hnew : TracedEvent.Stamped ⟨⟨newHeight, 0, 0, newTime⟩, some ⟨newTime, true⟩⟩ := by
      intro origin horigin
      cases horigin
      rfl
    exact ⟨hnew, hnew, hnew⟩
  reduces := h.reduces

theorem call (h : Tracked s) (c : HeightCall) : Tracked (s.call c) := by
  cases c with
  | update ack => exact h.update ack
  | reset newHeight newTime => exact h.reset newHeight newTime

end Tracked

theorem tracked_traced (windowLength : UInt64) (avoid fullRound : Bool) (calls : List HeightCall) :
    Tracked (traced windowLength avoid fullRound calls) := by
  refine List.foldlRecOn calls Traced.call ?_ fun s hs c _ => hs.call c
  exact ⟨rfl, rfl, WindowedFilter.all_new _ _ nofun, rfl⟩

/-- After any calls, a new maximum of the bandwidth leaves an event in the filter with the round in
which it was recorded, if and only if `Reset` recorded it or it was recorded in round 0. -/
theorem age_kept_iff (windowLength : UInt64) (avoid fullRound : Bool) (calls : List HeightCall)
    (ack : Ack) (hnew : ack.isNewMaxBandwidth = true) :
    forget ((traced windowLength avoid fullRound calls).reduced ack) =
        ((traced windowLength avoid fullRound calls).tracker.reduced ack).maxAckHeightFilter ∧
      ((traced windowLength avoid fullRound calls).reduced ack).Every fun entry =>
        ∀ origin ∈ entry.sample.origin,
          (entry.time = origin.round ↔ origin.byReset = true ∨ origin.round = 0) := by
  have htracked := tracked_traced windowLength avoid fullRound calls
  refine ⟨(htracked.reduced ack).2.1, ?_⟩
  rw [Traced.reduced, htracked.reduces, hnew]
  exact (every_recalculate ack.bandwidthEstimate htracked.stamped).mono
    fun entry hentry origin => hentry.time_eq_iff

/-- An ack of `bytesAcked` bytes in a round, `nanos` nanoseconds after the start. -/
def ackIn (round : UInt64) (bandwidthEstimate : UInt64) (isNewMaxBandwidth : Bool)
    (nanos bytesAcked : ℕ) : Ack :=
  ⟨bandwidthEstimate, isNewMaxBandwidth, round, 0, 0, nanos % 2 ^ 63, bytesAcked % 2 ^ 63,
    Nat.mod_lt nanos (Nat.two_pow_pos 63), Nat.mod_lt bytesAcked (Nat.two_pow_pos 63)⟩

/-- Two acks of 1000 bytes within a nanosecond: all 2000 bytes are extra. -/
def burstIn (round : UInt64) : List HeightCall :=
  [.update (ackIn round 8000 false 1 1000), .update (ackIn round 8000 false 2 1000)]

/-- Ten seconds later the bandwidth estimate doubles, and a new epoch starts. -/
def newMax : Ack := ackIn 21 16000 true 10000000000 10

/-- An event of round 0 keeps its age. -/
theorem age_kept_first_round :
    ((traced 10 false false (burstIn 0)).reduced newMax).best =
        ⟨⟨⟨2000, 2000, 1, 0⟩, some ⟨0, false⟩⟩, 0⟩ ∧
      (((traced 10 false false (burstIn 0)).reduced newMax).best.time = 0 ↔
        false = true ∨ (0 : UInt64) = 0) := by
  have hbest : ((traced 10 false false (burstIn 0)).reduced newMax).best =
      ⟨⟨⟨2000, 2000, 1, 0⟩, some ⟨0, false⟩⟩, 0⟩ := by decide
  have hkept := (age_kept_iff 10 false false (burstIn 0) newMax rfl).2.best
  exact ⟨hbest, hkept ⟨0, false⟩ (by rw [hbest]; rfl)⟩

/-- An event of round 20 goes back with the time 0. In round 22 an ack that is 100 times smaller
replaces it, although the window is ten rounds long. -/
theorem age_lost_after_increase :
    (traced 10 false false (burstIn 20)).filter.best =
        ⟨⟨⟨2000, 2000, 1, 0⟩, some ⟨20, false⟩⟩, 20⟩ ∧
      ((traced 10 false false (burstIn 20)).reduced newMax).best =
        ⟨⟨⟨2000, 2000, 1, 0⟩, some ⟨20, false⟩⟩, 0⟩ ∧
      (traced 10 false false (burstIn 20 ++ [.update newMax,
        .update (ackIn 22 16000 false 10000000001 10)])).filter.best =
          ⟨⟨⟨20, 20, 1, 0⟩, some ⟨22, false⟩⟩, 22⟩ :=
  ⟨by decide, by decide, by decide⟩

end BBR

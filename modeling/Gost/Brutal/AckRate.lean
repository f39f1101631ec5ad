import Mathlib.Algebra.Order.Field.Rat
import Mathlib.Tactic.NormNum
import Gost.Lib.SlotWindow

/-!
# The ack rate of the Brutal sender

`x/internal/util/congestion/brutal/brutal.go`: `BrutalSender` counts the packets that were acked and
lost in five slots, one for each second modulo five, and divides its rate by the part of the packets
of the last five seconds that was acked.

The reader takes all slots from `T - 5` on, one second more than there are slots. The slot of the
second `T - 5` is that of `T` as well, though, and has been overwritten, so exactly the seconds
after `T - 5` count: `sample_window`.

Event times are not negative. Packets are only counted here, so an event has the numbers of packets
in its two lists.
-/

namespace Brutal

open List SlotWindow

/-- `pktInfo`. -/
structure PktInfo where
  timestamp : ℕ
  ackCount : ℕ
  lossCount : ℕ
deriving DecidableEq, Repr

/-- `minSampleCount`. -/
def minSampleCount : ℕ := 50

/-- `minAckRate`. -/
def minAckRate : ℚ := 4 / 5

/-- `BrutalSender`, with what the ack rate depends on; `pktInfoSlotCount` is 5. -/
structure BrutalSender where
  pktInfoSlots : Fin 5 → PktInfo
  ackRate : ℚ
  disableLossCompensation : Bool

/-- The arguments of `OnCongestionEventEx`: a time in nanoseconds, and the lengths of the lists. -/
structure CongestionEvent where
  eventTime : ℕ
  ackedPackets : ℕ
  lostPackets : ℕ
deriving DecidableEq, Repr

/-- The second of an event. -/
def CongestionEvent.currentTimestamp (e : CongestionEvent) : ℕ := e.eventTime / 1000000000

/-- The loop of `updateAckRate`: the ack and loss counts of the slots that are not too old. -/
def sampleCounts (pktInfoSlots : Fin 5 → PktInfo) (currentTimestamp : ℕ) : ℕ × ℕ :=
  let minTimestamp : ℤ := currentTimestamp - 5
  (List.ofFn pktInfoSlots).foldl
    (fun counts info =>
      if info.timestamp < minTimestamp then counts
      else (counts.1 + info.ackCount, counts.2 + info.lossCount))
    (0, 0)

/-- The ack rate for given counts. -/
def ackRateOf (ackCount lossCount : ℕ) : ℚ :=
  if ackCount + lossCount < minSampleCount then 1
  else
    let rate : ℚ := ackCount / (ackCount + lossCount)
    if rate < minAckRate then minAckRate else rate

namespace BrutalSender

/-- `NewBrutalSender`. -/
def new (disableLossCompensation : Bool) : BrutalSender :=
  ⟨fun _ => ⟨0, 0, 0⟩, 1, disableLossCompensation⟩

/-- `updateAckRate`. -/
def updateAckRate (b : BrutalSender) (currentTimestamp : ℕ) : BrutalSender :=
  if b.disableLossCompensation then { b with ackRate := 1 }
  else
    let counts := sampleCounts b.pktInfoSlots currentTimestamp
    { b with ackRate := ackRateOf counts.1 counts.2 }

/-- The slots after the packets of an event are counted. -/
def count (b : BrutalSender) (e : CongestionEvent) : Fin 5 → PktInfo :=
  let slot := Fin.ofNat 5 e.currentTimestamp
  let info := b.pktInfoSlots slot
  Function.update b.pktInfoSlots slot
    (if info.timestamp = e.currentTimestamp then
      ⟨info.timestamp, info.ackCount + e.ackedPackets, info.lossCount + e.lostPackets⟩
    else ⟨e.currentTimestamp, e.ackedPackets, e.lostPackets⟩)

/-- `OnCongestionEventEx`. -/
def onCongestionEventEx (b : BrutalSender) (e : CongestionEvent) : BrutalSender :=
  { b with pktInfoSlots := b.count e }.updateAckRate e.currentTimestamp

/-- A new sender after some events. -/
def run (disableLossCompensation : Bool) (events : List CongestionEvent) : BrutalSender :=
  events.foldl onCongestionEventEx (new disableLossCompensation)

end BrutalSender

/-! ## The slots as a window -/

/-- A slot, with the two counts as one amount. -/
def PktInfo.toSlot (info : PktInfo) : Slot (ℕ × ℕ) :=
  ⟨info.timestamp, (info.ackCount, info.lossCount)⟩

/-- The packets of an event arrive at its second. -/
def CongestionEvent.arrival (e : CongestionEvent) : ℕ × (ℕ × ℕ) :=
  (e.currentTimestamp, (e.ackedPackets, e.lostPackets))

namespace BrutalSender

@[simp]
theorem pktInfoSlots_updateAckRate (b : BrutalSender) (currentTimestamp : ℕ) :
    (b.updateAckRate currentTimestamp).pktInfoSlots = b.pktInfoSlots := by
  unfold updateAckRate
  split_ifs <;> rfl

@[simp]
theorem disableLossCompensation_updateAckRate (b : BrutalSender) (currentTimestamp : ℕ) :
    (b.updateAckRate currentTimestamp).disableLossCompensation = b.disableLossCompensation := by
  unfold updateAckRate
  split_ifs <;> rfl

/-- Counting the packets of an event is recording them. -/
theorem toSlot_count (b : BrutalSender) (e : CongestionEvent) :
    (fun r => (b.count e r).toSlot) =
      record (fun r => (b.pktInfoSlots r).toSlot) e.currentTimestamp
        (e.ackedPackets, e.lostPackets) := by
  ext r : 1
  dsimp only [count, record]
  by_cases hr : r = Fin.ofNat 5 e.currentTimestamp
  · rw [hr, Function.update_self, Function.update_self, apply_ite PktInfo.toSlot]
    by_cases hstamp : (b.pktInfoSlots (Fin.ofNat 5 e.currentTimestamp)).timestamp =
        e.currentTimestamp
    · simp only [PktInfo.toSlot, hstamp, if_true, Prod.mk_add_mk]
    · simp only [PktInfo.toSlot, hstamp, if_false]
  · rw [Function.update_of_ne hr, Function.update_of_ne hr]

theorem toSlot_onCongestionEventEx (b : BrutalSender) (e : CongestionEvent) :
    (fun r => ((b.onCongestionEventEx e).pktInfoSlots r).toSlot) =
      record (fun r => (b.pktInfoSlots r).toSlot) e.currentTimestamp
        (e.ackedPackets, e.lostPackets) := by
  rw [← toSlot_count, onCongestionEventEx, pktInfoSlots_updateAckRate]

/-- The ack rate after an event is that of the counts in its slots. -/
theorem ackRate_onCongestionEventEx (b : BrutalSender) (e : CongestionEvent) :
    (b.onCongestionEventEx e).ackRate =
      if b.disableLossCompensation then 1
      else
        ackRateOf (sampleCounts (b.onCongestionEventEx e).pktInfoSlots e.currentTimestamp).1
          (sampleCounts (b.onCongestionEventEx e).pktInfoSlots e.currentTimestamp).2 := by
  dsimp only [onCongestionEventEx, updateAckRate]
  split_ifs <;> rfl

@[simp]
theorem run_concat (disableLossCompensation : Bool) (events : List CongestionEvent)
    (e : CongestionEvent) :
    run disableLossCompensation (events ++ [e]) =
      (run disableLossCompensation events).onCongestionEventEx e := by
  simp [run]

@[simp]
theorem disableLossCompensation_run (disable : Bool) (events : List CongestionEvent) :
    (run disable events).disableLossCompensation = disable := by
  induction events using reverseRecOn with
  | nil => rfl
  | append_singleton events e ih =>
    rw [run_concat, onCongestionEventEx, disableLossCompensation_updateAckRate]
    exact ih

/-- The slots hold the packets of the events, as long as the times do not decrease. -/
theorem holds_run (disableLossCompensation : Bool) (events : List CongestionEvent)
    (htimes : events.Pairwise (·.eventTime ≤ ·.eventTime)) (now : ℕ)
    (hnow : ∀ e ∈ events, e.currentTimestamp ≤ now) :
    Holds (fun r => ((run disableLossCompensation events).pktInfoSlots r).toSlot)
      (events.map CongestionEvent.arrival) now := by
  induction events using reverseRecOn generalizing now with
  | nil => exact holds_nil now
  | append_singleton events e ih =>
    rw [pairwise_append] at htimes
    obtain ⟨hbefore, -, hlast⟩ := htimes
    have hle : ∀ x ∈ events, x.currentTimestamp ≤ e.currentTimestamp := fun x hx =>
      Nat.div_le_div_right (hlast x hx e (mem_singleton_self e))
    have hholds := (ih hbefore e.currentTimestamp hle).record le_rfl (e.ackedPackets, e.lostPackets)
    rw [run_concat, toSlot_onCongestionEventEx, map_append]
    exact { hholds with
      stamp_le := fun r => (hholds.stamp_le r).trans (hnow e (by simp)) }

end BrutalSender

/-! ## The counts -/

/-- The loop adds up the slots that are not too old. -/
theorem sampleCounts_eq (pktInfoSlots : Fin 5 → PktInfo) (currentTimestamp : ℕ) :
    sampleCounts pktInfoSlots currentTimestamp =
      ∑ r, if currentTimestamp ≤ (pktInfoSlots r).toSlot.stamp + 5 then
        (pktInfoSlots r).toSlot.total else 0 := by
  have hloop (infos : List PktInfo) (counts : ℕ × ℕ) :
      infos.foldl (fun counts info =>
          if (info.timestamp : ℤ) < currentTimestamp - 5 then counts
          else (counts.1 + info.ackCount, counts.2 + info.lossCount)) counts =
        counts + (infos.map fun info =>
          if currentTimestamp ≤ info.toSlot.stamp + 5 then info.toSlot.total else 0).sum := by
    induction infos generalizing counts with
    | nil => simp
    | cons info infos ih =>
      rw [foldl_cons, ih, map_cons, sum_cons, ← add_assoc]
      have hiff : currentTimestamp ≤ info.toSlot.stamp + 5 ↔
          ¬(info.timestamp : ℤ) < currentTimestamp - 5 := by
        show currentTimestamp ≤ info.timestamp + 5 ↔ _
        omega
      rw [ite_cond_congr (propext hiff)]
      split_ifs
      · rw [add_zero]
      · rfl
  unfold sampleCounts
  rw [hloop, map_ofFn, sum_ofFn]
  exact zero_add _

/-- The events whose second is in the window `(T - 5, T]`. -/
def inWindow (T : ℕ) (events : List CongestionEvent) : List CongestionEvent :=
  events.filter fun e => (T : ℤ) - 5 < e.currentTimestamp ∧ e.currentTimestamp ≤ T

theorem arrived_eq_inWindow {T : ℕ} {events : List CongestionEvent}
    (hle : ∀ e ∈ events, e.currentTimestamp ≤ T) :
    arrived (fun t => T < t + 5) (events.map CongestionEvent.arrival) =
      (((inWindow T events).map (·.ackedPackets)).sum,
        ((inWindow T events).map (·.lostPackets)).sum) := by
  induction events with
  | nil => rfl
  | cons e events ih =>
    have hrest := ih fun x hx => hle x (mem_cons_of_mem e hx)
    have he := hle e mem_cons_self
    have hcons : arrived (fun t => T < t + 5) ((e :: events).map CongestionEvent.arrival) =
        (if T < e.currentTimestamp + 5 then (e.ackedPackets, e.lostPackets) else 0) +
          arrived (fun t => T < t + 5) (events.map CongestionEvent.arrival) := by
      simp [arrived, CongestionEvent.arrival]
    rw [hcons, hrest]
    unfold inWindow
    split_ifs with hrecent
    · rw [filter_cons_of_pos (by simp only [decide_eq_true_eq]; omega)]
      simp
    · rw [filter_cons_of_neg (by simp only [decide_eq_true_eq]; omega), zero_add]

/-- The rate is at least the minimum, and acked packets are a part of all. -/
theorem ackRateOf_mem (ackCount lossCount : ℕ) :
    minAckRate ≤ ackRateOf ackCount lossCount ∧ ackRateOf ackCount lossCount ≤ 1 := by
  have hmin : minAckRate ≤ 1 := by norm_num [minAckRate]
  dsimp only [ackRateOf]
  split_ifs with hfew hlow
  · exact ⟨hmin, le_rfl⟩
  · exact ⟨le_rfl, hmin⟩
  · refine ⟨not_lt.mp hlow, div_le_one_of_le₀ ?_ (by positivity)⟩
    exact le_add_of_nonneg_right (Nat.cast_nonneg lossCount)

/-- After every sequence of events with non-decreasing times, the counts of the last update are the
packets acked and lost in the events of the last five seconds, and the ack rate is that of these
counts, between 0.8 and 1. -/
theorem sample_window (disableLossCompensation : Bool) (events : List CongestionEvent)
    (e : CongestionEvent)
    (htimes : (events ++ [e]).Pairwise (·.eventTime ≤ ·.eventTime)) :
    let b := BrutalSender.run disableLossCompensation (events ++ [e])
    let window := inWindow e.currentTimestamp (events ++ [e])
    sampleCounts b.pktInfoSlots e.currentTimestamp =
        ((window.map (·.ackedPackets)).sum, (window.map (·.lostPackets)).sum) ∧
      b.ackRate = (if disableLossCompensation then 1
        else ackRateOf (window.map (·.ackedPackets)).sum (window.map (·.lostPackets)).sum) ∧
      minAckRate ≤ b.ackRate ∧ b.ackRate ≤ 1 := by
  intro b window
  have hle : ∀ x ∈ events ++ [e], x.currentTimestamp ≤ e.currentTimestamp := by
    intro x hx
    rcases mem_append.mp hx with hx | hx
    · exact Nat.div_le_div_right ((pairwise_append.mp htimes).2.2 x hx e (by simp))
    · rw [mem_singleton.mp hx]
  have hcounts : sampleCounts b.pktInfoSlots e.currentTimestamp =
      ((window.map (·.ackedPackets)).sum, (window.map (·.lostPackets)).sum) := by
    have hholds := BrutalSender.holds_run disableLossCompensation _ htimes e.currentTimestamp hle
    have hstamp : ((b.pktInfoSlots (Fin.ofNat 5 e.currentTimestamp)).toSlot).stamp =
        e.currentTimestamp := by
      have hslots := BrutalSender.toSlot_onCongestionEventEx
        (BrutalSender.run disableLossCompensation events) e
      rw [← BrutalSender.run_concat] at hslots
      rw [congrFun hslots (Fin.ofNat 5 e.currentTimestamp), stamp_record]
    rw [sampleCounts_eq, hholds.sum_recent hstamp, arrived_eq_inWindow hle]
  have hrate : b.ackRate = if disableLossCompensation then 1
      else ackRateOf (window.map (·.ackedPackets)).sum (window.map (·.lostPackets)).sum := by
    have hupdate := BrutalSender.ackRate_onCongestionEventEx
      (BrutalSender.run disableLossCompensation events) e
    rw [← BrutalSender.run_concat, BrutalSender.disableLossCompensation_run] at hupdate
    rw [hupdate, hcounts]
  refine ⟨hcounts, hrate, ?_⟩
  rw [hrate]
  split_ifs
  · exact ⟨by norm_num [minAckRate], le_rfl⟩
  · exact ackRateOf_mem _ _

/-- Events in the seconds 0, 2 and 5: the first is one second too old, though its slot is the one
that the last uses. -/
theorem sample_window_edge :
    let events : List CongestionEvent := [⟨900000000, 70, 0⟩, ⟨2000000000, 45, 15⟩]
    let e : CongestionEvent := ⟨5100000000, 45, 0⟩
    let b := BrutalSender.run false (events ++ [e])
    sampleCounts b.pktInfoSlots e.currentTimestamp = (90, 15) ∧ b.ackRate = 6 / 7 ∧
      minAckRate ≤ b.ackRate ∧ b.ackRate ≤ 1 := by
  intro events e b
  obtain ⟨hcounts, hrate, hrange⟩ := sample_window false events e (by decide)
  have hwindow : inWindow e.currentTimestamp (events ++ [e]) =
      [⟨2000000000, 45, 15⟩, ⟨5100000000, 45, 0⟩] := by decide
  rw [hwindow] at hcounts hrate
  refine ⟨hcounts, hrate.trans ?_, hrange⟩
  norm_num [ackRateOf, minSampleCount, minAckRate]

end Brutal

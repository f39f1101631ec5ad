import Mathlib.Data.Int.Notation
import Mathlib.Tactic.SplitIfs

/-!
# The windowed filter

`x/internal/util/congestion/bbr/windowed_filter.go`: the best, second best and third best sample of
the last window. The filter is generic in samples and times, and the subtraction of times is that of
their type, so for unsigned times it may wrap.

All that the estimates hold are samples that were passed to the filter, or the zero value:
`All.update`; with the times that they were passed with: `Every.update`.
-/

namespace BBR

structure Entry (V T : Type*) where
  sample : V
  time : T
deriving DecidableEq, Repr

/-- `WindowedFilter`, with its three estimates. -/
structure WindowedFilter (V T : Type*) where
  windowLength : T
  best : Entry V T
  secondBest : Entry V T
  thirdBest : Entry V T
  comparator : V → V → ℤ

namespace WindowedFilter

variable {V T : Type*}

/-- `NewWindowedFilter`. -/
def new [Inhabited V] [Inhabited T] (windowLength : T) (comparator : V → V → ℤ) :
    WindowedFilter V T :=
  ⟨windowLength, ⟨default, default⟩, ⟨default, default⟩, ⟨default, default⟩, comparator⟩

/-- `Clear`. -/
def clear [Inhabited V] [Inhabited T] (f : WindowedFilter V T) : WindowedFilter V T :=
  new f.windowLength f.comparator

/-- `Reset`. -/
def reset (f : WindowedFilter V T) (newSample : V) (newTime : T) : WindowedFilter V T :=
  { f with
    best := ⟨newSample, newTime⟩
    secondBest := ⟨newSample, newTime⟩
    thirdBest := ⟨newSample, newTime⟩ }

/-- A sample that is not a new best may be the second or the third best. -/
def record (f : WindowedFilter V T) (entry : Entry V T) : WindowedFilter V T :=
  if 0 ≤ f.comparator entry.sample f.secondBest.sample then
    { f with secondBest := entry, thirdBest := entry }
  else if 0 ≤ f.comparator entry.sample f.thirdBest.sample then { f with thirdBest := entry }
  else f

/-! ## What the estimates are -/

/-- All three estimates have a property. -/
structure All (P : V → Prop) (f : WindowedFilter V T) : Prop where
  best : P f.best.sample
  secondBest : P f.secondBest.sample
  thirdBest : P f.thirdBest.sample

variable {P : V → Prop} {f : WindowedFilter V T} {newSample : V} {newTime : T}

theorem all_new [Inhabited V] [Inhabited T] (windowLength : T) (comparator : V → V → ℤ)
    (h : P default) : All P (new windowLength comparator) := ⟨h, h, h⟩

/-- All three estimates have a property that may be about their times as well. -/
structure Every (P : Entry V T → Prop) (f : WindowedFilter V T) : Prop where
  best : P f.best
  secondBest : P f.secondBest
  thirdBest : P f.thirdBest

theorem all_iff_every : All P f ↔ Every (fun entry => P entry.sample) f :=
  ⟨fun h => ⟨h.best, h.secondBest, h.thirdBest⟩, fun h => ⟨h.best, h.secondBest, h.thirdBest⟩⟩

variable {Q : Entry V T → Prop}

theorem every_new [Inhabited V] [Inhabited T] (windowLength : T) (comparator : V → V → ℤ)
    (h : Q ⟨default, default⟩) : Every Q (new windowLength comparator) := ⟨h, h, h⟩

theorem Every.mono {R : Entry V T → Prop} (hf : Every Q f) (h : ∀ entry, Q entry → R entry) :
    Every R f :=
  ⟨h _ hf.best, h _ hf.secondBest, h _ hf.thirdBest⟩

theorem Every.record {entry : Entry V T} (hf : Every Q f) (h : Q entry) :
    Every Q (f.record entry) := by
  unfold WindowedFilter.record
  split_ifs
  · exact ⟨hf.best, h, h⟩
  · exact ⟨hf.best, hf.secondBest, h⟩
  · exact hf

@[simp]
theorem record_windowLength (f : WindowedFilter V T) (entry : Entry V T) :
    (f.record entry).windowLength = f.windowLength := by
  unfold WindowedFilter.record
  split_ifs <;> rfl

@[simp]
theorem record_comparator (f : WindowedFilter V T) (entry : Entry V T) :
    (f.record entry).comparator = f.comparator := by
  unfold WindowedFilter.record
  split_ifs <;> rfl

/-! ## Updates -/

variable [Sub T] [Div T] [LT T] [DecidableLT T] [OfNat T 2] [OfNat T 4]

/-- Estimates that are too old are replaced. -/
def expire (f : WindowedFilter V T) (entry : Entry V T) : WindowedFilter V T :=
  if f.windowLength < entry.time - f.best.time then
    if f.windowLength < entry.time - f.secondBest.time then
      { f with best := f.thirdBest, secondBest := entry, thirdBest := entry }
    else { f with best := f.secondBest, secondBest := f.thirdBest, thirdBest := entry }
  else if f.comparator f.secondBest.sample f.best.sample = 0 ∧
      f.windowLength / 4 < entry.time - f.secondBest.time then
    { f with secondBest := entry, thirdBest := entry }
  else if f.comparator f.thirdBest.sample f.secondBest.sample = 0 ∧
      f.windowLength / 2 < entry.time - f.thirdBest.time then
    { f with thirdBest := entry }
  else f

/-- `Update`. -/
def update [Inhabited V] (f : WindowedFilter V T) (newSample : V) (newTime : T) :
    WindowedFilter V T :=
  if f.comparator f.best.sample default = 0 ∨ 0 ≤ f.comparator newSample f.best.sample ∨
      f.windowLength < newTime - f.thirdBest.time then
    f.reset newSample newTime
  else (f.record ⟨newSample, newTime⟩).expire ⟨newSample, newTime⟩

/-- An update does not change the settings of a filter. -/
theorem update_settings [Inhabited V] (f : WindowedFilter V T) (newSample : V) (newTime : T) :
    (f.update newSample newTime).windowLength = f.windowLength ∧
      (f.update newSample newTime).comparator = f.comparator := by
  have hexpire (f : WindowedFilter V T) (entry : Entry V T) :
      (f.expire entry).windowLength = f.windowLength ∧
        (f.expire entry).comparator = f.comparator := by
    unfold WindowedFilter.expire
    split_ifs <;> exact ⟨rfl, rfl⟩
  unfold WindowedFilter.update
  split_ifs
  · exact ⟨rfl, rfl⟩
  · simp [hexpire]

theorem Every.expire {entry : Entry V T} (hf : Every Q f) (h : Q entry) :
    Every Q (f.expire entry) := by
  unfold WindowedFilter.expire
  split_ifs
  · exact ⟨hf.thirdBest, h, h⟩
  · exact ⟨hf.secondBest, hf.thirdBest, h⟩
  · exact ⟨hf.best, h, h⟩
  · exact ⟨hf.best, hf.secondBest, h⟩
  · exact hf

theorem Every.update [Inhabited V] (hf : Every Q f) (h : Q ⟨newSample, newTime⟩) :
    Every Q (f.update newSample newTime) := by
  unfold WindowedFilter.update
  split_ifs
  · exact ⟨h, h, h⟩
  · exact (hf.record h).expire h

theorem All.update [Inhabited V] (hf : All P f) (h : P newSample) :
    All P (f.update newSample newTime) :=
  all_iff_every.mpr ((all_iff_every.mp hf).update h)

end WindowedFilter

end BBR

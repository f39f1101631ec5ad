import Mathlib.Data.List.Induction
import Gost.BBR.WindowedFilter

/-!
# What the windowed filter estimates

For samples that come in at non-decreasing times the best estimate is the maximum of the samples
from some point of the stream on, and that point is at most a window ago: `windowed_max`.

The invariant is `Sound`. Each of the three estimates is a sample of the stream that no later sample
exceeds, and better estimates are older. A sample that is better than an estimate replaces it and
all that follow, so what stays is not exceeded; the rules that refresh or promote estimates move
them towards the best and put the newest sample last.

Nothing is used of the subtraction of times but that a sample is within the window when it comes in.
For unsigned times this is so with every window.
-/

namespace BBR

namespace WindowedFilter

/-- `MaxFilter`, for samples of any ordered type. -/
def maxFilter {O : Type*} [LT O] [DecidableLT O] (a b : O) : ℤ :=
  if a > b then 1 else if a < b then -1 else 0

variable {V T K : Type*}

/-- A comparator that compares the keys of samples, as `MaxFilter` and `maxExtraAckedEventFunc`
do. -/
structure ComparesBy [LE K] (comparator : V → V → ℤ) (key : V → K) : Prop where
  nonneg_iff : ∀ a b, 0 ≤ comparator a b ↔ key b ≤ key a
  self : ∀ a, comparator a a = 0

theorem comparesBy_maxFilter [LE K] [LT K] [DecidableLT K] [Std.IsLinearOrder K]
    [Std.LawfulOrderLT K] : ComparesBy (maxFilter (O := K)) id where
  nonneg_iff a b := by
    unfold maxFilter
    split_ifs with hgt hlt
    · simp [Std.le_of_lt hgt]
    · simpa [Std.not_le] using hlt
    · simpa [Std.not_lt] using hlt
  self a := by simp [maxFilter, Std.lt_irrefl]

/-! ## Entries that are not exceeded -/

section Recorded

variable [LE K] {key : V → K} {stream : List (Entry V T)} {entry e : Entry V T}

/-- An entry of the stream that no later sample exceeds. -/
def Recorded (key : V → K) (stream : List (Entry V T)) (e : Entry V T) : Prop :=
  ∃ older newer, stream = older ++ e :: newer ∧ ∀ u ∈ newer, key u.sample ≤ key e.sample

theorem recorded_concat_self (key : V → K) (stream : List (Entry V T)) (entry : Entry V T) :
    Recorded key (stream ++ [entry]) entry :=
  ⟨stream, [], rfl, by simp⟩

/-- An entry stays recorded while it is not exceeded. -/
theorem Recorded.concat (h : Recorded key stream e) (hle : key entry.sample ≤ key e.sample) :
    Recorded key (stream ++ [entry]) e := by
  obtain ⟨older, newer, rfl, hnewer⟩ := h
  refine ⟨older, newer ++ [entry], by simp, fun u hu => ?_⟩
  rcases List.mem_append.mp hu with hu | hu
  · exact hnewer u hu
  · rw [List.mem_singleton.mp hu]
    exact hle

end Recorded

/-! ## The estimates -/

/-- The estimates of a filter that has seen a stream, the last sample of it at the time `now`. -/
structure Sound [LE K] [LE T] (key : V → K) (stream : List (Entry V T)) (now : T)
    (f : WindowedFilter V T) : Prop where
  best : Recorded key stream f.best
  secondBest : Recorded key stream f.secondBest
  thirdBest : Recorded key stream f.thirdBest
  second_le : key f.secondBest.sample ≤ key f.best.sample
  third_le : key f.thirdBest.sample ≤ key f.secondBest.sample
  time_le_second : f.best.time ≤ f.secondBest.time
  time_le_third : f.secondBest.time ≤ f.thirdBest.time
  time_le_now : f.thirdBest.time ≤ now

/-- The third best estimate after a sample is recorded is the old one or that sample. -/
theorem record_thirdBest (f : WindowedFilter V T) (entry : Entry V T) :
    (f.record entry).thirdBest = entry ∨ (f.record entry).thirdBest = f.thirdBest := by
  unfold WindowedFilter.record
  split_ifs <;> simp

section Updates

variable [LE K] [Std.IsLinearOrder K] [LE T] [Std.IsLinearOrder T] {key : V → K}
  {stream : List (Entry V T)} {entry : Entry V T} {f : WindowedFilter V T} {now : T}

/-- After a reset all estimates are the newest sample. -/
theorem sound_reset (stream : List (Entry V T)) (f : WindowedFilter V T) (entry : Entry V T) :
    Sound key (stream ++ [entry]) entry.time (f.reset entry.sample entry.time) where
  best := recorded_concat_self key stream entry
  secondBest := recorded_concat_self key stream entry
  thirdBest := recorded_concat_self key stream entry
  second_le := Std.le_refl _
  third_le := Std.le_refl _
  time_le_second := Std.le_refl _
  time_le_third := Std.le_refl _
  time_le_now := Std.le_refl _

/-- A sample that is not a new best is recorded, and is not better than the third best then. -/
theorem Sound.record (hf : Sound key stream now f) (hcmp : ComparesBy f.comparator key)
    (hnow : now ≤ entry.time) (hbest : ¬0 ≤ f.comparator entry.sample f.best.sample) :
    Sound key (stream ++ [entry]) entry.time (f.record entry) ∧
      key entry.sample ≤ key (f.record entry).thirdBest.sample := by
  have hle (e : Entry V T) (h : ¬0 ≤ f.comparator entry.sample e.sample) :
      key entry.sample ≤ key e.sample := by
    rw [hcmp.nonneg_iff] at h
    exact Std.le_total.resolve_left h
  have hself := recorded_concat_self key stream entry
  have hthird : f.thirdBest.time ≤ entry.time := Std.le_trans hf.time_le_now hnow
  have hsecond : f.secondBest.time ≤ entry.time := Std.le_trans hf.time_le_third hthird
  unfold WindowedFilter.record
  split_ifs with hsecondBest hthirdBest
  · refine ⟨?_, Std.le_refl _⟩
    exact ⟨hf.best.concat (hle _ hbest), hself, hself, hle _ hbest, Std.le_refl _,
      Std.le_trans hf.time_le_second hsecond, Std.le_refl _, Std.le_refl _⟩
  · refine ⟨?_, Std.le_refl _⟩
    exact ⟨hf.best.concat (hle _ hbest), hf.secondBest.concat (hle _ hsecondBest), hself,
      hf.second_le, hle _ hsecondBest, hf.time_le_second, hsecond, Std.le_refl _⟩
  · refine ⟨?_, hle _ hthirdBest⟩
    exact ⟨hf.best.concat (hle _ hbest), hf.secondBest.concat (hle _ hsecondBest),
      hf.thirdBest.concat (hle _ hthirdBest), hf.second_le, hf.third_le, hf.time_le_second,
      hf.time_le_third, hthird⟩

variable [LT T] [DecidableLT T] [Std.LawfulOrderLT T] [Sub T] [Div T] [OfNat T 2] [OfNat T 4]

/-- Estimates that are promoted or refreshed stay recorded, and the best is then within the
window. -/
theorem Sound.expire (hf : Sound key stream entry.time f) (hself : Recorded key stream entry)
    (hle : key entry.sample ≤ key f.thirdBest.sample)
    (hthird : entry.time - f.thirdBest.time ≤ f.windowLength) :
    Sound key stream entry.time (f.expire entry) ∧
      entry.time - (f.expire entry).best.time ≤ f.windowLength := by
  have hle_second : key entry.sample ≤ key f.secondBest.sample := Std.le_trans hle hf.third_le
  have hsecond_le : f.secondBest.time ≤ entry.time := Std.le_trans hf.time_le_third hf.time_le_now
  unfold WindowedFilter.expire
  split_ifs with hbest hsecond hquarter hhalf
  · -- both are too old: the third best becomes the best
    refine ⟨?_, hthird⟩
    exact ⟨hf.thirdBest, hself, hself, hle, Std.le_refl _, hf.time_le_now, Std.le_refl _,
      Std.le_refl _⟩
  · refine ⟨?_, Std.not_lt.mp hsecond⟩
    exact ⟨hf.secondBest, hf.thirdBest, hself, hf.third_le, hle, hf.time_le_third,
      hf.time_le_now, Std.le_refl _⟩
  · refine ⟨?_, Std.not_lt.mp hbest⟩
    exact ⟨hf.best, hself, hself, Std.le_trans hle_second hf.second_le, Std.le_refl _,
      Std.le_trans hf.time_le_second hsecond_le, Std.le_refl _, Std.le_refl _⟩
  · refine ⟨?_, Std.not_lt.mp hbest⟩
    exact ⟨hf.best, hf.secondBest, hself, hf.second_le, hle_second, hf.time_le_second,
      hsecond_le, Std.le_refl _⟩
  · exact ⟨hf, Std.not_lt.mp hbest⟩

/-- One update, of a filter that is sound or has no estimate yet. -/
theorem sound_update [Inhabited V] (hcmp : ComparesBy f.comparator key)
    (hwindow : ∀ t : T, t - t ≤ f.windowLength)
    (hf : f.comparator f.best.sample default = 0 ∨
      ∃ now ≤ entry.time, Sound key stream now f) :
    Sound key (stream ++ [entry]) entry.time (f.update entry.sample entry.time) ∧
      entry.time - (f.update entry.sample entry.time).best.time ≤ f.windowLength := by
  unfold WindowedFilter.update
  split_ifs with hreset
  · exact ⟨sound_reset stream f entry, hwindow entry.time⟩
  · simp only [not_or] at hreset
    obtain ⟨hempty, hbest, hthird⟩ := hreset
    obtain ⟨now, hnow, hf⟩ := hf.resolve_left hempty
    obtain ⟨hrecord, hle⟩ := hf.record hcmp hnow hbest
    have hin : entry.time - (f.record entry).thirdBest.time ≤ (f.record entry).windowLength := by
      rw [record_windowLength]
      rcases f.record_thirdBest entry with h | h <;> rw [h]
      · exact hwindow entry.time
      · exact Std.not_lt.mp hthird
    have hexpire := hrecord.expire (recorded_concat_self key stream entry) hle hin
    rw [record_windowLength] at hexpire
    exact hexpire

end Updates

/-! ## Streams of samples -/

section Streams

variable [Sub T] [Div T] [LT T] [DecidableLT T] [OfNat T 2] [OfNat T 4]

/-- The samples of a stream, one after the other. -/
def submit [Inhabited V] (f : WindowedFilter V T) (stream : List (Entry V T)) :
    WindowedFilter V T :=
  stream.foldl (fun f entry => f.update entry.sample entry.time) f

@[simp]
theorem submit_concat [Inhabited V] (f : WindowedFilter V T) (stream : List (Entry V T))
    (entry : Entry V T) :
    f.submit (stream ++ [entry]) = (f.submit stream).update entry.sample entry.time := by
  simp [submit]

theorem submit_settings [Inhabited V] (f : WindowedFilter V T) (stream : List (Entry V T)) :
    (f.submit stream).windowLength = f.windowLength ∧
      (f.submit stream).comparator = f.comparator := by
  induction stream using List.reverseRecOn with
  | nil => exact ⟨rfl, rfl⟩
  | append_singleton stream entry ih =>
    rw [submit_concat, (update_settings _ _ _).1, (update_settings _ _ _).2]
    exact ih

variable [LE K] [Std.IsLinearOrder K] [LE T] [Std.IsLinearOrder T] [Std.LawfulOrderLT T]
  [Inhabited V] [Inhabited T] {key : V → K} {comparator : V → V → ℤ} {windowLength : T}

/-- The estimates after a stream of samples with non-decreasing times, for any comparator. -/
theorem sound_submit (hcmp : ComparesBy comparator key) (hwindow : ∀ t : T, t - t ≤ windowLength)
    (stream : List (Entry V T)) (entry : Entry V T)
    (htimes : (stream ++ [entry]).Pairwise (·.time ≤ ·.time)) :
    Sound key (stream ++ [entry]) entry.time
        ((new windowLength comparator).submit (stream ++ [entry])) ∧
      entry.time - ((new windowLength comparator).submit (stream ++ [entry])).best.time ≤
        windowLength := by
  induction stream using List.reverseRecOn generalizing entry with
  | nil => exact sound_update (f := new windowLength comparator) hcmp hwindow (.inl (hcmp.self _))
  | append_singleton stream last ih =>
    obtain ⟨hwindow_eq, hcmp_eq⟩ := (new windowLength comparator).submit_settings (stream ++ [last])
    rw [List.pairwise_append] at htimes
    obtain ⟨hbefore, -, hlast⟩ := htimes
    have hle : last.time ≤ entry.time := hlast last (by simp) entry (by simp)
    rw [submit_concat _ (stream ++ [last]) entry]
    have hupdate := sound_update (f := (new windowLength comparator).submit (stream ++ [last]))
      (hcmp_eq ▸ hcmp) (hwindow_eq ▸ hwindow) (.inr ⟨last.time, hle, (ih last hbefore).1⟩)
    rw [hwindow_eq] at hupdate
    exact hupdate

end Streams

/-- After each update of a stream with non-decreasing times, better estimates are larger and older,
the best was recorded at most a window ago, and it is a sample of the stream that no later sample
exceeds. -/
theorem windowed_max {O T : Type*} [LE O] [LT O] [DecidableLT O] [Std.IsLinearOrder O]
    [Std.LawfulOrderLT O] [Inhabited O] [LE T] [LT T] [DecidableLT T] [Std.IsLinearOrder T]
    [Std.LawfulOrderLT T] [Sub T] [Div T] [OfNat T 2] [OfNat T 4] [Inhabited T] (windowLength : T)
    (hwindow : ∀ t : T, t - t ≤ windowLength) (stream : List (Entry O T)) (entry : Entry O T)
    (htimes : (stream ++ [entry]).Pairwise (·.time ≤ ·.time)) :
    Sound id (stream ++ [entry]) entry.time
        ((new windowLength maxFilter).submit (stream ++ [entry])) ∧
      entry.time - ((new windowLength maxFilter).submit (stream ++ [entry])).best.time ≤
        windowLength :=
  sound_submit comparesBy_maxFilter hwindow stream entry htimes

/-- Four samples in a window of ten rounds: the first expires, and the second is the best. -/
theorem windowed_max_expired :
    ((new 10 maxFilter : WindowedFilter UInt64 UInt64).submit
        ([⟨9, 1⟩, ⟨7, 4⟩, ⟨5, 8⟩] ++ [⟨3, 12⟩])).best = ⟨7, 4⟩ ∧
      Sound id ([⟨9, 1⟩, ⟨7, 4⟩, ⟨5, 8⟩] ++ [⟨3, 12⟩]) 12
        ((new 10 maxFilter : WindowedFilter UInt64 UInt64).submit
          ([⟨9, 1⟩, ⟨7, 4⟩, ⟨5, 8⟩] ++ [⟨3, 12⟩])) := by
  refine ⟨by decide, (windowed_max (10 : UInt64) (fun t => ?_) _ ⟨3, 12⟩ (by decide)).1⟩
  rw [UInt64.sub_self]
  decide

end WindowedFilter

end BBR

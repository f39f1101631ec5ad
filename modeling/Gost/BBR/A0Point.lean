import Gost.BBR.RingBuffer

/-!
# The choice of the point A0

`chooseA0Point` of `x/internal/util/congestion/bbr/bandwidth_sampler.go` takes the last of the
candidates whose `totalBytesAcked` does not exceed a bound, and removes the older ones from the
queue. Two loops remove candidates. The first counts up to a fixed number; the second, for the case
that no candidate exceeds the bound, compares its counter with the length of the queue, which gets
shorter with each step, and stops when half of the candidates are gone: `popOlder_spec`.
-/

namespace BBR

/-- `ackPoint`. -/
structure AckPoint where
  ackTime : ℤ
  totalBytesAcked : ℤ
deriving DecidableEq, Repr, Inhabited

/-! ## The loops -/

/-- The loop over the candidates: the first index from `i` on where the bound is exceeded. -/
def scan (a0Candidates : RingBuffer AckPoint) (totalBytesAcked : ℤ) : ℕ → ℕ → Option (Option ℕ)
  | 0, _ => some none
  | fuel + 1, i =>
    if i < a0Candidates.len then
      (a0Candidates.offset i).bind fun candidate =>
        if candidate.totalBytesAcked > totalBytesAcked then some (some i)
        else scan a0Candidates totalBytesAcked fuel (i + 1)
    else some none

/-- `for j := 0; j < n; j++ { b.a0Candidates.PopFront() }`. -/
def popFronts : ℕ → RingBuffer AckPoint → Option (RingBuffer AckPoint)
  | 0, a0Candidates => some a0Candidates
  | n + 1, a0Candidates => a0Candidates.popFront.bind fun popped => popFronts n popped.2

/-- `for k := 0; k < b.a0Candidates.Len()-1; k++ { b.a0Candidates.PopFront() }`. -/
def popOlder : ℕ → ℕ → RingBuffer AckPoint → Option (RingBuffer AckPoint)
  | 0, _, a0Candidates => some a0Candidates
  | fuel + 1, k, a0Candidates =>
    if k < a0Candidates.len - 1 then
      a0Candidates.popFront.bind fun popped => popOlder fuel (k + 1) popped.2
    else some a0Candidates

/-- `chooseA0Point`: the point written to `a0`, if there is one, and the queue that is left. No loop
takes more steps than there are candidates. -/
def chooseA0Point (a0Candidates : RingBuffer AckPoint) (totalBytesAcked : ℤ) :
    Option (Option AckPoint × RingBuffer AckPoint) :=
  if a0Candidates.empty then some (none, a0Candidates)
  else if a0Candidates.len = 1 then a0Candidates.front.map fun a0 => (some a0, a0Candidates)
  else
    (scan a0Candidates totalBytesAcked a0Candidates.len 1).bind fun
      | some i =>
        (a0Candidates.offset (i - 1)).bind fun a0 =>
          (popFronts (i - 1) a0Candidates).map fun left => (some a0, left)
      | none =>
        a0Candidates.back.bind fun a0 =>
          (popOlder a0Candidates.len 0 a0Candidates).map fun left => (some a0, left)

/-! ## What the loops do -/

section Loops

open List Option
open RingBuffer (Represents)

variable {r : RingBuffer AckPoint} {l : List AckPoint}

/-- The scan ends at the first candidate that exceeds the bound, if there is one. -/
theorem scan_spec (h : Represents r l) (totalBytesAcked : ℤ) (fuel : ℕ) {i : ℕ}
    (hfuel : l.length ≤ fuel + i) :
    ∃ found, scan r totalBytesAcked fuel i = some found ∧
      (∀ j, i ≤ j → (∀ n ∈ found, j < n) → ∀ p ∈ l[j]?, p.totalBytesAcked ≤ totalBytesAcked) ∧
      ∀ n ∈ found, i ≤ n ∧ ∃ p ∈ l[n]?, totalBytesAcked < p.totalBytesAcked := by
  induction fuel generalizing i with
  | zero =>
    refine ⟨none, rfl, fun j hj _ p hp => ?_, nofun⟩
    rw [getElem?_eq_none (by omega)] at hp
    cases hp
  | succ fuel ih =>
    unfold scan
    rw [h.len_eq, h.offset_eq]
    by_cases hi : i < l.length
    · rw [if_pos hi, getElem?_eq_getElem hi, bind_some]
      by_cases hgt : l[i].totalBytesAcked > totalBytesAcked
      · rw [if_pos hgt]
        refine ⟨some i, rfl, fun j hj hlt => ?_, fun n hn => ?_⟩
        · exact absurd (hlt i rfl) (not_lt.mpr hj)
        · cases hn
          exact ⟨le_rfl, l[i], getElem?_eq_getElem hi, hgt⟩
      · rw [if_neg hgt]
        obtain ⟨found, hscan, hbefore, hfound⟩ := ih (i := i + 1) (by omega)
        refine ⟨found, hscan, fun j hj hlt p hp => ?_, fun n hn => ?_⟩
        · rcases Nat.eq_or_lt_of_le hj with rfl | hj
          · rw [getElem?_eq_getElem hi] at hp
            cases hp
            exact not_lt.mp hgt
          · exact hbefore j hj hlt p hp
        · obtain ⟨hle, hp⟩ := hfound n hn
          exact ⟨(Nat.le_succ i).trans hle, hp⟩
    · rw [if_neg hi]
      refine ⟨none, rfl, fun j hj _ p hp => ?_, nofun⟩
      rw [getElem?_eq_none (by omega)] at hp
      cases hp

theorem popFronts_spec (h : Represents r l) {n : ℕ} (hn : n ≤ l.length) :
    ∃ left, popFronts n r = some left ∧ Represents left (l.drop n) := by
  induction n generalizing r l with
  | zero => exact ⟨r, rfl, h⟩
  | succ n ih =>
    cases l with
    | nil => cases hn
    | cons x l =>
      obtain ⟨r', hpop, hr'⟩ := h.popFront
      obtain ⟨left, hleft, hdrop⟩ := ih hr' (Nat.le_of_succ_le_succ hn)
      exact ⟨left, by rw [popFronts, hpop, bind_some, hleft], hdrop⟩

/-- With the counter at `k` the second loop removes half of what is beyond it. -/
theorem popOlder_spec (h : Represents r l) (fuel : ℕ) {k : ℕ} (hfuel : l.length ≤ fuel + k) :
    ∃ left, popOlder fuel k r = some left ∧ Represents left (l.drop ((l.length - k) / 2)) := by
  induction fuel generalizing r l k with
  | zero =>
    have hnone : (l.length - k) / 2 = 0 := by omega
    exact ⟨r, rfl, by rwa [hnone]⟩
  | succ fuel ih =>
    unfold popOlder
    rw [h.len_eq]
    split_ifs with hk
    · cases l with
      | nil => simp at hk
      | cons x l =>
        rw [length_cons] at hk hfuel
        obtain ⟨r', hpop, hr'⟩ := h.popFront
        obtain ⟨left, hleft, hdrop⟩ := ih (k := k + 1) hr' (by omega)
        refine ⟨left, by rw [hpop, bind_some, hleft], ?_⟩
        have hhalf : ((x :: l).length - k) / 2 = (l.length - (k + 1)) / 2 + 1 := by
          rw [length_cons]
          omega
        rwa [hhalf, drop_succ_cons]
    · have hnone : (l.length - k) / 2 = 0 := by omega
      exact ⟨r, rfl, by rwa [hnone]⟩

end Loops

/-! ## The choice -/

open List Option
open RingBuffer (Represents)

/-- The index of the point to choose: that of the last candidate within the bound, or of the front
if there is none. -/
def IsA0 (l : List AckPoint) (totalBytesAcked : ℤ) (i : ℕ) : Prop :=
  (∃ p ∈ l[i]?, p.totalBytesAcked ≤ totalBytesAcked ∨ i = 0) ∧
    ∀ j > i, ∀ p ∈ l[j]?, totalBytesAcked < p.totalBytesAcked

section Choice

variable {r : RingBuffer AckPoint} {l : List AckPoint} {totalBytesAcked : ℤ}

/-- In a sorted queue all candidates after one that exceeds the bound do so. -/
theorem exceeds_of_le (hsorted : l.Pairwise (·.totalBytesAcked ≤ ·.totalBytesAcked)) {n j : ℕ}
    (hj : n ≤ j) {p q : AckPoint} (hp : p ∈ l[n]?) (hgt : totalBytesAcked < p.totalBytesAcked)
    (hq : q ∈ l[j]?) : totalBytesAcked < q.totalBytesAcked := by
  obtain ⟨hn, rfl⟩ := List.getElem?_eq_some_iff.mp hp
  obtain ⟨hj', rfl⟩ := List.getElem?_eq_some_iff.mp hq
  rcases Nat.eq_or_lt_of_le hj with rfl | hlt
  · exact hgt
  · exact lt_of_lt_of_le hgt (pairwise_iff_getElem.mp hsorted n j hn hj' hlt)

/-- A candidate exceeds the bound: the first loop removes the older ones. -/
theorem choose_of_found (h : Represents r l)
    (hsorted : l.Pairwise (·.totalBytesAcked ≤ ·.totalBytesAcked)) {n : ℕ} (hn : 1 ≤ n)
    (hbefore : ∀ j, 1 ≤ j → j < n → ∀ p ∈ l[j]?, p.totalBytesAcked ≤ totalBytesAcked)
    {p : AckPoint} (hp : p ∈ l[n]?) (hgt : totalBytesAcked < p.totalBytesAcked) :
    ∃ a0 left, IsA0 l totalBytesAcked (n - 1) ∧ l[n - 1]? = some a0 ∧
      popFronts (n - 1) r = some left ∧ Represents left (l.drop (n - 1)) ∧
      ∃ q ∈ l.getLast?, totalBytesAcked < q.totalBytesAcked := by
  obtain ⟨hlt, -⟩ := List.getElem?_eq_some_iff.mp hp
  have hprev : n - 1 < l.length := by omega
  obtain ⟨left, hleft, hdrop⟩ := popFronts_spec h (n := n - 1) hprev.le
  have ha0 : l[n - 1]? = some l[n - 1] := getElem?_eq_getElem hprev
  refine ⟨l[n - 1], left, ⟨⟨l[n - 1], ha0, ?_⟩, fun j hj q hq => ?_⟩, ha0, hleft, hdrop, ?_⟩
  · rcases Nat.eq_zero_or_pos (n - 1) with hzero | hpos
    · exact .inr hzero
    · exact .inl (hbefore (n - 1) hpos (by omega) _ ha0)
  · exact exceeds_of_le hsorted (by omega) hp hgt hq
  · have hlast : l.getLast? = some l[l.length - 1] := by
      rw [getLast?_eq_getElem?, getElem?_eq_getElem]
    refine ⟨_, hlast, exceeds_of_le hsorted (show n ≤ l.length - 1 by omega) hp hgt ?_⟩
    exact getElem?_eq_getElem _

/-- No candidate after the front exceeds the bound: the second loop removes half of the queue. -/
theorem choose_of_not_found (h : Represents r l) (hlen : 2 ≤ l.length)
    (hall : ∀ j, 1 ≤ j → ∀ p ∈ l[j]?, p.totalBytesAcked ≤ totalBytesAcked) :
    ∃ a0 left, IsA0 l totalBytesAcked (l.length - 1) ∧ l.getLast? = some a0 ∧
      l[l.length - 1]? = some a0 ∧ popOlder r.len 0 r = some left ∧
      Represents left (l.drop (l.length / 2)) ∧ a0.totalBytesAcked ≤ totalBytesAcked := by
  have hlast : l[l.length - 1]? = some l[l.length - 1] := getElem?_eq_getElem _
  have hle := hall (l.length - 1) (by omega) _ hlast
  obtain ⟨left, hleft, hdrop⟩ := popOlder_spec h r.len (k := 0) h.len_eq.ge
  refine ⟨_, left, ⟨⟨_, hlast, .inl hle⟩, fun j hj p hp => ?_⟩, ?_, hlast, hleft, hdrop, hle⟩
  · rw [getElem?_eq_none (by omega)] at hp
    cases hp
  · rw [getLast?_eq_getElem?, hlast]

end Choice

/-- For every queue of candidates in order, the point chosen is the last one within the bound, or
the front if there is none. What is left is that candidate and the later ones, if and only if there
are at most two candidates or the last one exceeds the bound. -/
theorem older_removed_iff {r : RingBuffer AckPoint} {l : List AckPoint} (h : Represents r l)
    (hne : l ≠ []) (hsorted : l.Pairwise (·.totalBytesAcked ≤ ·.totalBytesAcked))
    (totalBytesAcked : ℤ) :
    ∃ i a0 left, IsA0 l totalBytesAcked i ∧ l[i]? = some a0 ∧
      chooseA0Point r totalBytesAcked = some (some a0, left) ∧
      (Represents left (l.drop i) ↔
        l.length ≤ 2 ∨ ∃ p ∈ l.getLast?, totalBytesAcked < p.totalBytesAcked) := by
  have hempty : r.empty = false := by
    rw [← Bool.not_eq_true, h.empty_iff]
    exact hne
  have hpos : 0 < l.length := length_pos_iff.mpr hne
  unfold chooseA0Point
  simp only [hempty, Bool.false_eq_true, if_false, h.len_eq, h.front_eq, h.offset_eq, h.back_eq]
  by_cases hone : l.length = 1
  · obtain ⟨a0, rfl⟩ := length_eq_one_iff.mp hone
    refine ⟨0, a0, r, ⟨⟨a0, rfl, .inr rfl⟩, fun j hj p hp => ?_⟩, rfl, by simp, by simpa using h⟩
    rw [getElem?_eq_none (show 1 ≤ j from hj)] at hp
    cases hp
  · rw [if_neg hone]
    obtain ⟨found, hscan, hbefore, hfound⟩ :=
      scan_spec h totalBytesAcked l.length (i := 1) (by omega)
    rw [hscan, bind_some]
    cases found with
    | some n =>
      obtain ⟨hn, p, hp, hgt⟩ := hfound n rfl
      obtain ⟨a0, left, hIsA0, ha0, hleft, hdrop, hlast⟩ :=
        choose_of_found h hsorted hn (fun j hj hlt => hbefore j hj (by simpa using hlt)) hp hgt
      exact ⟨n - 1, a0, left, hIsA0, ha0, by simp [ha0, hleft], iff_of_true hdrop (.inr hlast)⟩
    | none =>
      obtain ⟨a0, left, hIsA0, hlast, ha0, hleft, hdrop, hle⟩ :=
        choose_of_not_found h (by omega) fun j hj => hbefore j hj nofun
      rw [h.len_eq] at hleft
      refine ⟨l.length - 1, a0, left, hIsA0, ha0, by simp [hlast, hleft], fun hrep => ?_, ?_⟩
      · -- half of the queue is one candidate only if there were two
        have hhalf := congrArg List.length (hdrop.unique hrep)
        rw [length_drop, length_drop] at hhalf
        exact .inl (by omega)
      · rintro (htwo | ⟨p, hp, hgt⟩)
        · have hlen : l.length - 1 = l.length / 2 := by omega
          rwa [hlen]
        · rw [hlast] at hp
          rw [← some.inj hp] at hgt
          exact absurd hgt (not_lt.mpr hle)

/-- Candidates at three times, with a thousand bytes acked between them. -/
def threeCandidates : RingBuffer AckPoint :=
  (((RingBuffer.init 2).pushBack ⟨10, 1000⟩).pushBack ⟨20, 2000⟩).pushBack ⟨30, 3000⟩

theorem represents_threeCandidates :
    Represents threeCandidates [⟨10, 1000⟩, ⟨20, 2000⟩, ⟨30, 3000⟩] := by
  have hfirst := (RingBuffer.represents_init 2).pushBack (⟨10, 1000⟩ : AckPoint)
  exact (hfirst.pushBack ⟨20, 2000⟩).pushBack ⟨30, 3000⟩

/-- With a bound that the last candidate exceeds the older ones are removed. -/
theorem older_removed_exceeded :
    chooseA0Point threeCandidates 2500 =
        some (some ⟨20, 2000⟩, ⟨[default, ⟨20, 2000⟩, ⟨30, 3000⟩, default], 1, 3, false⟩) ∧
      ∃ i a0 left, IsA0 [⟨10, 1000⟩, ⟨20, 2000⟩, ⟨30, 3000⟩] 2500 i ∧
        [(⟨10, 1000⟩ : AckPoint), ⟨20, 2000⟩, ⟨30, 3000⟩][i]? = some a0 ∧
        chooseA0Point threeCandidates 2500 = some (some a0, left) ∧
        Represents left ([⟨10, 1000⟩, ⟨20, 2000⟩, ⟨30, 3000⟩].drop i) := by
  refine ⟨by decide, ?_⟩
  obtain ⟨i, a0, left, hIsA0, ha0, hchoose, hiff⟩ :=
    older_removed_iff represents_threeCandidates (by decide) (by decide) 2500
  exact ⟨i, a0, left, hIsA0, ha0, hchoose, hiff.mpr (.inr ⟨⟨30, 3000⟩, rfl, by decide⟩)⟩

/-- All three candidates are within the bound. The last one is chosen, but the one before it is
still at the front of the queue. -/
theorem older_candidate_left :
    (chooseA0Point threeCandidates 5000).map (fun chosen => (chosen.1, chosen.2.front)) =
        some (some ⟨30, 3000⟩, some ⟨20, 2000⟩) ∧
      IsA0 [⟨10, 1000⟩, ⟨20, 2000⟩, ⟨30, 3000⟩] 5000 2 := by
  refine ⟨by decide, ⟨⟨30, 3000⟩, rfl, .inl (by decide)⟩, fun j hj p hp => ?_⟩
  rw [getElem?_eq_none (show 3 ≤ j from hj)] at hp
  cases hp

end BBR

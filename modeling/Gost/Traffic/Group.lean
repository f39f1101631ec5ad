import Mathlib.Algebra.Order.Field.Rat
import Mathlib.Data.Nat.Cast.Basic
import Gost.Lib.RateLimiter

/-!
# Groups of traffic limiters

`llimiter.Wait` and `limiterGroup.Wait` of `x/limiter/traffic`. A limiter grants at most its burst,
and nothing if the wait fails. The amount that a group asks for shrinks from one member to the next,
so what is granted in the end is what the last member was charged; the members before it may have
been charged more. The group is in the order of the rates, and a burst may be set independently of
its rate.

`charges_grant_iff`: the members are all charged what the group grants exactly if none after the
first grants less than the first.
-/

namespace Traffic

open List RateLimiter

/-- A `llimiter` as a `Wait` of its group finds it: the time at which it is asked, and whether its
`WaitN` succeeds. -/
structure Member where
  limiter : Limiter ℚ
  now : ℚ := 0
  ok : Bool := true
deriving DecidableEq, Repr

/-- `Wait` of a limiter, with the limiter afterwards. -/
def Member.wait (m : Member) (n : ℕ) : Limiter ℚ × ℕ :=
  let n := if m.limiter.burst < n then m.limiter.burst else n
  match m.limiter.waitN m.now n m.ok with
  | some l => (l, n)
  | none => (m.limiter, 0)

/-- `Wait` of a group, with the limiters afterwards. -/
def wait : List Member → ℕ → List (Limiter ℚ) × ℕ
  | [], n => ([], n)
  | m :: ms, n =>
    let v := (m.wait n).2
    let rest := wait ms (if v < n then v else n)
    ((m.wait n).1 :: rest.1, rest.2)

/-- Exactly `v` tokens are missing in each limiter. -/
def Charged (v : ℕ) (ms : List Member) (ls : List (Limiter ℚ)) : Prop :=
  List.Forall₂ (fun (m : Member) l => l.tokensAt m.now = m.limiter.tokensAt m.now - (v : ℚ)) ms ls

instance (v : ℕ) (ms : List Member) (ls : List (Limiter ℚ)) : Decidable (Charged v ms ls) :=
  inferInstanceAs (Decidable (List.Forall₂ _ ms ls))

/-- The member grants the whole amount. -/
def Member.Passes (n : ℕ) (m : Member) : Prop := m.ok = true ∧ n ≤ m.limiter.burst

instance (n : ℕ) (m : Member) : Decidable (m.Passes n) :=
  inferInstanceAs (Decidable (m.ok = true ∧ n ≤ m.limiter.burst))

/-- What the first member grants is nothing, or every other member grants it as well. -/
def Level : List Member → ℕ → Prop
  | [], _ => True
  | m :: ms, n => (m.wait n).2 = 0 ∨ ∀ m' ∈ ms, m'.Passes (m.wait n).2

/-! ## One limiter -/

namespace Member

variable (m : Member) (n : ℕ)

theorem wait_eq : m.wait n = if m.ok then (m.limiter.take m.now (min n m.limiter.burst : ℕ),
    min n m.limiter.burst) else (m.limiter, 0) := by
  have hcap : (if m.limiter.burst < n then m.limiter.burst else n) = min n m.limiter.burst := by
    split_ifs with h
    · exact (min_eq_right h.le).symm
    · exact (min_eq_left (not_lt.mp h)).symm
  unfold wait Limiter.waitN
  rw [hcap]
  cases m.ok with
  | false => simp
  | true => simp

theorem wait_le : (m.wait n).2 ≤ n := by
  rw [wait_eq]
  split_ifs
  · exact min_le_left _ _
  · exact Nat.zero_le n

/-- A limiter is charged what it grants. -/
theorem tokensAt_wait :
    (m.wait n).1.tokensAt m.now = m.limiter.tokensAt m.now - ((m.wait n).2 : ℕ) := by
  rw [wait_eq]
  split_ifs
  · exact m.limiter.tokensAt_take m.now (Int.natCast_nonneg _)
  · exact (sub_zero _).symm

theorem wait_eq_self_iff : (m.wait n).2 = n ↔ n = 0 ∨ m.Passes n := by
  rw [wait_eq]
  split_ifs with hok
  · rw [min_eq_left_iff]
    constructor
    · exact fun hle => .inr ⟨hok, hle⟩
    · rintro (rfl | hpass)
      · exact Nat.zero_le _
      · exact hpass.2
  · constructor
    · exact fun hzero => .inl hzero.symm
    · rintro (rfl | hpass)
      · rfl
      · exact absurd hpass.1 hok

end Member

/-! ## The group -/

/-- The amount that is left for the next member is what the last one has granted. -/
theorem wait_cons (m : Member) (ms : List Member) (n : ℕ) :
    wait (m :: ms) n = ((m.wait n).1 :: (wait ms (m.wait n).2).1, (wait ms (m.wait n).2).2) := by
  have hnext : (if (m.wait n).2 < n then (m.wait n).2 else n) = (m.wait n).2 := by
    split_ifs with h
    · rfl
    · exact le_antisymm (not_lt.mp h) (m.wait_le n)
  rw [wait, hnext]

theorem wait_le (ms : List Member) (n : ℕ) : (wait ms n).2 ≤ n := by
  induction ms generalizing n with
  | nil => exact le_rfl
  | cons m ms ih =>
    rw [wait_cons]
    exact (ih _).trans (m.wait_le n)

/-- The whole amount is granted if every member passes it. -/
theorem wait_eq_self_iff (ms : List Member) (n : ℕ) :
    (wait ms n).2 = n ↔ n = 0 ∨ ∀ m ∈ ms, m.Passes n := by
  induction ms generalizing n with
  | nil => exact iff_of_true rfl (.inr nofun)
  | cons m ms ih =>
    rw [wait_cons]
    constructor
    · intro h
      -- the first member cannot have granted less
      have hfirst : (m.wait n).2 = n := le_antisymm (m.wait_le n) (h.symm.trans_le (wait_le ms _))
      rw [hfirst, ih] at h
      rw [Member.wait_eq_self_iff] at hfirst
      rcases h with h | h
      · exact .inl h
      · refine hfirst.imp id fun hm => ?_
        exact forall_mem_cons.mpr ⟨hm, h⟩
    · intro h
      have hfirst : (m.wait n).2 = n :=
        (m.wait_eq_self_iff n).mpr (h.imp id fun hall => hall m mem_cons_self)
      rw [hfirst, ih]
      exact h.imp id fun hall m' hm' => hall m' (mem_cons_of_mem m hm')

/-- If the whole amount is granted, every member is charged it. -/
theorem charged_of_wait_eq {ms : List Member} {n : ℕ} (h : (wait ms n).2 = n) :
    Charged n ms (wait ms n).1 := by
  induction ms with
  | nil => exact .nil
  | cons m ms ih =>
    rw [wait_eq_self_iff] at h
    have hfirst : (m.wait n).2 = n :=
      (m.wait_eq_self_iff n).mpr (h.imp id fun hall => hall m mem_cons_self)
    have hcharge := m.tokensAt_wait n
    rw [wait_cons, hfirst]
    rw [hfirst] at hcharge
    refine .cons hcharge (ih ?_)
    exact (wait_eq_self_iff ms n).mpr
      (h.imp id fun hall m' hm' => hall m' (mem_cons_of_mem m hm'))

/-- `Wait` of a group deducts exactly what it returns from every member, if and only if what the
first member grants is nothing or passes all the others. -/
theorem charges_grant_iff (ms : List Member) (n : ℕ) :
    Charged (wait ms n).2 ms (wait ms n).1 ↔ Level ms n := by
  cases ms with
  | nil => exact iff_of_true .nil trivial
  | cons m ms =>
    show _ ↔ (m.wait n).2 = 0 ∨ ∀ m' ∈ ms, m'.Passes (m.wait n).2
    rw [← wait_eq_self_iff, wait_cons]
    constructor
    · intro h
      -- the first member was charged what it has granted
      have hhead := (forall₂_cons.mp h).1
      rw [m.tokensAt_wait n, sub_right_inj, Nat.cast_inj] at hhead
      exact hhead.symm
    · intro h
      refine .cons ?_ ?_
      · rw [m.tokensAt_wait n, h]
      · rw [h]
        exact charged_of_wait_eq h

/-- `rate.NewLimiter`, with all its tokens. -/
def bucket (r : ℚ) (burst : ℕ) : Member where
  limiter := { limit := r, burst, tokens := burst, last := 0 }

theorem charges_grant_equal_bursts :
    Charged (wait [bucket 10 100, bucket 20 100] 500).2 [bucket 10 100, bucket 20 100]
      (wait [bucket 10 100, bucket 20 100] 500).1 :=
  (charges_grant_iff [bucket 10 100, bucket 20 100] 500).mpr (.inr (by decide +kernel))

/-- A slow limiter with a large burst is charged a hundred bytes, the fast one after it grants
five. -/
theorem overcharged_by_small_burst :
    (wait [bucket 10 100, bucket 20 5] 500).2 = 5 ∧
    ¬Charged (wait [bucket 10 100, bucket 20 5] 500).2 [bucket 10 100, bucket 20 5]
      (wait [bucket 10 100, bucket 20 5] 500).1 := by
  decide +kernel

end Traffic

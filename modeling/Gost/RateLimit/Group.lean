import Mathlib.Algebra.Order.Field.Rat
import Mathlib.Data.Int.Cast.Lemmas
import Gost.Lib.RateLimiter

/-!
# Groups of rate limiters

`limiterGroup` of `x/limiter/rate`. The limiters of a client, its own one and the global one, are
asked one after the other, and each that allows the request has taken its tokens by then. A denial
by a later member does not give them back.

`denied_charges_nobody_iff`: a denied request costs nobody a token exactly if the first member
denies it. Which member is the first depends on the limits alone, so a client whose own limiter
comes second drains a shared one with requests that are all denied.
-/

namespace RateLimit

open RateLimiter

/-- `NewLimiter`, with the burst that the generators choose. -/
def newLimiter (r : ℚ) : Limiter ℚ where
  limit := r
  burst := r.floor.toNat + 1
  tokens := (r.floor.toNat + 1 : ℕ)
  last := 0

/-- `rlimiter`, with the time that its `Allow` reads from the clock. -/
structure Member where
  limiter : Limiter ℚ
  now : ℚ
deriving DecidableEq, Repr

/-- `Allow` of a group, with the limiters afterwards. -/
def allow : List Member → ℤ → List (Limiter ℚ) × Bool
  | [], _ => ([], true)
  | m :: ms, n =>
    match m.limiter.allowN m.now n with
    | none => (m.limiter :: ms.map (·.limiter), false)
    | some l => (l :: (allow ms n).1, (allow ms n).2)

/-- Every member has the tokens it would have had without the call. -/
def Uncharged (ms : List Member) (ls : List (Limiter ℚ)) : Prop :=
  List.Forall₂ (fun m l => l.tokensAt m.now = m.limiter.tokensAt m.now) ms ls

instance (ms : List Member) (ls : List (Limiter ℚ)) : Decidable (Uncharged ms ls) :=
  inferInstanceAs (Decidable (List.Forall₂ _ ms ls))

/-- The request is denied by the member that is asked first. -/
def FirstDenies (ms : List Member) (n : ℤ) : Prop :=
  ∃ m ∈ ms.head?, m.limiter.allowN m.now n = none

variable {ms : List Member} {n : ℤ}

theorem uncharged_refl (ms : List Member) : Uncharged ms (ms.map (·.limiter)) := by
  induction ms with
  | nil => exact .nil
  | cons m ms ih => exact .cons rfl ih

/-- A request for nothing costs nothing. -/
theorem uncharged_allow_zero (ms : List Member) : Uncharged ms (allow ms 0).1 := by
  induction ms with
  | nil => exact .nil
  | cons m ms ih =>
    rw [allow]
    split
    · exact uncharged_refl (m :: ms)
    next l hl =>
      refine .cons ?_ ih
      rw [Limiter.eq_take_of_allowN _ _ hl, Limiter.tokensAt_take _ _ le_rfl]
      exact sub_zero _

/-- Without the first denial nobody is asked at all. -/
theorem FirstDenies.uncharged (h : FirstDenies ms n) : Uncharged ms (allow ms n).1 := by
  obtain ⟨m, hm, hdenied⟩ := h
  obtain ⟨ms', rfl⟩ := List.head?_eq_some_iff.mp hm
  rw [allow, hdenied]
  exact uncharged_refl (m :: ms')

/-- A member that allows a request before another denies it has lost its tokens. -/
theorem firstDenies_of_uncharged (hn : 0 < n) (hdenied : (allow ms n).2 = false)
    (h : Uncharged ms (allow ms n).1) : FirstDenies ms n := by
  cases ms with
  | nil => cases hdenied
  | cons m ms =>
    refine ⟨m, rfl, ?_⟩
    rw [allow] at h
    split at h
    next hnone => exact hnone
    next l hl =>
      obtain ⟨hhead, -⟩ := List.forall₂_cons.mp h
      rw [Limiter.eq_take_of_allowN _ _ hl, Limiter.tokensAt_take _ _ hn.le, sub_eq_self,
        Int.cast_eq_zero] at hhead
      exact absurd hhead hn.ne'

/-- A denied request leaves all members with their tokens if it asks for none or the first member
denies it, and a request for tokens does so only in that case. -/
theorem denied_charges_nobody_iff (ms : List Member) (n : ℤ) (hdenied : (allow ms n).2 = false) :
    (n = 0 ∨ FirstDenies ms n → Uncharged ms (allow ms n).1) ∧
    (0 < n → (Uncharged ms (allow ms n).1 ↔ FirstDenies ms n)) := by
  refine ⟨?_, fun hn => ⟨firstDenies_of_uncharged hn hdenied, FirstDenies.uncharged⟩⟩
  rintro (rfl | hfirst)
  · exact uncharged_allow_zero ms
  · exact hfirst.uncharged

/-- A limiter of rate one that is full. -/
def full : Member where
  limiter := newLimiter 1
  now := 0

/-- A limiter of rate two whose three tokens are used up. -/
def drained : Member where
  limiter := { newLimiter 2 with tokens := 0 }
  now := 0

theorem denied_charges_nobody_drained : Uncharged [drained, full] (allow [drained, full] 1).1 :=
  (denied_charges_nobody_iff [drained, full] 1 (by decide +kernel)).1
    (.inr ⟨drained, rfl, by decide +kernel⟩)

/-- In the order of their limits, the full limiter is asked first and charged for a request that
the client's own limiter denies. -/
theorem denied_charges_shared :
    (allow [full, drained] 1).2 = false ∧
    ¬Uncharged [full, drained] (allow [full, drained] 1).1 := by
  decide +kernel

end RateLimit

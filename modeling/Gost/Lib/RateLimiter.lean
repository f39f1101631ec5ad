import Mathlib.Algebra.Order.Ring.Cast

/-!
# Rate limiters

A limiter as in `golang.org/x/time/rate`: a bucket that fills with `limit` tokens in a unit of time
and holds at most `burst`. `allowN` takes the tokens only if they are there. `waitN` takes them in
any case and lets its caller wait for them, so the bucket may owe tokens; a wait that is given up
gives them back.

Times and tokens are elements of an ordered ring, without the rounding of the implementation.
-/

namespace RateLimiter

variable {K : Type*} [Ring K] [LinearOrder K]

/-- `Limiter`, with the tokens it had at the time `last`. -/
structure Limiter (K : Type*) where
  limit : K
  burst : ℕ
  tokens : K
  last : K
deriving DecidableEq, Repr

namespace Limiter

/-- `TokensAt`. A clock that goes back adds nothing. -/
def tokensAt (l : Limiter K) (now : K) : K :=
  min (l.burst : K) (l.tokens + l.limit * max 0 (now - l.last))

/-- The bucket after `n` tokens are taken. -/
def take (l : Limiter K) (now : K) (n : ℤ) : Limiter K :=
  { l with tokens := l.tokensAt now - n, last := now }

/-- `AllowN`, `none` for a denial, which leaves the bucket as it is. -/
def allowN (l : Limiter K) (now : K) (n : ℤ) : Option (Limiter K) :=
  if n ≤ l.burst ∧ (n : K) ≤ l.tokensAt now then some (l.take now n) else none

/-- `WaitN`, `none` for an error, which leaves the bucket as it is. The context decides whether the
wait ends with `ok`. -/
def waitN (l : Limiter K) (now : K) (n : ℤ) (ok : Bool) : Option (Limiter K) :=
  if n ≤ l.burst ∧ ok then some (l.take now n) else none

variable (l : Limiter K) (now : K) {n : ℤ}

theorem eq_take_of_allowN {l' : Limiter K} (h : l.allowN now n = some l') : l' = l.take now n := by
  unfold allowN at h
  split_ifs at h
  exact (Option.some.inj h).symm

/-- What is taken is missing, unless it is a negative number: then the bucket may overflow. -/
theorem tokensAt_take [IsStrictOrderedRing K] (hn : 0 ≤ n) :
    (l.take now n).tokensAt now = l.tokensAt now - n := by
  have hburst : l.tokensAt now - n ≤ l.burst :=
    (sub_le_self _ (Int.cast_nonneg hn)).trans (min_le_left _ _)
  show min (l.burst : K) (l.tokensAt now - n + l.limit * max 0 (now - now)) = _
  rw [sub_self, max_self, mul_zero, add_zero]
  exact min_eq_right hburst

end Limiter

end RateLimiter

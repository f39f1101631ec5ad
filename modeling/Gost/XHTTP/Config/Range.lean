import Mathlib.Algebra.Order.Ring.Int

/-!
# Ranges of randomised settings

`Range` of `xhttp/config/config.go` and the multiplexing settings made of ranges. `Rand` draws with
`randutil.RandBetween`; what it may return is the predicate `Draws`, so that a result about every
drawn value is a result about every outcome of the random source.
-/

namespace XHTTP

/-- An integer range, `From` to `To`. -/
structure Range where
  -- `From`
  lo : ℤ
  -- `To`
  hi : ℤ
deriving DecidableEq, Repr

/-- `x` is a possible result of `r.Rand()`. The upper end is drawn only from a range of one value,
and the ends may come in either order. -/
def Range.Draws (r : Range) (x : ℤ) : Prop :=
  if r.lo = r.hi then x = r.lo else min r.lo r.hi ≤ x ∧ x < max r.lo r.hi

instance (r : Range) (x : ℤ) : Decidable (r.Draws x) := by
  unfold Range.Draws
  infer_instance

/-- A drawn value lies in the range. -/
theorem Range.Draws.mem {r : Range} {x : ℤ} (h : r.Draws x) (hr : r.lo ≤ r.hi) :
    r.lo ≤ x ∧ x ≤ r.hi := by
  unfold Range.Draws at h
  split_ifs at h with heq
  · omega
  · rw [min_eq_left hr, max_eq_right hr] at h
    exact ⟨h.1, h.2.le⟩

/-- A configured range, or the default if it is not set or ends at zero. -/
def Range.orDefault (r : Option Range) (default : Range) : Range :=
  match r with
  | some r => if r.hi = 0 then default else r
  | none => default

/-- `XmuxConfig`: connection multiplexing on the client side. -/
structure XmuxConfig where
  maxConcurrency : Option Range := none
  maxConnections : Option Range := none
  cMaxReuseTimes : Option Range := none
  hMaxRequestTimes : Option Range := none
  hMaxReusableSecs : Option Range := none
  hKeepAlivePeriod : ℤ := 0
deriving DecidableEq, Repr

namespace XmuxConfig

def getNormalizedMaxConcurrency (m : XmuxConfig) : Range := m.maxConcurrency.getD ⟨0, 0⟩

def getNormalizedMaxConnections (m : XmuxConfig) : Range := m.maxConnections.getD ⟨0, 0⟩

def getNormalizedCMaxReuseTimes (m : XmuxConfig) : Range := m.cMaxReuseTimes.getD ⟨0, 0⟩

def getNormalizedHMaxRequestTimes (m : XmuxConfig) : Range := m.hMaxRequestTimes.getD ⟨0, 0⟩

def getNormalizedHMaxReusableSecs (m : XmuxConfig) : Range := m.hMaxReusableSecs.getD ⟨0, 0⟩

end XmuxConfig

/-- `GetNormalizedXmux`: the defaults apply when no setting is given at all. -/
def getNormalizedXmux (xmux : Option XmuxConfig) : XmuxConfig :=
  let m := xmux.getD {}
  if m = {} then
    { maxConcurrency := some ⟨1, 1⟩, hMaxRequestTimes := some ⟨600, 900⟩,
      hMaxReusableSecs := some ⟨1800, 3000⟩ }
  else m

end XHTTP

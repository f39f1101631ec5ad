import Gost.Traffic.Limiter

/-!
# Reloading the same configuration

A second reload of a configuration leaves the limiters of the connections as they are. A limiter of
the service or of an IP is always `Set`, which makes its burst the rate, so the burst of the
configuration does not survive. An IP of its own whose entry has expired takes the limiter of a
network, which the next reload replaces. Two spellings of one network share one value, the one that
the loop over the configuration came to last, and that order changes from one reload to the next.
-/

namespace Traffic

open ExpiringCache Option TransitionSystem

variable {ν : Type} [DecidableEq ν]

/-- Every limiter in the caches is in them afterwards, with its rate and its burst. -/
structure Unchanged (s s' : State ν) : Prop where
  conn : ∀ d key lim, (s.tables d).conn.get s.now key = some lim →
    (s'.tables d).conn.get s'.now key = some lim
  limits : ∀ d key lim, (s.tables d).limits.get s.now key = some lim →
    (s'.tables d).limits.get s'.now key = some lim

/-- In every state of the limiter that a reload of the configuration and then calls lead to, another
reload changes no limiter. -/
def ReloadIdempotent (net : Net ν) (config : Values) : Prop :=
  ∀ s₀, Reachable (State.step net) newTrafficLimiter s₀ →
    ∀ values values' : Values, values.entries.Perm config.entries →
      values'.entries.Perm config.entries → ∀ ops s, (∀ op ∈ ops, Op.Use op) →
        run (State.step net) (s₀.reload net values) ops = some s →
          Unchanged s (s.reload net values')

/-- What has to hold of a configuration for that. -/
structure Stable (net : Net ν) (config : Values) : Prop where
  /-- No burst of its own for the service or an IP. -/
  burst : ∀ d key v, config.own net key = some v → 0 < v.rate d →
    v.burst ≤ 0 ∨ v.burst = v.rate d
  /-- An IP of its own has the limit of the first network that contains it, if that has one. -/
  network : ∀ d key v g (values : Values), values.entries.Perm config.entries →
    config.own net (hostOf key) = some v →
      (values.ranger net).first net (hostOf key) = some g → 0 < g.rate d →
        g.rate d = v.rate d ∧ (g.burst ≤ 0 ∨ g.burst = g.rate d)
  /-- The rate of the first network of another IP does not depend on the order. -/
  order : ∀ d key g (values values' : Values), values.entries.Perm config.entries →
    values'.entries.Perm config.entries → config.own net key = none →
      (values.ranger net).first net key = some g → 0 < g.rate d →
        ∃ g', (values'.ranger net).first net key = some g' ∧ g'.rate d = g.rate d

theorem newLimiterWithBurst_eq_iff {r burst : ℤ} :
    newLimiterWithBurst r burst = newLimiter r ↔ burst ≤ 0 ∨ burst = r := by
  unfold newLimiterWithBurst newLimiter
  by_cases h : burst ≤ 0
  · simp [h]
  · simp [h]

variable {net : Net ν} {config values values' : Values} {s s' : State ν} {op : Op}

/-! ## A stable configuration -/

/-- What the caches hold after a reload of a stable configuration. -/
structure Settled (net : Net ν) (config values : Values) (s : State ν) : Prop where
  generator : s.generator = some config.conn
  cidrGenerators : s.cidrGenerators = values.ranger net
  conn : ∀ d key lim, (s.tables d).conn.get s.now key = some lim → 0 < config.conn.rate d
  own : ∀ d key v lim, config.own net key = some v →
    (s.tables d).limits.get s.now key = some lim →
      0 < v.rate d ∧ lim = newLimiter (v.rate d)
  other : ∀ d key lim, config.own net key = none →
    (s.tables d).limits.get s.now key = some lim →
      ∃ g, (values.ranger net).first net key = some g ∧ 0 < g.rate d ∧ lim.rate = g.rate d

theorem settled_reload (hstable : Stable net config) (h : values.entries.Perm config.entries)
    (s : State ν) : Settled net config values (s.reload net values) where
  generator := congrArg some (Values.conn_of_perm h)
  cidrGenerators := rfl
  conn d key lim hlim := by
    have hget : (s.reloadConns d values).get s.now key = some lim := hlim
    rw [State.get_reloadConns, Values.conn_of_perm h] at hget
    by_contra hrate
    simp [hrate] at hget
  own d key v lim hown hlim := by
    have hget : (s.reloadLimits net d values).get s.now key = some lim := hlim
    rw [State.get_reloadLimits_own ((Values.own_of_perm h key).trans hown)] at hget
    split_ifs at hget with hrate
    refine ⟨hrate, ?_⟩
    split at hget
    · exact (some.inj hget).symm
    · rw [newLimiterWithBurst_eq_iff.mpr (hstable.burst d key v hown hrate)] at hget
      exact (some.inj hget).symm
  other d key lim hown hlim := by
    have hget : (s.reloadLimits net d values).get s.now key = some lim := hlim
    rw [State.get_reloadLimits_other ((Values.own_of_perm h key).trans hown)] at hget
    split at hget
    next lim' g _ hfirst =>
      split_ifs at hget with hrate heq
      · cases hget
        exact ⟨g, hfirst, hrate, heq⟩
      · cases hget
        exact ⟨g, hfirst, hrate, rfl⟩
    next => exact absurd hget (by simp)

/-- A call adds what the generators make, and that fits. -/
theorem settled_step (hstable : Stable net config) (h : values.entries.Perm config.entries)
    (hs : Settled net config values s) (hop : op.Use) (hstep : s.step net op = some s') :
    Settled net config values s' := by
  obtain ⟨_, rfl, -⟩ | ⟨-, hused⟩ := State.step_cases hstep
  · exact hop.elim
  -- a limiter of an IP was there before, or it is a new one of the first network
  have hlimits : ∀ d host lim, (s'.tables d).limits.get s'.now host = some lim →
      (s.tables d).limits.get s.now host = some lim ∨ ∃ key g, hostOf key = host ∧
        (values.ranger net).first net host = some g ∧ 0 < g.rate d ∧
          lim = newLimiterWithBurst (g.rate d) g.burst := by
    intro d host lim hlim
    obtain hold | ⟨hnew, key, -, hhost⟩ := hused.limits d host lim hlim
    · exact .inl hold
    · unfold State.ipLimiter at hnew
      split at hnew
      next hget => exact .inl (hget.trans hnew)
      next =>
        rw [hs.cidrGenerators] at hnew
        obtain ⟨g, hfirst, hlimiter⟩ := bind_eq_some_iff.mp hnew
        rw [LimitValue.limiter_eq] at hlimiter
        split_ifs at hlimiter with hrate
        exact .inr ⟨key, g, hhost, hfirst, hrate, (some.inj hlimiter).symm⟩
  constructor
  case generator => exact hused.generator.trans hs.generator
  case cidrGenerators => exact hused.cidrGenerators.trans hs.cidrGenerators
  case conn =>
    intro d key lim hlim
    have hnew := hused.conn d key lim hlim
    unfold State.connLimiter at hnew
    split at hnew
    next lim' hget => exact hs.conn d key lim' hget
    next =>
      rw [hs.generator, bind_some, LimitValue.limiter_eq] at hnew
      split_ifs at hnew with hrate
      exact hrate
  case own =>
    intro d host v lim hown hlim
    obtain hold | ⟨key, g, rfl, hfirst, hrate, rfl⟩ := hlimits d host lim hlim
    · exact hs.own d host v lim hown hold
    · obtain ⟨heq, hburst⟩ := hstable.network d key v g values h hown hfirst hrate
      rw [newLimiterWithBurst_eq_iff.mpr hburst, ← heq]
      exact ⟨hrate, rfl⟩
  case other =>
    intro d host lim hown hlim
    obtain hold | ⟨key, g, rfl, hfirst, hrate, rfl⟩ := hlimits d host lim hlim
    · exact hs.other d host lim hown hold
    · exact ⟨g, hfirst, hrate, rfl⟩

/-- A reload changes nothing in such a state. -/
theorem unchanged_reload (hstable : Stable net config) (h : values.entries.Perm config.entries)
    (h' : values'.entries.Perm config.entries) (hs : Settled net config values s) :
    Unchanged s (s.reload net values') where
  conn d key lim hlim := by
    show (s.reloadConns d values').get s.now key = some lim
    rw [State.get_reloadConns, Values.conn_of_perm h', hs.generator, hlim,
      if_pos (hs.conn d key lim hlim)]
    simp
  limits d key lim hlim := by
    show (s.reloadLimits net d values').get s.now key = some lim
    cases hown : config.own net key with
    | some v =>
      obtain ⟨hrate, rfl⟩ := hs.own d key v lim hown hlim
      rw [State.get_reloadLimits_own ((Values.own_of_perm h' key).trans hown), hlim, if_pos hrate]
    | none =>
      obtain ⟨g, hfirst, hrate, heq⟩ := hs.other d key lim hown hlim
      obtain ⟨g', hfirst', heq'⟩ := hstable.order d key g values values' h h' hown hfirst hrate
      have hrate' : 0 < g'.rate d := heq' ▸ hrate
      have hlimrate : lim.rate = g'.rate d := heq.trans heq'.symm
      rw [State.get_reloadLimits_other ((Values.own_of_perm h' key).trans hown), hlim, hfirst']
      simp [hrate', hlimrate]

theorem Stable.reloadIdempotent (hstable : Stable net config) : ReloadIdempotent net config := by
  intro s₀ _ values values' h h' ops s hops hrun
  refine unchanged_reload hstable h h' ?_
  exact run_induction_along (fun _ _ _ hs hop hstep => settled_step hstable h hs hop hstep)
    (settled_reload hstable h s₀) (along_of_forall hops _) hrun

/-! ## An idempotent reload -/

variable {d : Dir} {key : Bytes} {lim : LLimiter} {g : LimitValue}

/-- A reload that changes nothing leaves a limiter for a key of its own that is as `Set` makes
it. -/
theorem Unchanged.own {v : LimitValue} (h : Unchanged s (s.reload net values))
    (hown : values.own net key = some v) (hlim : (s.tables d).limits.get s.now key = some lim) :
    lim = newLimiter (v.rate d) := by
  have hget : (s.reloadLimits net d values).get s.now key = some lim := h.limits d key lim hlim
  rw [State.get_reloadLimits_own hown, hlim] at hget
  split_ifs at hget
  exact (some.inj hget).symm

/-- A reload that changes nothing finds the rate of every other limiter in the first network. -/
theorem Unchanged.other (h : Unchanged s (s.reload net values)) (hown : values.own net key = none)
    (hlim : (s.tables d).limits.get s.now key = some lim) :
    ∃ g, (values.ranger net).first net key = some g ∧ g.rate d = lim.rate := by
  have hget : (s.reloadLimits net d values).get s.now key = some lim := h.limits d key lim hlim
  rw [State.get_reloadLimits_other hown, hlim] at hget
  cases hfirst : (values.ranger net).first net key with
  | none => simp [hfirst] at hget
  | some g =>
    refine ⟨g, rfl, ?_⟩
    simp only [hfirst] at hget
    split_ifs at hget with hrate heq
    · exact heq.symm
    · exact congrArg LLimiter.rate (some.inj hget)

/-- The calls of a client that comes back after its entry has expired. -/
def returnLate (d : Dir) (key : Bytes) : List Op :=
  [.call d key .conn, .tick (defaultExpiration + 1), .call d key .conn]

/-- Such a client has the limiter of its first network. -/
theorem run_returnLate (hfirst : s.cidrGenerators.first net (hostOf key) = some g)
    (hrate : 0 < g.rate d) :
    ∃ s', run (State.step net) s (returnLate d key) = some s' ∧
      (s'.tables d).limits.get s'.now (hostOf key) =
        some (newLimiterWithBurst (g.rate d) g.burst) := by
  let s₁ := (s.call net d key .conn).1
  let s₂ : State ν := { s₁ with now := s₁.now + (defaultExpiration + 1) }
  have hlimiter : (s.cidrGenerators.first net (hostOf key)).bind (·.limiter d) =
      some (newLimiterWithBurst (g.rate d) g.burst) := by
    rw [hfirst, bind_some, LimitValue.limiter_eq, if_pos hrate]
  -- the first call stores some limiter for 15 seconds
  obtain ⟨lim, hlim⟩ : ∃ lim, s.ipLimiter net d (hostOf key) = some lim := by
    unfold State.ipLimiter
    split
    next lim _ => exact ⟨lim, rfl⟩
    next => exact ⟨_, hlimiter⟩
  have hitem : (s₁.tables d).limits (hostOf key) =
      some ⟨lim, some (s.now + defaultExpiration)⟩ := by
    simp [s₁, State.call, State.setTables, hlim, State.touch, Cache.set]
  have hnone : (s₂.tables d).limits.get s₂.now (hostOf key) = none := by
    have hdead : ¬Item.Live s₂.now (⟨lim, some (s.now + defaultExpiration)⟩ : Item LLimiter) := by
      intro hlive
      have hle : s.now + (defaultExpiration + 1) ≤ s.now + defaultExpiration := hlive _ rfl
      omega
    show (s₁.tables d).limits.get s₂.now (hostOf key) = none
    simp [Cache.get, hitem, hdead]
  refine ⟨(s₂.call net d key .conn).1, rfl, ?_⟩
  show ((s₂.call net d key .conn).1.tables d).limits.get s₂.now (hostOf key) = _
  rw [State.get_limits_call]
  simp only [State.ipLimiter, hnone]
  exact hlimiter

/-- Every IP can have an entry: from an earlier configuration with a limit of its own. -/
theorem exists_reachable_limiter (hip : (net.parseIP key).isSome) (d : Dir) :
    ∃ s lim, Reachable (State.step net) newTrafficLimiter s ∧
      (s.tables d).limits.get s.now key = some lim := by
  let earlier : Values := AList.singleton key { input := 1, output := 1 }
  have hown : earlier.own net key = some { input := 1, output := 1 } := by
    rw [Values.own_of_parseIP hip]
    exact List.dlookup_cons_eq _ key _
  refine ⟨newTrafficLimiter.reload net earlier, newLimiterWithBurst 1 0,
    ⟨[.reload earlier], rfl⟩, ?_⟩
  apply (State.get_reloadLimits_own hown).trans
  cases d <;> rfl

/-- A reload gives an entry that is there the rate of the first network. -/
theorem exists_get_reload_other (hown : values.own net key = none)
    (hfirst : (values.ranger net).first net key = some g) (hrate : 0 < g.rate d)
    (hlim : (s.tables d).limits.get s.now key = some lim) :
    ∃ lim', ((s.reload net values).tables d).limits.get s.now key = some lim' ∧
      lim'.rate = g.rate d := by
  refine ⟨if lim.rate = g.rate d then lim else newLimiter (g.rate d), ?_, ?_⟩
  · apply (State.get_reloadLimits_other hown).trans
    simp [hlim, hfirst, hrate]
  · split_ifs with heq
    · exact heq
    · rfl

theorem ReloadIdempotent.stable (h : ReloadIdempotent net config) : Stable net config where
  burst d key v hown hrate := by
    have hun := h newTrafficLimiter ⟨[], rfl⟩ config config (.refl _) (.refl _) [] _ (by simp) rfl
    refine newLimiterWithBurst_eq_iff.mp (hun.own hown ?_)
    apply (State.get_reloadLimits_own hown).trans
    rw [if_pos hrate]
    rfl
  network d key v g values hperm hown hfirst hrate := by
    obtain ⟨s, hrun, hlim⟩ := run_returnLate (s := newTrafficLimiter.reload net values) hfirst hrate
    have hun := h newTrafficLimiter ⟨[], rfl⟩ values values hperm hperm (returnLate d key) s
      (by simp [returnLate, Op.Use]) hrun
    have heq := hun.own ((Values.own_of_perm hperm _).trans hown) hlim
    have hr : g.rate d = v.rate d := congrArg LLimiter.rate heq
    rw [← hr] at heq
    exact ⟨hr, newLimiterWithBurst_eq_iff.mp heq⟩
  order d key g values values' hperm hperm' hown hfirst hrate := by
    have hip : (net.parseIP key).isSome := by
      obtain ⟨ip, hip, -⟩ := bind_eq_some_iff.mp hfirst
      simp [hip]
    obtain ⟨s₀, lim, hreach, hlim⟩ := exists_reachable_limiter hip d
    obtain ⟨lim', hlim', hrate'⟩ := exists_get_reload_other
      ((Values.own_of_perm hperm key).trans hown) hfirst hrate hlim
    have hun := h s₀ hreach values values' hperm hperm' [] _ (by simp) rfl
    obtain ⟨g', hfirst', heq⟩ := hun.other ((Values.own_of_perm hperm' key).trans hown) hlim'
    exact ⟨g', hfirst', heq.trans hrate'⟩

/-- For every configuration, a further reload leaves every limiter in the caches unchanged if and
only if no key of its own has a burst different from its rate or is in a network with another
limit, and the order of the configuration does not matter to the other IPs. -/
theorem reload_idempotent_iff (net : Net ν) (config : Values) :
    ReloadIdempotent net config ↔ Stable net config :=
  ⟨ReloadIdempotent.stable, Stable.reloadIdempotent⟩

/-- `::1 100 0 300`. -/
def bursting : Values := AList.singleton loopback { input := 100, burst := 300 }

/-- The second reload sets the burst of an IP to its rate. -/
theorem reload_drops_burst :
    let s := newTrafficLimiter.reload .withoutNetworks bursting
    let s' := s.reload .withoutNetworks bursting
    (s.tables .input).limits.get s.now loopback = some ⟨100, 300⟩ ∧
      (s'.tables .input).limits.get s'.now loopback = some ⟨100, 100⟩ := by
  decide

end Traffic

import Gost.Traffic.Limiter

/-!
# The limit of an IP and the expiry of its entry

The limiter of an IP with a limit of its own lives in the cache only: a reload puts it there for 15
seconds, and every use gives it another 15. `In` does not read the configuration, so once the entry
has expired the IP has the limiter of the first network it is in, or none. A reload does not
prolong an entry that is there, and makes a new one only after the old one has expired.
-/

namespace Traffic

open ExpiringCache TransitionSystem

variable {ν : Type} [DecidableEq ν]

/-- `In` for the IP returns a limiter of at most the rate that is the one all connections of the IP
share: it is the one in the cache. -/
def Enforced (net : Net ν) (ip : Bytes) (limit : ℤ) (s : State ν) (op : Op) : Prop :=
  ∀ key, op = .call .input key .conn → hostOf key = ip →
    ∃ lim ∈ (s.call net .input key .conn).2,
      ((s.call net .input key .conn).1.tables .input).limits.get s.now ip = some lim ∧
        lim.rate ≤ limit

/-- When `In` is called for the IP, its entry has not expired, or the first network that contains
it has a limit that is not higher. -/
def Kept (net : Net ν) (ip : Bytes) (limit : ℤ) (s : State ν) (op : Op) : Prop :=
  ∀ key, op = .call .input key .conn → hostOf key = ip →
    ((s.tables .input).limits.get s.now ip).isSome ∨
      ∃ v, s.cidrGenerators.first net ip = some v ∧ 0 < v.input ∧ v.input ≤ limit

/-- The limiter in the cache, if there is one, has at most the rate. -/
def Bounded (ip : Bytes) (limit : ℤ) (s : State ν) : Prop :=
  ∀ lim, (s.tables .input).limits.get s.now ip = some lim → lim.rate ≤ limit

variable {net : Net ν} {config : Values} {ip : Bytes} {limit : ℤ} {s s' : State ν} {op : Op}

omit [DecidableEq ν] in
/-- `In` returns the limiter of the IP, which is then in the cache. -/
theorem enforced_iff_ipLimiter :
    Enforced net ip limit s op ↔ ∀ key, op = .call .input key .conn → hostOf key = ip →
      ∃ lim, s.ipLimiter net .input ip = some lim ∧ lim.rate ≤ limit := by
  refine forall₂_congr fun key hop => forall_congr' fun hhost => ?_
  subst hhost
  rw [State.get_limits_call]
  constructor
  · rintro ⟨lim, -, hlim, hrate⟩
    exact ⟨lim, hlim, hrate⟩
  · rintro ⟨lim, hlim, hrate⟩
    refine ⟨lim, ?_, hlim, hrate⟩
    simp [State.call, State.newLimiterGroup, hlim]

omit [DecidableEq ν] in
/-- An IP has a limiter of at most the rate from its entry or from its first network. -/
theorem exists_ipLimiter_iff (hs : Bounded ip limit s) :
    (∃ lim, s.ipLimiter net .input ip = some lim ∧ lim.rate ≤ limit) ↔
      ((s.tables .input).limits.get s.now ip).isSome ∨
        ∃ v, s.cidrGenerators.first net ip = some v ∧ 0 < v.input ∧ v.input ≤ limit := by
  unfold State.ipLimiter
  cases hget : (s.tables .input).limits.get s.now ip with
  | some lim => simpa using hs lim hget
  | none =>
    cases hfirst : s.cidrGenerators.first net ip with
    | none => simp
    | some v =>
      by_cases hrate : 0 < v.input
      · simp [LimitValue.limiter_eq, LimitValue.rate, hrate, newLimiterWithBurst]
      · simp [LimitValue.limiter_eq, LimitValue.rate, hrate]

omit [DecidableEq ν] in
theorem enforced_iff_kept (hs : Bounded ip limit s) :
    Enforced net ip limit s op ↔ Kept net ip limit s op := by
  rw [enforced_iff_ipLimiter]
  exact forall₂_congr fun key _ => forall_congr' fun _ => exists_ipLimiter_iff hs

/-- A reload gives the entry the rate of the configuration. -/
theorem bounded_reload {values : Values} {v : LimitValue} (hip : (net.parseIP ip).isSome)
    (hv : config.lookup ip = some v) (h : values.entries.Perm config.entries) (s : State ν) :
    Bounded ip v.input (s.reload net values) := by
  intro lim hlim
  have hown : values.own net ip = some v := by
    rw [Values.own_of_parseIP hip, AList.perm_lookup h, hv]
  -- a new limiter and an old one that is set have the same rate
  have hget : (s.reloadLimits net .input values).get s.now ip = some lim := hlim
  rw [State.get_reloadLimits_own hown] at hget
  split_ifs at hget
  split at hget <;> obtain rfl := Option.some.inj hget <;> exact le_rfl

/-- The rate in the cache stays bounded as long as calls find the entry or a lower limit. -/
theorem bounded_step {v : LimitValue} (hip : (net.parseIP ip).isSome)
    (hv : config.lookup ip = some v) (hs : Bounded ip v.input s)
    (hop : op.Loads config ∧ Kept net ip v.input s op) (hstep : s.step net op = some s') :
    Bounded ip v.input s' := by
  obtain ⟨values, rfl, rfl⟩ | ⟨-, hused⟩ := State.step_cases hstep
  · exact bounded_reload hip hv hop.1 s
  · intro lim hlim
    obtain hold | ⟨hnew, key, rfl, hhost⟩ := hused.limits .input ip lim hlim
    · exact hs lim hold
    · obtain ⟨lim', hlim', hrate⟩ := (exists_ipLimiter_iff hs).mpr (hop.2 key rfl hhost)
      obtain rfl : lim' = lim := Option.some.inj (hlim'.symm.trans hnew)
      exact hrate

/-- After the first load of a configuration that limits the input of an IP, and as long as the same
configuration is reloaded, `In` enforces the limit of the IP at every call if and only if at every
call the entry of the IP has not expired or its first network has a limit that is not higher. -/
theorem in_enforced_iff_kept {values : Values} {v : LimitValue} {ops : List Op}
    (hip : (net.parseIP ip).isSome) (hv : config.lookup ip = some v)
    (hload : values.entries.Perm config.entries) (hops : ∀ op ∈ ops, op.Loads config) :
    Along (State.step net) (Enforced net ip v.input) (newTrafficLimiter.reload net values) ops ↔
      Along (State.step net) (Kept net ip v.input) (newTrafficLimiter.reload net values) ops := by
  have hinit := bounded_reload hip hv hload newTrafficLimiter
  have hloads : Along (State.step net) (fun _ op => op.Loads config)
      (newTrafficLimiter.reload net values) ops := along_of_forall hops _
  constructor
  · intro h
    refine (hloads.and h).of_invariant (J := Bounded ip v.input) ?_ ?_ hinit
    · rintro s op s' hs ⟨hop, henf⟩ hstep
      exact bounded_step hip hv hs ⟨hop, (enforced_iff_kept hs).mp henf⟩ hstep
    · rintro s op hs ⟨-, henf⟩
      exact (enforced_iff_kept hs).mp henf
  · intro h
    refine (hloads.and h).of_invariant (J := Bounded ip v.input) ?_ ?_ hinit
    · intro s op s' hs hop hstep
      exact bounded_step hip hv hs hop hstep
    · rintro s op hs ⟨-, hkept⟩
      exact (enforced_iff_kept hs).mpr hkept

/-- `[::1]:80`. -/
def loopbackClient : Bytes := [91, 58, 58, 49, 93, 58, 56, 48]

/-- `::1 100`. -/
def limited : Values := AList.singleton loopback { input := 100 }

/-- A client that is back within 15 seconds is limited, also across a reload. -/
theorem in_enforced_of_return :
    Along (State.step .withoutNetworks) (Enforced .withoutNetworks loopback 100)
      (newTrafficLimiter.reload .withoutNetworks limited)
      [.tick (15 * 10 ^ 9), .call .input loopbackClient .conn, .tick (10 * 10 ^ 9),
        .reload limited, .tick (5 * 10 ^ 9), .call .input loopbackClient .conn] := by
  have hlookup : limited.lookup loopback = some { input := 100 } := by decide
  refine (in_enforced_iff_kept (by decide) hlookup (List.Perm.refl _) ?_).mpr ?_
  · simp [Op.Loads]
  · simp only [Along, State.step, Option.some.injEq, forall_eq', and_true]
    refine ⟨nofun, fun _ _ _ => .inl (by decide), nofun, nofun, nofun, fun _ _ _ => .inl ?_⟩
    decide

/-- The limit is gone 16 seconds after the load, although the configuration was reloaded after 10:
the next client has no limiter at all. -/
theorem in_unlimited_after_expiry :
    (run (State.step .withoutNetworks) (newTrafficLimiter.reload .withoutNetworks limited)
      [.tick (10 * 10 ^ 9), .reload limited, .tick (6 * 10 ^ 9)]).map
        (fun s => (s.call .withoutNetworks .input loopbackClient .conn).2) = some [] := by
  decide

end Traffic

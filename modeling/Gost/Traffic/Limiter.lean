import Mathlib.Data.List.AList
import Mathlib.Data.List.Sort
import Gost.Lib.ExpiringCache
import Gost.Lib.HostPort
import Gost.Lib.TransitionSystem

/-!
# The traffic limiter

`trafficLimiter` of `x/limiter/traffic`. A limiter is a rate with a burst. The limiter of the
service, those of the IPs and those of the connections live in caches, for input and output
separately; all but the service's expire after 15 seconds without use. `In` and `Out` have the same
body for the two directions, and `reload` treats both alike.

A configuration is the map that `load` returns, in the order in which `reload` goes through it. A
loop over a map touches each key once, so what it does to a cache is given key by key. A limiter is
held by one cache entry, so `Set` on it is a change of the entry. Rates are integers here. The CIDR
trie keeps one value for each network and returns one of those that contain an IP first.
-/

namespace Traffic

open ExpiringCache Option

variable {ν : Type}

/-- `llimiter`, without its tokens. -/
structure LLimiter where
  rate : ℤ
  burst : ℤ
deriving DecidableEq, Repr

def newLimiter (r : ℤ) : LLimiter := ⟨r, r⟩

def newLimiterWithBurst (r burst : ℤ) : LLimiter := ⟨r, if burst ≤ 0 then r else burst⟩

/-- `Set`. -/
def LLimiter.set (_ : LLimiter) (n : ℤ) : LLimiter := ⟨n, n⟩

/-- The direction of the traffic. -/
inductive Dir
  | input
  | output
deriving DecidableEq, Repr

/-- `limitValue`, and `limitGenerator`. -/
structure LimitValue where
  input : ℤ := 0
  output : ℤ := 0
  burst : ℤ := 0
deriving DecidableEq, Repr

namespace LimitValue

def rate (v : LimitValue) : Dir → ℤ
  | .input => v.input
  | .output => v.output

/-- `In` and `Out` of a generator. -/
def limiter (v : LimitValue) (d : Dir) : Option LLimiter :=
  if v.rate d ≤ 0 then none
  else if 0 < v.burst then some (newLimiterWithBurst (v.rate d) v.burst)
  else some (newLimiter (v.rate d))

end LimitValue

/-- `ServiceLimitKey`, `$`. -/
def serviceLimitKey : Bytes := [0x24]

/-- `ConnLimitKey`, `$$`. -/
def connLimitKey : Bytes := [0x24, 0x24]

/-- `defaultExpiration`, in nanoseconds. -/
def defaultExpiration : ℕ := 15 * 10 ^ 9

/-- The functions of other packages. -/
structure Net (ν : Type) where
  -- the type of IPs
  ι : Type
  parseIP : Bytes → Option ι
  parseCIDR : Bytes → Option ν
  -- the first of the networks in the trie that contain the IP
  containingNetworks : (ν → Bool) → ι → Option ν
  -- an IP is not one of the two special keys, and has no slash
  parseIP_service : parseIP serviceLimitKey = none
  parseIP_conn : parseIP connLimitKey = none
  parseCIDR_of_parseIP : ∀ key, (parseIP key).isSome → parseCIDR key = none

/-- A configuration, in the order of the loop over it. -/
abbrev Values := AList fun _ : Bytes => LimitValue

namespace Values

/-- The value of a key of its own: the service's, which is zero if it is missing, or one that is
neither for connections nor a network. -/
def own (net : Net ν) (values : Values) (key : Bytes) : Option LimitValue :=
  if key = serviceLimitKey then some ((values.lookup key).getD {})
  else if key = connLimitKey ∨ (net.parseCIDR key).isSome then none
  else values.lookup key

/-- The value for connections. -/
def conn (values : Values) : LimitValue := (values.lookup connLimitKey).getD {}

end Values

/-- The trie, as the value of each network. -/
abbrev Ranger (ν : Type) := ν → Option LimitValue

/-- `Insert`. -/
def Ranger.insert [DecidableEq ν] (r : Ranger ν) (ipNet : ν) (v : LimitValue) : Ranger ν :=
  fun n => if n = ipNet then some v else r n

/-- `cidrGenerators` as `reload` builds it. -/
def Values.ranger [DecidableEq ν] (net : Net ν) (values : Values) : Ranger ν :=
  values.entries.foldl (fun r entry =>
    if entry.1 = serviceLimitKey ∨ entry.1 = connLimitKey then r
    else
      match net.parseCIDR entry.1 with
      | some ipNet => r.insert ipNet entry.2
      | none => r) fun _ => none

/-- The value of the first network that contains the IP. -/
def Ranger.first (net : Net ν) (r : Ranger ν) (host : Bytes) : Option LimitValue :=
  (net.parseIP host).bind fun ip =>
    (net.containingNetworks (fun n => (r n).isSome) ip).bind r

/-- The caches of one direction. -/
structure Tables where
  -- `connInLimits`, `connOutLimits`
  conn : Cache Bytes LLimiter := fun _ => none
  -- `inLimits`, `outLimits`
  limits : Cache Bytes LLimiter := fun _ => none

structure State (ν : Type) where
  now : ℕ := 0
  -- the generator under `ConnLimitKey`
  generator : Option LimitValue := none
  cidrGenerators : Ranger ν := fun _ => none
  tables : Dir → Tables := fun _ => {}

inductive Scope
  | service
  | client
  -- also the default
  | conn
deriving DecidableEq, Repr

/-- The host of a key. -/
def hostOf (key : Bytes) : Bytes :=
  match HostPort.splitHostPort key with
  | some (host, _) => host
  | none => key

namespace State

variable (net : Net ν) (s : State ν) (d : Dir)

/-- The limiter of a connection: the one in the cache, or a new one. -/
def connLimiter (key : Bytes) : Option LLimiter :=
  match (s.tables d).conn.get s.now key with
  | some lim => some lim
  | none => s.generator.bind (·.limiter d)

/-- The limiter of an IP: the one in the cache, or a new one for the first network. -/
def ipLimiter (host : Bytes) : Option LLimiter :=
  match (s.tables d).limits.get s.now host with
  | some lim => some lim
  | none => (s.cidrGenerators.first net host).bind (·.limiter d)

/-- A limiter that is used is stored for another 15 seconds. -/
def touch (c : Cache Bytes LLimiter) (key : Bytes) : Option LLimiter → Cache Bytes LLimiter
  | some lim => c.set key ⟨lim, some (s.now + defaultExpiration)⟩
  | none => c

def setTables (t : Tables) : State ν :=
  { s with tables := fun d' => if d' = d then t else s.tables d' }

/-- `newLimiterGroup`, also for one limiter or none: the lowest rate first. -/
def newLimiterGroup (limiters : List LLimiter) : List LLimiter :=
  limiters.insertionSort fun a b => a.rate ≤ b.rate

/-- `In` and `Out`: the state afterwards, and the limiters of the result. -/
def call (key : Bytes) : Scope → State ν × List LLimiter
  | .service => (s, ((s.tables d).limits.get s.now serviceLimitKey).toList)
  | .client => (s, [])
  | .conn =>
    let conn := s.connLimiter d key
    let ip := s.ipLimiter net d (hostOf key)
    (s.setTables d {
      conn := s.touch (s.tables d).conn key conn
      limits := s.touch (s.tables d).limits (hostOf key) ip },
      newLimiterGroup (conn.toList ++ ip.toList))

/-- `reload`, for the entry of a key of its own. -/
def reloadItem (v : LimitValue) (expiration : Option ℕ) (item : Option (Item LLimiter)) :
    Option (Item LLimiter) :=
  match item.filter (·.Live s.now) with
  | some item =>
    if v.rate d ≤ 0 then none else some { item with value := item.value.set (v.rate d) }
  | none =>
    if 0 < v.rate d then some ⟨newLimiterWithBurst (v.rate d) v.burst, expiration⟩ else item

/-- `reload`, for the entry of another key: of an IP in one of the networks, or of none. -/
def cleanItem (first : Option LimitValue) (item : Option (Item LLimiter)) :
    Option (Item LLimiter) :=
  match item.filter (·.Live s.now), first with
  | some item, some v =>
    if v.rate d ≤ 0 then none
    else if item.value.rate ≠ v.rate d then
      some { item with value := item.value.set (v.rate d) }
    else some item
  | some _, none => none
  | none, _ => item

/-- `reload`, for `inLimits` and `outLimits`. -/
def reloadLimits [DecidableEq ν] (values : Values) : Cache Bytes LLimiter := fun key =>
  let item := (s.tables d).limits key
  match values.own net key with
  | some v =>
    s.reloadItem d v (if key = serviceLimitKey then none else some (s.now + defaultExpiration)) item
  | none => s.cleanItem d ((values.ranger net).first net key) item

/-- `reload`, for `connInLimits` and `connOutLimits`. -/
def reloadConns (values : Values) : Cache Bytes LLimiter :=
  let rate := values.conn.rate d
  if rate ≤ 0 then fun _ => none
  else if (s.generator.getD {}).rate d ≠ rate then fun key =>
    ((s.tables d).conn key).map fun item =>
      if item.Live s.now then { item with value := item.value.set rate } else item
  else (s.tables d).conn

/-- `reload`. -/
def reload [DecidableEq ν] (values : Values) : State ν where
  now := s.now
  generator := some values.conn
  cidrGenerators := values.ranger net
  tables d := { conn := s.reloadConns d values, limits := s.reloadLimits net d values }

end State

/-- The functions of other packages, for a configuration without networks. -/
def Net.withoutNetworks : Net Empty where
  ι := Unit
  parseIP key := if key = serviceLimitKey ∨ key = connLimitKey then none else some ()
  parseCIDR _ := none
  containingNetworks _ _ := none
  parseIP_service := rfl
  parseIP_conn := rfl
  parseCIDR_of_parseIP _ _ := rfl

/-- `::1`. -/
def loopback : Bytes := [58, 58, 49]

/-- `NewTrafficLimiter`, before the first `reload`. -/
def newTrafficLimiter : State ν := {}

inductive Op
  -- time passes
  | tick (ns : ℕ)
  -- `In` or `Out`
  | call (d : Dir) (key : Bytes) (scope : Scope)
  | reload (values : Values)

/-- Every reload is one of the configuration, in some order. -/
def Op.Loads (config : Values) : Op → Prop
  | .reload values => values.entries.Perm config.entries
  | _ => True

/-- No reload. -/
def Op.Use : Op → Prop
  | .reload _ => False
  | _ => True

def State.step [DecidableEq ν] (net : Net ν) (s : State ν) : Op → Option (State ν)
  | .tick ns => some { s with now := s.now + ns }
  | .call d key scope => some (s.call net d key scope).1
  | .reload values => some (s.reload net values)

/-! ## What is read from a configuration does not depend on its order -/

variable {net : Net ν} {values config : Values}

theorem Values.own_of_perm (h : values.entries.Perm config.entries) (key : Bytes) :
    values.own net key = config.own net key := by
  unfold own
  rw [AList.perm_lookup h]

theorem Values.conn_of_perm (h : values.entries.Perm config.entries) :
    values.conn = config.conn := by
  unfold conn
  rw [AList.perm_lookup h]

/-- The entry of an IP is one of its own. -/
theorem Values.own_of_parseIP {ip : Bytes} (h : (net.parseIP ip).isSome) :
    values.own net ip = values.lookup ip := by
  have hservice : ip ≠ serviceLimitKey := by
    rintro rfl
    simp [net.parseIP_service] at h
  have hconn : ip ≠ connLimitKey := by
    rintro rfl
    simp [net.parseIP_conn] at h
  simp [own, hservice, hconn, net.parseCIDR_of_parseIP ip h]

/-- A generator makes the same limiter as a reload. -/
theorem LimitValue.limiter_eq (v : LimitValue) (d : Dir) :
    v.limiter d =
      if 0 < v.rate d then some (newLimiterWithBurst (v.rate d) v.burst) else none := by
  by_cases hrate : 0 < v.rate d
  · by_cases hburst : 0 < v.burst
    · simp [limiter, hrate, not_le.mpr hrate, hburst]
    · simp [limiter, hrate, not_le.mpr hrate, hburst, not_lt.mp hburst, newLimiter,
        newLimiterWithBurst]
  · simp [limiter, hrate, not_lt.mp hrate]

/-! ## What the operations leave in the caches -/

namespace State

variable {net : Net ν} {s s' : State ν} {d : Dir} {key : Bytes} {values : Values}
  {c : Cache Bytes LLimiter} {lim : LLimiter}

theorem get_touch_self : (s.touch c key (some lim)).get s.now key = some lim := by
  apply Cache.get_set_self
  intro e he
  obtain rfl : s.now + defaultExpiration = e := some.inj he
  exact Nat.le_add_right _ _

/-- What is found after a limiter was used is the limiter or was found before. -/
theorem get_touch_cases {used : Option LLimiter} {key' : Bytes}
    (h : (s.touch c key used).get s.now key' = some lim) :
    key' = key ∧ used = some lim ∨ c.get s.now key' = some lim := by
  cases used with
  | none => exact .inr h
  | some lim' =>
    obtain ⟨hkey, hlim⟩ | hold := Cache.get_set_cases h
    · exact .inl ⟨hkey, congrArg some hlim.symm⟩
    · exact .inr hold

/-- After a call, the limiter of the IP is in the cache. -/
theorem get_limits_call :
    ((s.call net d key .conn).1.tables d).limits.get s.now (hostOf key) =
      s.ipLimiter net d (hostOf key) := by
  have htables : ((s.call net d key .conn).1.tables d).limits =
      s.touch (s.tables d).limits (hostOf key) (s.ipLimiter net d (hostOf key)) := by
    simp [call, setTables]
  rw [htables]
  cases hip : s.ipLimiter net d (hostOf key) with
  | some lim => exact get_touch_self
  | none =>
    -- nothing was stored, and nothing was there
    unfold ipLimiter at hip
    split at hip
    next => exact absurd hip (by simp)
    next hnone => exact hnone

/-- What a call or the passing of time does: the caches lose entries, and a call may add what it
returns. -/
structure Used (net : Net ν) (op : Op) (s s' : State ν) : Prop where
  now : s.now ≤ s'.now
  generator : s'.generator = s.generator
  cidrGenerators : s'.cidrGenerators = s.cidrGenerators
  conn : ∀ d key lim, (s'.tables d).conn.get s'.now key = some lim →
    s.connLimiter d key = some lim
  limits : ∀ d host lim, (s'.tables d).limits.get s'.now host = some lim →
    (s.tables d).limits.get s.now host = some lim ∨
      s.ipLimiter net d host = some lim ∧ ∃ key, op = .call d key .conn ∧ hostOf key = host

theorem connLimiter_of_get (h : (s.tables d).conn.get s.now key = some lim) :
    s.connLimiter d key = some lim := by
  simp [connLimiter, h]

theorem used_refl (net : Net ν) (op : Op) (s : State ν) : Used net op s s where
  now := le_rfl
  generator := rfl
  cidrGenerators := rfl
  conn _ _ _ h := connLimiter_of_get h
  limits _ _ _ h := .inl h

theorem used_call (net : Net ν) (s : State ν) (d : Dir) (key : Bytes) (scope : Scope) :
    Used net (.call d key scope) s (s.call net d key scope).1 := by
  cases scope with
  | service | client => exact used_refl net _ s
  | conn =>
    refine ⟨le_rfl, rfl, rfl, fun d' key' lim h => ?_, fun d' host lim h => ?_⟩
    · by_cases hd : d' = d
      · subst hd
        simp only [call, setTables, if_true] at h
        obtain ⟨rfl, hused⟩ | hold := get_touch_cases h
        · exact hused
        · exact connLimiter_of_get hold
      · simp only [call, setTables, if_neg hd] at h
        exact connLimiter_of_get h
    · by_cases hd : d' = d
      · subst hd
        simp only [call, setTables, if_true] at h
        obtain ⟨rfl, hused⟩ | hold := get_touch_cases h
        · exact .inr ⟨hused, key, rfl, rfl⟩
        · exact .inl hold
      · simp only [call, setTables, if_neg hd] at h
        exact .inl h

/-- A reload keeps the limiters of the connections, with the new rate if it changed. -/
theorem get_reloadConns :
    (s.reloadConns d values).get s.now key =
      if 0 < values.conn.rate d then
        ((s.tables d).conn.get s.now key).map fun lim =>
          if (s.generator.getD {}).rate d = values.conn.rate d then lim
          else newLimiter (values.conn.rate d)
      else none := by
  unfold reloadConns
  by_cases hrate : 0 < values.conn.rate d
  · by_cases heq : (s.generator.getD {}).rate d = values.conn.rate d
    · simp [hrate, not_le.mpr hrate, heq]
    · rw [if_neg (not_le.mpr hrate), if_pos heq, if_pos hrate]
      simp only [Cache.get, heq, if_false]
      cases (s.tables d).conn key with
      | none => simp
      | some item =>
        by_cases hlive : item.Live s.now
        · simp [hlive, LLimiter.set, newLimiter]
        · simp [hlive]
  · simp [hrate, not_lt.mp hrate, Cache.get]

variable [DecidableEq ν]

/-- A reload replaces the limiter of a key of its own, or makes a new one. -/
theorem get_reloadLimits_own {v : LimitValue} (h : values.own net key = some v) :
    (s.reloadLimits net d values).get s.now key =
      if 0 < v.rate d then
        match (s.tables d).limits.get s.now key with
        | some _ => some (newLimiter (v.rate d))
        | none => some (newLimiterWithBurst (v.rate d) v.burst)
      else none := by
  have hexp : ∀ lim : LLimiter, Item.Live s.now
      ⟨lim, if key = serviceLimitKey then none else some (s.now + defaultExpiration)⟩ := by
    intro lim e he
    split_ifs at he
    · simp at he
    · obtain rfl : s.now + defaultExpiration = e := some.inj he
      exact Nat.le_add_right _ _
  simp only [Cache.get, reloadLimits, h, reloadItem]
  cases hitem : (s.tables d).limits key with
  | none =>
    by_cases hrate : 0 < v.rate d
    · simp [hrate, hexp]
    · simp [hrate]
  | some item =>
    by_cases hlive : item.Live s.now
    · by_cases hrate : 0 < v.rate d
      · simp [Option.filter, hlive, hrate, not_le.mpr hrate, LLimiter.set, newLimiter]
      · simp [Option.filter, hlive, hrate, not_lt.mp hrate]
    · by_cases hrate : 0 < v.rate d
      · simp [Option.filter, hlive, hrate, hexp]
      · simp [Option.filter, hlive, hrate]

/-- A reload keeps the limiter of another key only for the rate of its first network. -/
theorem get_reloadLimits_other (h : values.own net key = none) :
    (s.reloadLimits net d values).get s.now key =
      match (s.tables d).limits.get s.now key, (values.ranger net).first net key with
      | some lim, some v =>
        if 0 < v.rate d then some (if lim.rate = v.rate d then lim else newLimiter (v.rate d))
        else none
      | _, _ => none := by
  simp only [Cache.get, reloadLimits, h, cleanItem]
  cases hitem : (s.tables d).limits key with
  | none => simp
  | some item =>
    by_cases hlive : item.Live s.now
    · cases hfirst : (values.ranger net).first net key with
      | none => simp [Option.filter, hlive]
      | some v =>
        by_cases hrate : 0 < v.rate d
        · by_cases heq : item.value.rate = v.rate d
          · have hpos : ¬v.rate d ≤ 0 := not_le.mpr hrate
            simp [Option.filter, hlive, hrate, hpos, heq]
          · simp [Option.filter, hlive, hrate, not_le.mpr hrate, heq, LLimiter.set, newLimiter]
        · simp [Option.filter, hlive, hrate, not_lt.mp hrate]
    · simp [Option.filter, hlive]

/-- A step is a reload, or it uses what is there. -/
theorem step_cases {op : Op} (h : s.step net op = some s') :
    (∃ values, op = .reload values ∧ s' = s.reload net values) ∨ op.Use ∧ Used net op s s' := by
  cases op with
  | tick ns =>
    cases h
    have hle : s.now ≤ s.now + ns := Nat.le_add_right _ _
    exact .inr ⟨trivial, hle, rfl, rfl,
      fun _ _ _ hget => connLimiter_of_get (Cache.get_of_le hle hget),
      fun _ _ _ hget => .inl (Cache.get_of_le hle hget)⟩
  | call d key scope =>
    cases h
    exact .inr ⟨trivial, used_call net s d key scope⟩
  | reload values =>
    cases h
    exact .inl ⟨values, rfl, rfl⟩

end State

end Traffic

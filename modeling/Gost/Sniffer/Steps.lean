import Gost.Sniffer.Session

/-!
# What a request does to a session

Inversion of `Handler.step`: a request is served in a state that is `Ready` for it, and serving it
comes to one of the cases of `ServeCase`. The log only grows; the lemmas about `RoundTrip.events`
say which events a round trip adds.
-/

namespace Sniffer

open List TransitionSystem

variable {ν : Type}

/-! ## Events of a round trip -/

variable {ok : Bool}

section Events

variable {r : RoundTrip} {cc : Conn ν} {req : Request}

@[simp]
theorem dial_notMem_events (addr : Bytes) : Event.dial addr ∉ r.events cc req := by
  simp [RoundTrip.events]

@[simp]
theorem connect_notMem_events (c : Conn ν) : Event.connect c ∉ r.events cc req := by
  simp [RoundTrip.events]

@[simp]
theorem close_notMem_events (c : Conn ν) : Event.close c ∉ r.events cc req := by
  simp [RoundTrip.events]

variable {req' : Request}

/-- A round trip forwards its own request over its own connection. -/
@[simp]
theorem forward_mem_events {c : Conn ν} :
    Event.forward c req' ok ∈ r.events cc req ↔ c = cc ∧ req' = req ∧ r.sent = some ok := by
  simp only [RoundTrip.events, mem_append, Option.mem_toList, Option.map_eq_some_iff,
    Event.forward.injEq, mem_map, reduceCtorEq, and_false, exists_false, or_false]
  constructor
  · rintro (⟨b, hb, rfl, rfl, rfl⟩ | h)
    · exact ⟨rfl, rfl, hb⟩
    · split at h <;> simp at h
  · rintro ⟨rfl, rfl, h⟩
    exact .inl ⟨ok, h, rfl, rfl, rfl⟩

theorem mark_mem_events : Event.mark cc.node ∈ r.events cc req ↔ r.marked = true := by
  simp [RoundTrip.events]

/-- What is written to the client. -/
@[simp]
theorem write_mem_events {w : Written} :
    Event.write w ∈ r.events cc req ↔ w ∈ r.written := by
  simp only [RoundTrip.events, mem_append, Option.mem_toList, Option.map_eq_some_iff,
    mem_map, Event.write.injEq, exists_eq_right, reduceCtorEq, and_false, exists_false,
    or_false, false_or]
  refine or_iff_right fun h => ?_
  split at h <;> simp at h

/-- What is stored. -/
@[simp]
theorem store_mem_events {data : Bytes} {status : ℕ} :
    Event.store req' data status ∈ r.events cc req ↔
      req' = req ∧ r.stored = some (data, status) := by
  simp only [RoundTrip.events, mem_append, Option.mem_toList, Option.map_eq_some_iff,
    mem_map, Event.store.injEq, reduceCtorEq, and_false, exists_false, or_false, false_or]
  constructor
  · rintro (h | ⟨p, hp, rfl, rfl, rfl⟩)
    · split at h <;> simp at h
    · exact ⟨rfl, hp⟩
  · rintro ⟨rfl, h⟩
    exact .inr ⟨(data, status), h, rfl, rfl, rfl⟩

end Events

namespace Handler

variable (h : Handler ν)

/-! ## Serving a request -/

/-- The response that stands in for the upstream's. -/
abbrev standIn (req : Request) (env : Env) : Option Response := (h.lookup req env).staleResp

/-- The connection that a dial for the target gives. -/
def newConn (s : Session ν) (target : Target ν) : Conn ν where
  id := s.dials
  addr := target.addr
  node := target.node

/-- The request is not answered from the cache. -/
def Misses (req : Request) (env : Env) : Prop := ∀ resp, h.lookup req env ≠ .fresh resp

instance (req : Request) (env : Env) : Decidable (h.Misses req env) :=
  match hfound : h.lookup req env with
  | .fresh resp => .isFalse fun hmiss => hmiss resp hfound
  | .stale _ => .isTrue fun _ hfresh => nomatch hfound.symm.trans hfresh
  | .miss => .isTrue fun _ hfresh => nomatch hfound.symm.trans hfresh

/-- What serving a request in the state `s` comes to. -/
inductive ServeCase (s : Session ν) (req : Request) (env : Env) : Session ν → Prop
  -- an answer from the cache
  | cached (resp : Response) (hfound : h.lookup req env = .fresh resp) :
      ServeCase s req env (h.serveCached s resp env)
  -- over the connection that is open
  | reused (cc : Conn ν) (hmiss : h.Misses req env) (hcc : s.cc = some cc) :
      ServeCase s req env (h.forward s cc (h.standIn req env) req env)
  -- nothing is dialed
  | refused (err : Err) (told : List Written) (hmiss : h.Misses req env) (hcc : s.cc = none)
      (hresolve : h.resolve s.host req env.survey = .error (err, told)) :
      ServeCase s req env (h.giveUp s (h.standIn req env) env err told)
  | dialFailed (target : Target ν) (hmiss : h.Misses req env) (hcc : s.cc = none)
      (hresolve : h.resolve s.host req env.survey = .ok target) (hdial : env.dial = false) :
      ServeCase s req env
        (h.giveUp (dialFailed s target) (h.standIn req env) env .dial target.failure)
  -- over a new connection
  | dialed (target : Target ν) (hmiss : h.Misses req env) (hcc : s.cc = none)
      (hresolve : h.resolve s.host req env.survey = .ok target) (hdial : env.dial = true) :
      ServeCase s req env
        (h.forward (h.connect s req target) (newConn s target) (h.standIn req env) req env)

variable {h}

theorem serve_cases (s : Session ν) (req : Request) (env : Env) :
    h.ServeCase s req env (h.serve s req env) := by
  unfold serve
  split
  next resp hfound => exact .cached resp hfound
  next _ _ cc hcc hmiss => exact .reused cc hmiss hcc
  next _ _ hcc hmiss =>
    unfold dial
    split
    next err told hresolve => exact .refused err told hmiss hcc hresolve
    next target hresolve =>
      split
      next hdial => exact .dialed target hmiss hcc hresolve hdial
      next hdial =>
        exact .dialFailed target hmiss hcc hresolve (Bool.not_eq_true _ ▸ hdial)

variable (h)

/-- The request goes over `cc`: it is open, or it is dialed. -/
def Carries (s : Session ν) (req : Request) (env : Env) (cc : Conn ν) : Prop :=
  s.cc = some cc ∨ s.cc = none ∧ env.dial = true ∧
    ∃ target, h.resolve s.host req env.survey = .ok target ∧ cc = newConn s target

/-- What serving a request in the state `s` adds to the log. -/
inductive NewEvent (s : Session ν) (req : Request) (env : Env) : Event ν → Prop
  | cached (resp : Response) (hfound : h.lookup req env = .fresh resp) :
      NewEvent s req env (.write (.cached resp))
  | refused (w : Written) (err : Err) (told : List Written) (hmiss : h.Misses req env)
      (hcc : s.cc = none) (hresolve : h.resolve s.host req env.survey = .error (err, told))
      (hw : w ∈ (h.unconnected (h.standIn req env) env err told).1) : NewEvent s req env (.write w)
  | dialFailed (w : Written) (target : Target ν) (hmiss : h.Misses req env) (hcc : s.cc = none)
      (hresolve : h.resolve s.host req env.survey = .ok target)
      (hw : w ∈ (h.unconnected (h.standIn req env) env .dial target.failure).1) :
      NewEvent s req env (.write w)
  | dial (target : Target ν) (hmiss : h.Misses req env) (hcc : s.cc = none)
      (hresolve : h.resolve s.host req env.survey = .ok target) :
      NewEvent s req env (.dial target.addr)
  | connect (target : Target ν) (hcc : s.cc = none)
      (hresolve : h.resolve s.host req env.survey = .ok target) :
      NewEvent s req env (.connect (newConn s target))
  | mark (node : ν) : NewEvent s req env (.mark node)
  | reset (node : ν) : NewEvent s req env (.reset node)
  | roundTrip (cc : Conn ν) (e : Event ν) (hmiss : h.Misses req env)
      (hcarries : h.Carries s req env cc)
      (he : e ∈ (h.httpRoundTrip cc.node (h.standIn req env) req env).events cc req) :
      NewEvent s req env e

variable {h} {s s' : Session ν} {req : Request} {input : Input}

/-- Serving a request only adds to the log. -/
theorem ServeCase.log_eq {env : Env} (hserve : h.ServeCase s req env s') :
    ∃ new, s'.log = s.log ++ new ∧ ∀ e ∈ new, h.NewEvent s req env e := by
  cases hserve with
  | cached resp hfound =>
    refine ⟨_, rfl, fun e he => ?_⟩
    split_ifs at he
    · exact mem_singleton.mp he ▸ .cached resp hfound
    · exact absurd he not_mem_nil
  | reused cc hmiss hcc => exact ⟨_, rfl, fun e he => .roundTrip cc e hmiss (.inl hcc) he⟩
  | refused err told hmiss hcc hresolve =>
    refine ⟨_, rfl, fun e he => ?_⟩
    obtain ⟨w, hw, rfl⟩ := mem_map.mp he
    exact .refused w err told hmiss hcc hresolve hw
  | dialFailed target hmiss hcc hresolve =>
    refine ⟨[Event.dial target.addr] ++
      ((if target.tracked then [Event.mark target.node] else []) ++
        (h.unconnected (h.standIn req env) env .dial target.failure).1.map Event.write), ?_,
      fun e he => ?_⟩
    · change _ ++ _ ++ _ ++ _ = _
      rw [append_assoc, append_assoc]
    · rcases mem_append.mp he with he | he
      · exact mem_singleton.mp he ▸ .dial target hmiss hcc hresolve
      · rcases mem_append.mp he with he | he
        · split_ifs at he
          · exact mem_singleton.mp he ▸ .mark _
          · exact absurd he not_mem_nil
        · obtain ⟨w, hw, rfl⟩ := mem_map.mp he
          exact .dialFailed w target hmiss hcc hresolve hw
  | dialed target hmiss hcc hresolve hdial =>
    refine ⟨[Event.dial target.addr, Event.connect (newConn s target)] ++
      ((if target.tracked then [Event.reset target.node] else []) ++
        (h.httpRoundTrip target.node (h.standIn req env) req env).events (newConn s target) req),
      ?_, fun e he => ?_⟩
    · change _ ++ _ ++ _ ++ _ = _
      rw [append_assoc, append_assoc]
      rfl
    · rcases mem_append.mp he with he | he
      · rcases mem_pair.mp he with rfl | rfl
        · exact .dial target hmiss hcc hresolve
        · exact .connect target hcc hresolve
      · rcases mem_append.mp he with he | he
        · split_ifs at he
          · exact mem_singleton.mp he ▸ .reset _
          · exact absurd he not_mem_nil
        · exact .roundTrip _ e hmiss (.inr ⟨hcc, hdial, target, hresolve, rfl⟩) he

variable (h)

/-! ## Steps -/

/-- The state in which a request is served. -/
inductive Ready (s : Session ν) (req : Request) : Session ν → Prop
  | first (hstarted : s.started = false) (hpreface : req.isPreface = false)
      (hadmits : h.admits req = true) : Ready s req { s with started := true, host := req.target }
  | changed (cc : Conn ν) (hstarted : s.started = true) (hchange : ChangesHost s req)
      (hcc : s.cc = some cc) : Ready s req (changeHost s req cc)
  | same (hstarted : s.started = true) (hsame : ¬ ChangesHost s req) : Ready s req s

/-- The requests that are not served. -/
inductive Stops (s : Session ν) (req : Request) : Outcome → Prop
  | http2 (hstarted : s.started = false) (hpreface : req.isPreface = true) : Stops s req .http2
  | bypassed (hstarted : s.started = false) (hadmits : h.admits req = false) :
      Stops s req (.returned (some .bypass))
  | panicked (hstarted : s.started = true) (hchange : ChangesHost s req) (hcc : s.cc = none) :
      Stops s req .panicked

/-- What a step does. -/
inductive StepCase (s : Session ν) : Input → Session ν → Prop
  | readError (eof : Bool) :
      StepCase s (.readError eof)
        { s with outcome := .returned (if s.started && eof then none else some .readRequest) }
  | stopped (req : Request) (env : Env) (outcome : Outcome) (hstops : h.Stops s req outcome) :
      StepCase s (.request req env) { s with outcome }
  | served (req : Request) (env : Env) (t s' : Session ν) (hready : h.Ready s req t)
      (hserve : h.ServeCase t req env s') : StepCase s (.request req env) s'

variable {h}

theorem step_cases (hstep : h.step s input = some s') :
    s.outcome = .running ∧ h.StepCase s input s' := by
  unfold step at hstep
  split at hstep
  next hrunning =>
    refine ⟨hrunning, ?_⟩
    split at hstep
    · exact Option.some.inj hstep ▸ .readError _
    next req env =>
      cases hstep
      split
      next hstarted =>
        unfold next
        split
        next hchange =>
          split
          next hcc => exact .stopped req env _ (.panicked hstarted hchange hcc)
          next cc hcc =>
            exact .served req env _ _ (.changed cc hstarted hchange hcc) (serve_cases _ req env)
        next hsame => exact .served req env _ _ (.same hstarted hsame) (serve_cases _ req env)
      next hstarted =>
        have hstarted : s.started = false := Bool.not_eq_true _ ▸ hstarted
        unfold first
        split
        next hpreface => exact .stopped req env _ (.http2 hstarted hpreface)
        next hpreface =>
          split
          next hadmits =>
            exact .served req env _ _ (.first hstarted (Bool.not_eq_true _ ▸ hpreface) hadmits)
              (serve_cases _ req env)
          next hadmits =>
            exact .stopped req env _ (.bypassed hstarted (Bool.not_eq_true _ ▸ hadmits))
  next => cases hstep

/-- Being ready for a request means one closed connection at most. -/
theorem Ready.log_eq {t : Session ν} (hready : h.Ready s req t) :
    ∃ new, t.log = s.log ++ new ∧ ∀ e ∈ new, ∃ cc, e = .close cc := by
  cases hready with
  | first | same => exact ⟨[], (append_nil _).symm, fun e he => absurd he not_mem_nil⟩
  | changed cc => exact ⟨[.close cc], rfl, fun e he => ⟨cc, mem_singleton.mp he⟩⟩

/-- What a step adds to the log. -/
theorem StepCase.log_eq (hcase : h.StepCase s input s') :
    ∃ new, s'.log = s.log ++ new ∧ ∀ e ∈ new, (∃ cc, e = .close cc) ∨
      ∃ req env t, input = .request req env ∧ h.Ready s req t ∧ h.NewEvent t req env e := by
  cases hcase with
  | readError | stopped =>
    exact ⟨[], (append_nil _).symm, fun e he => absurd he not_mem_nil⟩
  | served req env t _ hready hserve =>
    obtain ⟨closed, hclosed, hclose⟩ := hready.log_eq
    obtain ⟨new, hnew, hevent⟩ := hserve.log_eq
    refine ⟨closed ++ new, ?_, fun e he => ?_⟩
    · rw [hnew, hclosed, append_assoc]
    · exact (mem_append.mp he).imp (hclose e) fun he => ⟨req, env, t, rfl, hready, hevent e he⟩

/-- An event is old, closes a connection, or comes from serving the request. -/
theorem StepCase.mem_log {e : Event ν} (hcase : h.StepCase s input s') (he : e ∈ s'.log)
    (hclose : ∀ cc, e ≠ .close cc) :
    e ∈ s.log ∨
      ∃ req env t, input = .request req env ∧ h.Ready s req t ∧ h.NewEvent t req env e := by
  obtain ⟨new, hlog, hnew⟩ := hcase.log_eq
  rw [hlog] at he
  refine (mem_append.mp he).imp_right fun he => ?_
  exact (hnew e he).resolve_left fun ⟨cc, h⟩ => hclose cc h

/-- A request that a step forwards is the one that was read. -/
theorem StepCase.forward_mem {cc : Conn ν} (hcase : h.StepCase s input s')
    (he : .forward cc req ok ∈ s'.log) :
    .forward cc req ok ∈ s.log ∨ ∃ env t, input = .request req env ∧ h.Ready s req t ∧
      h.Misses req env ∧ h.Carries t req env cc := by
  refine (hcase.mem_log he nofun).imp_right ?_
  rintro ⟨req', env, t, rfl, hready, hnew⟩
  cases hnew with
  | roundTrip cc' _ hmiss hcarries he =>
    obtain ⟨rfl, rfl, -⟩ := forward_mem_events.mp he
    exact ⟨env, t, rfl, hready, hmiss, hcarries⟩

/-- What a step dials is resolved for the request that was read. -/
theorem StepCase.dial_mem {addr : Bytes} (hcase : h.StepCase s input s')
    (he : .dial addr ∈ s'.log) :
    .dial addr ∈ s.log ∨ ∃ req env t target, input = .request req env ∧ h.Ready s req t ∧
      h.resolve t.host req env.survey = .ok target ∧ addr = target.addr := by
  refine (hcase.mem_log he nofun).imp_right ?_
  rintro ⟨req, env, t, rfl, hready, hnew⟩
  cases hnew with
  | dial target _ _ hresolve => exact ⟨req, env, t, target, rfl, hready, hresolve, rfl⟩
  | roundTrip _ _ _ _ he => exact absurd he (dial_notMem_events addr)

/-- A run of the session. -/
abbrev Runs (h : Handler ν) (inputs : List Input) (s : Session ν) : Prop :=
  run h.step {} inputs = some s

end Handler

end Sniffer

import Gost.Sniffer.SharedCache

/-!
# Requests for a part of a resource

A response with the status 206 or 304 answers a request that asks for a range or that names what the
client already has. The cache stores it like any other response, under a key that does not know
about these header fields, and serves it to requests for the whole resource.
-/

namespace Sniffer

open Bytes Http List Option Reader TransitionSystem

variable {ν : Type}

/-- The request asks for a range, or names what the client has. -/
def Request.Conditional (req : Request) : Prop :=
  req.header.values (bytes "Range") ≠ [] ∨ req.header.values (bytes "If-None-Match") ≠ [] ∨
    req.header.values (bytes "If-Modified-Since") ≠ []

instance (req : Request) : Decidable req.Conditional := inferInstanceAs (Decidable (_ ∨ _))

/-- The response has a part of the resource, or nothing of it. -/
def Response.Abridged (resp : Response) : Prop := resp.statusCode = 206 ∨ resp.statusCode = 304

instance (resp : Response) : Decidable resp.Abridged := inferInstanceAs (Decidable (_ ∨ _))

/-- `http.ReadResponse` finds the status that `Response.Write` has written. -/
def Net.KeepsStatus (net : Net) : Prop :=
  ∀ method out resp, readStored net method (net.write out) = some resp →
    resp.statusCode = out.statusCode

/-- The response of the upstream. -/
def Env.answer (net : Net) (req : Request) (env : Env) : Option Response :=
  (readFinal net req.method ((received env.reads).length + 1) env.reads []).2.map (·.1.1)

/-- An answer of the cache. -/
def Written.fromCache : Written → Option Response
  | .cached resp | .stale resp => some resp
  | _ => none

def Event.fromCache : Event ν → Option Response
  | .write w => w.fromCache
  | _ => none

/-! ## What a round trip stores and serves -/

variable {resp : Response} {e : Event ν} {p : Request × Bytes × ℕ}

section RoundTrip

variable {x : Exchange} {net : Net} {cache : Option Policy} {websocket : Bool}
  {stale : Option Response} {req : Request} {env : Env}

theorem unanswered_stored (err : Err) (sent : Bool) (interims : List Response) :
    (unanswered cache x stale req env err sent interims).stored = none := by
  unfold unanswered
  split <;> rfl

variable {interims : List Response} {framing : Framing} {br data : Bytes}
  {cc : List (ReadResult UInt8)} {status : ℕ} {w : Written}

theorem answered_stored (hx : x.Plain)
    (hstored : (answered net cache websocket x req env interims resp framing br cc).stored =
      some (data, status)) :
    ∃ out : Response, data = net.write out ∧ out.statusCode = resp.statusCode ∧
      cache.any (·.cacheableRequest req) = true := by
  unfold answered at hstored
  split at hstored
  · cases hstored
  · split at hstored
    · cases hstored
    next body _ unread _ =>
      unfold passOn at hstored
      split at hstored
      · cases hstored
      next out hrewrite =>
        split at hstored
        · obtain ⟨policy, hpolicy, hpair⟩ := bind_eq_some_iff.mp hstored
          split at hpair
          next hcacheable =>
            obtain ⟨text, htext, heq⟩ := map_eq_some_iff.mp hpair
            cases heq
            refine ⟨out, ?_, (hx.rewrite hrewrite :), ?_⟩
            · unfold Policy.captured at htext
              split at htext <;> cases htext
              rfl
            · rw [Policy.cacheable, Bool.and_eq_true, Bool.and_eq_true] at hcacheable
              rw [hpolicy]
              exact hcacheable.1.1
          next => cases hpair
        · cases hstored

/-- What is stored is a response of the upstream to a request whose method is cached. -/
theorem Exchange.Plain.stored_spec (hx : x.Plain)
    (hstored : (x.roundTrip net cache websocket stale req env).stored = some (data, status)) :
    ∃ out resp : Response, data = net.write out ∧ env.answer net req = some resp ∧
      out.statusCode = resp.statusCode ∧ cache.any (·.cacheableRequest req) = true := by
  generalize hr : x.roundTrip net cache websocket stale req env = r at hstored
  cases Exchange.roundTrip_cases hr with
  | refused => cases hstored
  | unsent | unanswered => exact absurd ((unanswered_stored _ _ _).symm.trans hstored) nofun
  | answered out interims resp framing br cc hprepare hread =>
    obtain ⟨got, hdata, hstatus, hcached⟩ := answered_stored hx hstored
    have hmethod := hx.method hprepare
    refine ⟨got, resp, hdata, ?_, hstatus, ?_⟩
    · rw [Env.answer, ← hmethod, hread]
      rfl
    · simpa only [Policy.cacheableRequest, hmethod] using hcached

theorem Own.fromCache {ws : List Written} (hws : Own ws) (hw : w ∈ ws) : w.fromCache = none := by
  obtain ⟨resp, rfl⟩ := hws w hw
  rfl

theorem interims_fromCache (hw : w ∈ interims.map Written.interim) : w.fromCache = none := by
  obtain ⟨resp, -, rfl⟩ := mem_map.mp hw
  rfl

theorem unanswered_fromCache (hx : x.Plain) {err : Err} {sent : Bool}
    (hw : w ∈ (unanswered cache x stale req env err sent interims).written)
    (hresp : w.fromCache = some resp) : ∃ r, stale = some r ∧ resp.statusCode = r.statusCode := by
  unfold unanswered serveStale at hw
  split at hw
  next r hr =>
    rcases mem_append.mp hw with hw | hw
    · exact absurd ((interims_fromCache hw).symm.trans hresp) nofun
    · obtain rfl := mem_singleton.mp hw
      split at hr
      · exact ⟨r, hr, some.inj hresp ▸ hx.stale r⟩
      · cases hr
  next =>
    rcases mem_append.mp hw with hw | hw
    · exact absurd ((interims_fromCache hw).symm.trans hresp) nofun
    · exact absurd (((hx.failure req).fromCache hw).symm.trans hresp) nofun

theorem answered_fromCache
    (hw : w ∈ (answered net cache websocket x req env interims resp framing br cc).written) :
    w.fromCache = none := by
  unfold answered at hw
  split at hw
  · rcases mem_append.mp hw with hw | hw
    · exact interims_fromCache hw
    · exact mem_singleton.mp hw ▸ rfl
  · split at hw
    · exact interims_fromCache hw
    · unfold passOn at hw
      split at hw
      · exact interims_fromCache hw
      · split at hw
        · rcases mem_append.mp hw with hw | hw
          · exact interims_fromCache hw
          · exact mem_singleton.mp hw ▸ rfl
        · exact interims_fromCache hw

/-- What is served from the cache stands in for the upstream. -/
theorem Exchange.Plain.fromCache_spec (hx : x.Plain)
    (hw : w ∈ (x.roundTrip net cache websocket stale req env).written)
    (hresp : w.fromCache = some resp) : ∃ r, stale = some r ∧ resp.statusCode = r.statusCode := by
  generalize hr : x.roundTrip net cache websocket stale req env = r at hw
  cases Exchange.roundTrip_cases hr with
  | refused err told hprepare =>
    exact absurd (((hx.refused hprepare).fromCache hw).symm.trans hresp) nofun
  | unsent | unanswered => exact unanswered_fromCache hx hw hresp
  | answered => exact absurd ((answered_fromCache hw).symm.trans hresp) nofun

end RoundTrip

/-! ## The cache of a service -/

section Events

variable {h : Handler ν} {net : Net} {s s' : Session ν} {input : Input} {req : Request} {env : Env}

/-- What a step adds to the log closes a connection, or comes from serving the request. -/
theorem exists_newEvent_of_mem (hstep : h.step s input = some s') (he : e ∈ newEvents s s')
    (hclose : ∀ cc, e ≠ .close cc) :
    ∃ req env t, input = .request req env ∧ h.NewEvent t req env e := by
  obtain ⟨new, hlog, hnew⟩ := (Handler.step_cases hstep).2.log_eq
  rw [newEvents, hlog, drop_left] at he
  obtain ⟨req, env, t, hinput, -, hevent⟩ :=
    (hnew e he).resolve_left fun ⟨cc, h⟩ => hclose cc h
  exact ⟨req, env, t, hinput, hevent⟩

/-- What a step stores answers the request that was read. -/
theorem stored_of_step (hrelay : h.IsRelay net) (hstep : h.step s (.request req env) = some s')
    (hp : p ∈ (newEvents s s').filterMap Event.stored) :
    p.1 = req ∧ ∃ out resp : Response, p.2.1 = net.write out ∧ env.answer net req = some resp ∧
      out.statusCode = resp.statusCode ∧ h.cache.any (·.cacheableRequest req) = true := by
  obtain ⟨e, he, hep⟩ := mem_filterMap.mp hp
  cases e with
  | store req' data status =>
    cases hep
    obtain ⟨_, _, t, hinput, hevent⟩ := exists_newEvent_of_mem hstep he nofun
    cases hinput
    cases hevent with
    | roundTrip cc _ _ _ hmem =>
      obtain ⟨rfl, hstored⟩ := store_mem_events.mp hmem
      obtain ⟨x, websocket, hx, heq⟩ := hrelay.roundTrip cc.node
      rw [heq] at hstored
      exact ⟨rfl, hx.stored_spec hstored⟩
  | _ => cases hep

theorem lookup_eq_of_fresh (h' : h.lookup req env = .fresh resp) : env.lookup = .fresh resp := by
  unfold Handler.lookup at h'
  split at h'
  · exact h'
  · cases h'

theorem lookup_eq_of_standIn (h' : h.standIn req env = some resp) : env.lookup = .stale resp := by
  unfold Handler.standIn Handler.lookup at h'
  split at h'
  · cases hlookup : env.lookup with
    | stale r =>
      rw [hlookup] at h'
      exact congrArg _ (some.inj h')
    | fresh r | miss => simp [hlookup, Lookup.staleResp] at h'
  · cases h'

/-- What a step serves from the cache was found there. -/
theorem fromCache_of_step (hrelay : h.IsRelay net) (hstep : h.step s (.request req env) = some s')
    (he : e ∈ newEvents s s') (hresp : e.fromCache = some resp) :
    ∃ r : Response, (env.lookup = .fresh r ∨ env.lookup = .stale r) ∧
      resp.statusCode = r.statusCode := by
  have htold : ∀ {err told w}, Own told → w ∈ (h.unconnected (h.standIn req env) env err told).1 →
      w.fromCache = some resp → ∃ r : Response, (env.lookup = .fresh r ∨ env.lookup = .stale r) ∧
        resp.statusCode = r.statusCode := by
    intro err told w hown hw hw'
    rcases hrelay.unconnected _ env err hown w hw with ⟨_, rfl⟩ | ⟨resp', r, rfl, hr, hstatus⟩
    · cases hw'
    · exact ⟨r, .inr (lookup_eq_of_standIn hr), some.inj hw' ▸ hstatus⟩
  cases e with
  | write w =>
    obtain ⟨_, _, t, hinput, hevent⟩ := exists_newEvent_of_mem hstep he nofun
    cases hinput
    cases hevent with
    | cached r hfound => exact ⟨r, .inl (lookup_eq_of_fresh hfound), some.inj hresp ▸ rfl⟩
    | refused _ _ _ _ _ hresolve hw => exact htold (hrelay.refused hresolve) hw hresp
    | dialFailed _ target _ _ hresolve hw => exact htold (hrelay.failure hresolve) hw hresp
    | roundTrip cc _ _ _ hmem =>
      obtain ⟨x, websocket, hx, heq⟩ := hrelay.roundTrip cc.node
      rw [heq] at hmem
      obtain ⟨r, hr, hstatus⟩ := hx.fromCache_spec (write_mem_events.mp hmem) hresp
      exact ⟨r, .inr (lookup_eq_of_standIn hr), hstatus⟩
  | _ => cases hresp

end Events

namespace Service

/-- What was stored last under a key. -/
def origin (s : Service ν) (key : Bytes) : Option (Request × Bytes × ℕ) :=
  s.stored.find? (·.1.key = key)

/-- The upstream does not answer a request for a part with one, if the method is cached. -/
def AnswersWhole (h : ℕ → Handler ν) (net : Net) : Action → Prop
  | .serve i (.request req env) => req.Conditional →
    (h i).cache.any (·.cacheableRequest req) = true →
    ∀ resp ∈ env.answer net req, ¬ resp.Abridged
  | _ => True

instance (h : ℕ → Handler ν) (net : Net) : DecidablePred (AnswersWhole h net)
  | .serve _ (.request _ _) => inferInstanceAs (Decidable (_ → _ → _))
  | .serve _ (.readError _) => .isTrue trivial
  | .tick _ => .isTrue trivial
  | .evict _ => .isTrue trivial

/-- The entries are what was stored last, and no part that a request had asked for. -/
structure Whole (net : Net) (s : Service ν) : Prop where
  origin : ∀ key e, s.store.get key = some e →
    ∃ req status, s.origin key = some (req, e.data, status)
  whole : ∀ p ∈ s.stored, p.1.Conditional → ∀ method resp,
    readStored net method p.2.1 = some resp → ¬ resp.Abridged

variable {net : Net} {s s' : Service ν}

theorem Whole.storeKey (hs : s.Whole net) (cache : Option Policy)
    (hp : p.1.Conditional → ∀ method resp, readStored net method p.2.1 = some resp →
      ¬ resp.Abridged) : (s.storeKey cache p).Whole net := by
  cases cache with
  | none => exact hs
  | some policy =>
    refine ⟨fun key e hget => ?_, fun q hq => ?_⟩
    · by_cases hkey : key = p.1.key
      · subst hkey
        refine ⟨p.1, p.2.2, ?_⟩
        rw [Store.data_of_get_set hget]
        exact find?_cons_of_pos (decide_eq_true rfl)
      · change (s.store.set _ _ _ _).get key = some e at hget
        rw [Store.get_set_ne _ _ _ _ hkey] at hget
        obtain ⟨req, status, horigin⟩ := hs.origin key e hget
        refine ⟨req, status, (find?_cons_of_neg ?_).trans horigin⟩
        exact fun h => hkey (of_decide_eq_true h).symm
    · rcases mem_cons.mp hq with rfl | hq
      · exact hp
      · exact hs.whole q hq

theorem Whole.storeKeys (cache : Option Policy) {ps : List (Request × Bytes × ℕ)}
    (hps : ∀ p ∈ ps, p.1.Conditional → ∀ method resp, readStored net method p.2.1 = some resp →
      ¬ resp.Abridged) (hs : s.Whole net) : (ps.foldl (Service.storeKey cache) s).Whole net := by
  induction ps generalizing s with
  | nil => exact hs
  | cons p ps ih =>
    exact ih (fun q hq => hps q (mem_cons_of_mem p hq))
      (hs.storeKey cache (hps p mem_cons_self))

variable {h : ℕ → Handler ν} {req : Request}

theorem Whole.step {a : Action} (hrelay : ∀ i, (h i).IsRelay net) (hlaw : net.KeepsStatus)
    (hs : s.Whole net) (hanswers : AnswersWhole h net a) (hstep : s.step h net a = some s') :
    s'.Whole net := by
  cases a with
  | tick n => exact some.inj hstep ▸ ⟨hs.origin, hs.whole⟩
  | evict keys =>
    refine some.inj hstep ▸ ⟨fun key e hget => ?_, hs.whole⟩
    exact hs.origin key e (Store.get_of_evict hget)
  | serve i input =>
    obtain ⟨session, hsession, rfl⟩ := map_eq_some_iff.mp hstep
    refine Whole.storeKeys (h i).cache (fun p hp hconditional method resp hread => ?_)
      ⟨hs.origin, hs.whole⟩
    cases input with
    | readError eof =>
      obtain ⟨e, he, hep⟩ := mem_filterMap.mp hp
      obtain ⟨_, _, _, hinput, -⟩ := exists_newEvent_of_mem hsession he fun cc h => by
        rw [h] at hep
        cases hep
      cases hinput
    | request req env =>
      obtain ⟨rfl, out, answer, hdata, hanswer, hstatus, hcached⟩ :=
        stored_of_step (hrelay i) hsession hp
      rw [hdata] at hread
      have hsame := (hlaw method out resp hread).trans hstatus
      have hwhole := hanswers hconditional hcached answer hanswer
      unfold Response.Abridged at hwhole ⊢
      rwa [hsame]

theorem Whole.run {actions : List Action} (hrelay : ∀ i, (h i).IsRelay net) (hlaw : net.KeepsStatus)
    (hanswers : Along (Service.step h net) (fun _ a => AnswersWhole h net a) {} actions)
    (hrun : run (Service.step h net) {} actions = some s) : s.Whole net :=
  run_induction_along (fun _ _ _ hs hg hstep => hs.step hrelay hlaw hg hstep)
    ⟨fun _ _ hget => absurd hget.symm (some_ne_none _),
      fun _ hp => absurd hp not_mem_nil⟩ hanswers hrun

/-- What the cache has for a request was stored under its key. -/
theorem get_of_lookup {store : Store} {now : ℕ} {r : Response}
    (h : lookup net store now req = .fresh r ∨ lookup net store now req = .stale r) :
    ∃ e, store.get req.key = some e ∧ readStored net req.method e.data = some r := by
  unfold lookup at h
  cases hget : store.get req.key with
  | none => simp [hget] at h
  | some e =>
    refine ⟨e, rfl, ?_⟩
    cases hread : readStored net req.method e.data with
    | none => simp [hget, hread] at h
    | some r' =>
      simp only [hget, hread] at h
      split at h
      · exact congrArg some (by simpa using h)
      · exact congrArg some (by simpa using h)

/-- A part is served to no request but one whose part it is. -/
theorem Whole.served (hrelay : ∀ i, (h i).IsRelay net) (hs : s.Whole net) {i : ℕ} {env : Env}
    (hstep : s.step h net (.serve i (.request req env)) = some s')
    (he : e ∈ newEvents (s.sessions i) (s'.sessions i)) (hresp : e.fromCache = some resp)
    (hpart : resp.Abridged) (hp : s.origin req.key = some p) : ¬ p.1.Conditional := by
  intro hconditional
  obtain ⟨session, hsession, rfl⟩ := map_eq_some_iff.mp hstep
  rw [storeKeys_sessions] at he
  dsimp only at he
  rw [Function.update_self] at he
  obtain ⟨r, hfound, hstatus⟩ := fromCache_of_step (hrelay i) hsession he hresp
  obtain ⟨entry, hget, hread⟩ := get_of_lookup hfound
  obtain ⟨req', status, horigin⟩ := hs.origin req.key entry hget
  obtain rfl := some.inj (hp.symm.trans horigin)
  refine hs.whole _ (mem_of_find?_eq_some hp) hconditional req.method r hread ?_
  unfold Response.Abridged at hpart ⊢
  rwa [← hstatus]

end Service

/-- A request for the whole resource gets no part from the cache that an earlier request had asked
for, as long as the upstream answers such requests with the whole resource. -/
theorem no_part_from_cache (f : Forwarder) (ip : ℕ → Bytes) (g : Sniffing)
    (hf : f.net.KeepsStatus) (hg : g.net.KeepsStatus) :
    (∀ actions s s' i req env e resp p,
      Along (Service.step (f.handlers ip) f.net)
        (fun _ a => Service.AnswersWhole (f.handlers ip) f.net a) {} actions →
      run (Service.step (f.handlers ip) f.net) {} actions = some s →
      s.step (f.handlers ip) f.net (.serve i (.request req env)) = some s' → ¬ req.Conditional →
      e ∈ newEvents (s.sessions i) (s'.sessions i) → e.fromCache = some resp → resp.Abridged →
      s.origin req.key = some p → ¬ p.1.Conditional) ∧
    ∀ actions s s' i req env e resp p,
      Along (Service.step (fun _ => g.handleHTTP) g.net)
        (fun _ a => Service.AnswersWhole (fun _ => g.handleHTTP) g.net a) {} actions →
      run (Service.step (fun _ => g.handleHTTP) g.net) {} actions = some s →
      s.step (fun _ => g.handleHTTP) g.net (.serve i (.request req env)) = some s' →
      ¬ req.Conditional →
      e ∈ newEvents (s.sessions i) (s'.sessions i) → e.fromCache = some resp → resp.Abridged →
      s.origin req.key = some p → ¬ p.1.Conditional := by
  constructor
  · intro actions s s' i req env e resp p hanswers hrun hstep _ he hresp hpart hp
    have hrelay : ∀ i, (f.handlers ip i).IsRelay f.net := fun i => (f.forClient (ip i)).isRelay
    exact (Service.Whole.run hrelay hf hanswers hrun).served hrelay hstep he hresp hpart hp
  · intro actions s s' i req env e resp p hanswers hrun hstep _ he hresp hpart hp
    have hrelay : ∀ _ : ℕ, g.handleHTTP.IsRelay g.net := fun _ => g.isRelay
    exact (Service.Whole.run hrelay hg hanswers hrun).served hrelay hstep he hresp hpart hp

/-- The head of an empty response `206`. -/
def partHead : Bytes := bytes "HTTP/1.1 206 Partial Content\r\nContent-Length: 0\r\n\r\n"

theorem keepsStatus_partHead : (Net.ofHeads [(partHead, 206)]).KeepsStatus := by
  intro method out resp hread
  -- the method is of no account for these responses
  change readStored (.ofHeads [(partHead, 206)]) [] _ = _ at hread
  by_cases hstatus : out.statusCode = 206
  · have hwrite : (Net.ofHeads [(partHead, 206)]).write out = partHead := by
      simp [Net.ofHeads, hstatus]
    have hempty : readStored (.ofHeads [(partHead, 206)]) [] partHead = some (.empty 206) := by
      decide +kernel
    rw [hwrite, hempty] at hread
    exact some.inj hread ▸ hstatus.symm
  · have hwrite : (Net.ofHeads [(partHead, 206)]).write out = [] := by
      simp [Net.ofHeads, Ne.symm hstatus]
    have hnone : readStored (.ofHeads [(partHead, 206)]) [] [] = none := by decide +kernel
    rw [hwrite, hnone] at hread
    cases hread

/-- A forwarder and a sniffer whose upstream has nothing but that response. -/
def partForwarder : Forwarder := { net := .ofHeads [(partHead, 206)], cache := some defaultPolicy }

def partSniffing : Sniffing := { net := .ofHeads [(partHead, 206)], cache := some defaultPolicy }

/-- A request for a resource, or for a part of it. -/
def getPart (header : Header) : Input :=
  .request { Request.get (bytes "a") (bytes "/") with header } { reads := [⟨partHead, none⟩] }

/-- A run of a service found by computation, in which the second client is served a part. -/
theorem exists_part (h : ℕ → Handler ν) (net : Net) (header : Header)
    (hany : (run (Service.step h net) {} [.serve 0 (getPart header)]).any (fun s =>
      (s.step h net (.serve 1 (getPart []))).any (fun s' =>
        (newEvents (s.sessions 1) (s'.sessions 1)).any (·.fromCache == some (.empty 206))) &&
      (s.origin (Request.get (bytes "a") (bytes "/")).key).any (·.1.header == header)) = true) :
    ∃ s s' e p, run (Service.step h net) {} [.serve 0 (getPart header)] = some s ∧
      s.step h net (.serve 1 (getPart [])) = some s' ∧
      e ∈ newEvents (s.sessions 1) (s'.sessions 1) ∧ e.fromCache = some (.empty 206) ∧
      s.origin (Request.get (bytes "a") (bytes "/")).key = some p ∧ p.1.header = header := by
  obtain ⟨s, hrun, hs⟩ := (any_eq_true _ _).mp hany
  rw [Bool.and_eq_true] at hs
  obtain ⟨s', hstep, hs'⟩ := (any_eq_true _ _).mp hs.1
  obtain ⟨p, hp, hheader⟩ := (any_eq_true _ _).mp hs.2
  obtain ⟨e, he, hcached⟩ := any_eq_true.mp hs'
  exact ⟨s, s', e, p, hrun, hstep, he, beq_iff_eq.mp hcached, hp, beq_iff_eq.mp hheader⟩

theorem no_part_from_cache_plain : ∃ s s' e p,
    run (Service.step (fun _ => partSniffing.handleHTTP) partSniffing.net) {}
      [.serve 0 (getPart [])] = some s ∧
    s.step (fun _ => partSniffing.handleHTTP) partSniffing.net (.serve 1 (getPart [])) = some s' ∧
    e ∈ newEvents (s.sessions 1) (s'.sessions 1) ∧ e.fromCache = some (.empty 206) ∧
    s.origin (Request.get (bytes "a") (bytes "/")).key = some p ∧ ¬ p.1.Conditional := by
  obtain ⟨s, s', e, p, hrun, hstep, he, hcached, hp, -⟩ :=
    exists_part (fun _ => partSniffing.handleHTTP) partSniffing.net [] (by decide +kernel)
  refine ⟨s, s', e, p, hrun, hstep, he, hcached, hp, ?_⟩
  exact (no_part_from_cache partForwarder (fun _ => []) partSniffing keepsStatus_partHead
    keepsStatus_partHead).2 _ s s' 1 _ _ e _ p (by decide +kernel) hrun hstep (by decide +kernel) he
    hcached (by decide +kernel) hp

/-- The response to a request for a range is served to a request for the whole resource. -/
theorem part_served_as_whole :
    (partForwarder.net.KeepsStatus ∧ ∃ s s' e p,
      run (Service.step (partForwarder.handlers fun _ => []) partForwarder.net) {}
        [.serve 0 (getPart [(bytes "Range", bytes "bytes=0-0")])] = some s ∧
      s.step (partForwarder.handlers fun _ => []) partForwarder.net
        (.serve 1 (getPart [])) = some s' ∧
      e ∈ newEvents (s.sessions 1) (s'.sessions 1) ∧ e.fromCache = some (.empty 206) ∧
      s.origin (Request.get (bytes "a") (bytes "/")).key = some p ∧ p.1.Conditional) ∧
    partSniffing.net.KeepsStatus ∧ ∃ s s' e p,
      run (Service.step (fun _ => partSniffing.handleHTTP) partSniffing.net) {}
        [.serve 0 (getPart [(bytes "Range", bytes "bytes=0-0")])] = some s ∧
      s.step (fun _ => partSniffing.handleHTTP) partSniffing.net (.serve 1 (getPart [])) = some s' ∧
      e ∈ newEvents (s.sessions 1) (s'.sessions 1) ∧ e.fromCache = some (.empty 206) ∧
      s.origin (Request.get (bytes "a") (bytes "/")).key = some p ∧ p.1.Conditional := by
  have hranged : ∀ p : Request × Bytes × ℕ,
      p.1.header = [(bytes "Range", bytes "bytes=0-0")] → p.1.Conditional := by
    intro p hp
    unfold Request.Conditional
    rw [hp]
    decide +kernel
  refine ⟨⟨keepsStatus_partHead, ?_⟩, keepsStatus_partHead, ?_⟩
  · obtain ⟨s, s', e, p, hrun, hstep, he, hcached, hp, hheader⟩ :=
      exists_part (partForwarder.handlers fun _ => []) partForwarder.net
        [(bytes "Range", bytes "bytes=0-0")] (by decide +kernel)
    exact ⟨s, s', e, p, hrun, hstep, he, hcached, hp, hranged p hheader⟩
  · obtain ⟨s, s', e, p, hrun, hstep, he, hcached, hp, hheader⟩ :=
      exists_part (fun _ => partSniffing.handleHTTP) partSniffing.net
        [(bytes "Range", bytes "bytes=0-0")] (by decide +kernel)
    exact ⟨s, s', e, p, hrun, hstep, he, hcached, hp, hranged p hheader⟩

end Sniffer

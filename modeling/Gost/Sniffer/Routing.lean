import Gost.Sniffer.Upstream

/-!
# Where a request goes

The sniffer asks the bypass for the host of the first request, and dials the host it remembers; the
forwarder selects a node when it dials. Later requests may go where neither would send them: to a
host that the bypass contains, over a connection to another host, or to a node that their own
method, path or header would exclude.
-/

namespace Sniffer

open Bytes Handler List TransitionSystem

variable {ν : Type}

namespace Handler

variable {h : Handler ν} {s t s' : Session ν} {req : Request} {env : Env} {input : Input}

theorem ServeCase.host_eq (hserve : h.ServeCase t req env s') : s'.host = t.host := by
  cases hserve <;> rfl

theorem ServeCase.cc_cases (hserve : h.ServeCase t req env s') :
    (s'.cc = t.cc ∧ s'.upstreamHost = t.upstreamHost) ∨ ∃ target,
      h.resolve t.host req env.survey = .ok target ∧ s'.cc = some (newConn t target) ∧
        s'.upstreamHost = h.upstreamHost t.host req := by
  cases hserve with
  | cached | reused | refused | dialFailed => exact .inl ⟨rfl, rfl⟩
  | dialed target _ _ hresolve => exact .inr ⟨target, hresolve, rfl, rfl⟩

end Handler

/-- The address is dialed. -/
def Event.isDial (addr : Bytes) : Event ν → Bool
  | .dial a => a == addr
  | _ => false

variable {h : Handler ν} {inputs : List Input}

theorem Handler.exists_dial {addr : Bytes}
    (hany : (run h.step {} inputs).any (·.log.any (·.isDial addr)) = true) :
    ∃ s, h.Runs inputs s ∧ .dial addr ∈ s.log := by
  obtain ⟨s, hrun, hs⟩ := (Option.any_eq_true _ _).mp hany
  obtain ⟨e, he, hdial⟩ := any_eq_true.mp hs
  refine ⟨s, hrun, ?_⟩
  cases e with
  | dial a => exact beq_iff_eq.mp hdial ▸ he
  | _ => cases hdial

/-- A request is forwarded as `p` says. -/
def Event.isForward (p : Conn ν → Request → Bool) : Event ν → Bool
  | .forward cc req _ => p cc req
  | _ => false

theorem Handler.exists_forward {p : Conn ν → Request → Bool}
    (hany : (run h.step {} inputs).any (·.log.any (·.isForward p)) = true) :
    ∃ s cc req ok, h.Runs inputs s ∧ .forward cc req ok ∈ s.log ∧ p cc req = true := by
  obtain ⟨s, hrun, hs⟩ := (Option.any_eq_true _ _).mp hany
  obtain ⟨e, he, hforward⟩ := any_eq_true.mp hs
  cases e with
  | forward cc req ok => exact ⟨s, cc, req, ok, hrun, he, hforward⟩
  | _ => cases hforward

/-! ## Bypassed hosts -/

namespace Sniffing

variable {g : Sniffing} {s t s' : Session Unit} {req : Request} {env : Env} {input : Input}

/-- The bypass does not contain the host that the request brings along: a later request one that
changes the host, the first request none at all. -/
def BringsAllowed (g : Sniffing) (s : Session Unit) : Input → Prop
  | .readError _ => True
  | .request req _ =>
    (s.started = true → ChangesHost s req → g.bypasses req.target = false) ∧
      (s.started = false → req.target = [] → g.bypasses [] = false)

/-- The bypass contains neither the host to dial nor one that was dialed. -/
structure Allowed (g : Sniffing) (s : Session Unit) : Prop where
  host : s.started = true → g.bypasses s.host = false
  dialed : ∀ addr, .dial addr ∈ s.log → g.bypasses addr = false

theorem Allowed.ready_host (hs : g.Allowed s) (hbrings : g.BringsAllowed s (.request req env))
    (hready : g.handleHTTP.Ready s req t) : g.bypasses t.host = false := by
  cases hready with
  | first hstarted _ hadmits =>
    change (req.target == [] || !g.bypasses req.target) = true at hadmits
    rw [Bool.or_eq_true, beq_iff_eq, Bool.not_eq_true'] at hadmits
    rcases hadmits with hnil | hnot
    · rw [hnil]
      exact hbrings.2 hstarted hnil
    · exact hnot
  | changed cc hstarted hchange => exact hbrings.1 hstarted hchange
  | same hstarted => exact hs.host hstarted

theorem Allowed.step (hs : g.Allowed s) (hbrings : g.BringsAllowed s input)
    (hstep : g.handleHTTP.step s input = some s') : g.Allowed s' := by
  obtain ⟨-, hcase⟩ := step_cases hstep
  refine ⟨fun hstarted => ?_, fun addr haddr => ?_⟩
  · cases hcase with
    | readError | stopped => exact hs.host hstarted
    | served req env t _ hready hserve =>
      rw [hserve.host_eq]
      exact hs.ready_host hbrings hready
  · rcases hcase.dial_mem haddr with hold | ⟨req, env, t, target, rfl, hready, hresolve, rfl⟩
    · exact hs.dialed addr hold
    · -- the host that is remembered is dialed
      cases hresolve
      exact hs.ready_host hbrings hready

/-- The sniffer dials no host that the bypass contains as long as no later request changes to such a
host, and the first request has a host or the bypass does not contain the empty one. -/
theorem dials_allowed (g : Sniffing) (inputs : List Input) (s : Session Unit)
    (hbrings : Along g.handleHTTP.step g.BringsAllowed {} inputs)
    (hrun : g.handleHTTP.Runs inputs s) (addr : Bytes) (haddr : .dial addr ∈ s.log) :
    g.bypasses addr = false := by
  have hinit : g.Allowed {} := by
    refine ⟨fun h => (Bool.false_ne_true h).elim, fun addr haddr => ?_⟩
    exact absurd haddr not_mem_nil
  exact (run_induction_along (fun s input s' hs hg hstep => hs.step hg hstep) hinit hbrings
    hrun).dialed addr haddr

/-- The bypass contains the host `b`. -/
def bypassingB : Sniffing where
  net := .ofHeads [(okHead, 200)]
  bypass := some fun q => q.addr == bytes "b:80"

theorem dials_allowed_a : ∃ s, bypassingB.handleHTTP.Runs [forwardedA, forwardedA] s ∧
    .dial (bytes "a:80") ∈ s.log ∧ bypassingB.bypasses (bytes "a:80") = false := by
  obtain ⟨s, hrun, haddr⟩ := @exists_dial _ bypassingB.handleHTTP [forwardedA, forwardedA]
    (bytes "a:80") (by decide +kernel)
  refine ⟨s, hrun, haddr, dials_allowed bypassingB _ s ?_ hrun _ haddr⟩
  have hforwarded : ∀ input ∈ [forwardedA, forwardedA], input = forwardedA := by simp
  refine (along_of_forall hforwarded _).mono fun s input hinput => ?_
  subst hinput
  refine ⟨fun _ _ => by decide +kernel, fun _ hnil => absurd hnil (by decide +kernel)⟩

/-- The second request changes to the host that the bypass contains, and it is dialed. -/
theorem bypassed_host_dialed : ∃ s, bypassingB.handleHTTP.Runs twoHosts s ∧
    .dial (bytes "b:80") ∈ s.log ∧ bypassingB.bypasses (bytes "b:80") = true := by
  obtain ⟨s, hrun, haddr⟩ := @exists_dial _ bypassingB.handleHTTP twoHosts (bytes "b:80")
    (by decide +kernel)
  exact ⟨s, hrun, haddr, by decide +kernel⟩

/-! ## The host of a request -/

/-- The client sends a `Host` header. -/
def HasHost : Input → Prop
  | .readError _ => True
  | .request req _ => req.host ≠ []

/-- A request that is not in the cache names the host of the last dial, but the connection was
closed since then because another request changed the host. -/
def ReturnsUnconnected (g : Sniffing) (s : Session Unit) : Input → Prop
  | .readError _ => False
  | .request req env => s.started = true ∧ s.cc = none ∧ req.target = s.upstreamHost ∧
    g.handleHTTP.Misses req env

instance (s : Session Unit) : DecidablePred (g.ReturnsUnconnected s)
  | .readError _ => .isFalse id
  | .request req env =>
    decidable_of_iff (s.started = true ∧ s.cc.isNone = true ∧ req.target = s.upstreamHost ∧
      g.handleHTTP.Misses req env) <| by
      rw [Option.isNone_iff_eq_none]
      rfl

/-- Every request went over a connection to its own host. -/
structure Direct (s : Session Unit) : Prop where
  tracked : Tracked s
  addr_eq : ∀ cc, s.cc = some cc → cc.addr = s.upstreamHost
  forwarded : ∀ cc req ok, .forward cc req ok ∈ s.log → cc.addr = req.target

/-- What a request that is forwarded goes over. -/
theorem Direct.carries (hs : Direct s) (hhost : req.target ≠ [])
    (hback : ¬ g.ReturnsUnconnected s (.request req env)) (hready : g.handleHTTP.Ready s req t)
    (hmiss : g.handleHTTP.Misses req env) (cc : Conn Unit)
    (hcarries : g.handleHTTP.Carries t req env cc) : cc.addr = req.target := by
  have hkept : ¬ ChangesHost s req → req.target = s.upstreamHost := fun hsame =>
    not_not.mp fun hne => hsame ⟨hhost, hne⟩
  rcases hcarries with hcc | ⟨hcc, -, target, hresolve, rfl⟩
  · obtain ⟨rfl, hsame⟩ := hready.eq_of_cc hs.tracked hcc
    exact (hs.addr_eq cc hcc).trans (hkept hsame).symm
  · cases hresolve
    cases hready with
    | first => rfl
    | changed => rfl
    | same hstarted hsame => exact absurd ⟨hstarted, hcc, hkept hsame, hmiss⟩ hback

theorem Direct.ready (hs : Direct s) (hready : g.handleHTTP.Ready s req t) (cc : Conn Unit)
    (hcc : t.cc = some cc) : cc.addr = t.upstreamHost := by
  obtain ⟨rfl, -⟩ := hready.eq_of_cc hs.tracked hcc
  exact hs.addr_eq cc hcc

theorem Direct.step (hs : Direct s) (hhost : HasHost input) (hback : ¬ g.ReturnsUnconnected s input)
    (hstep : g.handleHTTP.step s input = some s') : Direct s' := by
  refine ⟨hs.tracked.step hstep, fun cc hcc => ?_, fun cc req ok he => ?_⟩
  · obtain ⟨-, hcase⟩ := step_cases hstep
    cases hcase with
    | readError | stopped => exact hs.addr_eq cc hcc
    | served req env t _ hready hserve =>
      rcases hserve.cc_cases with ⟨hcc', hhost'⟩ | ⟨target, hresolve, hcc', hhost'⟩
      · rw [hhost']
        exact hs.ready hready cc (hcc' ▸ hcc)
      · -- a new connection is dialed to the host that it is taken for
        cases hresolve
        rw [hhost', ← Option.some.inj (hcc'.symm.trans hcc)]
        rfl
  · rcases (step_cases hstep).2.forward_mem he with hold | ⟨env, t, rfl, hready, hmiss, hcarries⟩
    · exact hs.forwarded cc req ok hold
    · exact hs.carries (mt normalizeHost_eq_nil_iff.mp hhost) hback hready hmiss cc hcarries

/-- The sniffer forwards each request over a connection to the host that it names, as long as no
request returns to the host of the last dial after that connection was closed. -/
theorem forwarded_to_own_host (g : Sniffing) (inputs : List Input) (s : Session Unit)
    (hhost : ∀ input ∈ inputs, HasHost input)
    (hback : Along g.handleHTTP.step (fun s input => ¬ g.ReturnsUnconnected s input) {} inputs)
    (hrun : g.handleHTTP.Runs inputs s) (cc : Conn Unit) (req : Request) (ok : Bool)
    (hforward : .forward cc req ok ∈ s.log) : cc.addr = req.target := by
  have hinit : Direct {} :=
    ⟨Tracked.init, nofun, fun _ _ _ he => absurd he not_mem_nil⟩
  exact (run_induction_along (fun s input s' hs hg hstep => hs.step hg.1 hg.2 hstep) hinit
    ((along_of_forall hhost _).and hback) hrun).forwarded cc req ok hforward

theorem forwarded_to_own_host_b : ∃ s cc req ok, uncached.handleHTTP.Runs twoHosts s ∧
    .forward cc req ok ∈ s.log ∧ req.host = bytes "b" ∧ cc.addr = req.target := by
  obtain ⟨s, cc, req, ok, hrun, hforward, hreq⟩ := @exists_forward _ uncached.handleHTTP twoHosts
    (fun _ req => req.host == bytes "b") (by decide +kernel)
  refine ⟨s, cc, req, ok, hrun, hforward, beq_iff_eq.mp hreq, ?_⟩
  refine forwarded_to_own_host uncached twoHosts s (fun input hinput => ?_) ?_ hrun cc req ok
    hforward
  · rcases mem_pair.mp hinput with rfl | rfl
    · change bytes "a" ≠ []
      decide +kernel
    · change bytes "b" ≠ []
      decide +kernel
  · decide +kernel

/-- A request is forwarded to `a`, one to `b` is answered from the cache, and the next one to `a` is
forwarded to `b`. -/
theorem forwarded_to_other_host : ∃ s cc req ok, caching.handleHTTP.Runs
    [forwardedA, .request (.get (bytes "b") (bytes "/")) { lookup := .fresh (.empty 200) },
      forwardedA] s ∧
    .forward cc req ok ∈ s.log ∧ req.target = bytes "a:80" ∧ cc.addr = bytes "b:80" := by
  obtain ⟨s, cc, req, ok, hrun, hforward, hreq⟩ := @exists_forward _ caching.handleHTTP
    [forwardedA, .request (.get (bytes "b") (bytes "/")) { lookup := .fresh (.empty 200) },
      forwardedA]
    (fun cc req => req.target == bytes "a:80" && cc.addr == bytes "b:80") (by decide +kernel)
  rw [Bool.and_eq_true, beq_iff_eq, beq_iff_eq] at hreq
  exact ⟨s, cc, req, ok, hrun, hforward, hreq.1, hreq.2⟩

end Sniffing

/-! ## The node of a request -/

namespace Forwarder

variable {f : Forwarder} {hop : Hop} {s t s' : Session Route} {req : Request} {env : Env}
  {input : Input}

/-- The node may serve the request, and the service bypass does not contain it. -/
def Accepts (f : Forwarder) (hop : Hop) (node : Node) (req : Request) : Prop :=
  nodeMatches node (f.selectOptions hop req) = true ∧ f.bypasses req = false

instance (node : Node) (req : Request) : Decidable (f.Accepts hop node req) :=
  inferInstanceAs (Decidable (_ ∧ _))

/-- A request for which no node is selected is accepted as well: one that goes over a connection
that an earlier request opened, or to the node that is given. -/
def ReusesAccepting (f : Forwarder) (hop : Hop) (s : Session Route) : Input → Prop
  | .readError _ => True
  | .request req env => f.handleHTTP.Misses req env →
    (∀ cc, s.cc = some cc → ¬ ChangesHost s req → f.Accepts hop cc.node.selected req) ∧
      ∀ node, f.node = some node → f.Accepts hop node req

instance (s : Session Route) : DecidablePred (f.ReusesAccepting hop s)
  | .readError _ => .isTrue trivial
  | .request req env => inferInstanceAs (Decidable (f.handleHTTP.Misses req env →
    (∀ cc ∈ s.cc, ¬ ChangesHost s req → f.Accepts hop cc.node.selected req) ∧
      ∀ node ∈ f.node, f.Accepts hop node req))

variable {survey : Survey}

theorem resolveHTTPNode_accepts {route : Route} (hhop : f.hop = some hop)
    (hroute : f.resolveHTTPNode req survey = .ok route) : f.Accepts hop route.selected req := by
  unfold resolveHTTPNode at hroute
  rw [hhop] at hroute
  split at hroute
  next => cases hroute
  next hbypass =>
    split at hroute
    next => cases hroute
    next node hselect =>
      cases hroute
      exact ⟨Hop.select_matches hselect, Bool.not_eq_true _ ▸ hbypass⟩

/-- What is dialed for a request accepts it, or is the node that is given. -/
theorem resolve_accepts {target : Target Route} (hhop : f.hop = some hop)
    (hresolve : f.resolve req survey = .ok target) :
    f.node = some target.node.selected ∨ f.Accepts hop target.node.selected req := by
  unfold resolve at hresolve
  split at hresolve
  next node hnode =>
    cases hresolve
    exact .inl hnode
  next =>
    split at hresolve
    next => cases hresolve
    next route hroute =>
      cases hresolve
      exact .inr (resolveHTTPNode_accepts hhop hroute)

/-- Every request went to a node that accepts it. -/
structure Accepted (f : Forwarder) (hop : Hop) (s : Session Route) : Prop where
  tracked : Tracked s
  forwarded : ∀ cc req ok, .forward cc req ok ∈ s.log → f.Accepts hop cc.node.selected req

theorem Accepted.step (hhop : f.hop = some hop) (hs : f.Accepted hop s)
    (hreuse : f.ReusesAccepting hop s input) (hstep : f.handleHTTP.step s input = some s') :
    f.Accepted hop s' := by
  refine ⟨hs.tracked.step hstep, fun cc req ok he => ?_⟩
  rcases (step_cases hstep).2.forward_mem he with hold | ⟨env, t, rfl, hready, hmiss, hcarries⟩
  · exact hs.forwarded cc req ok hold
  · rcases hcarries with hcc | ⟨-, -, target, hresolve, rfl⟩
    · obtain ⟨rfl, hsame⟩ := hready.eq_of_cc hs.tracked hcc
      exact (hreuse hmiss).1 cc hcc hsame
    · exact (resolve_accepts hhop hresolve).elim ((hreuse hmiss).2 _) id

/-- The forwarder sends each request to a node that accepts it, and none that the bypass contains,
as long as the requests for which no node is selected are accepted as well. -/
theorem forwarded_to_accepting (f : Forwarder) (hop : Hop) (hhop : f.hop = some hop)
    (inputs : List Input) (s : Session Route)
    (hreuse : Along f.handleHTTP.step (f.ReusesAccepting hop) {} inputs)
    (hrun : f.handleHTTP.Runs inputs s) (cc : Conn Route) (req : Request) (ok : Bool)
    (hforward : .forward cc req ok ∈ s.log) : f.Accepts hop cc.node.selected req := by
  have hinit : f.Accepted hop {} :=
    ⟨Tracked.init, fun _ _ _ he => absurd he not_mem_nil⟩
  exact (run_induction_along (fun s input s' hs hg hstep => hs.step hhop hg hstep) hinit
    hreuse hrun).forwarded cc req ok hforward

/-- A node that takes the requests for one path. -/
def nodeFor (id : ℕ) (path : Bytes) : Node where
  id := id
  name := path
  addr := bytes "n:1"
  built := some { matcher := some fun req => req.path == path }

/-- A hop with one node for each of two paths. -/
def byPath : Hop := .chain { nodes := [nodeFor 0 (bytes "/a"), nodeFor 1 (bytes "/b")] }

/-- A forwarder with that hop. -/
def routing : Forwarder where
  net := .ofHeads [(okHead, 200)]
  hop := some byPath

/-- A request for the path over the connection to one host. -/
def getPath (path : Bytes) : Input :=
  .request (.get (bytes "h") path) { reads := [⟨okHead, none⟩] }

theorem forwarded_to_accepting_a : ∃ s cc req ok,
    routing.handleHTTP.Runs [getPath (bytes "/a"), getPath (bytes "/a")] s ∧
    .forward cc req ok ∈ s.log ∧ routing.Accepts byPath cc.node.selected req := by
  obtain ⟨s, cc, req, ok, hrun, hforward, -⟩ := @exists_forward _ routing.handleHTTP
    [getPath (bytes "/a"), getPath (bytes "/a")] (fun _ _ => true) (by decide +kernel)
  refine ⟨s, cc, req, ok, hrun, hforward, ?_⟩
  exact forwarded_to_accepting routing byPath rfl _ s (by decide +kernel) hrun cc req ok hforward

/-- The second request goes to the node that was selected for the first one, and that its own path
excludes. -/
theorem forwarded_to_excluding : ∃ s cc req ok,
    routing.handleHTTP.Runs [getPath (bytes "/a"), getPath (bytes "/b")] s ∧
    .forward cc req ok ∈ s.log ∧ ¬ routing.Accepts byPath cc.node.selected req := by
  obtain ⟨s, cc, req, ok, hrun, hforward, hreq⟩ := @exists_forward _ routing.handleHTTP
    [getPath (bytes "/a"), getPath (bytes "/b")]
    (fun cc req => !decide (routing.Accepts byPath cc.node.selected req)) (by decide +kernel)
  rw [Bool.not_eq_true', decide_eq_false_iff_not] at hreq
  exact ⟨s, cc, req, ok, hrun, hforward, hreq⟩

end Forwarder

end Sniffer

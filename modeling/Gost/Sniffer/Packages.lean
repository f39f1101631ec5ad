import Gost.Sniffer.Steps

/-!
# What the two packages have in common

`Exchange.Plain` and `Handler.IsRelay` collect what forwarder and sniffer leave alone: the method of
a request and the status of a response. What they write to the client besides responses of the
upstream and of the cache are responses of their own.
-/

namespace Sniffer

open Bytes Http List

variable {ν : Type}

/-- The relay speaks for itself. -/
def Own (ws : List Written) : Prop := ∀ w ∈ ws, ∃ resp, w = .own resp

theorem own_nil : Own [] := fun _ hw => absurd hw not_mem_nil

theorem Request.own_own (req : Request) (status : ℕ) (header : Header) :
    Own [req.own status header] :=
  fun _ hw => ⟨_, mem_singleton.mp hw⟩

/-- The parts of a round trip leave methods and statuses alone. -/
structure Exchange.Plain (x : Exchange) : Prop where
  method : ∀ {req out}, x.prepare req = .ok out → out.method = req.method
  refused : ∀ {req err told}, x.prepare req = .error (err, told) → Own told
  failure : ∀ req, Own (x.failure req)
  stale : ∀ resp, (x.stale resp).statusCode = resp.statusCode
  rewrite : ∀ {req resp out}, x.rewrite req resp = .ok out → out.statusCode = resp.statusCode

/-- The loop forwards requests by such round trips. -/
structure Handler.IsRelay (h : Handler ν) (net : Net) : Prop where
  roundTrip : ∀ node, ∃ (x : Exchange) (websocket : Bool), x.Plain ∧ ∀ stale req env,
    h.httpRoundTrip node stale req env = x.roundTrip net h.cache websocket stale req env
  refused : ∀ {host req survey err told}, h.resolve host req survey = .error (err, told) → Own told
  failure : ∀ {host req survey target}, h.resolve host req survey = .ok target → Own target.failure
  unconnected : ∀ stale env err {told}, Own told → ∀ w ∈ (h.unconnected stale env err told).1,
    (∃ resp, w = .own resp) ∨
      ∃ resp r, w = .stale resp ∧ stale = some r ∧ resp.statusCode = r.statusCode

/-! ## Forwarder -/

theorem Request.adjust_method (req : Request) : req.adjust.method = req.method := by
  unfold Request.adjust
  split <;> rfl

theorem Response.adjust_status (req : Request) (resp : Response) :
    (resp.adjust req).statusCode = resp.statusCode := by
  unfold Response.adjust
  split <;> rfl

theorem rewriteHost_method (settings : HTTPNodeSettings) (req : Request) :
    (rewriteHost settings req).method = req.method := by
  unfold rewriteHost
  split
  · rfl
  · split <;> rfl

theorem rewriteURL_method (rules : List (Bytes → Option Bytes)) (req : Request) :
    (rewriteURL rules req).method = req.method := by
  unfold rewriteURL
  split
  · rfl
  · split <;> rfl

theorem rewriteReqBody_method {net : Net} {events : List BodyRewrite → Bytes → Bytes}
    {rules : List BodyRewrite} {req out : Request}
    (h : rewriteReqBody net events rules req = some out) : out.method = req.method := by
  obtain ⟨rb, -, rfl⟩ := Option.map_eq_some_iff.mp h
  rcases rb with _ | _ | ⟨_, _ | _⟩ <;> rfl

namespace Forwarder

variable {f : Forwarder} {node : Node} {req out : Request} {err : Err} {told : List Written}

theorem prepare_method (h : f.prepare node req = .ok out) : out.method = req.method := by
  unfold prepare at h
  dsimp only at h
  split at h
  · cases h
    exact req.adjust_method
  · split at h
    · cases h
    · split at h
      · cases h
      · split at h
        · cases h
        next hbody =>
          cases h
          rw [rewriteReqBody_method hbody, rewriteURL_method]
          exact (rewriteHost_method _ _).trans req.adjust_method

theorem own_of_prepare (h : f.prepare node req = .error (err, told)) : Own told := by
  unfold prepare at h
  dsimp only at h
  split at h
  · cases h
  · split at h
    · cases h
      exact Request.own_own _ _ _
    · split at h
      · cases h
        exact own_nil
      · split at h <;> cases h
        exact own_nil

theorem rewrite_status {resp got : Response} (h : f.rewrite node req resp = .ok got) :
    got.statusCode = resp.statusCode := by
  unfold rewrite at h
  dsimp only at h
  split at h
  · cases h
    exact resp.adjust_status req
  · split at h
    · cases h
    next hbody =>
      split at h <;> cases h
      exact (rewriteRespBody_status hbody).1.trans (resp.adjust_status req)

theorem plain_exchange (f : Forwarder) (node : Node) : (f.exchange node).Plain where
  method := prepare_method
  refused := own_of_prepare
  failure req := req.own_own _ _
  stale _ := rfl
  rewrite := rewrite_status

variable {survey : Survey}

theorem own_of_resolveHTTPNode (h : f.resolveHTTPNode req survey = .error (err, told)) :
    Own told := by
  unfold resolveHTTPNode at h
  split at h
  · cases h
    exact req.own_own _ _
  · split at h <;> cases h
    exact req.own_own _ _

theorem own_of_resolve (h : f.resolve req survey = .error (err, told)) : Own told := by
  unfold resolve at h
  split at h
  · cases h
  · split at h
    next hnode =>
      cases h
      exact own_of_resolveHTTPNode hnode
    next => cases h

theorem own_failure {target : Target Route} (h : f.resolve req survey = .ok target) :
    Own target.failure := by
  unfold resolve at h
  split at h
  · cases h
    exact own_nil
  · split at h <;> cases h
    exact req.own_own _ _

theorem isRelay (f : Forwarder) : f.handleHTTP.IsRelay f.net where
  roundTrip route := ⟨f.exchange route.node, f.websocket, f.plain_exchange _, fun _ _ _ => rfl⟩
  refused := own_of_resolve
  failure := own_failure
  unconnected stale env err told htold w hw := by
    change w ∈ (f.unconnected stale env err told).1 at hw
    unfold unconnected serveStale at hw
    split at hw
    next resp hstale =>
      split at hstale
      · exact .inr ⟨_, resp, mem_singleton.mp hw, hstale, rfl⟩
      · cases hstale
    next => exact .inl (htold w hw)

end Forwarder

/-! ## Sniffer -/

namespace Sniffing

theorem plain_exchange : exchange.Plain where
  method h := Except.ok.inj h ▸ Request.adjust_method _
  refused h := nomatch h
  failure _ := own_nil
  stale _ := rfl
  rewrite h := Except.ok.inj h ▸ Response.adjust_status _ _

theorem isRelay (g : Sniffing) : g.handleHTTP.IsRelay g.net where
  roundTrip _ := ⟨exchange, g.websocket, plain_exchange, fun _ _ _ => rfl⟩
  refused h := nomatch h
  failure h := Except.ok.inj h ▸ own_nil
  unconnected stale env err told htold w hw := by
    change w ∈ (g.unconnected stale env err told).1 at hw
    unfold unconnected at hw
    split at hw
    next resp =>
      split at hw
      · split at hw
        · exact .inr ⟨_, resp, mem_singleton.mp hw, rfl, rfl⟩
        · exact absurd hw not_mem_nil
      · exact absurd hw not_mem_nil
    next => exact absurd hw not_mem_nil

end Sniffing

end Sniffer

import Gost.Sniffer.Routing

/-!
# Nodes that answer with a failure

A response whose status is one of the `FailCodes` marks the node failed, and the connection to the
client is to be closed so that the next request selects another node. The mark is always set. The
connection is closed only if the response has no length or closes it anyway, since the last
statement of `httpRoundTrip` decides anew.
-/

namespace Sniffer

open Bytes Http Reader TransitionSystem Handler

/-! ## Forwarding in a session -/

namespace Handler

variable {ν : Type} {h : Handler ν} {s t s' : Session ν} {req : Request} {env : Env} {conn : Conn ν}

/-- The next request is forwarded over the connection. -/
def Forwards (h : Handler ν) (s : Session ν) (req : Request) (env : Env) (conn : Conn ν) : Prop :=
  s.outcome = .running ∧ h.Misses req env ∧ ∃ t, h.Ready s req t ∧ h.Carries t req env conn

theorem Ready.step_eq (hready : h.Ready s req t) (hrunning : s.outcome = .running) :
    h.step s (.request req env) = some (h.serve t req env) := by
  unfold step
  rw [if_pos hrunning]
  cases hready with
  | first hstarted hpreface hadmits => simp [hstarted, Handler.first, hpreface, hadmits]
  | changed cc hstarted hchange hcc => simp [hstarted, next, hchange, hcc]
  | same hstarted hsame => simp [hstarted, next, hsame]

/-- The request goes over the connection that is open, or over one that is taken for its host. -/
theorem Carries.serve_eq (hcarries : h.Carries t req env conn) (hmiss : h.Misses req env) :
    ∃ t', h.serve t req env = h.forward t' conn (h.standIn req env) req env ∧ t'.cc = some conn ∧
      t'.started = t.started ∧ (t' = t ∨ t'.upstreamHost = h.upstreamHost t.host req) := by
  have hserve := h.serve_cases t req env
  generalize h.serve t req env = s' at hserve ⊢
  cases hserve with
  | cached resp hfound => exact absurd hfound (hmiss resp)
  | reused cc _ hcc =>
    rcases hcarries with hconn | ⟨hnone, -⟩
    · obtain rfl : cc = conn := Option.some.inj (hcc.symm.trans hconn)
      exact ⟨t, rfl, hcc, rfl, .inl rfl⟩
    · exact absurd (hnone.symm.trans hcc) nofun
  | refused err told _ hcc hresolve =>
    rcases hcarries with hconn | ⟨-, -, target, htarget, -⟩
    · exact absurd (hcc.symm.trans hconn) nofun
    · exact absurd (hresolve.symm.trans htarget) nofun
  | dialFailed target _ hcc _ hdial =>
    rcases hcarries with hconn | ⟨-, hdial', -⟩
    · exact absurd (hcc.symm.trans hconn) nofun
    · exact absurd (hdial.symm.trans hdial') nofun
  | dialed target _ hcc hresolve =>
    rcases hcarries with hconn | ⟨-, -, target', htarget, rfl⟩
    · exact absurd (hcc.symm.trans hconn) nofun
    · obtain rfl : target = target' := Except.ok.inj (hresolve.symm.trans htarget)
      exact ⟨h.connect t req target, rfl, rfl, rfl, .inr rfl⟩

/-- After a request was forwarded the session is over, or the same request would be forwarded over
the same connection again. -/
theorem Forwards.step (hs : Tracked s) (hforwards : h.Forwards s req env conn)
    (hhost : ∀ host, h.upstreamHost host req = req.target) :
    ∃ s', h.step s (.request req env) = some s' ∧
      (∀ e ∈ (h.httpRoundTrip conn.node (h.standIn req env) req env).events conn req, e ∈ s'.log) ∧
      if (h.httpRoundTrip conn.node (h.standIn req env) req env).err.isSome ||
        (h.httpRoundTrip conn.node (h.standIn req env) req env).shouldClose
      then ∀ next, h.step s' next = none else h.Forwards s' req env conn := by
  obtain ⟨hrunning, hmiss, t, hready, hcarries⟩ := hforwards
  obtain ⟨t', hserve, hcc, hstarted, hkept⟩ := hcarries.serve_eq hmiss
  refine ⟨_, (hready.step_eq hrunning).trans (congrArg some hserve), fun e he => ?_, ?_⟩
  · exact List.mem_append_right _ he
  · split
    next hover =>
      intro next
      have houtcome : (h.forward t' conn (h.standIn req env) req env).outcome ≠ .running := by
        unfold forward
        dsimp only
        rw [if_pos hover]
        exact nofun
      exact if_neg houtcome
    next hgoes =>
      refine ⟨if_neg hgoes, hmiss, _, .same ?_ ?_, .inl hcc⟩
      · exact hstarted.trans hready.started_eq
      · rintro ⟨hne, hchange⟩
        rcases hkept with rfl | hup
        · obtain ⟨rfl, hsame⟩ := hready.eq_of_cc hs hcc
          exact hsame ⟨hne, hchange⟩
        · exact hchange (hup.trans (hhost _)).symm

end Handler

namespace Forwarder

variable {f : Forwarder} {node : Node} {settings : HTTPNodeSettings} {req out : Request} {env : Env}
  {resp : Response} {framing : Framing} {br : Bytes} {cc : List (ReadResult UInt8)}

/-! ## One response -/

/-- The node gets the request as `out`, and the head of its response is read: what follows it is in
the buffer and on the connection. -/
structure Answers (f : Forwarder) (node : Node) (req : Request) (env : Env) (out : Request)
    (resp : Response) (framing : Framing) (br : Bytes) (cc : List (ReadResult UInt8)) : Prop where
  prepare : f.prepare node req = .ok out
  write : env.writeRequest = true
  read : (readFinal f.net out.method ((received env.reads).length + 1) env.reads []).2 =
    some ((resp, framing), br, cc)

/-- The client gets the whole response, which has a length and leaves the connection open. -/
structure StaysOpen (f : Forwarder) (node : Node) (settings : HTTPNodeSettings) (out : Request)
    (env : Env) (resp : Response) (framing : Framing) (br : Bytes) (cc : List (ReadResult UInt8)) :
    Prop where
  status : resp.statusCode ≠ 101
  close : resp.close = false
  write : env.writeResponse = true
  -- the body is read to its end, the rewrites succeed, and the length is or becomes known
  body : ∃ body rest, readBody f.net cc br framing = some (body, rest) ∧
    (∃ got, f.rewrite node out { resp with body } = .ok got) ∧
    ¬ (resp.contentLength = none ∧ StaysUnknown settings.rewriteResponseBody resp.header body)

theorem isEventStream_set {header : Header} {value : Bytes} :
    isEventStream (header.set (bytes "Connection") value) = isEventStream header := by
  unfold isEventStream
  rw [Header.get_set_ne (by decide +kernel)]

/-- The header that the rewrites get says the same about the body. -/
theorem isEventStream_closeHeader :
    isEventStream (f.closeHeader (resp.adjust req).header) = isEventStream resp.header := by
  have hadjust : isEventStream (resp.adjust req).header = isEventStream resp.header := by
    unfold Response.adjust
    split
    · split
      · rfl
      · exact isEventStream_set
    · rfl
  unfold closeHeader
  split
  · exact hadjust
  · exact isEventStream_set.trans hadjust

/-- What the rewrites leave of a response. -/
theorem rewrite_spec {got : Response} (hsettings : node.options.http = some settings)
    (h : f.rewrite node req resp = .ok got) :
    got.close = resp.close ∧ (got.contentLength = none ↔ resp.contentLength = none ∧
      StaysUnknown settings.rewriteResponseBody resp.header resp.body) := by
  have hadjust : (resp.adjust req).close = resp.close ∧
      (resp.adjust req).contentLength = resp.contentLength ∧
      (resp.adjust req).body = resp.body := by
    unfold Response.adjust
    split <;> exact ⟨rfl, rfl, rfl⟩
  unfold rewrite at h
  rw [hsettings] at h
  dsimp only at h
  split at h
  next => cases h
  next rewritten hbody =>
    split at h
    next => cases h
    next header _ =>
      cases h
      have hlength := rewriteRespBody_contentLength hbody
      rw [hadjust.2.1, hadjust.2.2, StaysUnknown, isEventStream_closeHeader] at hlength
      exact ⟨(rewriteRespBody_status hbody).2.trans hadjust.1, hlength⟩

theorem StaysOpen.of_readBody (hopen : f.StaysOpen node settings out env resp framing br cc)
    {body : Bytes} {rest : Bytes × List (ReadResult UInt8)}
    (hread : readBody f.net cc br framing = some (body, rest)) :
    (∃ got, f.rewrite node out { resp with body } = .ok got) ∧
      ¬ (resp.contentLength = none ∧
        StaysUnknown settings.rewriteResponseBody resp.header body) := by
  obtain ⟨body', rest', hread', hbody⟩ := hopen.body
  obtain ⟨rfl, rfl⟩ : body' = body ∧ rest' = rest :=
    Prod.mk.inj (Option.some.inj (hread'.symm.trans hread))
  exact hbody

/-- The decision about the client connection is that of a response which is passed on. -/
theorem answered_spec (interims : List Response) (hsettings : node.options.http = some settings) :
    let r := answered f.net f.cache f.websocket (f.exchange node) out env interims resp framing br
      cc
    r.marked = (f.exchange node).marks resp.statusCode ∧
      (r.shouldClose = true ↔ ¬ f.StaysOpen node settings out env resp framing br cc) ∧
      (r.err.isSome || r.shouldClose) = r.shouldClose := by
  unfold answered
  split
  next h101 => exact ⟨rfl, iff_of_true rfl fun hopen => hopen.status h101, rfl⟩
  next hstatus =>
    split
    next hread =>
      refine ⟨rfl, iff_of_true rfl fun hopen => ?_, rfl⟩
      obtain ⟨_, _, hread', -⟩ := hopen.body
      exact absurd (hread.symm.trans hread') nofun
    next body br' unread hread =>
      unfold passOn
      split
      next e hrewrite =>
        refine ⟨rfl, iff_of_true rfl fun hopen => ?_, rfl⟩
        obtain ⟨⟨got, hgot⟩, -⟩ := hopen.of_readBody hread
        exact absurd (hrewrite.symm.trans hgot) nofun
      next got hrewrite =>
        split
        next hwrite =>
          obtain ⟨hclose, hlength⟩ := rewrite_spec hsettings hrewrite
          refine ⟨rfl, ?_, rfl⟩
          rw [Response.closes, Bool.or_eq_true, Option.isNone_iff_eq_none, hlength, hclose]
          refine ⟨fun hcloses hopen => ?_, fun hopen => or_iff_not_imp_left.mpr fun hknown => ?_⟩
          · refine hcloses.elim (hopen.of_readBody hread).2 fun hresp => ?_
            exact Bool.false_ne_true (hopen.close.symm.trans hresp)
          · refine Bool.not_eq_false _ ▸ fun hkept => hopen ?_
            exact ⟨hstatus, hkept, hwrite, body, _, hread, ⟨got, hrewrite⟩, hknown⟩
        next hwrite => exact ⟨rfl, iff_of_true rfl fun hopen => hwrite hopen.write, rfl⟩

theorem Answers.httpRoundTrip_eq (hanswers : f.Answers node req env out resp framing br cc)
    (stale : Option Response) : ∃ interims, f.httpRoundTrip node stale req env =
      answered f.net f.cache f.websocket (f.exchange node) out env interims resp framing br cc := by
  have hread : readFinal f.net out.method ((received env.reads).length + 1) env.reads [] =
      (_, some ((resp, framing), br, cc)) := Prod.ext rfl hanswers.read
  exact ⟨_, Exchange.roundTrip_of_read hanswers.prepare hanswers.write hread⟩

/-- A node with settings has a marker. -/
theorem marks_of_match (hsettings : node.options.http = some settings)
    (hmatch : failCodesMatch settings.failCodes resp.statusCode = true) :
    (f.exchange node).marks resp.statusCode = true := by
  have hmarker : node.marker = true := by
    unfold Node.marker
    cases hbuilt : node.built with
    | some _ => rfl
    | none =>
      rw [Node.options, hbuilt] at hsettings
      cases hsettings
  change (node.options.http.any _ && node.marker) = true
  rw [hsettings, hmarker, Bool.and_true]
  exact hmatch

/-- A node that fails with the status 503. -/
def failingNode : Node where
  id := 0
  name := bytes "n"
  addr := bytes "n:1"
  built := some { http := some { failCodes := [503] } }

/-- A forwarder to that node, whose responses close the connection or not. -/
def failing (close : Bool) : Forwarder where
  net := { Net.ofHeads [] with
    parse := fun _ _ => some ({ Response.empty 503 with close }, .length 0) }
  node := some failingNode

/-- The node answers with one head. -/
def oneHead : Env := { reads := [⟨okHead, none⟩] }

end Forwarder

end Sniffer

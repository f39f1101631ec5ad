import Gost.Lib.TransitionSystem
import Gost.Sniffer.RoundTrip

/-!
# Sessions of one client connection

`Sniffer.HandleHTTP` of `x/internal/util/forwarder` and of `x/internal/util/sniffing`: the loop that
reads the requests of a client connection, answers them from the cache or forwards them, and dials
again when the `Host` header changes. A step serves one request. The variables of the loop are the
state, what it does is written to a log. The two packages share the loop; `Handler` lists the parts
in which they differ.
-/

namespace Sniffer

open Bytes Http Reader

variable {ν : Type}

/-! ## State -/

/-- An upstream connection. -/
structure Conn (ν : Type) where
  -- the number of the dial
  id : ℕ
  -- the address that was dialed
  addr : Bytes
  node : ν

/-- What is dialed for a request. -/
structure Target (ν : Type) where
  addr : Bytes
  node : ν
  -- the marker of the node is set or reset
  tracked : Bool := false
  -- what the client is told if the dial fails
  failure : List Written := []

inductive Event (ν : Type)
  -- the dial function is called
  | dial (addr : Bytes)
  -- it returns a connection
  | connect (cc : Conn ν)
  | mark (node : ν)
  | reset (node : ν)
  | close (cc : Conn ν)
  -- `Request.Write` is called, and whether it succeeds
  | forward (cc : Conn ν) (req : Request) (ok : Bool)
  | write (w : Written)
  -- a response is stored under the key of the request
  | store (req : Request) (data : Bytes) (status : ℕ)

inductive Outcome
  | running
  -- handed over to `serveH2`
  | http2
  | returned (err : Option Err)
  -- a method is called on a connection that is `nil`
  | panicked
deriving DecidableEq, Repr

/-- The variables of `HandleHTTP`, before a request is read. -/
structure Session (ν : Type) where
  -- the first request has been read
  started : Bool := false
  -- the host to dial, which only the sniffer keeps
  host : Bytes := []
  cc : Option (Conn ν) := none
  upstreamHost : Bytes := []
  -- the connections so far
  dials : ℕ := 0
  log : List (Event ν) := []
  outcome : Outcome := .running

/-- What `http.ReadRequest` returns. -/
inductive Input
  | request (req : Request) (env : Env)
  -- the end of the connection or another error
  | readError (eof : Bool)

/-! ## The loop -/

/-- The parts in which the packages differ. -/
structure Handler (ν : Type) where
  cache : Option Policy
  -- the first request is let through
  admits : Request → Bool
  -- what is dialed for a request, or the error and what the client is told
  resolve : Bytes → Request → Survey → Except (Err × List Written) (Target ν)
  -- the host that the new connection is taken for
  upstreamHost : Bytes → Request → Bytes
  -- what is written and returned if there is no connection
  unconnected : Option Response → Env → Err → List Written → List Written × Option Err
  httpRoundTrip : ν → Option Response → Request → Env → RoundTrip

/-- The preface of HTTP/2. -/
def Request.isPreface (req : Request) : Bool :=
  req.method == bytes "PRI" && req.header.isEmpty && req.path == bytes "*" && req.proto == (2, 0)

/-- What a round trip adds to the log. -/
def RoundTrip.events (r : RoundTrip) (cc : Conn ν) (req : Request) : List (Event ν) :=
  (r.sent.map (.forward cc req ·)).toList ++ (if r.marked then [.mark cc.node] else []) ++
    r.written.map .write ++ (r.stored.map fun p => .store req p.1 p.2).toList

namespace Handler

/-- What the cache has, if the method is cached. -/
def lookup (h : Handler ν) (req : Request) (env : Env) : Lookup :=
  if h.cache.any (·.cacheableRequest req) then env.lookup else .miss

/-- `serveCachedResponse` and what follows it. -/
def serveCached (_h : Handler ν) (s : Session ν) (resp : Response) (env : Env) : Session ν :=
  { s with
    log := s.log ++ if env.writeResponse then [.write (.cached resp)] else []
    outcome := if env.writeResponse && !resp.closes then .running else .returned none }

/-- There is no connection. -/
def giveUp (h : Handler ν) (s : Session ν) (stale : Option Response) (env : Env) (err : Err)
    (told : List Written) : Session ν :=
  { s with
    log := s.log ++ (h.unconnected stale env err told).1.map .write
    outcome := .returned (h.unconnected stale env err told).2 }

/-- The request is forwarded over the connection. -/
def forward (h : Handler ν) (s : Session ν) (cc : Conn ν) (stale : Option Response) (req : Request)
    (env : Env) : Session ν :=
  let r := h.httpRoundTrip cc.node stale req env
  { s with
    log := s.log ++ r.events cc req
    outcome := if r.err.isSome || r.shouldClose then .returned r.err else .running }

/-- The session with a new connection to the target. -/
def connect (h : Handler ν) (s : Session ν) (req : Request) (target : Target ν) : Session ν :=
  let cc : Conn ν := { id := s.dials, addr := target.addr, node := target.node }
  { s with
    cc := some cc
    upstreamHost := h.upstreamHost s.host req
    dials := s.dials + 1
    log := s.log ++ [.dial target.addr, .connect cc] ++
      if target.tracked then [.reset target.node] else [] }

/-- The session after a dial that failed. -/
def dialFailed (s : Session ν) (target : Target ν) : Session ν :=
  { s with
    log := s.log ++ [.dial target.addr] ++ if target.tracked then [.mark target.node] else [] }

/-- A connection is dialed for the request. -/
def dial (h : Handler ν) (s : Session ν) (stale : Option Response) (req : Request) (env : Env) :
    Session ν :=
  match h.resolve s.host req env.survey with
  | .error (err, told) => h.giveUp s stale env err told
  | .ok target =>
    if env.dial then
      let cc : Conn ν := { id := s.dials, addr := target.addr, node := target.node }
      h.forward (h.connect s req target) cc stale req env
    else h.giveUp (dialFailed s target) stale env .dial target.failure

/-- The body of the loop, as far as the next request is read. -/
def serve (h : Handler ν) (s : Session ν) (req : Request) (env : Env) : Session ν :=
  match h.lookup req env, s.cc with
  | .fresh resp, _ => h.serveCached s resp env
  | found, some cc => h.forward s cc found.staleResp req env
  | found, none => h.dial s found.staleResp req env

/-- The request names another host than the connection is taken for. -/
def ChangesHost (s : Session ν) (req : Request) : Prop :=
  req.target ≠ [] ∧ req.target ≠ s.upstreamHost

instance (s : Session ν) (req : Request) : Decidable (ChangesHost s req) :=
  inferInstanceAs (Decidable (_ ∧ _))

/-- The session once the connection to the old host is closed. -/
def changeHost (s : Session ν) (req : Request) (cc : Conn ν) : Session ν :=
  { s with cc := none, host := req.target, log := s.log ++ [.close cc] }

/-- A request behind the first one. -/
def next (h : Handler ν) (s : Session ν) (req : Request) (env : Env) : Session ν :=
  if ChangesHost s req then
    match s.cc with
    | none => { s with outcome := .panicked }
    | some cc => h.serve (changeHost s req cc) req env
  else h.serve s req env

/-- The first request. -/
def first (h : Handler ν) (s : Session ν) (req : Request) (env : Env) : Session ν :=
  if req.isPreface then { s with outcome := .http2 }
  else if h.admits req then h.serve { s with started := true, host := req.target } req env
  else { s with outcome := .returned (some .bypass) }

/-- `HandleHTTP`, up to the next request. -/
def step (h : Handler ν) (s : Session ν) (input : Input) : Option (Session ν) :=
  if s.outcome = .running then
    match input with
    | .readError eof =>
      some { s with outcome := .returned (if s.started && eof then none else some .readRequest) }
    | .request req env => some (if s.started then h.next s req env else h.first s req env)
  else none

end Handler

/-! ## Forwarder -/

/-- The node that the hop selected, and the one that is dialed. -/
structure Route where
  selected : Node
  node : Node

namespace Forwarder

/-- The prefix of the body that matchers see. -/
def bodyPrefix (f : Forwarder) (hop : Hop) (req : Request) : Bytes :=
  let body := req.body.take ((hop.nodes.map (·.options.matcherBodySize)).foldl max 0)
  let enc := req.header.get (bytes "Content-Encoding")
  if enc ≠ [] ∧ enc ≠ bytes "identity" ∧ body ≠ [] ∧ (f.net.decompress enc body).1 ≠ [] then
    (f.net.decompress enc body).1
  else body

/-- What the hop is told about a request. -/
def selectOptions (f : Forwarder) (hop : Hop) (req : Request) : SelectOptions where
  clientIP := f.clientIP
  protocol := bytes "http"
  host := req.target
  method := req.method
  path := req.path
  query := Query.parse req.rawQuery
  header := req.header
  body := f.bodyPrefix hop req

/-- The service bypass contains the host and the path of the request. -/
def bypasses (f : Forwarder) (req : Request) : Bool :=
  f.bypass.any (·
    { network := bytes "tcp", addr := req.target, service := f.service, path := req.requestURI })

/-- `resolveHTTPNode`. -/
def resolveHTTPNode (f : Forwarder) (req : Request) (survey : Survey) :
    Except (Err × List Written) Route :=
  if f.bypasses req then .error (.bypass, [req.own 403 []])
  else
    match (match f.hop with
      | none => some { name := [], addr := [] }
      | some hop => hop.select survey (f.selectOptions hop req)) with
    | none => .error (.nodeNotAvailable, [req.own 502 []])
    | some node =>
      .ok
        { selected := node
          node := if node.addr = [] then { name := node.name, addr := req.target } else node }

/-- `dial`, up to the call of the dial function. -/
def resolve (f : Forwarder) (req : Request) (survey : Survey) :
    Except (Err × List Written) (Target Route) :=
  match f.node with
  | some node => .ok { addr := node.addr, node := { selected := node, node } }
  | none =>
    match f.resolveHTTPNode req survey with
    | .error e => .error e
    | .ok route =>
      .ok
        { addr := route.node.addr, node := route, tracked := route.node.marker
          failure := [req.own 503 []] }

/-- What follows a dial that failed. -/
def unconnected (f : Forwarder) (stale : Option Response) (env : Env) (err : Err)
    (told : List Written) : List Written × Option Err :=
  match serveStale f.cache stale env with
  | some resp => ([.stale { resp with header := f.closeHeader resp.header }], none)
  | none => (told, some err)

/-- `HandleHTTP` of the forwarder. -/
def handleHTTP (f : Forwarder) : Handler Route where
  cache := f.cache
  admits _ := true
  resolve _ := f.resolve
  upstreamHost _ req := req.target
  unconnected := f.unconnected
  httpRoundTrip route := f.httpRoundTrip route.node

end Forwarder

/-! ## Sniffer -/

namespace Sniffing

/-- The bypass contains the host. -/
def bypasses (h : Sniffing) (host : Bytes) : Bool :=
  h.bypass.any (· { network := h.network, addr := host, service := h.service })

/-- What follows a dial that failed. -/
def unconnected (h : Sniffing) (stale : Option Response) (env : Env) (err : Err)
    (_told : List Written) : List Written × Option Err :=
  match stale with
  | some resp =>
    if h.cache.any (·.serveStale) then (if env.writeResponse then [.stale resp] else [], none)
    else ([], some err)
  | none => ([], some err)

/-- `HandleHTTP` of the sniffer. -/
def handleHTTP (h : Sniffing) : Handler Unit where
  cache := h.cache
  -- the bypass is asked here and nowhere else
  admits req := req.target == [] || !h.bypasses req.target
  resolve host _ _ := .ok { addr := host, node := () }
  upstreamHost host _ := host
  unconnected := h.unconnected
  httpRoundTrip _ := h.httpRoundTrip

end Sniffing

end Sniffer

import Gost.Sniffer.Cache
import Gost.Sniffer.Hop

/-!
# One request and its response

`httpRoundTrip` of `x/internal/util/forwarder` and of `x/internal/util/sniffing`. Both write the
request to the upstream connection, read the response through a buffer that they do not keep, write
it to the client and decide whether the client connection is closed. They differ in what they do to
the request and the response; `Exchange` lists these parts. Logging and recording are left out.
-/

namespace Sniffer

open Bytes Http Reader

/-! ## Surroundings -/

/-- The errors that `HandleHTTP` returns. -/
inductive Err
  | readRequest
  | bypass
  | nodeNotAvailable
  | dial
  | unauthorized
  | rewriteRequestHeader
  | rewriteRequestBody
  | writeRequest
  | readResponse
  | rewriteBody
  | rewriteResponseHeader
  | writeResponse
deriving DecidableEq, Repr

/-- What is written to the client. -/
inductive Written
  -- a response with the status 100
  | interim (resp : Response)
  -- the response of the upstream, and how it is passed on
  | final (resp out : Response)
  -- everything behind the switch of protocols
  | upgrade (text : Bytes)
  | cached (resp : Response)
  | stale (resp : Response)
  -- a response that the relay makes itself
  | own (resp : Relay.Response)
deriving DecidableEq, Repr

/-- The answer of the relay itself. -/
def Request.own (req : Request) (statusCode : ℕ) (header : Header) : Written :=
  .own { proto := req.proto, statusCode, header, close := false }

/-- What the surroundings answer while one request is served. -/
structure Env where
  -- what the cache has for it
  lookup : Lookup := .miss
  survey : Survey := {}
  -- the dial succeeds
  dial : Bool := true
  -- `Request.Write` to the upstream succeeds
  writeRequest : Bool := true
  -- what the upstream connection delivers
  reads : List (ReadResult UInt8) := []
  -- `Response.Write` to the client succeeds
  writeResponse : Bool := true

/-! ## Round trip -/

/-- The parts in which the packages differ. -/
structure Exchange where
  -- the request as the upstream gets it, or the error and what the client is told
  prepare : Request → Except (Err × List Written) Request
  -- what the client is told if the upstream does not answer
  failure : Request → List Written
  -- the stale response as it is written
  stale : Response → Response
  -- the status marks the node failed
  marks : ℕ → Bool
  -- the response as the client gets it
  rewrite : Request → Response → Except Err Response

structure RoundTrip where
  shouldClose : Bool := true
  err : Option Err := none
  -- `Request.Write` was called, and whether it succeeded
  sent : Option Bool := none
  written : List Written := []
  marked : Bool := false
  -- what is stored under the key of the request: the data and the status
  stored : Option (Bytes × ℕ) := none
  -- the reads that were not made
  unread : List (ReadResult UInt8) := []

/-- What `serveStale` serves in place of the upstream's response. -/
def serveStale (cache : Option Policy) (stale : Option Response) (env : Env) : Option Response :=
  if cache.any (·.serveStale) && env.writeResponse then stale else none

/-- The upstream does not answer. -/
def unanswered (cache : Option Policy) (x : Exchange) (stale : Option Response) (req : Request)
    (env : Env) (err : Err) (sent : Bool) (interims : List Response) : RoundTrip :=
  match serveStale cache stale env with
  | some resp =>
    { shouldClose := resp.closes
      sent := some sent
      written := interims.map .interim ++ [.stale (x.stale resp)]
      unread := if sent then [] else env.reads }
  | none =>
    { err := some err
      sent := some sent
      written := interims.map .interim ++ x.failure req
      unread := if sent then [] else env.reads }

/-- What is stored of a response that was written to the client. -/
def storedResponse (net : Net) (cache : Option Policy) (req : Request) (out : Response) :
    Option (Bytes × ℕ) :=
  cache.bind fun policy =>
    if policy.cacheable req out then
      (policy.captured (net.write out)).map (·, out.statusCode)
    else none

/-- The body of the response is passed on. -/
def passOn (net : Net) (cache : Option Policy) (x : Exchange) (req : Request) (env : Env)
    (interims : List Response) (resp : Response) (unread : List (ReadResult UInt8)) : RoundTrip :=
  let told := interims.map Written.interim
  let marked := x.marks resp.statusCode
  match x.rewrite req resp with
  | .error e => { err := some e, sent := some true, written := told, marked, unread }
  | .ok out =>
    if env.writeResponse then
      { shouldClose := out.closes
        sent := some true
        written := told ++ [.final resp out]
        marked
        stored := storedResponse net cache req out
        unread }
    else { err := some .writeResponse, sent := some true, written := told, marked, unread }

/-- The upstream has sent the head of a response. -/
def answered (net : Net) (cache : Option Policy) (websocket : Bool) (x : Exchange) (req : Request)
    (env : Env) (interims : List Response) (resp : Response) (framing : Framing) (br : Bytes)
    (cc : List (ReadResult UInt8)) : RoundTrip :=
  let told := interims.map Written.interim
  let marked := x.marks resp.statusCode
  if resp.statusCode = 101 then
    let text := Relay.handleUpgradeResponse (net.upgrade req.method) websocket req.toRequest
      resp.toResponse cc
    { sent := some true, written := told ++ [.upgrade (text.toOption.getD [])], marked }
  else
    match readBody net cc br framing with
    | none => { err := some .writeResponse, sent := some true, written := told, marked }
    | some (body, _, unread) => passOn net cache x req env interims { resp with body } unread

/-- `httpRoundTrip`. A response has one byte at least, so the turns of the loop do. -/
def Exchange.roundTrip (x : Exchange) (net : Net) (cache : Option Policy) (websocket : Bool)
    (stale : Option Response) (req : Request) (env : Env) : RoundTrip :=
  match x.prepare req with
  | .error (e, told) => { err := some e, written := told, unread := env.reads }
  | .ok out =>
    if env.writeRequest then
      match readFinal net out.method ((received env.reads).length + 1) env.reads [] with
      | (interims, none) => unanswered cache x stale req env .readResponse true interims
      | (interims, some ((resp, framing), br, cc)) =>
        answered net cache websocket x out env interims resp framing br cc
    else unanswered cache x stale req env .writeRequest false []

section RoundTrip

variable {x : Exchange} {net : Net} {cache : Option Policy} {websocket : Bool}
  {stale : Option Response} {req out : Request} {env : Env}

variable (x net cache websocket stale req env) in
/-- What a round trip comes to. -/
inductive Exchange.RoundTripCase : RoundTrip → Prop
  -- the request is not sent
  | refused (err : Err) (told : List Written) (hprepare : x.prepare req = .error (err, told)) :
      RoundTripCase { err := some err, written := told, unread := env.reads }
  | unsent (out : Request) (hprepare : x.prepare req = .ok out) :
      RoundTripCase (unanswered cache x stale req env .writeRequest false [])
  -- there is no response to it
  | unanswered (out : Request) (interims : List Response) (hprepare : x.prepare req = .ok out)
      (hread : readFinal net out.method ((received env.reads).length + 1) env.reads [] =
        (interims, none)) :
      RoundTripCase (unanswered cache x stale req env .readResponse true interims)
  | answered (out : Request) (interims : List Response) (resp : Response) (framing : Framing)
      (br : Bytes) (cc : List (ReadResult UInt8)) (hprepare : x.prepare req = .ok out)
      (hread : readFinal net out.method ((received env.reads).length + 1) env.reads [] =
        (interims, some ((resp, framing), br, cc))) :
      RoundTripCase (answered net cache websocket x out env interims resp framing br cc)

theorem Exchange.roundTrip_cases {r : RoundTrip}
    (hr : x.roundTrip net cache websocket stale req env = r) :
    x.RoundTripCase net cache websocket stale req env r := by
  rw [← hr, Exchange.roundTrip]
  split
  next err told hprepare => exact .refused err told hprepare
  next out hprepare =>
    split
    next =>
      split
      next interims hread => exact .unanswered out interims hprepare hread
      next interims resp framing br cc hread =>
        exact .answered out interims resp framing br cc hprepare hread
    next => exact .unsent out hprepare

theorem Exchange.roundTrip_of_read (hprepare : x.prepare req = .ok out)
    (hwrite : env.writeRequest = true) {interims : List Response} {resp : Response}
    {framing : Framing} {br : Bytes} {cc : List (ReadResult UInt8)}
    (hread : readFinal net out.method ((received env.reads).length + 1) env.reads [] =
      (interims, some ((resp, framing), br, cc))) :
    x.roundTrip net cache websocket stale req env =
      answered net cache websocket x out env interims resp framing br cc := by
  unfold Exchange.roundTrip
  rw [hprepare]
  dsimp only
  rw [if_pos hwrite, hread]

theorem unanswered_sent (err : Err) (sent : Bool) (interims : List Response) :
    (unanswered cache x stale req env err sent interims).sent = some sent := by
  unfold unanswered
  split <;> rfl

/-- A request that was written to the upstream had been prepared. -/
theorem Exchange.prepare_of_sent
    (hsent : (x.roundTrip net cache websocket stale req env).sent = some true) :
    ∃ out, x.prepare req = .ok out ∧ env.writeRequest = true := by
  unfold Exchange.roundTrip at hsent
  split at hsent
  next => cases hsent
  next out hprepare =>
    refine ⟨out, hprepare, ?_⟩
    by_contra hwrite
    rw [if_neg hwrite, unanswered_sent] at hsent
    cases hsent

end RoundTrip

/-! ## The two packages -/

/-- `Sniffer` and `HandleOptions` of the forwarder. -/
structure Forwarder where
  net : Net
  cache : Option Policy := none
  websocket : Bool := false
  -- a node resolved before, and the hop to select from
  node : Option Node := none
  hop : Option Hop := none
  bypass : Option Bypass := none
  service : Bytes := []
  httpKeepalive : Bool := true
  clientIP : Bytes := []
  -- rewrites of a stream of events
  rewriteEvents : List BodyRewrite → Bytes → Bytes := fun _ body => body

/-- `Sniffer` and `HandleOptions` of the sniffer, and the network. -/
structure Sniffing where
  net : Net
  cache : Option Policy := none
  websocket : Bool := false
  network : Bytes := bytes "tcp"
  bypass : Option Bypass := none
  service : Bytes := []

namespace Forwarder

/-- The node's `Auther` accepts the credentials of the request. -/
def authenticates (f : Forwarder) (settings : HTTPNodeSettings) (req : Request) : Bool :=
  let (username, password) := f.net.basicAuth req.header
  settings.auther.all fun authenticate => authenticate username password

/-- The request as the node gets it. -/
def prepare (f : Forwarder) (node : Node) (req : Request) : Except (Err × List Written) Request :=
  let req := req.adjust
  match node.options.http with
  | none => .ok req
  | some settings =>
    if f.authenticates settings req = false then
      .error (.unauthorized, [req.own 401 [(bytes "WWW-Authenticate", bytes "Basic")]])
    else
      let req := rewriteHost settings req
      let req := { req with header := setRequestHeader settings.requestHeader req.header }
      let req := rewriteURL settings.rewriteURL req
      match rewriteHeaderBlock settings.rewriteRequestHeader req.header with
      | none => .error (.rewriteRequestHeader, [])
      | some header =>
        match rewriteReqBody f.net f.rewriteEvents settings.rewriteRequestBody
            { req with header } with
        | none => .error (.rewriteRequestBody, [])
        | some req => .ok req

/-- A response header without keep-alive. -/
def closeHeader (f : Forwarder) (header : Header) : Header :=
  if f.httpKeepalive then header else header.set (bytes "Connection") (bytes "close")

/-- The response as the client gets it. -/
def rewrite (f : Forwarder) (node : Node) (req : Request) (resp : Response) :
    Except Err Response :=
  let resp := resp.adjust req
  let resp := { resp with header := f.closeHeader resp.header }
  match node.options.http with
  | none => .ok resp
  | some settings =>
    match rewriteRespBody f.net f.rewriteEvents settings.rewriteResponseBody resp with
    | none => .error .rewriteBody
    | some resp =>
      match rewriteHeaderBlock settings.rewriteResponseHeader
          (setResponseHeader settings.responseHeader resp.header) with
      | none => .error .rewriteResponseHeader
      | some header => .ok { resp with header }

def exchange (f : Forwarder) (node : Node) : Exchange where
  prepare := f.prepare node
  failure req := [req.own 503 []]
  stale resp := { resp with header := f.closeHeader resp.header }
  marks status :=
    node.options.http.any (failCodesMatch ·.failCodes status) && node.marker
  rewrite := f.rewrite node

/-- `httpRoundTrip` of the forwarder. -/
def httpRoundTrip (f : Forwarder) (node : Node) : Option Response → Request → Env → RoundTrip :=
  (f.exchange node).roundTrip f.net f.cache f.websocket

end Forwarder

namespace Sniffing

def exchange : Exchange where
  prepare req := .ok { req with header := req.header.del (bytes "Gost-Record") }.adjust
  failure _ := []
  stale resp := resp
  marks _ := false
  rewrite req resp := .ok (resp.adjust req)

/-- `httpRoundTrip` of the sniffer. -/
def httpRoundTrip (h : Sniffing) : Option Response → Request → Env → RoundTrip :=
  exchange.roundTrip h.net h.cache h.websocket

end Sniffing

end Sniffer

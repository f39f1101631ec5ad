import Gost.Lib.Base64
import Gost.Lib.TransitionSystem
import Gost.Proxy.Address
import Gost.Relay.Upgrade

/-!
# Sessions of the HTTP proxy

`x/handler/http`: the first request of a client connection goes through `handleRequest`, which
normalises it, checks its scheme and asks the bypass; all later ones are read by `handleProxy` and
go to `proxyRoundTrip` only. Each round trip asks the bypass and hands the request to
`http.Transport`, which finds out by itself what to dial. Recording, statistics, the answer to a
client that is not authenticated, tunnels and UDP are left out.
-/

namespace Proxy

open Bytes HostPort Http List Option TransitionSystem

/-! ## Requests -/

/-- A request as `http.ReadRequest` returns it: `Host` is the host of the URL, if it has one. -/
structure Request extends Relay.Request where
  method : Bytes
  -- `URL.Scheme` and `URL.Host`
  scheme : Bytes
  urlHost : Bytes
  host : Bytes
  host_eq : urlHost = [] ∨ host = urlHost

/-- The settings of the handler, and the parts of other packages that it uses. -/
structure Handler where
  -- `Contains`, for a network and an address
  bypass : Option (Bytes → Bytes → Bool) := none
  header : Header := []
  proxyAgent : Bytes := []
  checksum : Bytes → ℕ
  isDNSName : Bytes → Bool
  isIP : Bytes → Bool
  equalFold : Bytes → Bytes → Bool

/-- `setRequestHost`. -/
def setRequestHost (req : Request) (host : Bytes) : Request :=
  { req with
    scheme := if req.scheme = [] then bytes "http" else req.scheme
    urlHost := host, host := host, host_eq := .inr rfl }

namespace Handler

/-- `decodeServerName`. -/
def decodeServerName (h : Handler) (s : Bytes) : Option Bytes := do
  let b ← Base64.decode s
  guard (4 ≤ b.length)
  let v ← Base64.decode (b.drop 4)
  guard (h.checksum v = (b.take 4).foldl (fun n c => n * 256 + c.toNat) 0)
  some v

/-- The request with the target of a header field, if there is one. -/
def setTarget (h : Handler) (name : Bytes) (req : Request) : Request :=
  if req.header.get name = [] then req
  else ((h.decodeServerName (req.header.get name)).map (setRequestHost req)).getD req

/-- The scheme is inferred from the host. -/
def inferScheme (h : Handler) (req : Request) : Request :=
  let host := (splitHostPort req.host).elim req.host (·.1)
  if req.scheme = [] ∧ (h.isDNSName host || h.isIP host) then { req with scheme := bytes "http" }
  else req

/-- `normalizeRequest`: the request, the network and the address. -/
def normalizeRequest (h : Handler) (req : Request) : Request × Bytes × Bytes :=
  let network := if req.header.get (bytes "X-Gost-Protocol") = bytes "udp" then bytes "udp"
    else bytes "tcp"
  let req := h.setTarget (bytes "Gost-Target") (h.inferScheme req)
  let req := h.setTarget (bytes "X-Gost-Target") req
  (req, network, normalizeHostPort req.host (bytes "80"))

end Handler

/-- An origin-form request carries its target in `Host` only. -/
def Request.fillURL (req : Request) : Request :=
  if req.urlHost = [] then
    { req with scheme := bytes "http", urlHost := req.host, host_eq := .inr rfl }
  else req

/-- The header fields that are not forwarded. -/
def hopHeaders : List Bytes :=
  [bytes "Proxy-Authorization", bytes "Proxy-Connection", bytes "Gost-Target",
    bytes "X-Gost-Target"]

/-- The request as the transport gets it. -/
def Request.forward (req : Request) : Request :=
  let req := { req with header := req.header.del (bytes "Gost-Record") }.fillURL
  let header :=
    if req.proto = (1, 0) then
      if (req.header.get (bytes "Connection")).map toLower = bytes "keep-alive" then
        req.header.del (bytes "Connection")
      else req.header.set (bytes "Connection") (bytes "close")
    else req.header
  { req with header := hopHeaders.foldl Header.del header }

/-- What `http.Transport` dials: schemes other than `http` and `https` and URLs without a host are
errors. -/
def transportAddr (req : Request) : Option Bytes :=
  if req.urlHost = [] then none
  else if req.scheme = bytes "http" then some (canonicalAddr req.urlHost (bytes "80"))
  else if req.scheme = bytes "https" then some (canonicalAddr req.urlHost (bytes "443"))
  else none

/-! ## Sessions -/

inductive Err
  | readRequest
  | authentication
  | bypass
  | transport
  | upgrade
  | writeResponse
deriving DecidableEq, Repr

inductive Event
  -- `Bypass.Contains` and what it returns
  | contains (network addr : Bytes) (result : Bool)
  -- the transport opens a connection
  | dial (addr : Bytes)
  | write (resp : Relay.Response)
deriving DecidableEq, Repr

inductive Outcome
  | running
  | returned (err : Option Err)
  -- handed over to `handleUDP` and `handleConnect`
  | udp
  | connect (addr : Bytes)
deriving DecidableEq, Repr

/-- What the surroundings answer while one request is served. -/
structure Env where
  authenticated : Bool := true
  -- there is no idle connection
  dials : Bool := true
  -- what the transport returns
  answer : Option Relay.Response := none
  -- `Response.Write` succeeds
  write : Bool := true

inductive Input
  | request (req : Request) (env : Env)
  -- `http.ReadRequest` fails, at the end of the connection or otherwise
  | readError (eof : Bool)

structure Session where
  started : Bool := false
  log : List Event := []
  outcome : Outcome := .running

structure RoundTrip where
  close : Bool := true
  err : Option Err := none
  events : List Event

/-- A response that the proxy makes itself. -/
def status (proto : ℕ × ℕ) (statusCode : ℕ) (header : Header) : Relay.Response :=
  { proto, statusCode, header, close := false }

/-- The response as an HTTP/1.0 client gets it. -/
def adjust (req : Request) (resp : Relay.Response) : Relay.Response :=
  if req.proto = (1, 0) then
    { resp with
      proto := (1, 0)
      header := if resp.close then resp.header
        else resp.header.set (bytes "Connection") (bytes "keep-alive") }
  else resp

namespace Handler

/-- The bypass is asked: whether it contains the address, and the event. -/
def contains (h : Handler) (network addr : Bytes) : Bool × List Event :=
  match h.bypass with
  | none => (false, [])
  | some b => (b network addr, [.contains network addr (b network addr)])

/-- What follows the round trip of the transport. -/
def respond (h : Handler) (req : Request) (env : Env) (answer : Option Relay.Response)
    (events : List Event) : RoundTrip :=
  match answer with
  | none => { err := some .transport, events := events ++ [.write (status req.proto 503 [])] }
  | some resp =>
    let resp := adjust req resp
    if resp.statusCode = 101 then
      -- `handleUpgradeResponse`, up to the relay of the two connections
      if h.equalFold (Relay.upgradeType req.header) (Relay.upgradeType resp.header) &&
          env.write then
        { events := events ++ [.write resp] }
      else { err := some .upgrade, events }
    else if env.write then { close := resp.close, events := events ++ [.write resp] }
    else { err := some .writeResponse, events }

/-- `proxyRoundTrip`. -/
def proxyRoundTrip (h : Handler) (req : Request) (env : Env) : RoundTrip :=
  let req := req.forward
  let (bypassed, events) := h.contains (bytes "tcp") (normalizeHostPort req.host (bytes "80"))
  if bypassed then
    { err := some .bypass, events := events ++ [.write (status req.proto 403 [])] }
  else
    match transportAddr req with
    | none => h.respond req env none events
    | some addr => h.respond req env env.answer (events ++ if env.dials then [.dial addr] else [])

/-- The session after a round trip, with the events before it. -/
def after (s : Session) (events : List Event) (r : RoundTrip) : Session :=
  { started := true
    log := s.log ++ (events ++ r.events)
    outcome := if r.err.isSome || r.close then .returned r.err else .running }

/-- The answer of `handleRequest` itself. -/
def reply (s : Session) (events : List Event) (statusCode : ℕ) (header : Header)
    (err : Option Err) : Session :=
  { started := true
    log := s.log ++ (events ++ [.write (status (1, 1) statusCode header)])
    outcome := .returned err }

/-- The header of a response with the name of the proxy. -/
def agentHeader (h : Handler) : Header :=
  if h.header.get (bytes "Proxy-Agent") = [] then
    h.header.set (bytes "Proxy-Agent") h.proxyAgent
  else h.header

/-- `handleRequest`, for the first request. -/
def handleRequest (h : Handler) (s : Session) (req : Request) (env : Env) : Session :=
  let (req, network, addr) := h.normalizeRequest req
  if env.authenticated = false then
    { s with started := true, outcome := .returned (some .authentication) }
  else if req.method = bytes "PRI" ∨ req.method ≠ bytes "CONNECT" ∧ req.scheme ≠ bytes "http" then
    reply s [] 400 h.header (if env.write then none else some .writeResponse)
  else
    let (bypassed, events) := h.contains network addr
    if bypassed then reply s events 403 h.agentHeader (some .bypass)
    else if network = bytes "udp" then
      { started := true, log := s.log ++ events, outcome := .udp }
    else if req.method = bytes "CONNECT" then
      { started := true, log := s.log ++ events, outcome := .connect addr }
    else after s events (h.proxyRoundTrip req env)

/-- `Handle`, up to the next request. Later requests are read by `handleProxy`. -/
def step (h : Handler) (s : Session) (input : Input) : Option Session :=
  if s.outcome = .running then
    match input with
    | .readError eof =>
      some { s with outcome := .returned (if s.started && eof then none else some .readRequest) }
    | .request req env =>
      some (if s.started then after s [] (h.proxyRoundTrip req env) else h.handleRequest s req env)
  else none

/-- The request that is handed to `proxyRoundTrip`. -/
def proxied (h : Handler) (s : Session) (req : Request) : Request :=
  if s.started then req else (h.normalizeRequest req).1

end Handler

/-! ## Checked and dialed -/

/-- The address of the request that the bypass is asked for. -/
def Request.checkedAddr (req : Request) : Bytes := normalizeHostPort req.host (bytes "80")

/-- The transport gets the host that is checked. -/
theorem Request.fillURL_urlHost (req : Request) : req.fillURL.urlHost = req.host := by
  unfold Request.fillURL
  split
  next => rfl
  next h => exact (req.host_eq.resolve_left h).symm

theorem Request.forward_urlHost (req : Request) : req.forward.urlHost = req.host := by
  exact Request.fillURL_urlHost _

theorem Request.forward_scheme (req : Request) : req.forward.scheme = req.fillURL.scheme := by
  show (Request.fillURL { req with header := req.header.del (bytes "Gost-Record") }).scheme = _
  unfold Request.fillURL
  split <;> rfl

theorem Request.forward_host (req : Request) : req.forward.host = req.host := by
  show (Request.fillURL { req with header := req.header.del (bytes "Gost-Record") }).host = _
  unfold Request.fillURL
  split <;> rfl

/-- A host with a port in digits, or without a port and for the scheme that has the port 80. -/
def Request.SamePort (req : Request) : Prop :=
  HasPort req.host ∨ IsBare req.host ∧ req.fillURL.scheme = bytes "http"

instance (req : Request) : Decidable req.SamePort := inferInstanceAs (Decidable (_ ∨ _ ∧ _))

variable {addr : Bytes}

/-- The transport dials what was checked for the host and scheme of the request. -/
theorem transportAddr_eq_iff {req : Request} (h : transportAddr req.forward = some addr) :
    addr = req.checkedAddr ↔ req.SamePort := by
  unfold transportAddr at h
  rw [req.forward_urlHost, req.forward_scheme] at h
  unfold Request.checkedAddr Request.SamePort
  split at h
  · exact absurd h (some_ne_none _).symm
  split at h
  next hscheme =>
    rw [← some.inj h, canonicalAddr_eq_iff (by decide) (by decide)]
    simp only [hscheme]
  next hscheme =>
    split at h
    · rw [← some.inj h, canonicalAddr_eq_iff (by decide) (by decide)]
      have hports : bytes "443" ≠ bytes "80" := by decide +kernel
      simp only [hscheme, hports]
    · exact absurd h (some_ne_none _).symm

namespace Handler

variable {h : Handler} {req : Request} {env : Env} {s s' : Session} {e : Event}

/-- A response adds nothing but a write. -/
theorem mem_respond {answer : Option Relay.Response} {events : List Event}
    (he : ∀ resp, e ≠ .write resp) :
    e ∈ (h.respond req env answer events).events ↔ e ∈ events := by
  have hwrite : ∀ resp, e ∈ events ++ [.write resp] ↔ e ∈ events := fun resp => by
    rw [mem_append, mem_singleton, or_iff_left (he resp)]
  unfold respond
  split
  · exact hwrite _
  · dsimp only
    split
    · split
      · exact hwrite _
      · rfl
    · split
      · exact hwrite _
      · rfl

/-- What a round trip does besides writing: it asks the bypass and dials. -/
theorem mem_proxyRoundTrip (he : ∀ resp, e ≠ .write resp) :
    e ∈ (h.proxyRoundTrip req env).events ↔ e ∈ (h.contains (bytes "tcp") req.checkedAddr).2 ∨
      (h.contains (bytes "tcp") req.checkedAddr).1 = false ∧ env.dials = true ∧
        ∃ addr, transportAddr req.forward = some addr ∧ e = .dial addr := by
  have hchecked : normalizeHostPort req.forward.host (bytes "80") = req.checkedAddr := by
    rw [req.forward_host]
    rfl
  unfold proxyRoundTrip
  simp only [hchecked]
  split
  next hbypassed =>
    rw [mem_append, mem_singleton, or_iff_left (he _), hbypassed]
    simp
  next hbypassed =>
    rw [Bool.not_eq_true] at hbypassed
    split
    next hnone =>
      rw [mem_respond he, hnone]
      simp
    next addr hsome =>
      rw [mem_respond he, hsome, hbypassed]
      split <;> simp_all

variable {network : Bytes}

/-- The bypass is asked once, if there is one, and its answer is in the event. -/
theorem mem_contains :
    e ∈ (h.contains network addr).2 ↔
      h.bypass.isSome = true ∧ e = .contains network addr (h.contains network addr).1 := by
  unfold contains
  split
  next hnone => simp [hnone]
  next b hsome => simp [hsome]

theorem dial_notMem_contains {addr' : Bytes} :
    .dial addr ∉ (h.contains network addr').2 := fun hmem =>
  Event.noConfusion (mem_contains.mp hmem).2

theorem dial_mem_proxyRoundTrip :
    .dial addr ∈ (h.proxyRoundTrip req env).events ↔
      ((h.contains (bytes "tcp") req.checkedAddr).1 = false ∧ env.dials = true) ∧
        transportAddr req.forward = some addr := by
  rw [mem_proxyRoundTrip (fun _ => Event.noConfusion), or_iff_right dial_notMem_contains, and_assoc]
  simp

theorem contains_mem_proxyRoundTrip {result : Bool} :
    .contains network addr result ∈ (h.proxyRoundTrip req env).events ↔
      .contains network addr result ∈ (h.contains (bytes "tcp") req.checkedAddr).2 := by
  rw [mem_proxyRoundTrip (fun _ => Event.noConfusion), or_iff_left]
  rintro ⟨_, _, _, _, heq⟩
  exact Event.noConfusion heq

theorem normalizeRequest_network (hudp : (h.normalizeRequest req).2.1 ≠ bytes "udp") :
    (h.normalizeRequest req).2.1 = bytes "tcp" := by
  unfold normalizeRequest at hudp ⊢
  split at hudp
  next => exact absurd rfl hudp
  next hheader => exact if_neg hheader

/-- If something is dialed for the first request, it went to `proxyRoundTrip` after the bypass was
asked for the same address as there. -/
theorem handleRequest_dial
    (hdial : .dial addr ∈ (h.handleRequest s req env).log.drop s.log.length) :
    (h.handleRequest s req env).log =
      s.log ++ ((h.contains (bytes "tcp") (h.normalizeRequest req).1.checkedAddr).2 ++
        (h.proxyRoundTrip (h.normalizeRequest req).1 env).events) := by
  revert hdial
  unfold handleRequest
  dsimp only
  split
  · intro hdial
    rw [drop_length] at hdial
    exact absurd hdial not_mem_nil
  split
  · intro hdial
    simp only [reply, drop_left, nil_append, mem_singleton] at hdial
    exact Event.noConfusion hdial
  split
  · intro hdial
    simp only [reply, drop_left, mem_append, mem_singleton, dial_notMem_contains, false_or] at hdial
    exact Event.noConfusion hdial
  split
  · intro hdial
    rw [drop_left] at hdial
    exact absurd hdial dial_notMem_contains
  next hudp =>
    split
    · intro hdial
      rw [drop_left] at hdial
      exact absurd hdial dial_notMem_contains
    · intro _
      rw [normalizeRequest_network hudp]
      rfl

/-- Every request for which something is dialed went to `proxyRoundTrip`, and the bypass was not
asked for another address. -/
theorem step_dial (hstep : h.step s (.request req env) = some s')
    (hdial : .dial addr ∈ s'.log.drop s.log.length) :
    ∃ asked ⊆ (h.contains (bytes "tcp") (h.proxied s req).checkedAddr).2,
      s'.log.drop s.log.length = asked ++ (h.proxyRoundTrip (h.proxied s req) env).events := by
  unfold step at hstep
  split at hstep
  next =>
    replace hstep := some.inj hstep
    unfold proxied
    split at hstep
    next hstarted =>
      subst hstep
      rw [if_pos hstarted]
      exact ⟨[], nil_subset _, drop_left⟩
    next hstarted =>
      subst hstep
      rw [if_neg hstarted, handleRequest_dial hdial]
      exact ⟨_, List.Subset.refl _, drop_left⟩
  next => exact absurd hstep.symm (some_ne_none _)

/-- An address that the transport dials for a request is one for which the bypass was asked, for
this request and with the answer that it is not contained, exactly if the host has a port in digits
or has no port and gets the one of `http`. -/
theorem dialed_checked_iff (hbypass : h.bypass.isSome = true)
    (hstep : h.step s (.request req env) = some s') {addr : Bytes}
    (hdial : .dial addr ∈ s'.log.drop s.log.length) :
    .contains (bytes "tcp") addr false ∈ s'.log.drop s.log.length ↔ (h.proxied s req).SamePort := by
  obtain ⟨asked, hasked, hnew⟩ := step_dial hstep hdial
  rw [hnew, mem_append, or_iff_right (fun hmem => dial_notMem_contains (hasked hmem)),
    dial_mem_proxyRoundTrip] at hdial
  obtain ⟨⟨hpassed, _⟩, hdialed⟩ := hdial
  rw [hnew, mem_append, contains_mem_proxyRoundTrip,
    or_iff_right_of_imp (fun hmem => hasked hmem), mem_contains, hpassed,
    ← transportAddr_eq_iff hdialed]
  simp [hbypass]

/-- A proxy with a bypass for one host and port. -/
def guarded : Handler :=
  { bypass := some (fun _ addr => addr == bytes "a:443")
    checksum := List.length
    isDNSName := fun _ => true
    isIP := fun _ => false
    equalFold := fun a b => a == b }

/-- A request for an absolute URL. -/
def getURL (scheme host : Bytes) : Request :=
  { proto := (1, 1), header := [], method := bytes "GET", scheme, urlHost := host, host
    host_eq := .inr rfl }

def answered : Env :=
  { answer := some { proto := (1, 1), statusCode := 200, header := [], close := false } }

theorem dialed_checked_plain : ∃ s,
    guarded.step {} (.request (getURL (bytes "http") (bytes "a")) answered) = some s ∧
      .dial (bytes "a:80") ∈ s.log ∧ .contains (bytes "tcp") (bytes "a:80") false ∈ s.log := by
  have hdial : (guarded.step {} (.request (getURL (bytes "http") (bytes "a")) answered)).any
      (fun s => .dial (bytes "a:80") ∈ s.log) = true := by decide +kernel
  obtain ⟨s, hstep, hdial⟩ := (any_eq_true _ _).mp hdial
  refine ⟨s, hstep, of_decide_eq_true hdial, ?_⟩
  exact (dialed_checked_iff rfl hstep (of_decide_eq_true hdial)).mpr (by decide +kernel)

/-- After a request with `http`, one with `https` for the same host is dialed at a port that the
bypass contains and was never asked for. -/
theorem https_dialed_unchecked : ∃ s,
    run guarded.step {} [.request (getURL (bytes "http") (bytes "a")) answered,
      .request (getURL (bytes "https") (bytes "a")) answered] = some s ∧
      .dial (bytes "a:443") ∈ s.log ∧
      (∀ network result, .contains network (bytes "a:443") result ∉ s.log) ∧
      ∀ b ∈ guarded.bypass, b (bytes "tcp") (bytes "a:443") = true := by
  have hany : (run guarded.step {} [.request (getURL (bytes "http") (bytes "a")) answered,
      .request (getURL (bytes "https") (bytes "a")) answered]).any
      (fun s => s.log == [
        .contains (bytes "tcp") (bytes "a:80") false, .contains (bytes "tcp") (bytes "a:80") false,
        .dial (bytes "a:80"), .write (status (1, 1) 200 []),
        .contains (bytes "tcp") (bytes "a:80") false,
        .dial (bytes "a:443"), .write (status (1, 1) 200 [])]) = true := by decide +kernel
  obtain ⟨s, hrun, hlog⟩ := (any_eq_true _ _).mp hany
  rw [beq_iff_eq] at hlog
  have hports : bytes "a:443" ≠ bytes "a:80" := by decide +kernel
  refine ⟨s, hrun, by simp [hlog], fun network result => by simp [hlog, hports], ?_⟩
  rintro _ ⟨⟩
  exact beq_self_eq_true _

end Handler

end Proxy

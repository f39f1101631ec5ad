import Gost.Lib.HostPort
import Gost.Lib.Http.Query
import Gost.Relay.Upgrade

/-!
# Messages of a relayed session

Requests and responses as the HTTP relays of `x/internal/util/forwarder` and
`x/internal/util/sniffing` handle them, and how a response is read from the upstream connection:
`http.ReadResponse` reads the head through a buffer, the body is read to its end afterwards, and
responses with the status 100 are passed over.
-/

namespace Sniffer

open Bytes Http List Reader

/-! ## Requests and responses -/

structure Request extends Relay.Request where
  method : Bytes
  -- the `Host` header
  host : Bytes
  requestURI : Bytes
  -- `URL.Path` and `URL.RawQuery`
  path : Bytes
  rawQuery : Bytes
  -- `ContentLength`, `none` for `-1`
  contentLength : Option ℕ
  body : Bytes
deriving DecidableEq, Repr

structure Response extends Relay.Response where
  -- `ContentLength`, `none` for `-1`
  contentLength : Option ℕ
  body : Bytes
deriving DecidableEq, Repr

/-- How the body of a response ends. -/
inductive Framing
  | length (n : ℕ)
  | chunked
  | untilClose
deriving DecidableEq, Repr

/-- The parts of `net/http`, `strings` and the compression packages that are used. -/
structure Net where
  -- `ReadResponse`, for the method of the request and a complete head
  parse : Bytes → Bytes → Option (Response × Framing)
  -- the chunked body at the front of a stream, and what follows it
  chunked : Bytes → Option (Bytes × Bytes)
  delimits_chunked : Delimits chunked
  -- `Response.Write`
  write : Response → Bytes
  equalFold : Bytes → Bytes → Bool
  -- `Request.BasicAuth`
  basicAuth : Header → Bytes × Bytes
  -- `decompressBody`, for a content encoding: what was decoded, and whether there was no error
  decompress : Bytes → Bytes → Bytes × Bool
  -- `compressBody`
  compress : Bytes → Bytes → Option Bytes

/-- `net/http` as the relay of an upgraded connection uses it. -/
def Net.upgrade (net : Net) (method : Bytes) : Relay.NetHttp where
  parse head := (net.parse method head).map (·.1.toResponse)
  write resp := net.write { resp with contentLength := some 0, body := [] }
  equalFold := net.equalFold

/-- `normalizeHost`: the host with a port. -/
def normalizeHost (host defaultPort : Bytes) : Bytes :=
  if host = [] then host
  else if HostPort.splitHostPort host = none then
    HostPort.joinHostPort (HostPort.trimBrackets host) defaultPort
  else host

theorem normalizeHost_eq_nil_iff {host defaultPort : Bytes} :
    normalizeHost host defaultPort = [] ↔ host = [] := by
  unfold normalizeHost
  split_ifs with hnil
  · rfl
  · exact ⟨fun h => absurd h (HostPort.joinHostPort_ne_nil _ _), fun h => absurd h hnil⟩
  · rfl

/-- The host that a request names, with the port of HTTP. -/
def Request.target (req : Request) : Bytes := normalizeHost req.host (bytes "80")

/-- The request as an HTTP/1.0 client means it. -/
def Request.adjust (req : Request) : Request :=
  if req.proto = (1, 0) then
    { req with
      header :=
        if (req.header.get (bytes "Connection")).map toLower = bytes "keep-alive" then
          req.header.del (bytes "Connection")
        else req.header.set (bytes "Connection") (bytes "close") }
  else req

/-- The response as an HTTP/1.0 client gets it. -/
def Response.adjust (req : Request) (resp : Response) : Response :=
  if req.proto = (1, 0) then
    { resp with
      proto := (1, 0)
      header := if resp.close then resp.header
        else resp.header.set (bytes "Connection") (bytes "keep-alive") }
  else resp

/-- Whether the client connection is closed behind the response: always if its length is not
known. -/
def Response.closes (resp : Response) : Bool := resp.contentLength.isNone || resp.close

/-! ## Reading a response -/

/-- The first `n` bytes, once they are there. -/
def splitLength (n : ℕ) (s : Bytes) : Option (Bytes × Bytes) :=
  if n ≤ s.length then some (s.take n, s.drop n) else none

theorem delimits_splitLength (n : ℕ) : Delimits (splitLength n) where
  sound s text extra h := by
    unfold splitLength at h
    split_ifs at h
    cases h
    exact (take_append_drop n s).symm
  exact s text extra h := by
    unfold splitLength at h
    split_ifs at h with hlen
    cases h
    have htake : (s.take n).length = n := length_take_of_le hlen
    rw [splitLength, if_pos htake.ge, take_of_length_le htake.le, drop_of_length_le htake.le]
  stable s text extra more h := by
    unfold splitLength at h
    split_ifs at h with hlen
    cases h
    rw [splitLength, if_pos (hlen.trans (length_append ▸ Nat.le_add_right _ _)),
      take_append_of_le_length hlen, drop_append_of_le_length hlen]

/-- `http.ReadResponse`: the response without its body, what is left in the buffer, and the reads
that were not made. -/
def readResponse (net : Net) (method : Bytes) (cc : List (ReadResult UInt8)) (br : Bytes) :
    Option ((Response × Framing) × Bytes × List (ReadResult UInt8)) :=
  (bufferUntil splitHead cc br).bind fun p => (net.parse method p.1).map fun resp => (resp, p.2)

/-- Reads the body to its end. -/
def readBody (net : Net) (cc : List (ReadResult UInt8)) (br : Bytes) :
    Framing → Option (Bytes × Bytes × List (ReadResult UInt8))
  | .length n => bufferUntil (splitLength n) cc br
  | .chunked => bufferUntil net.chunked cc br
  | .untilClose =>
    if cc.all (·.err ≠ some .other) then some (br ++ received cc, [], []) else none

/-- The loop that reads the response, with the turns that are left: the responses it passes over,
and the one it stops at. -/
def readFinal (net : Net) (method : Bytes) :
    ℕ → List (ReadResult UInt8) → Bytes →
      List Response × Option ((Response × Framing) × Bytes × List (ReadResult UInt8))
  | 0, _, _ => ([], none)
  | turns + 1, cc, br =>
    match readResponse net method cc br with
    | none => ([], none)
    | some (resp, br, cc) =>
      if resp.1.statusCode = 100 then
        (resp.1 :: (readFinal net method turns cc br).1, (readFinal net method turns cc br).2)
      else ([], some (resp, br, cc))

/-! ## Plain messages -/

/-- A `GET` request without a body. -/
def Request.get (host uri : Bytes) : Request where
  proto := (1, 1)
  header := []
  method := bytes "GET"
  host := host
  requestURI := uri
  path := uri
  rawQuery := []
  contentLength := some 0
  body := []

/-- A response without a body. -/
def Response.empty (statusCode : ℕ) : Response where
  proto := (1, 1)
  statusCode := statusCode
  header := []
  close := false
  contentLength := some 0
  body := []

/-- `net/http` for the responses without a body whose heads are listed; the name of the user is all
there is to credentials. -/
def Net.ofHeads (heads : List (Bytes × ℕ)) : Net where
  parse _ head := (heads.find? (·.1 = head)).map fun p => (Response.empty p.2, .length 0)
  chunked _ := none
  delimits_chunked := ⟨nofun, nofun, nofun⟩
  write resp := ((heads.find? (·.2 = resp.statusCode)).map (·.1)).getD []
  equalFold s t := s.map toLower == t.map toLower
  basicAuth header := (header.get (bytes "Authorization"), [])
  decompress _ data := (data, true)
  compress _ data := some data

/-- The head of an empty response `200`. -/
def okHead : Bytes := bytes "HTTP/1.1 200 OK\r\nContent-Length: 0\r\n\r\n"

end Sniffer

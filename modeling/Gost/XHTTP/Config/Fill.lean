import Gost.XHTTP.Config.Request

/-!
# Metadata and payload of a request

How the client places session id, sequence number and payload in a request, and how the server reads
them back: `FillPacketRequest`, `FillStreamRequest` and `ExtractMetaFromRequest` of
`xhttp/config/config.go`, and the reassembly of the payload in `ServeHTTP` of
`xhttp/listener/handler.go`. Random outcomes are arguments (`Dice`). `Transmits` is what `net/http`
does with a request on its way to the server.
-/

namespace XHTTP

open Bytes Http

/-- The random outcomes that go into one request. -/
structure Dice where
  -- length of the padding
  paddingLength : ℤ
  -- the string that tokenish padding starts from, `none` if the random source fails
  token : Option Bytes := none
  -- sizes of the payload chunks, one for each turn of the loop
  chunkSizes : List ℤ := []

/-- The outcomes are possible for the configured ranges. -/
structure Config.Rolls (c : Config) (dice : Dice) : Prop where
  paddingLength : c.getNormalizedXPaddingBytes.Draws dice.paddingLength
  token : ∀ s ∈ dice.token, ∀ b ∈ s, b ∈ charsetBase62
  chunkSizes : ∀ n ∈ dice.chunkSizes, c.getNormalizedUplinkChunkSize.Draws n

/-! ## Payload -/

/-- The chunks of an encoded payload; `none` if the sizes run out, and for a size that is not
positive, with which the loop does not come to an end. -/
def splitChunks : List ℤ → Bytes → Option (List Bytes)
  | _, [] => some []
  | [], _ :: _ => none
  | n :: sizes, b :: data =>
    if n ≤ 0 then none
    else
      (splitChunks sizes ((b :: data).drop n.toNat)).map ((b :: data).take n.toNat :: ·)

/-- `fmt.Sprintf("%s-%d", key, i)`. -/
def chunkHeader (key : Bytes) (i : ℕ) : Bytes := key ++ 45 :: decimal i

/-- `fmt.Sprintf("%s_%d", key, i)`. -/
def chunkCookie (key : Bytes) (i : ℕ) : Bytes := key ++ 95 :: decimal i

/-- The loop of `GetRequestHeaderWithPayload`, from index `i` on. -/
def setChunks (key : Bytes) (i : ℕ) (h : Header) : List Bytes → Header
  | [] => h
  | chunk :: chunks => setChunks key (i + 1) (h.set (chunkHeader key i) chunk) chunks

/-- The cookies of `GetRequestCookiesWithPayload`, added from index `i` on. -/
def addChunks (key : Bytes) (i : ℕ) (h : Header) : List Bytes → Header
  | [] => h
  | chunk :: chunks => addChunks key (i + 1) (h.addCookie (chunkCookie key i) chunk) chunks

/-! ## Metadata -/

/-- `%x` of bytes. -/
def hexText (s : Bytes) : Bytes :=
  let digit (n : ℕ) : UInt8 := if n < 10 then UInt8.ofNat (48 + n) else UInt8.ofNat (87 + n)
  s.flatMap fun b => [digit (b.toNat / 16), digit (b.toNat % 16)]

/-- `newSessionID` of the dialer, for 16 random bytes; `none` if the random source fails. -/
def newSessionID (rand : Option Bytes) : Bytes :=
  match rand with
  | none => bytes "00000000-0000-4000-8000-000000000000"
  | some b =>
    let b := b.modify 6 fun x => (x &&& 0x0f) ||| 0x40
    let b := b.modify 8 fun x => (x &&& 0x3f) ||| 0x80
    [45].intercalate [hexText (b.take 4), hexText ((b.drop 4).take 2), hexText ((b.drop 6).take 2),
      hexText ((b.drop 8).take 2), hexText ((b.drop 10).take 6)]

/-- One of the two switches of `ApplyMetaToRequest`. -/
def Request.placeMeta (r : Request) (p : Placement) (key value : Bytes) : Request :=
  if value = [] then r
  else
    match p with
    | .path => r.appendToPath value
    | .query => r.setParam key value
    | .header => r.setHeader key value
    | .cookie => r.addCookie key value
    | _ => r

namespace Config

variable (c : Config)

/-- `ApplyMetaToRequest`. -/
def applyMetaToRequest (r : Request) (sessionId seqStr : Bytes) : Request :=
  (r.placeMeta c.getNormalizedSessionPlacement c.getNormalizedSessionKey sessionId).placeMeta
    c.getNormalizedSeqPlacement c.getNormalizedSeqKey seqStr

/-- `FillStreamRequest`; the sequence number is not placed. -/
def fillStreamRequest (env : Env) (dice : Dice) (r : Request) (sessionId : Bytes) : Request :=
  let r := { r with header := c.getRequestHeader env.agents }
  let r := applyXPaddingToRequest env r (c.xPaddingConfig r dice.paddingLength) dice.token
  let r := c.applyMetaToRequest r sessionId []
  if r.body.isSome ∧ c.noGRPCHeader = false then
    r.setHeader (bytes "Content-Type") (bytes "application/grpc")
  else r

/-- The first part of `FillPacketRequest`: the payload. -/
def fillPayload (env : Env) (dice : Dice) (r : Request) (payload : Bytes) : Option Request :=
  let header := c.getRequestHeader env.agents
  match c.getNormalizedUplinkDataPlacement with
  | .body | .auto => some { r with header, body := some payload, contentLength := payload.length }
  | .header => do
    let chunks ← splitChunks dice.chunkSizes (Base64.encode payload)
    some { r with header := setChunks c.uplinkDataKey 0 header chunks }
  | .cookie => do
    let chunks ← splitChunks dice.chunkSizes (Base64.encode payload)
    some { r with header := addChunks c.uplinkDataKey 0 header chunks }
  | _ => some r

/-- `FillPacketRequest`. -/
def fillPacketRequest (env : Env) (dice : Dice) (r : Request) (sessionId seqStr payload : Bytes) :
    Option Request := do
  let r ← c.fillPayload env dice r payload
  let r := applyXPaddingToRequest env r (c.xPaddingConfig r dice.paddingLength) dice.token
  some (c.applyMetaToRequest r sessionId seqStr)

/-- One of the two switches of `ExtractMetaFromRequest`: the value, and the path segments that are
left. -/
def readMeta (r : Request) (p : Placement) (key : Bytes) (subpath : List Bytes) :
    Bytes × List Bytes :=
  match p with
  | .path => (subpath.headD [], subpath.tail)
  | .query => (r.param key, subpath)
  | .header => (r.header.get key, subpath)
  | .cookie => ((r.header.cookie key).getD [], subpath)
  | _ => ([], subpath)

/-- `ExtractMetaFromRequest`. -/
def extractMetaFromRequest (r : Request) (path : Bytes) : Bytes × Bytes :=
  let subpath :=
    if c.getNormalizedSessionPlacement = .path ∨ c.getNormalizedSeqPlacement = .path then
      (if path.length < r.path.length then r.path.drop path.length else []).splitOn 47
    else []
  let (sessionId, subpath) :=
    readMeta r c.getNormalizedSessionPlacement c.getNormalizedSessionKey subpath
  let (seqStr, _) := readMeta r c.getNormalizedSeqPlacement c.getNormalizedSeqKey subpath
  (sessionId, seqStr)

end Config

/-! ## Reassembly -/

/-- The values `read 0`, `read 1` and so on up to the first missing one, at most `fuel` of them. -/
def collect (read : ℕ → Option Bytes) : ℕ → ℕ → List Bytes
  | 0, _ => []
  | fuel + 1, i =>
    match read i with
    | none => []
    | some chunk => chunk :: collect read fuel (i + 1)

/-- Why `ServeHTTP` refuses an upload, by the status it answers with. -/
inductive UploadError
  -- 400
  | badRequest
  -- 413
  | requestEntityTooLarge
deriving DecidableEq, Repr

/-- A chunk of the payload in the headers. -/
def readChunkHeader (h : Header) (key : Bytes) (i : ℕ) : Option Bytes :=
  if h.get (chunkHeader key i) = [] then none else some (h.get (chunkHeader key i))

/-- The payload in the headers. No more chunks are found than there are fields. -/
def headerPayload (h : Header) (key : Bytes) : Except UploadError Bytes :=
  match Base64.decode (collect (readChunkHeader h key) h.length 0).flatten with
  | some payload => .ok payload
  | none => .error .badRequest

/-- The payload in the cookies. No more chunks are found than there are cookies. -/
def cookiePayload (h : Header) (key : Bytes) : Except UploadError Bytes :=
  match Base64.decode
    (collect (fun i => h.cookie (chunkCookie key i)) h.cookies.length 0).flatten with
  | some payload => .ok payload
  | none => .error .badRequest

/-- The payload in the body. -/
def bodyPayload (r : Request) (scMaxEachPostBytes : ℤ) : Except UploadError Bytes :=
  let body := r.body.getD []
  if scMaxEachPostBytes < r.contentLength then .error .requestEntityTooLarge
  else if 0 < r.contentLength then
    -- `io.ReadFull`
    if body.length < r.contentLength.toNat then .error .badRequest
    else .ok (body.take r.contentLength.toNat)
  else
    -- `io.ReadAll` of a `LimitReader`
    .ok (body.take (scMaxEachPostBytes + 1).toNat)

/-- The server looks for the payload in the headers. -/
def Config.ReadsHeaders (c : Config) : Prop :=
  c.getNormalizedUplinkDataPlacement = .auto ∨ c.getNormalizedUplinkDataPlacement = .header

instance (c : Config) : Decidable c.ReadsHeaders := inferInstanceAs (Decidable (_ ∨ _))

/-- The server looks for the payload in the cookies. -/
def Config.ReadsCookies (c : Config) : Prop :=
  c.getNormalizedUplinkDataPlacement = .auto ∨ c.getNormalizedUplinkDataPlacement = .cookie

instance (c : Config) : Decidable c.ReadsCookies := inferInstanceAs (Decidable (_ ∨ _))

/-- The server looks for the payload in the body. -/
def Config.ReadsBody (c : Config) : Prop :=
  c.getNormalizedUplinkDataPlacement = .auto ∨ c.getNormalizedUplinkDataPlacement = .body

instance (c : Config) : Decidable c.ReadsBody := inferInstanceAs (Decidable (_ ∨ _))

/-- A part of the payload, empty if the server does not look there. -/
def readIf (looks : Prop) [Decidable looks] (part : Except UploadError Bytes) :
    Except UploadError Bytes :=
  if looks then part else .ok []

/-- The payload of a packet-up request, as `ServeHTTP` reads it. -/
def Config.uplinkPayload (c : Config) (r : Request) : Except UploadError Bytes := do
  let scMaxEachPostBytes := c.getNormalizedScMaxEachPostBytes.hi
  let fromHeaders ← readIf c.ReadsHeaders (headerPayload r.header c.uplinkDataKey)
  let fromCookies ← readIf c.ReadsCookies (cookiePayload r.header c.uplinkDataKey)
  let fromBody ← readIf c.ReadsBody (bodyPayload r scMaxEachPostBytes)
  let payload := fromHeaders ++ fromCookies ++ fromBody
  if scMaxEachPostBytes < payload.length then .error .requestEntityTooLarge else .ok payload

/-! ## Transmission -/

/-- The server gets `got` for the request `r`: path, query and body as they are, the header fields
under canonical names. An empty body may come without a length. -/
structure Transmits (r got : Request) : Prop where
  path : got.path = r.path
  rawQuery : got.rawQuery = r.rawQuery
  header : Header.Received r.header got.header
  body : got.body.getD [] = r.body.getD []
  contentLength : got.contentLength = r.contentLength ∨
    r.contentLength = 0 ∧ got.contentLength = -1

end XHTTP

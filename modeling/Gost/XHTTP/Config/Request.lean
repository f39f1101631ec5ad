import Gost.Lib.Base64
import Gost.Lib.Http.Cookie
import Gost.Lib.Http.Query
import Gost.Lib.Http.Url
import Gost.XHTTP.Config.Padding

/-!
# Requests of the transport

The request that a client starts from, with the browser headers of `xhttp/internal/browser`, and the
padding that it carries: `ApplyXPaddingToRequest` and `ExtractXPaddingFromRequest` of
`xhttp/config/xpadding.go`. What the machine decides is an argument (`Env`).
-/

namespace XHTTP

open Bytes Http

/-! ## Browser headers -/

/-- User agents and client hints, derived from the clock and the machine. -/
structure UserAgents where
  chromeUA : Bytes
  chromeUACH : Bytes
  mSEdgeUA : Bytes
  mSEdgeUACH : Bytes

/-- What the machine and `net/url` decide. -/
structure Env where
  agents : UserAgents
  -- `url.Parse` accepts a text with this front part and this fragment
  accepts : Bytes → Bytes → Bool

def firefoxUA : Bytes :=
  bytes "Mozilla/5.0 (Windows NT 10.0; Win64; x64; rv:140.0) Gecko/20100101 Firefox/140.0"

inductive Browser
  | chrome
  | edge
  | firefox
  | golang
deriving DecidableEq, Repr

/-- Sets a header that is not there. -/
def setMissing (h : Header) (name value : Bytes) : Header :=
  if h.get name = [] then h.set name value else h

/-- The headers of Chrome and Edge; client hints are stored under their own spelling. -/
def applyChromium (h : Header) (hints agent : Bytes) : Header :=
  let h := h.assign (bytes "Sec-CH-UA") hints
  let h := h.assign (bytes "Sec-CH-UA-Mobile") (bytes "?0")
  let h := h.assign (bytes "Sec-CH-UA-Platform") (bytes "\"Windows\"")
  let h := h.assign (bytes "DNT") (bytes "1")
  let h := h.set (bytes "User-Agent") agent
  h.set (bytes "Accept-Language") (bytes "en-US,en;q=0.9")

/-- The variant `fetch`. -/
def applyFetch (h : Header) (priority : Bytes) : Header :=
  let h := h.set (bytes "Sec-Fetch-Mode") (bytes "cors")
  let h := h.set (bytes "Sec-Fetch-Dest") (bytes "empty")
  let h := h.set (bytes "Sec-Fetch-Site") (bytes "same-origin")
  let h := setMissing h (bytes "Priority") priority
  let h := setMissing h (bytes "Cache-Control") (bytes "no-cache")
  let h := setMissing h (bytes "Pragma") (bytes "no-cache")
  setMissing h (bytes "Accept") (bytes "*/*")

/-- `applyMasqueradedHeaders`, for the variant `fetch`. -/
def applyMasqueradedHeaders (agents : UserAgents) (h : Header) : Browser → Header
  | .chrome => applyFetch (applyChromium h agents.chromeUACH agents.chromeUA) (bytes "u=1, i")
  | .edge => applyFetch (applyChromium h agents.mSEdgeUACH agents.mSEdgeUA) (bytes "u=1, i")
  | .firefox =>
    let h := h.set (bytes "User-Agent") firefoxUA
    let h := h.assign (bytes "DNT") (bytes "1")
    applyFetch (h.set (bytes "Accept-Language") (bytes "en-US,en;q=0.5")) (bytes "u=4")
  | .golang => h.del (bytes "User-Agent")

/-- `TryDefaultHeadersWith`, for the variant `fetch`. -/
def tryDefaultHeadersWith (agents : UserAgents) (h : Header) : Header :=
  if h.values (bytes "User-Agent") = [] then applyMasqueradedHeaders agents h .chrome
  else
    let agent := h.get (bytes "User-Agent")
    if agent = bytes "chrome" then applyMasqueradedHeaders agents h .chrome
    else if agent = bytes "firefox" then applyMasqueradedHeaders agents h .firefox
    else if agent = bytes "edge" then applyMasqueradedHeaders agents h .edge
    else if agent = bytes "golang" then applyMasqueradedHeaders agents h .golang
    else h

/-- `GetRequestHeader`. -/
def Config.getRequestHeader (c : Config) (agents : UserAgents) : Header :=
  tryDefaultHeadersWith agents (c.headers.foldl (fun h p => h.add p.1 p.2) [])

/-! ## Requests -/

/-- The escaping of `URL.EscapedPath`. -/
def escapePath (path : Bytes) : Bytes :=
  path.flatMap fun c =>
    if Query.unreserved c || (bytes "$&+,/:;=@").contains c then [c]
    else [37, Query.hexDigit (c.toNat / 16), Query.hexDigit (c.toNat % 16)]

/-- `http.Request`, as far as it is used. -/
structure Request where
  -- scheme and host of the URL
  site : Bytes
  path : Bytes
  rawQuery : Bytes := []
  fragment : Bytes := []
  header : Header := []
  -- `none` for a nil body
  body : Option Bytes := none
  contentLength : ℤ := 0
deriving DecidableEq, Repr

namespace Request

/-- The URL of the request, as cut by `url.Parse`. -/
def url (r : Request) : Url := ⟨r.site ++ escapePath r.path, r.rawQuery, r.fragment⟩

def setHeader (r : Request) (name value : Bytes) : Request :=
  { r with header := r.header.set name value }

def addCookie (r : Request) (name value : Bytes) : Request :=
  { r with header := r.header.addCookie name value }

/-- `q := URL.Query(); q.Set(key, value); URL.RawQuery = q.Encode()`. -/
def setParam (r : Request) (key value : Bytes) : Request :=
  { r with rawQuery := Query.setParam r.rawQuery key value }

/-- `URL.Query().Get(key)`. -/
def param (r : Request) (key : Bytes) : Bytes := Query.get (Query.parse r.rawQuery) key

/-- `appendToPath`, applied to the path of the request. -/
def appendToPath (r : Request) (value : Bytes) : Request :=
  { r with path := if r.path.getLast? = some 47 then r.path ++ value else r.path ++ 47 :: value }

end Request

/-- `http.NewRequest` for the URL that `init` builds: a `#` in the configured query starts the
fragment. -/
def Config.newRequest (c : Config) (site : Bytes) (body : Option Bytes) : Request where
  site := site
  path := c.getNormalizedPath
  rawQuery := (cut 35 c.getNormalizedQuery).1
  fragment := (cut 35 c.getNormalizedQuery).2
  body := body

/-! ## Padding -/

/-- `XPaddingPlacement`. -/
structure XPaddingPlacement where
  placement : Placement
  key : Bytes := []
  header : Bytes := []
  rawURL : Bytes := []

/-- `XPaddingConfig`. -/
structure XPaddingConfig where
  length : ℤ
  placement : XPaddingPlacement
  method : PaddingMethod := .other

/-- `ApplyXPaddingToHeader`. -/
def applyXPaddingToHeader (env : Env) (h : Header) (x : XPaddingConfig) (rand : Option Bytes) :
    Header :=
  let padding := generatePadding x.method x.length rand
  match x.placement.placement with
  | .header => h.set x.placement.header padding
  | .queryInHeader =>
    match Url.parse env.accepts x.placement.rawURL with
    | none => h
    | some u =>
      -- the key is not escaped here
      h.set x.placement.header { u with rawQuery := x.placement.key ++ 61 :: padding }.string
  | _ => h

/-- `ApplyPaddingToCookie`. -/
def applyPaddingToCookie (r : Request) (name value : Bytes) : Request :=
  if name = [] ∨ value = [] then r else r.addCookie name value

/-- `ApplyPaddingToQuery`. -/
def applyPaddingToQuery (r : Request) (key value : Bytes) : Request :=
  if key = [] ∨ value = [] then r else r.setParam key value

/-- `ApplyXPaddingToRequest`. -/
def applyXPaddingToRequest (env : Env) (r : Request) (x : XPaddingConfig) (rand : Option Bytes) :
    Request :=
  match x.placement.placement with
  | .header | .queryInHeader => { r with header := applyXPaddingToHeader env r.header x rand }
  | .cookie => applyPaddingToCookie r x.placement.key (generatePadding x.method x.length rand)
  | .query => applyPaddingToQuery r x.placement.key (generatePadding x.method x.length rand)
  | _ => r

/-- The padding that `FillStreamRequest` and `FillPacketRequest` apply. -/
def Config.xPaddingConfig (c : Config) (r : Request) (length : ℤ) : XPaddingConfig :=
  if c.xPaddingObfsMode then
    { length := length
      placement := ⟨c.xPaddingPlacement, c.xPaddingKey, c.xPaddingHeader, r.url.string⟩
      method := c.xPaddingMethod }
  else
    { length := length
      placement := ⟨.queryInHeader, bytes "x_padding", bytes "Referer", r.url.string⟩ }

/-- `ExtractXPaddingFromRequest`, without the description of the place. -/
def Config.extractXPaddingFromRequest (c : Config) (env : Env) (r : Request) (obfsMode : Bool) :
    Bytes :=
  -- the query of a header that is a URL
  let queryOf (text key : Bytes) : Option Bytes :=
    (Url.parse env.accepts text).map fun u => Query.get (Query.parse u.rawQuery) key
  let obfs :=
    match (r.header.cookie c.xPaddingKey).filter (· ≠ []) with
    | some value => value
    | none =>
      let value := r.header.get c.xPaddingHeader
      if value ≠ [] ∧ c.xPaddingPlacement = .header then value
      else
        match if value = [] then none else queryOf value c.xPaddingKey with
        | some padding => padding
        | none => r.param c.xPaddingKey
  if obfsMode then obfs
  else
    let referrer := r.header.get (bytes "Referer")
    if referrer = [] then r.param (bytes "x_padding")
    else (queryOf referrer (bytes "x_padding")).getD obfs

end XHTTP

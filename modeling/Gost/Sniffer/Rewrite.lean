import Gost.Sniffer.Message

/-!
# HTTP settings of a node

`chain.HTTPNodeSettings` and what `httpRoundTrip` of the forwarder does with it: the check of the
credentials, the rewrites of request and response, and the status codes that mark a node failed.
Compiled patterns and plugins are functions. A rewritten body may have a length where the
upstream's had none.
-/

namespace Sniffer

open Bytes Http Option

/-! ## Settings -/

/-- `chain.HTTPBodyRewriteSettings`. -/
structure BodyRewrite where
  type : Bytes
  maxChunkSize : ℕ := 0
  -- there is a plugin
  rewriter : Bool := false
  -- pattern or plugin, `none` on an error
  rewrite : Bytes → Option Bytes

/-- `chain.HTTPNodeSettings`. -/
structure HTTPNodeSettings where
  -- `Authenticate`, for a user and a password
  auther : Option (Bytes → Bytes → Bool) := none
  host : Bytes := []
  -- the host expanded from the path, `none` without a match
  hostPattern : Option (Bytes → Option Bytes) := none
  requestHeader : List (Bytes × Bytes) := []
  -- the path with all matches replaced, `none` without a match
  rewriteURL : List (Bytes → Option Bytes) := []
  -- `none` on an error
  rewriteRequestHeader : List (Header → Option Header) := []
  rewriteRequestBody : List BodyRewrite := []
  responseHeader : List (Bytes × Bytes) := []
  rewriteResponseBody : List BodyRewrite := []
  rewriteResponseHeader : List (Header → Option Header) := []
  failCodes : List ℕ := []

/-- `FailCodes.Match`: codes below 100 stand for a hundred of them. -/
def failCodesMatch (codes : List ℕ) (status : ℕ) : Bool :=
  codes.any fun c => c == status || c < 100 && c == status / 100

example : failCodesMatch [429, 5] 503 = true ∧ failCodesMatch [429, 5] 404 = false := by decide

/-! ## Bodies -/

/-- `shouldApply`. -/
def shouldApply (rule : BodyRewrite) (contentType : Bytes) : Bool :=
  let t := if rule.type = [] then (if rule.rewriter then bytes "*" else bytes "text/html")
    else rule.type
  if (bytes "json:").isPrefixOf t || (bytes "json-:").isPrefixOf t then
    contentType == bytes "application/json"
  else t == bytes "*" || t.tails.any (contentType.isPrefixOf ·)

/-- `apply`: the chain of rewrites. -/
def applyRewrites (rules : List BodyRewrite) (contentType body : Bytes) : Option Bytes :=
  (rules.filter (shouldApply · contentType)).foldlM (fun body rule => rule.rewrite body) body

/-- What `newRewriteBody` makes of a body. -/
inductive RewrittenBody
  -- the body is left alone
  | unchanged
  -- rewritten event by event, of unknown length
  | streaming (body : Bytes)
  -- `none` if the length is not known
  | buffered (body : Bytes) (contentLength : Option ℕ)

def isSpace (c : UInt8) : Bool := c == 32 || (9 ≤ c && c ≤ 13)

/-- `strings.TrimSpace`. -/
def trimSpace (s : Bytes) : Bytes := ((s.dropWhile isSpace).reverse.dropWhile isSpace).reverse

/-- `defaultMaxChunkSize`. -/
def defaultMaxChunkSize : ℕ := 2 ^ 20

/-- The size up to which a body of unknown length is buffered. -/
def maxChunkSize (rules : List BodyRewrite) : ℕ :=
  let size := (rules.map (·.maxChunkSize)).foldl max 0
  if size = 0 then defaultMaxChunkSize else size

/-- A compressed body is decompressed, rewritten and compressed again. -/
def recompress (net : Net) (rules : List BodyRewrite) (contentType encoding body : Bytes) :
    Option RewrittenBody := do
  let (decoded, ok) := net.decompress encoding body
  guard ok
  let rewritten ← applyRewrites rules contentType decoded
  let recompressed ← net.compress encoding rewritten
  some (.buffered recompressed (some recompressed.length))

/-- `newRewriteBody`; `none` on an error. The events of a stream are rewritten by `events`. -/
def newRewriteBody (net : Net) (events : List BodyRewrite → Bytes → Bytes)
    (rules : List BodyRewrite) (header : Header) (contentLength : Option ℕ) (body : Bytes) :
    Option RewrittenBody :=
  let contentType := trimSpace (cut 59 (header.get (bytes "Content-Type"))).1
  let encoding := header.get (bytes "Content-Encoding")
  let streaming := (bytes "text/event-stream").isPrefixOf contentType
  if rules = [] then some .unchanged
  else if streaming = false && contentLength.isNone then
    -- a body of unknown length is buffered as far as it fits
    if maxChunkSize rules < body.length then some (.buffered body none)
    else if encoding ≠ [] then
      if rules.any (shouldApply · contentType) then recompress net rules contentType encoding body
      else some (.buffered body (some body.length))
    else (applyRewrites rules contentType body).map fun out => .buffered out (some out.length)
  else if encoding ≠ [] then
    if streaming || !rules.any (shouldApply · contentType) || body.isEmpty then some .unchanged
    else recompress net rules contentType encoding body
  else if streaming then some (.streaming (events rules body))
  else (applyRewrites rules contentType body).map fun out => .buffered out (some out.length)

/-- `rewriteRespBody`. -/
def rewriteRespBody (net : Net) (events : List BodyRewrite → Bytes → Bytes)
    (rules : List BodyRewrite) (resp : Response) : Option Response :=
  (newRewriteBody net events rules resp.header resp.contentLength resp.body).map fun
    | .unchanged => resp
    | .streaming body | .buffered body none => { resp with body }
    | .buffered body (some n) =>
      { resp with
        body, contentLength := some n, header := resp.header.del (bytes "Transfer-Encoding") }

variable {net : Net} {events : List BodyRewrite → Bytes → Bytes} {rules : List BodyRewrite}
  {resp out : Response} {body : Bytes} {rb : RewrittenBody}

/-- Rewriting leaves the status and the close flag of a response alone. -/
theorem rewriteRespBody_status (h : rewriteRespBody net events rules resp = some out) :
    out.statusCode = resp.statusCode ∧ out.close = resp.close := by
  obtain ⟨rb, -, rfl⟩ := map_eq_some_iff.mp h
  rcases rb with _ | _ | ⟨_, _ | _⟩ <;> exact ⟨rfl, rfl⟩

/-- The content type is that of a stream of events. -/
def isEventStream (header : Header) : Bool :=
  (bytes "text/event-stream").isPrefixOf
    (trimSpace (cut 59 (header.get (bytes "Content-Type"))).1)

/-- The length of a rewritten body, if it is not the one before. -/
def RewrittenBody.length : RewrittenBody → Option ℕ
  | .buffered _ n => n
  | _ => none

/-- A body of unknown length gets none: it is left alone, is a stream of events or is too long to be
buffered. -/
def StaysUnknown (rules : List BodyRewrite) (header : Header) (body : Bytes) : Prop :=
  rules = [] ∨ isEventStream header = true ∨ maxChunkSize rules < body.length

theorem recompress_length {contentType encoding : Bytes}
    (h : recompress net rules contentType encoding body = some rb) : rb.length ≠ none := by
  simp only [recompress, bind, bind_eq_some_iff, some.injEq] at h
  obtain ⟨_, -, _, -, recompressed, -, rfl⟩ := h
  exact some_ne_none _

theorem newRewriteBody_length {header : Header}
    (h : newRewriteBody net events rules header none body = some rb) :
    rb.length = none ↔ StaysUnknown rules header body := by
  change (if rules = [] then _ else if (isEventStream header = false && true) = true then _ else
    if header.get (bytes "Content-Encoding") ≠ [] then
      if (isEventStream header || _ || _) = true then _ else _
    else if isEventStream header = true then _ else _) = _ at h
  split at h
  next hrules =>
    cases h
    exact iff_of_true rfl (.inl hrules)
  next hrules =>
    cases hstream : isEventStream header with
    | true =>
      -- a stream of events gets no length
      have hlen : rb.length = none := by
        simp only [hstream, Bool.true_eq_false, decide_false, Bool.false_and, Bool.false_eq_true,
          ↓reduceIte, Bool.true_or] at h
        split at h <;> cases h <;> rfl
      exact iff_of_true hlen (.inr (.inl hstream))
    | false =>
      simp only [hstream, decide_true, Bool.true_and, ↓reduceIte] at h
      split at h
      next hlong =>
        cases h
        exact iff_of_true rfl (.inr (.inr hlong))
      next hshort =>
        have hlen : rb.length ≠ none := by
          split at h
          next =>
            split at h
            · exact recompress_length h
            · cases h
              exact some_ne_none _
          next =>
            obtain ⟨out, -, rfl⟩ := map_eq_some_iff.mp h
            exact some_ne_none _
        refine iff_of_false hlen ?_
        rintro (hnil | hevents | hlong)
        · exact hrules hnil
        · exact Bool.false_ne_true (hstream.symm.trans hevents)
        · exact hshort hlong

/-- A length that was known stays known, and one that was not may get known. -/
theorem rewriteRespBody_contentLength (h : rewriteRespBody net events rules resp = some out) :
    out.contentLength = none ↔
      resp.contentLength = none ∧ StaysUnknown rules resp.header resp.body := by
  obtain ⟨rb, hrb, rfl⟩ := map_eq_some_iff.mp h
  have hlength : resp.contentLength = none →
      (rb.length = none ↔ StaysUnknown rules resp.header resp.body) := fun hcl =>
    newRewriteBody_length (hcl ▸ hrb)
  rcases rb with _ | _ | ⟨_, _ | n⟩
  · exact ⟨fun hcl => ⟨hcl, (hlength hcl).mp rfl⟩, And.left⟩
  · exact ⟨fun hcl => ⟨hcl, (hlength hcl).mp rfl⟩, And.left⟩
  · exact ⟨fun hcl => ⟨hcl, (hlength hcl).mp rfl⟩, And.left⟩
  · exact iff_of_false (some_ne_none n) fun hcl =>
      some_ne_none n ((hlength hcl.1).mpr hcl.2)

/-- `rewriteReqBody`. -/
def rewriteReqBody (net : Net) (events : List BodyRewrite → Bytes → Bytes)
    (rules : List BodyRewrite) (req : Request) : Option Request :=
  (newRewriteBody net events rules req.header req.contentLength req.body).map fun
    | .unchanged => req
    | .streaming body | .buffered body none => { req with body }
    | .buffered body (some n) =>
      { req with
        body, contentLength := some n, header := req.header.del (bytes "Transfer-Encoding") }

/-! ## Headers and URL -/

/-- `rewriteHeaderBlock`. -/
def rewriteHeaderBlock (rewrites : List (Header → Option Header)) (h : Header) : Option Header :=
  rewrites.foldlM (fun h rewrite => rewrite h) h

/-- The header with the fields of `RequestHeader`: an empty value deletes a field. -/
def setRequestHeader (fields : List (Bytes × Bytes)) (h : Header) : Header :=
  fields.foldl (fun h f => if f.2 = [] then h.del f.1 else h.set f.1 f.2) h

/-- The header with the fields of `ResponseHeader`. -/
def setResponseHeader (fields : List (Bytes × Bytes)) (h : Header) : Header :=
  fields.foldl (fun h f => h.set f.1 f.2) h

/-- `RewriteURL`: the first pattern that matches and leaves something. -/
def rewriteURL (rules : List (Bytes → Option Bytes)) (req : Request) : Request :=
  match rules.findSome? fun re => (re req.path).filter (· ≠ []) with
  | none => req
  | some s =>
    if 63 ∈ s then { req with path := (cut 63 s).1, rawQuery := (cut 63 s).2 }
    else { req with path := s }

/-- The host under which the node is asked. -/
def rewriteHost (settings : HTTPNodeSettings) (req : Request) : Request :=
  match settings.hostPattern with
  | some expand => { req with host := (expand req.path).getD req.host }
  | none => if settings.host = [] then req else { req with host := settings.host }

end Sniffer

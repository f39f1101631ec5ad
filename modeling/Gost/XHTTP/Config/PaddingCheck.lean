import Gost.XHTTP.Config.Places
import Gost.XHTTP.Config.Roundtrip

/-!
# The server's check of the padding

`ServeHTTP` answers a request only if the padding it finds passes `IsPaddingValid` for the range
that the client draws the length from. Padding of length zero does not pass, although a range may
start there, and two placements depend on the key: `queryInHeader` writes it into a URL without
escaping it, and a cookie is found under a token only. `padding_accepted_iff` says that there are no
other exceptions.
-/

namespace XHTTP

open Bytes Http List Option

/-! ## The check -/

/-- The check of `ServeHTTP`. -/
def Config.acceptsPadding (c : Config) (env : Env) (r : Request) : Bool :=
  let validRange := c.getNormalizedXPaddingBytes
  let padding := c.extractXPaddingFromRequest env r c.xPaddingObfsMode
  c.isPaddingValid padding validRange.lo validRange.hi c.xPaddingMethod

theorem generatePadding_eq {method : PaddingMethod} (hmethod : method ≠ .tokenish) (length : ℤ)
    (rand : Option Bytes) :
    generatePadding method length rand = List.replicate length.toNat 88 := by
  unfold generatePadding
  split_ifs with hlen
  · rw [Int.toNat_of_nonpos hlen, replicate_zero]
  · cases method with
    | tokenish => exact absurd rfl hmethod
    | _ => rfl

/-- Of the lengths that a range may draw, zero is refused. -/
theorem isPaddingValid_iff {c : Config} {lo hi : ℤ} (hrange : 0 ≤ lo ∧ lo ≤ hi)
    (hmethod : c.xPaddingMethod ≠ .tokenish) {length : ℤ} (hlength : lo ≤ length ∧ length ≤ hi) :
    c.isPaddingValid (List.replicate length.toNat 88) lo hi c.xPaddingMethod = true ↔
      0 < length := by
  have hcast : ((List.replicate length.toNat (88 : UInt8)).length : ℤ) = length := by
    rw [length_replicate]
    omega
  unfold Config.isPaddingValid
  by_cases hzero : length ≤ 0
  · rw [Int.toNat_of_nonpos hzero, replicate_zero, if_pos rfl]
    exact ⟨fun h => Bool.noConfusion h, fun h => absurd h hzero.not_gt⟩
  · have hne : List.replicate length.toNat (88 : UInt8) ≠ [] := by
      rw [Ne, replicate_eq_nil_iff]
      omega
    have hvalid : (decide (lo ≤ length) && decide (length ≤ hi)) = true := by simp [hlength]
    rw [if_neg hne, if_neg (by omega : ¬hi ≤ 0), hcast]
    cases hm : c.xPaddingMethod with
    | tokenish => exact absurd hm hmethod
    | _ => exact ⟨fun _ => not_le.mp hzero, fun _ => hvalid⟩

/-! ## Padding in the query of a URL -/

/-- The key is read from a URL as it was written: it has no byte with a meaning in a query, does not
start the fragment, and no control byte spoils the URL. -/
def SafeKey (key : Bytes) : Prop := Query.PlainKey key ∧ 35 ∉ key ∧ key.any isControl = false

instance (key : Bytes) : Decidable (SafeKey key) := inferInstanceAs (Decidable (_ ∧ _))

/-- The text of the URL with a padding of length `n` as its query. -/
def paddedUrl (u : Url) (key : Bytes) (n : ℕ) : Bytes :=
  { u with rawQuery := key ++ 61 :: List.replicate n 88 }.string

theorem paddedUrl_ne_nil (u : Url) (key : Bytes) (n : ℕ) : paddedUrl u key n ≠ [] := by
  simp [paddedUrl, Url.string]

section InUrl

variable {accepts : Bytes → Bytes → Bool} {text : Bytes} {u : Url}
  (hu : Url.parse accepts text = some u) {key : Bytes} (n : ℕ)
include hu

theorem parse_padding_safe (hkey : SafeKey key) :
    (Url.parse accepts (paddedUrl u key n)).map
        (fun v => Query.get (Query.parse v.rawQuery) key) = some (List.replicate n 88) := by
  obtain ⟨hplain, hhash, hcontrol⟩ := hkey
  have hbytes : isControl 61 = false ∧ isControl 88 = false := by decide
  have hparse := @Url.parse_setQuery _ _ _ hu (key ++ 61 :: List.replicate n 88) (by simp)
    (by simp [hhash, mem_replicate]) (by simp [hcontrol, hbytes])
  have hvalues := @Query.values_parse_pair key (List.replicate n 88) (by simp [mem_replicate])
  rw [if_pos hplain] at hvalues
  rw [paddedUrl, hparse, map_some, Query.get]
  exact congrArg (fun vs => some (headD vs [])) hvalues

theorem parse_padding_unsafe (hkey : ¬SafeKey key) :
    ∀ p ∈ (Url.parse accepts (paddedUrl u key n)).map
      (fun v => Query.get (Query.parse v.rawQuery) key), p = [] := by
  intro p hp
  obtain ⟨v, hv, rfl⟩ := map_eq_some_iff.mp hp
  obtain ⟨hquery, hcontrol⟩ := Url.of_parse_setQuery hu (by simp) hv
  have hvalues : Query.values (Query.parse v.rawQuery) key = [] := by
    by_cases hhash : 35 ∈ key
    · -- the key is cut at the hash sign
      rw [hquery, cut_append_of_mem hhash]
      exact Query.values_parse_of_length_lt (length_cut_fst_lt hhash)
    · rw [cut_of_notMem (by simp [hhash, mem_replicate])] at hquery
      rw [hquery, any_append, Bool.or_eq_false_iff] at hcontrol
      rw [hquery, Query.values_parse_pair (by simp [mem_replicate]), if_neg]
      exact fun hplain => hkey ⟨hplain, hhash, hcontrol.1⟩
  rw [Query.get, hvalues]
  rfl

end InUrl

/-! ## The padding stage -/

/-- Nothing is found where padding would be looked for. -/
structure Config.PaddingFree (c : Config) (r : Request) : Prop where
  header : r.header.wire c.xPaddingHeader = []
  cookie : r.header.sentCookies c.xPaddingKey = []
  param : r.params c.xPaddingKey = []

theorem Transmits.param_eq {r got : Request} (hgot : Transmits r got) (key : Bytes) :
    got.param key = (r.params key).headD [] := by
  rw [Request.param, hgot.rawQuery]
  rfl

/-- The key suits the placement: it is written into a URL as it is, or is the name of a cookie. -/
def Config.KeySuits (c : Config) : Prop :=
  (c.xPaddingPlacement = .queryInHeader → SafeKey c.xPaddingKey) ∧
    (c.xPaddingPlacement = .cookie → IsToken c.xPaddingKey)

instance (c : Config) : Decidable c.KeySuits := inferInstanceAs (Decidable (_ ∧ _))

section Stage

variable {c : Config} {env : Env} {dice : Dice} {r got : Request} {u : Url} {ps : List Place}

/-- The padding of the request, by placement. -/
theorem pad_eq (hmethod : c.xPaddingMethod ≠ .tokenish)
    (hu : Url.parse env.accepts r.url.string = some u) :
    c.pad env dice r =
      let padding := List.replicate dice.paddingLength.toNat 88
      match c.paddingPlacement with
      | .header => r.setHeader c.paddingHeader padding
      | .queryInHeader =>
        r.setHeader c.paddingHeader (paddedUrl u c.paddingKey dice.paddingLength.toNat)
      | .cookie => applyPaddingToCookie r c.paddingKey padding
      | .query => applyPaddingToQuery r c.paddingKey padding
      | _ => r := by
  have hm : c.paddingMethod ≠ .tokenish := by
    unfold Config.paddingMethod
    split_ifs
    · exact hmethod
    · decide
  rw [Config.pad, c.xPaddingConfig_eq]
  unfold applyXPaddingToRequest applyXPaddingToHeader
  rw [generatePadding_eq hm, hu]
  cases c.paddingPlacement <;> rfl

/-- Without obfuscation the padding is read from the referrer. -/
theorem extract_plain (hobfs : c.xPaddingObfsMode = false) (hmethod : c.xPaddingMethod ≠ .tokenish)
    (hu : Url.parse env.accepts r.url.string = some u) (hstored : StoredNames r.header)
    (hps : Untouched (bytes "Referer") ps)
    (hgot : Transmits ((c.pad env dice r).placeAll ps) got) :
    c.extractXPaddingFromRequest env got false =
      List.replicate dice.paddingLength.toNat 88 := by
  have hplace : c.paddingPlacement = .queryInHeader ∧ c.paddingKey = bytes "x_padding" ∧
      c.paddingHeader = bytes "Referer" := by
    simp [Config.paddingPlacement, Config.paddingKey, Config.paddingHeader, hobfs]
  have hpad := @pad_eq c env dice r u hmethod hu
  rw [hplace.1, hplace.2.1, hplace.2.2] at hpad
  have hwire : ((c.pad env dice r).placeAll ps).header.wire (bytes "Referer") =
      [paddedUrl u (bytes "x_padding") dice.paddingLength.toNat] := by
    rw [wire_placeAll (by decide) hps, hpad]
    refine Header.wire_set_self fun p hp hname => ?_
    exact hstored.stored (by decide) hp hname
  have hsafe : SafeKey (bytes "x_padding") := by decide
  have hquery := parse_padding_safe hu dice.paddingLength.toNat hsafe
  unfold Config.extractXPaddingFromRequest
  dsimp only
  rw [hgot.header.get_eq hwire, if_neg Bool.false_ne_true, if_neg (paddedUrl_ne_nil _ _ _),
    hquery, getD_some]

/-- Obfuscated padding without a cookie of that name. -/
theorem extract_noCookie (hcookie : got.header.cookie c.xPaddingKey = none) :
    c.extractXPaddingFromRequest env got true =
      let value := got.header.get c.xPaddingHeader
      if value = [] then got.param c.xPaddingKey
      else if c.xPaddingPlacement = .header then value
      else ((Url.parse env.accepts value).map fun v =>
        Query.get (Query.parse v.rawQuery) c.xPaddingKey).getD (got.param c.xPaddingKey) := by
  unfold Config.extractXPaddingFromRequest
  rw [hcookie, if_pos rfl]
  by_cases hvalue : got.header.get c.xPaddingHeader = []
  · simp [hvalue]
  · by_cases hplace : c.xPaddingPlacement = .header
    · simp [hvalue, hplace]
    · simp only [filter_none, hvalue, hplace, if_false, and_false]
      cases Url.parse env.accepts (got.header.get c.xPaddingHeader) <;> rfl

section Obfuscated

variable (hobfs : c.xPaddingObfsMode = true) (hmethod : c.xPaddingMethod ≠ .tokenish)
  (hkey : c.xPaddingKey ≠ []) (hname : canonical c.xPaddingHeader ≠ bytes "Cookie")
  (hu : Url.parse env.accepts r.url.string = some u) (hstored : CookieStored r.header)
  (hfree : c.PaddingFree (r.placeAll ps))

include hobfs in
theorem padding_obfs : c.paddingPlacement = c.xPaddingPlacement ∧ c.paddingKey = c.xPaddingKey ∧
    c.paddingHeader = c.xPaddingHeader := by
  simp [Config.paddingPlacement, Config.paddingKey, Config.paddingHeader, hobfs]

include hname hstored hfree in
/-- What is sent when the padding header is set. -/
theorem sent_setHeader (value : Bytes) :
    ((r.setHeader c.xPaddingHeader value).placeAll ps).header.wire c.xPaddingHeader = [value] ∧
      ((r.setHeader c.xPaddingHeader value).placeAll ps).header.sentCookies c.xPaddingKey = [] ∧
      ((r.setHeader c.xPaddingHeader value).placeAll ps).params c.xPaddingKey = [] := by
  obtain ⟨hps, hwire⟩ := untouched_of_wire hname hfree.header
  have hne : canonical c.xPaddingHeader ≠ canonical (bytes "Cookie") := by rwa [canonical_cookie]
  have hsame : SameCookies r (r.setHeader c.xPaddingHeader value) :=
    ⟨Header.wire_set_ne hne, Header.get_set_ne hne⟩
  obtain ⟨hparam, hkeep⟩ := params_placeAll hfree.param
  refine ⟨?_, ?_, ?_⟩
  · rw [wire_placeAll hname hps]
    exact Header.wire_set_of_wire_eq_nil hwire
  · rw [Header.sentCookies, (hsame.placeAll hstored (hstored.set _ _)).wire]
    exact hfree.cookie
  · rw [hkeep]
    exact hparam

include hname hstored hfree in
/-- What is sent when a cookie is added. -/
theorem sent_addCookie (hps : Untouched (bytes "Cookie") ps) (value : Bytes) :
    ((r.addCookie c.xPaddingKey value).placeAll ps).header.wire c.xPaddingHeader = [] ∧
      ((r.addCookie c.xPaddingKey value).placeAll ps).header.sentCookies c.xPaddingKey =
        Header.addedCookies c.xPaddingKey value c.xPaddingKey ∧
      ((r.addCookie c.xPaddingKey value).placeAll ps).params c.xPaddingKey = [] := by
  obtain ⟨huntouched, hwire⟩ := untouched_of_wire hname hfree.header
  have hinserted : InsertedCookies c.xPaddingKey
      (Header.addedCookies c.xPaddingKey value c.xPaddingKey) r (r.addCookie c.xPaddingKey value) :=
    ⟨Header.sentCookies_addCookie hstored, _, [], (append_nil _).symm,
      Header.lineCookies_addCookie.trans (append_nil _).symm⟩
  obtain ⟨hparam, hkeep⟩ := params_placeAll hfree.param
  refine ⟨?_, ?_, ?_⟩
  · rw [wire_placeAll hname huntouched]
    exact (Header.wire_addCookie hname).trans hwire
  · exact (hinserted.placeAll (hstored.addCookie _ _) hps).sent_eq hfree.cookie
  · rw [hkeep]
    exact hparam

include hname hstored hfree in
/-- What is sent when a parameter is set. -/
theorem sent_setParam (value : Bytes) :
    ((r.setParam c.xPaddingKey value).placeAll ps).header.wire c.xPaddingHeader = [] ∧
      ((r.setParam c.xPaddingKey value).placeAll ps).header.sentCookies c.xPaddingKey = [] ∧
      ((r.setParam c.xPaddingKey value).placeAll ps).params c.xPaddingKey = [value] := by
  obtain ⟨hps, hwire⟩ := untouched_of_wire hname hfree.header
  have hsame : SameCookies r (r.setParam c.xPaddingKey value) := ⟨rfl, rfl⟩
  obtain ⟨-, hkeep⟩ := params_placeAll hfree.param
  refine ⟨?_, ?_, ?_⟩
  · rw [wire_placeAll hname hps]
    exact hwire
  · rw [Header.sentCookies, (hsame.placeAll hstored hstored).wire]
    exact hfree.cookie
  · rw [hkeep, params_setParam, if_pos rfl]

/-- No padding is found in a request without any. -/
theorem extract_free {sent : Request} (hsent : c.PaddingFree sent) (hgot : Transmits sent got) :
    c.extractXPaddingFromRequest env got true = [] := by
  rw [extract_noCookie (hgot.header.cookie_eq_none hsent.cookie),
    hgot.header.get_eq_nil hsent.header, if_pos rfl, hgot.param_eq, hsent.param]
  rfl

include hname hstored hfree in
/-- Padding in a header of its own. -/
theorem extract_header (hplace : c.xPaddingPlacement = .header) {padding : Bytes}
    (hgot : Transmits ((r.setHeader c.xPaddingHeader padding).placeAll ps) got) :
    c.extractXPaddingFromRequest env got true = padding := by
  obtain ⟨hwire, hcookie, hparam⟩ := sent_setHeader hname hstored hfree padding
  rw [extract_noCookie (hgot.header.cookie_eq_none hcookie), hgot.header.get_eq hwire,
    hgot.param_eq, hparam]
  dsimp only
  split_ifs with hnil
  · exact hnil.symm
  · rfl

include hname hu hstored hfree in
/-- Padding in a URL. -/
theorem extract_queryInHeader (hplace : c.xPaddingPlacement = .queryInHeader) {n : ℕ}
    (hgot : Transmits ((r.setHeader c.xPaddingHeader (paddedUrl u c.xPaddingKey n)).placeAll ps)
      got) :
    c.extractXPaddingFromRequest env got true =
      if SafeKey c.xPaddingKey then List.replicate n 88 else [] := by
  obtain ⟨hwire, hcookie, hparam⟩ :=
    sent_setHeader hname hstored hfree (paddedUrl u c.xPaddingKey n)
  rw [extract_noCookie (hgot.header.cookie_eq_none hcookie), hgot.header.get_eq hwire,
    hgot.param_eq, hparam]
  rw [if_neg (paddedUrl_ne_nil _ _ _), if_neg (by simp [hplace])]
  split_ifs with hsafe
  · rw [parse_padding_safe hu n hsafe]
    rfl
  · have hnone := parse_padding_unsafe hu n hsafe
    cases hparse : (Url.parse env.accepts (paddedUrl u c.xPaddingKey n)).map fun v =>
        Query.get (Query.parse v.rawQuery) c.xPaddingKey with
    | none => rfl
    | some p => exact hnone p hparse

include hkey hname hstored hfree in
/-- Padding in a cookie. -/
theorem extract_cookie (hps : Untouched (bytes "Cookie") ps) {n : ℕ}
    (hgot : Transmits ((applyPaddingToCookie r c.xPaddingKey (List.replicate n 88)).placeAll ps)
      got) :
    c.extractXPaddingFromRequest env got true =
      if IsToken c.xPaddingKey then List.replicate n 88 else [] := by
  have hclean : CleanValue (List.replicate n 88) := by
    intro b hb
    rw [eq_of_mem_replicate hb]
    decide
  unfold applyPaddingToCookie at hgot
  by_cases hnil : List.replicate n (88 : UInt8) = []
  · rw [if_pos (.inr hnil)] at hgot
    rw [extract_free hfree hgot, hnil, ite_self]
  · rw [if_neg (not_or.mpr ⟨hkey, hnil⟩)] at hgot
    obtain ⟨hwire, hcookie, hparam⟩ :=
      sent_addCookie hname hstored hfree hps (List.replicate n 88)
    split_ifs with htoken
    · rw [Header.addedCookies_eq htoken hclean, if_pos rfl] at hcookie
      unfold Config.extractXPaddingFromRequest
      rw [hgot.header.cookie_eq hkey hcookie, if_pos rfl, filter_some_pos (by simp [hnil])]
    · rw [Header.addedCookies_eq_nil htoken] at hcookie
      exact extract_free ⟨hwire, hcookie, hparam⟩ hgot

include hkey hname hstored hfree in
/-- Padding in the query. -/
theorem extract_query {padding : Bytes}
    (hgot : Transmits ((applyPaddingToQuery r c.xPaddingKey padding).placeAll ps) got) :
    c.extractXPaddingFromRequest env got true = padding := by
  unfold applyPaddingToQuery at hgot
  by_cases hnil : padding = []
  · rw [if_pos (.inr hnil)] at hgot
    rw [extract_free hfree hgot, hnil]
  · rw [if_neg (not_or.mpr ⟨hkey, hnil⟩)] at hgot
    obtain ⟨hwire, hcookie, hparam⟩ := sent_setParam hname hstored hfree padding
    rw [extract_noCookie (hgot.header.cookie_eq_none hcookie), hgot.header.get_eq_nil hwire,
      if_pos rfl, hgot.param_eq, hparam]
    rfl

include hobfs hmethod hkey hname hu hstored hfree in
/-- Obfuscated padding is found if the key suits the placement, and otherwise none is. -/
theorem extract_obfs
    (hplace : c.xPaddingPlacement ∈ [Placement.header, .queryInHeader, .cookie, .query])
    (hps : c.xPaddingPlacement = .cookie → Untouched (bytes "Cookie") ps)
    (hgot : Transmits ((c.pad env dice r).placeAll ps) got) :
    c.extractXPaddingFromRequest env got true =
      if c.KeySuits then List.replicate dice.paddingLength.toNat 88 else [] := by
  obtain ⟨hp, hk, hh⟩ := padding_obfs hobfs
  rw [pad_eq hmethod hu, hp, hk, hh] at hgot
  simp only [mem_cons, not_mem_nil, or_false] at hplace
  rcases hplace with hplace | hplace | hplace | hplace
  · rw [hplace] at hgot
    simp only [Config.KeySuits, hplace, reduceCtorEq, false_imp_iff, and_self, if_true]
    exact extract_header hname hstored hfree hplace hgot
  · rw [hplace] at hgot
    simp only [Config.KeySuits, hplace, reduceCtorEq, false_imp_iff, true_imp_iff, and_true]
    exact extract_queryInHeader hname hu hstored hfree hplace hgot
  · have hps := hps hplace
    rw [hplace] at hgot
    simp only [Config.KeySuits, hplace, reduceCtorEq, false_imp_iff, true_imp_iff, true_and]
    exact extract_cookie hkey hname hstored hfree hps hgot
  · rw [hplace] at hgot
    simp only [Config.KeySuits, hplace, reduceCtorEq, false_imp_iff, and_self, if_true]
    exact extract_query hkey hname hstored hfree hgot

end Obfuscated

end Stage

/-! ## Whole requests -/

/-- Headers that `net/http` writes itself or keeps for the cookies. -/
def reservedHeaders : List Bytes :=
  [bytes "Host", bytes "User-Agent", bytes "Content-Length", bytes "Transfer-Encoding",
    bytes "Trailer", bytes "Cookie"]

namespace Config

variable (c : Config)

/-- `FillPacketRequest` without the padding. -/
def barePacket (env : Env) (dice : Dice) (r : Request) (sessionId seqStr payload : Bytes) :
    Option Request :=
  (c.fillPayload env dice r payload).map (c.applyMetaToRequest · sessionId seqStr)

/-- `FillStreamRequest` without the padding. -/
def bareStream (env : Env) (r : Request) (sessionId : Bytes) : Request :=
  let r := { r with header := c.getRequestHeader env.agents }
  let r := c.applyMetaToRequest r sessionId []
  if r.body.isSome ∧ c.noGRPCHeader = false then
    r.setHeader (bytes "Content-Type") (bytes "application/grpc")
  else r

/-- Key and header of the padding differ from everything else that the client sends: `bare` is the
request as it is without the padding. -/
structure PaddingDistinct (bare : Request) : Prop where
  referer : c.xPaddingObfsMode = false → bytes "Referer" ∉ c.sessionHeaders ∪ c.seqHeaders
  reserved : c.xPaddingObfsMode = true → canonical c.xPaddingHeader ∉ reservedHeaders
  free : c.xPaddingObfsMode = true → c.PaddingFree bare
  -- padding in a cookie uses the `Cookie` field
  cookie : c.xPaddingObfsMode = true → c.xPaddingPlacement = .cookie →
    bytes "Cookie" ∉ c.sessionHeaders ∪ c.seqHeaders

/-- What `ApplyMetaToRequest` places. -/
def metaPlaces (sessionId seqStr : Bytes) : List Place :=
  [⟨c.getNormalizedSessionPlacement, c.getNormalizedSessionKey, sessionId⟩,
    ⟨c.getNormalizedSeqPlacement, c.getNormalizedSeqKey, seqStr⟩]

/-- The content type of a stream request. -/
def contentTypePlaces (body : Option Bytes) : List Place :=
  if body.isSome ∧ c.noGRPCHeader = false then
    [⟨.header, bytes "Content-Type", bytes "application/grpc"⟩]
  else []

end Config

section Whole

variable {c : Config} {env : Env} {dice : Dice} {r : Request}

/-- The last step of a stream request. -/
theorem contentType_eq_placeAll {r : Request} {session : Bytes} {body : Option Bytes}
    (hbody : r.body = body) :
    (if (c.applyMetaToRequest r session []).body.isSome ∧ c.noGRPCHeader = false then
      (c.applyMetaToRequest r session []).setHeader (bytes "Content-Type")
        (bytes "application/grpc")
    else c.applyMetaToRequest r session []) =
      r.placeAll (c.metaPlaces session [] ++ c.contentTypePlaces body) := by
  rw [(applyMeta_fields r session []).1, hbody, Request.placeAll, foldl_append]
  unfold Config.contentTypePlaces
  split_ifs <;> rfl

theorem bareStream_eq_placeAll (r : Request) (session : Bytes) :
    c.bareStream env r session = { r with header := c.getRequestHeader env.agents }.placeAll
      (c.metaPlaces session [] ++ c.contentTypePlaces r.body) :=
  contentType_eq_placeAll rfl

theorem fillStream_eq_placeAll (r : Request) (session : Bytes) :
    c.fillStreamRequest env dice r session =
      (c.pad env dice { r with header := c.getRequestHeader env.agents }).placeAll
        (c.metaPlaces session [] ++ c.contentTypePlaces r.body) :=
  contentType_eq_placeAll (pad_fields c env dice _).2.1

theorem untouched_places {name : Bytes} (hname : canonical name = name)
    (hmeta : name ∉ c.sessionHeaders ∪ c.seqHeaders) (htype : name ≠ bytes "Content-Type")
    (session seq : Bytes) (body : Option Bytes) :
    Untouched name (c.metaPlaces session seq ++ c.contentTypePlaces body) := by
  intro p hp hplace _ heq
  rw [hname] at heq
  rcases mem_append.mp hp with hp | hp
  · simp only [Config.metaPlaces, mem_cons, not_mem_nil, or_false] at hp
    rcases hp with rfl | rfl
    · exact hmeta (.inl ⟨hplace, heq.symm⟩)
    · exact hmeta (.inr ⟨hplace, heq.symm⟩)
  · unfold Config.contentTypePlaces at hp
    split_ifs at hp
    · rw [mem_singleton.mp hp] at heq
      exact htype (heq.symm.trans (by decide))
    · cases hp

theorem StoredNames.setChunks {h : Header} (hs : StoredNames h) (key : Bytes) (i : ℕ)
    (chunks : List Bytes) : StoredNames (setChunks key i h chunks) := by
  induction chunks generalizing i h with
  | nil => exact hs
  | cons chunk chunks ih => exact ih (hs.set _ _) (i + 1)

theorem StoredNames.addChunks {h : Header} (hs : StoredNames h) (key : Bytes) (i : ℕ)
    (chunks : List Bytes) : StoredNames (addChunks key i h chunks) := by
  induction chunks generalizing i h with
  | nil => exact hs
  | cons chunk chunks ih => exact ih (hs.set _ _) (i + 1)

/-- The payload stage keeps the URL, and stores names in canonical spelling. -/
theorem fillPayload_stored {r₁ : Request} {payload : Bytes} (hr : StoredNames r.header)
    (h : c.fillPayload env dice r payload = some r₁) : StoredNames r₁.header ∧ r₁.url = r.url := by
  have hheader := storedNames_getRequestHeader c env.agents
  unfold Config.fillPayload at h
  split at h
  next => exact some.inj h ▸ ⟨hheader, rfl⟩
  next => exact some.inj h ▸ ⟨hheader, rfl⟩
  next =>
    obtain ⟨chunks, -, h⟩ := bind_eq_some_iff.mp h
    exact some.inj h ▸ ⟨hheader.setChunks _ 0 chunks, rfl⟩
  next =>
    obtain ⟨chunks, -, h⟩ := bind_eq_some_iff.mp h
    exact some.inj h ▸ ⟨hheader.addChunks _ 0 chunks, rfl⟩
  next => exact some.inj h ▸ ⟨hr, rfl⟩

/-- The check, for a request that was padded before its metadata was placed. -/
theorem acceptsPadding_iff {u : Url} {got : Request} {session seq : Bytes} {body : Option Bytes}
    (hdice : c.Rolls dice)
    (hrange : 0 ≤ c.getNormalizedXPaddingBytes.lo ∧
      c.getNormalizedXPaddingBytes.lo ≤ c.getNormalizedXPaddingBytes.hi)
    (hmethod : c.xPaddingMethod ≠ .tokenish)
    (hmode : c.xPaddingObfsMode = true →
      c.xPaddingPlacement ∈ [Placement.header, .queryInHeader, .cookie, .query] ∧
        c.xPaddingKey ≠ [])
    (hu : Url.parse env.accepts r.url.string = some u) (hstored : StoredNames r.header)
    (hdistinct : c.PaddingDistinct
      (r.placeAll (c.metaPlaces session seq ++ c.contentTypePlaces body)))
    (hgot : Transmits ((c.pad env dice r).placeAll
      (c.metaPlaces session seq ++ c.contentTypePlaces body)) got) :
    c.acceptsPadding env got = true ↔
      0 < dice.paddingLength ∧ (c.xPaddingObfsMode = true → c.KeySuits) := by
  have hvalid := isPaddingValid_iff hrange hmethod (hdice.paddingLength.mem hrange.2)
  unfold Config.acceptsPadding
  cases hobfs : c.xPaddingObfsMode with
  | false =>
    have hps := untouched_places (by decide) (hdistinct.referer hobfs) (by decide) session seq body
    rw [extract_plain hobfs hmethod hu hstored hps hgot, hvalid]
    simp
  | true =>
    obtain ⟨hplace, hkey⟩ := hmode hobfs
    have hname : canonical c.xPaddingHeader ≠ bytes "Cookie" := by
      intro heq
      exact hdistinct.reserved hobfs (heq ▸ by decide)
    have hcookie : CookieStored r.header := fun _ hp hcanon => hstored.stored (by decide) hp hcanon
    rw [extract_obfs hobfs hmethod hkey hname hu hcookie (hdistinct.free hobfs) hplace
      (fun hp => untouched_places (by decide) (hdistinct.cookie hobfs hp) (by decide) session seq
        body) hgot]
    by_cases hsuits : c.KeySuits
    · rw [if_pos hsuits, hvalid]
      exact ⟨fun h => ⟨h, fun _ => hsuits⟩, fun h => h.1⟩
    · have hempty : c.isPaddingValid [] c.getNormalizedXPaddingBytes.lo
          c.getNormalizedXPaddingBytes.hi c.xPaddingMethod = false := if_pos rfl
      rw [if_neg hsuits, hempty]
      exact ⟨fun h => absurd h Bool.false_ne_true, fun h => absurd (h.2 rfl) hsuits⟩

end Whole

/-- The server accepts the padding of its own client if the drawn length is positive and, in
obfuscation mode, the key suits the placement; in all other cases it refuses the request. -/
theorem padding_accepted_iff (c : Config) (env : Env) (dice : Dice) (hdice : c.Rolls dice)
    (hrange : 0 ≤ c.getNormalizedXPaddingBytes.lo ∧
      c.getNormalizedXPaddingBytes.lo ≤ c.getNormalizedXPaddingBytes.hi)
    (hmethod : c.xPaddingMethod ≠ .tokenish)
    (hmode : c.xPaddingObfsMode = true →
      c.xPaddingPlacement ∈ [Placement.header, .queryInHeader, .cookie, .query] ∧
        c.xPaddingKey ≠ [] ∧ c.xPaddingHeader ≠ [])
    (site : Bytes) (body : Option Bytes)
    -- the URL of a request was parsed before
    (hurl : (Url.parse env.accepts (c.newRequest site body).url.string).isSome) :
    (∀ (session seq payload : Bytes) (bare r got : Request),
      c.barePacket env dice (c.newRequest site body) session seq payload = some bare →
      c.PaddingDistinct bare →
      c.fillPacketRequest env dice (c.newRequest site body) session seq payload = some r →
      Transmits r got →
      (c.acceptsPadding env got = true ↔
        0 < dice.paddingLength ∧ (c.xPaddingObfsMode = true → c.KeySuits))) ∧
    ∀ (session : Bytes) (got : Request),
      c.PaddingDistinct (c.bareStream env (c.newRequest site body) session) →
      Transmits (c.fillStreamRequest env dice (c.newRequest site body) session) got →
      (c.acceptsPadding env got = true ↔
        0 < dice.paddingLength ∧ (c.xPaddingObfsMode = true → c.KeySuits)) := by
  obtain ⟨u, hu⟩ := isSome_iff_exists.mp hurl
  have hmode' : c.xPaddingObfsMode = true →
      c.xPaddingPlacement ∈ [Placement.header, .queryInHeader, .cookie, .query] ∧
        c.xPaddingKey ≠ [] := fun h => ⟨(hmode h).1, (hmode h).2.1⟩
  constructor
  · intro session seq payload bare r got hbare hdistinct hr hgot
    obtain ⟨r₁, hr₁, hr⟩ := bind_eq_some_iff.mp hr
    rw [Config.barePacket, hr₁, map_some, some.injEq] at hbare
    have hempty : StoredNames (c.newRequest site body).header := forall_mem_nil _
    obtain ⟨hstored, hsame⟩ := fillPayload_stored hempty hr₁
    subst hbare
    rw [← some.inj hr] at hgot
    -- a packet request gets no content type
    exact @acceptsPadding_iff c env dice r₁ u got session seq none hdice hrange hmethod hmode'
      (hsame ▸ hu) hstored hdistinct hgot
  · intro session got hdistinct hgot
    rw [bareStream_eq_placeAll] at hdistinct
    rw [fillStream_eq_placeAll] at hgot
    exact acceptsPadding_iff
      (r := { c.newRequest site body with header := c.getRequestHeader env.agents }) hdice hrange
      hmethod hmode' hu (storedNames_getRequestHeader c env.agents) hdistinct hgot

/-- Padding in a cookie. -/
def cookiePadding : Config where
  xPaddingObfsMode := true
  xPaddingPlacement := .cookie
  xPaddingKey := bytes "x_pad"
  xPaddingHeader := bytes "X-Pad"

theorem padding_accepted_cookie : ∃ got,
    Transmits (cookiePadding.fillStreamRequest plainEnv ⟨100, none, []⟩
      (cookiePadding.newRequest (bytes "https://h") none) (newSessionID none)) got ∧
    cookiePadding.acceptsPadding plainEnv got = true := by
  have hdice : cookiePadding.Rolls ⟨100, none, []⟩ := by
    refine ⟨by decide, fun s hs => ?_, by decide⟩
    cases hs
  have hdistinct : cookiePadding.PaddingDistinct (cookiePadding.bareStream plainEnv
      (cookiePadding.newRequest (bytes "https://h") none) (newSessionID none)) := by
    refine ⟨fun h => ?_, fun _ => by decide, fun _ => ⟨?_, ?_, ?_⟩, fun _ _ h => ?_⟩
    · cases h
    · decide +kernel
    · decide +kernel
    · decide +kernel
    · rcases h with h | h <;> cases h.1
  refine ⟨_, transmits_receive _, ?_⟩
  refine ((padding_accepted_iff cookiePadding plainEnv ⟨100, none, []⟩ hdice (by decide) (by decide)
    (fun _ => by decide) (bytes "https://h") none (by decide +kernel)).2 _ _ hdistinct
    (transmits_receive _)).mpr ?_
  decide +kernel

/-- A range that starts at zero, without obfuscation. -/
def zeroPadding : Config where
  xPaddingBytes := some ⟨0, 5⟩

/-- If the length zero is drawn, the server refuses the request. -/
theorem zeroPadding_refused :
    zeroPadding.Rolls ⟨0, none, []⟩ ∧
      ∃ got, Transmits (zeroPadding.fillStreamRequest plainEnv ⟨0, none, []⟩
          (zeroPadding.newRequest (bytes "https://h") none) (newSessionID none)) got ∧
        zeroPadding.acceptsPadding plainEnv got = false := by
  refine ⟨⟨by decide, fun s hs => ?_, by decide⟩, _, transmits_receive _, by decide +kernel⟩
  cases hs

end XHTTP

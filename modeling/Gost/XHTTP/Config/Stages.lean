import Gost.XHTTP.Config.Payload

/-!
# The stages of preparing a request

What the stages of `FillPacketRequest` and `FillStreamRequest` write: the initial header, the
padding, the metadata. Each stage is described by its frame; the metadata stage also by what the
server reads back from the path (`extractMeta_eq`).
-/

namespace XHTTP

open Bytes Http List

/-! ## The initial header -/

/-- The names that browser headers store in another spelling than the canonical one. -/
def rawNames : List Bytes :=
  [bytes "Sec-CH-UA", bytes "Sec-CH-UA-Mobile", bytes "Sec-CH-UA-Platform", bytes "DNT"]

/-- Names are stored in canonical spelling, those of the client hints apart. -/
def StoredNames (h : Header) : Prop := ∀ p ∈ h, canonical p.1 = p.1 ∨ p.1 ∈ rawNames

variable {name base session seq : Bytes} {h : Header} {c : Config} {p : Placement} {r : Request}

namespace StoredNames

variable {h : Header} (hs : StoredNames h)
include hs

theorem del (name : Bytes) : StoredNames (h.del name) :=
  fun p hp => hs p (mem_of_mem_filter hp)

theorem add (name value : Bytes) : StoredNames (h.add name value) := by
  intro p hp
  rcases mem_append.mp hp with hp | hp
  · exact hs p hp
  · rw [mem_singleton.mp hp]
    exact .inl (canonical_canonical name)

theorem set (name value : Bytes) : StoredNames (h.set name value) := (hs.del name).add name value

theorem assign (value : Bytes) (hname : name ∈ rawNames) : StoredNames (h.assign name value) := by
  intro p hp
  rcases mem_append.mp hp with hp | hp
  · exact hs p (mem_of_mem_filter hp)
  · rw [mem_singleton.mp hp]
    exact .inr hname

theorem setMissing (name value : Bytes) : StoredNames (setMissing h name value) := by
  unfold XHTTP.setMissing
  split_ifs
  · exact hs.set name value
  · exact hs

theorem applyChromium (hints agent : Bytes) : StoredNames (applyChromium h hints agent) :=
  (((((hs.assign hints (by decide)).assign _ (by decide)).assign _ (by decide)).assign _
    (by decide)).set _ _).set _ _

theorem applyFetch (priority : Bytes) : StoredNames (applyFetch h priority) := by
  refine ((((StoredNames.setMissing ?_ _ _).setMissing _ _).setMissing _ _).setMissing _ _)
  exact ((hs.set _ _).set _ _).set _ _

theorem applyMasqueradedHeaders (agents : UserAgents) (browser : Browser) :
    StoredNames (applyMasqueradedHeaders agents h browser) := by
  cases browser with
  | chrome | edge => exact (hs.applyChromium _ _).applyFetch _
  | firefox => exact (((hs.set _ _).assign _ (by decide)).set _ _).applyFetch _
  | golang => exact hs.del _

end StoredNames

theorem storedNames_getRequestHeader (c : Config) (agents : UserAgents) :
    StoredNames (c.getRequestHeader agents) := by
  have hconfigured : ∀ (l : List (Bytes × Bytes)) (h : Header), StoredNames h →
      StoredNames (l.foldl (fun h p => h.add p.1 p.2) h) := by
    intro l
    induction l with
    | nil => exact fun h hs => hs
    | cons p l ih => exact fun h hs => ih _ (hs.add p.1 p.2)
  have hs := hconfigured c.headers [] fun p hp => by cases hp
  unfold Config.getRequestHeader tryDefaultHeadersWith
  dsimp only
  split_ifs
  all_goals first | exact hs.applyMasqueradedHeaders _ _ | exact hs

/-- A name other than those of the client hints has one spelling. -/
theorem StoredNames.stored (hs : StoredNames h) (hname : ∀ n ∈ rawNames, canonical n ≠ name)
    {p : Bytes × Bytes} (hp : p ∈ h) (hcanon : canonical p.1 = name) : p.1 = name := by
  rcases hs p hp with h | h
  · rw [← h, hcanon]
  · exact absurd hcanon (hname p.1 h)

theorem cookieStored_getRequestHeader (c : Config) (agents : UserAgents) :
    CookieStored (c.getRequestHeader agents) := fun _ hp hcanon =>
  (storedNames_getRequestHeader c agents).stored (by decide) hp hcanon

/-- No cookie of a name is sent, so none is in the first line. -/
theorem cookieIs_nil (hsent : h.sentCookies name = []) : CookieIs h name [] := by
  refine ⟨hsent, ?_⟩
  have hsub : readLine (h.get (bytes "Cookie")) ⊆ (h.wire (bytes "Cookie")).flatMap readLine := by
    cases hvalues : h.values (bytes "Cookie") with
    | nil =>
      rw [Header.get, hvalues]
      exact nil_subset _
    | cons v vs =>
      have hmem : v ∈ h.wire (bytes "Cookie") := by
        have hv : v ∈ h.values (bytes "Cookie") := hvalues ▸ mem_cons_self
        obtain ⟨p, hp, rfl⟩ := mem_map.mp hv
        rw [mem_filter, decide_eq_true_eq] at hp
        refine mem_map_of_mem (mem_filter.mpr ⟨hp.1, ?_⟩)
        rw [decide_eq_true_eq, hp.2, canonical_canonical]
      rw [Header.get, hvalues]
      exact fun p hp => mem_flatMap.mpr ⟨v, hmem, hp⟩
  rw [Header.sentCookies, map_eq_nil_iff, filter_eq_nil_iff] at hsent
  rw [Header.lineCookies, map_eq_nil_iff, filter_eq_nil_iff]
  exact fun p hp => hsent p (hsub hp)

/-! ## Padding -/

namespace Config

variable (c : Config)

/-- Where the padding is placed. -/
def paddingPlacement : Placement :=
  if c.xPaddingObfsMode then c.xPaddingPlacement else .queryInHeader

def paddingKey : Bytes := if c.xPaddingObfsMode then c.xPaddingKey else bytes "x_padding"

def paddingHeader : Bytes := if c.xPaddingObfsMode then c.xPaddingHeader else bytes "Referer"

def paddingMethod : PaddingMethod := if c.xPaddingObfsMode then c.xPaddingMethod else .other

theorem xPaddingConfig_eq (r : Request) (length : ℤ) :
    c.xPaddingConfig r length =
      ⟨length, ⟨c.paddingPlacement, c.paddingKey, c.paddingHeader, r.url.string⟩,
        c.paddingMethod⟩ := by
  unfold xPaddingConfig paddingPlacement paddingKey paddingHeader paddingMethod
  split_ifs <;> rfl

/-- The header that the padding uses. -/
def paddingHeaders : Set Bytes :=
  {k | (c.paddingPlacement = .header ∨ c.paddingPlacement = .queryInHeader) ∧
    k = canonical c.paddingHeader}

def paddingCookies : Set Bytes := c.paddingPlacement.names .cookie c.paddingKey

def paddingParams : Set Bytes := c.paddingPlacement.names .query c.paddingKey

end Config

theorem cleanValue_of_charset {v : Bytes} (h : ∀ b ∈ v, b ∈ charsetBase62) : CleanValue v := by
  have hcharset : ∀ b ∈ charsetBase62, isCookieByte b = true ∧ b ≠ 32 ∧ b ≠ 44 :=
    forall_mem_of_all (by decide +kernel)
  exact fun b hb => hcharset b (h b hb)

section Padding

variable (c : Config) (env : Env) {r : Request} (dice : Dice)

/-- The request with its padding. -/
def Config.pad (r : Request) : Request :=
  applyXPaddingToRequest env r (c.xPaddingConfig r dice.paddingLength) dice.token

theorem writes_pad (hdice : c.Rolls dice) (hheader : bytes "Cookie" ∉ c.paddingHeaders)
    (hcookie : ∀ n ∈ c.paddingCookies, IsToken n) (hstored : CookieStored r.header) :
    Writes c.paddingHeaders c.paddingCookies c.paddingParams r (c.pad env dice r) := by
  have hset : ∀ value, (c.paddingPlacement = .header ∨ c.paddingPlacement = .queryInHeader) →
      Writes c.paddingHeaders c.paddingCookies c.paddingParams r
        (r.setHeader c.paddingHeader value) := by
    intro value hplace
    refine (writes_setHeader r value fun heq => hheader ⟨hplace, heq.symm⟩).mono ?_
      (Set.empty_subset _) (Set.empty_subset _)
    rintro k rfl
    exact ⟨hplace, rfl⟩
  have hclean : CleanValue (generatePadding c.paddingMethod dice.paddingLength dice.token) :=
    cleanValue_of_charset fun b hb => mem_charset_of_mem_generatePadding hdice.token hb
  unfold Config.pad
  rw [c.xPaddingConfig_eq]
  unfold applyXPaddingToRequest
  dsimp only
  split
  next hplace =>
    simp only [hplace]
    exact hset _ (.inl hplace)
  next hplace =>
    unfold applyXPaddingToHeader
    simp only [hplace]
    split
    next => exact .refl r
    next u _ => exact hset _ (.inr hplace)
  next hplace =>
    unfold applyPaddingToCookie
    split_ifs
    · exact .refl r
    · refine (writes_addCookie (hcookie _ ⟨hplace, rfl⟩) hclean hstored).mono
        (Set.empty_subset _) ?_ (Set.empty_subset _)
      rintro k rfl
      exact ⟨hplace, rfl⟩
  next hplace =>
    unfold applyPaddingToQuery
    split_ifs
    · exact .refl r
    · refine (writes_setParam r _ _).mono (Set.empty_subset _) (Set.empty_subset _) ?_
      rintro k rfl
      exact ⟨hplace, rfl⟩
  next => exact .refl r

/-- Path and body do not depend on the padding. -/
theorem pad_fields (r : Request) : (c.pad env dice r).path = r.path ∧
    (c.pad env dice r).body = r.body ∧ (c.pad env dice r).contentLength = r.contentLength := by
  unfold Config.pad applyXPaddingToRequest applyPaddingToCookie applyPaddingToQuery
  split
  next => exact ⟨rfl, rfl, rfl⟩
  next => exact ⟨rfl, rfl, rfl⟩
  next => split_ifs <;> exact ⟨rfl, rfl, rfl⟩
  next => split_ifs <;> exact ⟨rfl, rfl, rfl⟩
  next => exact ⟨rfl, rfl, rfl⟩

end Padding

/-! ## Metadata -/

theorem placeMeta_fields (r : Request) (p : Placement) (key value : Bytes) :
    (r.placeMeta p key value).body = r.body ∧
      (r.placeMeta p key value).contentLength = r.contentLength := by
  unfold Request.placeMeta
  split_ifs
  · exact ⟨rfl, rfl⟩
  · split <;> exact ⟨rfl, rfl⟩

theorem applyMeta_fields (r : Request) (session seq : Bytes) :
    (c.applyMetaToRequest r session seq).body = r.body ∧
      (c.applyMetaToRequest r session seq).contentLength = r.contentLength := by
  have hfirst :=
    placeMeta_fields r c.getNormalizedSessionPlacement c.getNormalizedSessionKey session
  have hsecond := placeMeta_fields
    (r.placeMeta c.getNormalizedSessionPlacement c.getNormalizedSessionKey session)
    c.getNormalizedSeqPlacement c.getNormalizedSeqKey seq
  exact ⟨hsecond.1.trans hfirst.1, hsecond.2.trans hfirst.2⟩

/-- Only the placement in the path changes the path. -/
theorem placeMeta_path (r : Request) (key value : Bytes) (hp : p ≠ .path) :
    (r.placeMeta p key value).path = r.path := by
  unfold Request.placeMeta
  split_ifs
  · rfl
  · cases p with
    | path => exact absurd rfl hp
    | _ => rfl

/-- A value behind a slash. -/
theorem placeMeta_path_slash (key value : Bytes) (hslash : r.path.getLast? = some 47) :
    (r.placeMeta .path key value).path = r.path ++ value := by
  unfold Request.placeMeta
  split_ifs with hnil
  · rw [hnil, append_nil]
  · exact if_pos hslash

/-- A value behind another one. -/
theorem placeMeta_path_behind {first : Bytes} (key : Bytes) {value : Bytes}
    (hpath : r.path = base ++ first) (hfirst : first ≠ []) (hslash : 47 ∉ first)
    (hvalue : value ≠ []) :
    (r.placeMeta .path key value).path = base ++ (first ++ 47 :: value) := by
  have hlast : r.path.getLast? ≠ some 47 := by
    intro h
    rw [hpath, getLast?_append_of_ne_nil _ hfirst] at h
    exact hslash (mem_of_mem_getLast? h)
  rw [Request.placeMeta, if_neg hvalue]
  show (if r.path.getLast? = some 47 then _ else _) = _
  rw [if_neg hlast, hpath, append_assoc]

/-- Session id and sequence number as they are placed: without slashes, and no sequence number
without a session id. -/
structure MetaValues (session seq : Bytes) : Prop where
  sessionClean : CleanValue session
  sessionSlash : 47 ∉ session
  seqClean : CleanValue seq
  seqSlash : 47 ∉ seq
  order : session = [] → seq = []

/-- The path segments that `ApplyMetaToRequest` appends. -/
theorem subpath_eq (hm : MetaValues session seq) (hpath : r.path = base)
    (hslash : base.getLast? = some 47) :
    ∃ rest, (c.applyMetaToRequest r session seq).path = base ++ rest ∧
      ((c.getNormalizedSessionPlacement = .path → c.getNormalizedSeqPlacement = .path →
          rest.splitOn 47 = session :: if seq = [] then [] else [seq]) ∧
        (c.getNormalizedSessionPlacement = .path → c.getNormalizedSeqPlacement ≠ .path →
          rest.splitOn 47 = [session]) ∧
        (c.getNormalizedSessionPlacement ≠ .path → c.getNormalizedSeqPlacement = .path →
          rest.splitOn 47 = [seq])) := by
  subst hpath
  unfold Config.applyMetaToRequest
  by_cases hs : c.getNormalizedSessionPlacement = .path
  · rw [hs]
    have hfirst := placeMeta_path_slash (r := r) c.getNormalizedSessionKey session hslash
    by_cases hq : c.getNormalizedSeqPlacement = .path
    · rw [hq]
      by_cases hnil : seq = []
      · refine ⟨session, ?_, fun _ _ => ?_, fun _ h => absurd rfl h, fun h _ => absurd rfl h⟩
        · rw [hnil]
          exact hfirst
        · rw [if_pos hnil]
          exact splitOn_eq_singleton hm.sessionSlash
      · have hne : session ≠ [] := fun h => hnil (hm.order h)
        refine ⟨session ++ 47 :: seq, ?_, fun _ _ => ?_, fun _ h => absurd rfl h,
          fun h _ => absurd rfl h⟩
        · exact placeMeta_path_behind _ hfirst hne hm.sessionSlash hnil
        · rw [if_neg hnil, splitOn_append_cons_self_of_not_mem hm.sessionSlash,
            splitOn_eq_singleton hm.seqSlash]
    · refine ⟨session, ?_, fun _ h => absurd h hq, fun _ _ => ?_, fun h _ => absurd rfl h⟩
      · rw [placeMeta_path _ _ _ hq, hfirst]
      · exact splitOn_eq_singleton hm.sessionSlash
  · have hfirst := placeMeta_path r c.getNormalizedSessionKey session hs
    by_cases hq : c.getNormalizedSeqPlacement = .path
    · rw [hq]
      refine ⟨seq, ?_, fun h _ => absurd h hs, fun h _ => absurd h hs, fun _ _ => ?_⟩
      · rw [placeMeta_path_slash _ _ (hfirst ▸ hslash), hfirst]
      · exact splitOn_eq_singleton hm.seqSlash
    · refine ⟨[], ?_, fun h _ => absurd h hs, fun h _ => absurd h hs, fun _ h => absurd h hq⟩
      rw [placeMeta_path _ _ _ hq, hfirst, append_nil]

/-- The placements of metadata. -/
def Placement.IsMeta (p : Placement) : Prop := p = .path ∨ p = .query ∨ p = .header ∨ p = .cookie

theorem Placement.IsMeta.carrier (h : p.IsMeta) (hp : p ≠ .path) :
    p = .header ∨ p = .cookie ∨ p = .query := by
  rcases h with h | h | h | h
  · exact absurd h hp
  · exact .inr (.inr h)
  · exact .inl h
  · exact .inr (.inl h)

/-- The server reads session id and sequence number from a request that carries them. -/
theorem extractMeta_eq {r' got : Request} (hm : MetaValues session seq)
    (hpath : r.path = c.getNormalizedPath) (hsession : c.getNormalizedSessionPlacement.IsMeta)
    (hseq : c.getNormalizedSeqPlacement.IsMeta)
    (hpath' : r'.path = (c.applyMetaToRequest r session seq).path)
    (hcs : Carries r' c.getNormalizedSessionPlacement c.getNormalizedSessionKey session)
    (hcq : Carries r' c.getNormalizedSeqPlacement c.getNormalizedSeqKey seq)
    (hgot : Transmits r' got) :
    c.extractMetaFromRequest got c.getNormalizedPath = (session, seq) := by
  obtain ⟨rest, hrest, hboth, honly, hother⟩ :=
    subpath_eq (c := c) hm hpath c.getLast?_getNormalizedPath
  have hkeyS : c.getNormalizedSessionPlacement ≠ .path → c.getNormalizedSessionKey ≠ [] := fun hp =>
    Config.orDefaultKey_ne_nil (by decide) (by decide) (hsession.carrier hp)
  have hkeyQ : c.getNormalizedSeqPlacement ≠ .path → c.getNormalizedSeqKey ≠ [] := fun hp =>
    Config.orDefaultKey_ne_nil (by decide) (by decide) (hseq.carrier hp)
  -- the segments behind the base path
  have hsub : (if c.getNormalizedPath.length < got.path.length then
      got.path.drop c.getNormalizedPath.length else []) = rest := by
    rw [hgot.path, hpath', hrest, drop_left]
    split_ifs with hlen
    · rfl
    · rw [length_append] at hlen
      exact (eq_nil_of_length_eq_zero (by omega)).symm
  unfold Config.extractMetaFromRequest
  rw [hsub]
  by_cases hs : c.getNormalizedSessionPlacement = .path
  · by_cases hq : c.getNormalizedSeqPlacement = .path
    · simp only [hs, hq, Config.readMeta, true_or, if_true, hboth hs hq]
      split_ifs with hnil
      · rw [hnil]
        rfl
      · rfl
    · have hread := readMeta_eq hgot hcq (hseq.carrier hq) (hkeyQ hq)
      simp only [hs, true_or, if_true, honly hs hq, hread]
      rfl
  · have hread := readMeta_eq hgot hcs (hsession.carrier hs) (hkeyS hs)
    by_cases hq : c.getNormalizedSeqPlacement = .path
    · simp only [hread, hq, or_true, if_true, hother hs hq]
      rfl
    · have hreadQ := readMeta_eq hgot hcq (hseq.carrier hq) (hkeyQ hq)
      simp only [hread, hreadQ]

end XHTTP

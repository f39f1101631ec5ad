import Gost.XHTTP.Config.Stages

/-!
# Requests round-trip

A request that the client prepares is decoded by the server to the session id, the sequence number
and the payload it was made of, for every placement of the three. That the configured keys differ is
not enough for it: what has to differ are the names that are used in each carrier, with the names of
the chunks among them and header names in canonical form, and none of them may be preset.
-/

namespace XHTTP

open Bytes Http

namespace Config

variable (c : Config)

def sessionHeaders : Set Bytes :=
  c.getNormalizedSessionPlacement.names .header (canonical c.getNormalizedSessionKey)

def sessionCookies : Set Bytes :=
  c.getNormalizedSessionPlacement.names .cookie c.getNormalizedSessionKey

def sessionParams : Set Bytes :=
  c.getNormalizedSessionPlacement.names .query c.getNormalizedSessionKey

def seqHeaders : Set Bytes :=
  c.getNormalizedSeqPlacement.names .header (canonical c.getNormalizedSeqKey)

def seqCookies : Set Bytes := c.getNormalizedSeqPlacement.names .cookie c.getNormalizedSeqKey

def seqParams : Set Bytes := c.getNormalizedSeqPlacement.names .query c.getNormalizedSeqKey

/-- The headers in which the server looks for chunks of the payload. -/
def dataHeaders : Set Bytes := {k | c.ReadsHeaders ∧ k ∈ chunkHeaders c.uplinkDataKey}

/-- The cookies in which the server looks for chunks of the payload. -/
def dataCookies : Set Bytes := {n | c.ReadsCookies ∧ n ∈ chunkCookies c.uplinkDataKey}

/-- The names used in each carrier differ from each other, and those that the server reads are not
preset by the configured headers, the browser headers or the query of `Path`. -/
structure NamesSeparated (agents : UserAgents) : Prop where
  -- two headers are used by the client in any case
  headers : List.Pairwise Disjoint [c.sessionHeaders, c.seqHeaders, c.paddingHeaders, c.dataHeaders,
    {bytes "Cookie", bytes "Content-Type"}]
  cookies : List.Pairwise Disjoint [c.sessionCookies, c.seqCookies, c.paddingCookies, c.dataCookies]
  params : List.Pairwise Disjoint [c.sessionParams, c.seqParams, c.paddingParams]
  headersFree : ∀ k ∈ c.sessionHeaders ∪ c.seqHeaders ∪ c.dataHeaders,
    (c.getRequestHeader agents).wire k = []
  cookiesFree : ∀ n ∈ c.sessionCookies ∪ c.seqCookies ∪ c.dataCookies,
    (c.getRequestHeader agents).sentCookies n = []
  paramsFree : ∀ k ∈ c.sessionParams ∪ c.seqParams,
    Query.values (Query.parse (c.newRequest [] none).rawQuery) k = []
  -- the cookie codec round-trips for tokens
  tokens : ∀ n ∈ c.sessionCookies ∪ c.seqCookies ∪ c.paddingCookies ∪ c.dataCookies, IsToken n

end Config

/-! ## Session ids and sequence numbers -/

theorem mem_newSessionID {rand : Option Bytes} {b : UInt8} (h : b ∈ newSessionID rand) :
    b ∈ bytes "0123456789abcdef-" := by
  have hhex : ∀ s : Bytes, ∀ b ∈ hexText s, b ∈ bytes "0123456789abcdef-" := by
    have hdigit : ∀ n < 16, (if n < 10 then UInt8.ofNat (48 + n) else UInt8.ofNat (87 + n)) ∈
        bytes "0123456789abcdef-" := by decide
    intro s b hb
    obtain ⟨x, -, hx⟩ := List.mem_flatMap.mp hb
    have hlt := x.toNat_lt
    rw [List.mem_pair] at hx
    rcases hx with rfl | rfl
    · exact hdigit _ (by omega)
    · exact hdigit _ (by omega)
  cases rand with
  | none =>
    have hfixed : ∀ b ∈ newSessionID none, b ∈ bytes "0123456789abcdef-" :=
      forall_mem_of_all (by decide +kernel)
    exact hfixed b h
  | some s =>
    simp only [newSessionID, List.intercalate, List.intersperse, List.flatten_cons,
      List.flatten_nil, List.append_nil, List.mem_append, List.mem_singleton] at h
    rcases h with h | rfl | h | rfl | h | rfl | h | rfl | h
    all_goals first | exact hhex _ _ h | decide

theorem newSessionID_ne_nil (rand : Option Bytes) : newSessionID rand ≠ [] := by
  cases rand with
  | none => decide
  | some s => simp [newSessionID, List.intercalate]

/-- The values that the dialer generates, a packet's and a stream's. -/
theorem metaValues_packet (rand : Option Bytes) (n : ℕ) :
    MetaValues (newSessionID rand) (decimal n) := by
  have hsession : ∀ b ∈ bytes "0123456789abcdef-",
      (isCookieByte b = true ∧ b ≠ 32 ∧ b ≠ 44) ∧ b ≠ 47 := forall_mem_of_all (by decide +kernel)
  have hdigit : ∀ b : UInt8, 48 ≤ b.toNat ∧ b.toNat ≤ 57 →
      (isCookieByte b = true ∧ b ≠ 32 ∧ b ≠ 44) ∧ b ≠ 47 := forall_byte (by decide +kernel)
  exact {
    sessionClean := fun b hb => (hsession b (mem_newSessionID hb)).1
    sessionSlash := fun hb => (hsession _ (mem_newSessionID hb)).2 rfl
    seqClean := fun b hb => (hdigit b (digit_of_mem_decimal hb)).1
    seqSlash := fun hb => (hdigit _ (digit_of_mem_decimal hb)).2 rfl
    order := fun hnil => absurd hnil (newSessionID_ne_nil rand) }

theorem metaValues_stream {session : Bytes} {rand : Option Bytes}
    (h : session = newSessionID rand ∨ session = []) : MetaValues session [] := by
  have hpacket := metaValues_packet rand 0
  rcases h with rfl | rfl
  · exact ⟨hpacket.sessionClean, hpacket.sessionSlash, List.forall_mem_nil _, List.not_mem_nil,
      fun _ => rfl⟩
  · exact ⟨List.forall_mem_nil _, List.not_mem_nil, List.forall_mem_nil _, List.not_mem_nil,
      fun _ => rfl⟩

/-! ## Stages -/

/-- The placements of the payload. -/
def Placement.IsData (p : Placement) : Prop := p = .body ∨ p = .auto ∨ p = .header ∨ p = .cookie

/-- The request carries session id and sequence number under their keys. -/
structure CarriesMeta (c : Config) (r : Request) (session seq : Bytes) : Prop where
  session : Carries r c.getNormalizedSessionPlacement c.getNormalizedSessionKey session
  seq : Carries r c.getNormalizedSeqPlacement c.getNormalizedSeqKey seq

/-- What the payload stage leaves: the payload in the places where the server looks for it, and
nothing else changed. -/
structure PayloadStage (c : Config) (agents : UserAgents) (r r' : Request) (payload : Bytes) :
    Prop where
  payload : ∃ a b d, a ++ b ++ d = payload ∧ CarriesPayload c r' a b d
  writes : Writes c.dataHeaders c.dataCookies ∅ { r with header := c.getRequestHeader agents } r'
  path : r'.path = r.path
  rawQuery : r'.rawQuery = r.rawQuery

section Stages

variable {c : Config} {agents : UserAgents} (hnames : c.NamesSeparated agents)
include hnames

namespace Config.NamesSeparated

theorem usable_session : c.getNormalizedSessionPlacement.Usable c.getNormalizedSessionKey := by
  refine ⟨fun hp heq => ?_, fun hp => ?_⟩
  · have hdis := (List.pairwise_cons.mp hnames.headers).1 {bytes "Cookie", bytes "Content-Type"}
      (by simp)
    exact Set.disjoint_left.mp hdis ⟨hp, rfl⟩ (.inl heq)
  · exact hnames.tokens _ (.inl (.inl (.inl ⟨hp, rfl⟩)))

theorem usable_seq : c.getNormalizedSeqPlacement.Usable c.getNormalizedSeqKey := by
  have htail := (List.pairwise_cons.mp hnames.headers).2
  refine ⟨fun hp heq => ?_, fun hp => ?_⟩
  · have hdis := (List.pairwise_cons.mp htail).1 {bytes "Cookie", bytes "Content-Type"} (by simp)
    exact Set.disjoint_left.mp hdis ⟨hp, rfl⟩ (.inl heq)
  · exact hnames.tokens _ (.inl (.inl (.inr ⟨hp, rfl⟩)))

theorem cookie_notMem_paddingHeaders : bytes "Cookie" ∉ c.paddingHeaders := by
  have htail := (List.pairwise_cons.mp (List.pairwise_cons.mp hnames.headers).2).2
  have hdis := (List.pairwise_cons.mp htail).1 {bytes "Cookie", bytes "Content-Type"} (by simp)
  exact fun hmem => Set.disjoint_left.mp hdis hmem (.inl rfl)

end Config.NamesSeparated

omit hnames in
/-- Nothing is found under a key that is free in its carrier. -/
theorem carries_nil {r : Request} {p : Placement} {key : Bytes}
    (hheader : p = .header → r.header.wire (canonical key) = [])
    (hcookie : p = .cookie → r.header.sentCookies key = [])
    (hparam : p = .query → Query.values (Query.parse r.rawQuery) key = []) :
    Carries r p key [] := by
  cases p with
  | header =>
    show r.header.wire key = []
    rw [← Header.wire_canonical]
    exact hheader rfl
  | cookie => exact cookieIs_nil (hcookie rfl)
  | query => exact hparam rfl
  | _ => trivial

/-- Nothing is found under the keys of the metadata before they are placed. -/
theorem carries_base {r : Request} (hheader : r.header = c.getRequestHeader agents)
    (hquery : r.rawQuery = (c.newRequest [] none).rawQuery) : CarriesMeta c r [] [] := by
  constructor
  all_goals
    refine carries_nil (fun hp => ?_) (fun hp => ?_) fun hp => ?_
    all_goals first | rw [hheader] | rw [hquery]
  · exact hnames.headersFree _ (.inl (.inl ⟨hp, rfl⟩))
  · exact hnames.cookiesFree _ (.inl (.inl ⟨hp, rfl⟩))
  · exact hnames.paramsFree _ (.inl ⟨hp, rfl⟩)
  · exact hnames.headersFree _ (.inl (.inr ⟨hp, rfl⟩))
  · exact hnames.cookiesFree _ (.inl (.inr ⟨hp, rfl⟩))
  · exact hnames.paramsFree _ (.inr ⟨hp, rfl⟩)

/-- Stages that write padding and payload leave the keys of the metadata free. -/
theorem carries_before {r r' : Request}
    (hfree : CarriesMeta c r [] [])
    (hw : Writes (c.dataHeaders ∪ c.paddingHeaders) (c.dataCookies ∪ c.paddingCookies)
      c.paddingParams r r') : CarriesMeta c r' [] [] := by
  obtain ⟨hSession, htail⟩ := List.pairwise_cons.mp hnames.headers
  obtain ⟨hSeq, -⟩ := List.pairwise_cons.mp htail
  obtain ⟨hSession', htail'⟩ := List.pairwise_cons.mp hnames.cookies
  obtain ⟨hSeq', -⟩ := List.pairwise_cons.mp htail'
  obtain ⟨hSession'', htail''⟩ := List.pairwise_cons.mp hnames.params
  obtain ⟨hSeq'', -⟩ := List.pairwise_cons.mp htail''
  constructor
  · exact hfree.session.frame hw hnames.usable_session
      (Set.disjoint_union_right.mpr ⟨hSession _ (by simp), hSession _ (by simp)⟩)
      (Set.disjoint_union_right.mpr ⟨hSession' _ (by simp), hSession' _ (by simp)⟩)
      (hSession'' _ (by simp))
  · exact hfree.seq.frame hw hnames.usable_seq
      (Set.disjoint_union_right.mpr ⟨hSeq _ (by simp), hSeq _ (by simp)⟩)
      (Set.disjoint_union_right.mpr ⟨hSeq' _ (by simp), hSeq' _ (by simp)⟩)
      (hSeq'' _ (by simp))

/-- Metadata that is placed under free keys is found there. -/
theorem carries_applyMeta {r : Request} {session seq : Bytes} (hm : MetaValues session seq)
    (hstored : CookieStored r.header) (hfree : CarriesMeta c r [] []) :
    CarriesMeta c (c.applyMetaToRequest r session seq) session seq ∧
      Writes (c.sessionHeaders ∪ c.seqHeaders) (c.sessionCookies ∪ c.seqCookies)
        (c.sessionParams ∪ c.seqParams) r (c.applyMetaToRequest r session seq) := by
  have hheaders := (List.pairwise_cons.mp hnames.headers).1 c.seqHeaders (by simp)
  have hcookies := (List.pairwise_cons.mp hnames.cookies).1 c.seqCookies (by simp)
  have hparams := (List.pairwise_cons.mp hnames.params).1 c.seqParams (by simp)
  have hfirst := writes_placeMeta hnames.usable_session hm.sessionClean hstored
  have hsecond := writes_placeMeta hnames.usable_seq hm.seqClean (hfirst.stored hstored)
  refine ⟨⟨?_, ?_⟩, hfirst.trans hsecond⟩
  · have hplaced := carries_placeMeta hfree.session hnames.usable_session hstored hm.sessionClean
    exact hplaced.frame hsecond hnames.usable_session hheaders hcookies hparams
  · have hkept := hfree.seq.frame hfirst hnames.usable_seq hheaders.symm hcookies.symm hparams.symm
    exact carries_placeMeta hkept hnames.usable_seq (hfirst.stored hstored) hm.seqClean

/-- No chunk is found before the payload is placed. -/
theorem chunks_free :
    (c.ReadsHeaders → ∀ j,
      (c.getRequestHeader agents).wire (chunkHeader c.uplinkDataKey j) = []) ∧
    (c.ReadsCookies → ∀ j,
      CookieIs (c.getRequestHeader agents) (chunkCookie c.uplinkDataKey j) []) := by
  refine ⟨fun hread j => ?_, fun hread j => ?_⟩
  · rw [← Header.wire_canonical]
    exact hnames.headersFree _ (.inr ⟨hread, j, rfl⟩)
  · exact cookieIs_nil (hnames.cookiesFree _ (.inr ⟨hread, j, rfl⟩))

/-- The payload goes into the body. -/
theorem payloadStage_body {r : Request} (hread : c.ReadsBody) (payload : Bytes) :
    PayloadStage c agents r { r with
      header := c.getRequestHeader agents, body := some payload,
      contentLength := payload.length } payload := by
  obtain ⟨hheaders, hcookies⟩ := chunks_free hnames
  refine ⟨⟨[], [], payload, rfl, ?_⟩, (Writes.refl _).congr_right rfl rfl, rfl, rfl⟩
  exact ⟨fun hread => ⟨[], rfl, by simp, hheaders hread⟩, fun hread => ⟨[], rfl, hcookies hread⟩,
    rfl, rfl, fun _ => rfl, fun _ => rfl, fun hno => absurd hread hno⟩

/-- The payload goes into headers. -/
theorem payloadStage_headers {r : Request} (hbody : r.body = none) (hlen : r.contentLength = 0)
    (hd : c.getNormalizedUplinkDataPlacement = .header) {sizes : List ℤ} {payload : Bytes}
    {chunks : List Bytes} (hchunks : splitChunks sizes (Base64.encode payload) = some chunks) :
    PayloadStage c agents r
      { r with header := setChunks c.uplinkDataKey 0 (c.getRequestHeader agents) chunks }
      payload := by
  obtain ⟨hheaders, -⟩ := chunks_free hnames
  obtain ⟨hflat, hne⟩ := splitChunks_spec hchunks
  refine ⟨⟨payload, [], [], by simp, ?_⟩, ?_, rfl, rfl⟩
  · refine ⟨fun hread => ⟨chunks, hflat, hne, fun j => ?_⟩, fun hread => ?_, ?_, hlen,
      fun hno => absurd (.inr hd) hno, fun _ => rfl, fun _ => rfl⟩
    · have hset := @wire_setChunks c.uplinkDataKey chunks 0 (c.getRequestHeader agents)
        (fun m => hheaders hread (0 + m)) j
      rwa [Nat.zero_add] at hset
    · rcases hread with h | h <;> rw [hd] at h <;> cases h
    · exact congrArg (·.getD []) hbody
  · refine (writes_setChunks c.uplinkDataKey chunks 0
      { r with header := c.getRequestHeader agents }).mono ?_ (Set.empty_subset _) subset_rfl
    exact fun k hk => ⟨.inr hd, hk⟩

/-- The payload goes into cookies. -/
theorem payloadStage_cookies {r : Request} (hbody : r.body = none) (hlen : r.contentLength = 0)
    (hd : c.getNormalizedUplinkDataPlacement = .cookie) {sizes : List ℤ} {payload : Bytes}
    {chunks : List Bytes} (hchunks : splitChunks sizes (Base64.encode payload) = some chunks) :
    PayloadStage c agents r
      { r with header := addChunks c.uplinkDataKey 0 (c.getRequestHeader agents) chunks }
      payload := by
  obtain ⟨-, hcookies⟩ := chunks_free hnames
  obtain ⟨hflat, hne⟩ := splitChunks_spec hchunks
  have hkey : ∀ b ∈ c.uplinkDataKey, isTokenByte b = true := fun b hb =>
    (hnames.tokens (chunkCookie c.uplinkDataKey 0) (.inr ⟨.inr hd, 0, rfl⟩)).2 b
      (List.mem_append_left _ hb)
  have hclean : ∀ chunk ∈ chunks, CleanValue chunk := by
    have halphabet : ∀ b ∈ Base64.alphabet, isCookieByte b = true ∧ b ≠ 32 ∧ b ≠ 44 :=
      forall_mem_of_all (by decide +kernel)
    intro chunk hchunk b hb
    refine halphabet b (Base64.mem_alphabet_of_mem_encode (s := payload) ?_)
    rw [← hflat]
    exact List.mem_flatten_of_mem hchunk hb
  have hstored := cookieStored_getRequestHeader c agents
  refine ⟨⟨[], payload, [], by simp, ?_⟩, ?_, rfl, rfl⟩
  · refine ⟨fun hread => ?_, fun hread => ⟨chunks, hflat, fun j => ?_⟩, ?_, hlen,
      fun _ => rfl, fun hno => absurd (.inr hd) hno, fun _ => rfl⟩
    · rcases hread with h | h <;> rw [hd] at h <;> cases h
    · exact cookieIs_addChunks hkey hclean (i := 0) hstored (hcookies hread j)
    · exact congrArg (·.getD []) hbody
  · refine (writes_addChunks hkey hclean 0
      (r := { r with header := c.getRequestHeader agents }) hstored).mono
      (Set.empty_subset _) ?_ subset_rfl
    exact fun n hn => ⟨.inr hd, hn⟩

/-- The payload stage, for the four placements. -/
theorem fillPayload_spec (env : Env) (hagents : env.agents = agents) {dice : Dice} {r : Request}
    (hbody : r.body = none) (hlen : r.contentLength = 0)
    (hdata : c.getNormalizedUplinkDataPlacement.IsData) {payload : Bytes}
    (hsplit : c.getNormalizedUplinkDataPlacement = .header ∨
      c.getNormalizedUplinkDataPlacement = .cookie →
      ∃ chunks, splitChunks dice.chunkSizes (Base64.encode payload) = some chunks) :
    ∃ r', c.fillPayload env dice r payload = some r' ∧ PayloadStage c agents r r' payload := by
  subst hagents
  unfold Config.fillPayload
  rcases hdata with hd | hd | hd | hd
  · exact ⟨_, by rw [hd], payloadStage_body hnames (.inr hd) payload⟩
  · exact ⟨_, by rw [hd], payloadStage_body hnames (.inl hd) payload⟩
  · obtain ⟨chunks, hchunks⟩ := hsplit (.inl hd)
    exact ⟨_, by rw [hd, hchunks]; rfl, payloadStage_headers hnames hbody hlen hd hchunks⟩
  · obtain ⟨chunks, hchunks⟩ := hsplit (.inr hd)
    exact ⟨_, by rw [hd, hchunks]; rfl, payloadStage_cookies hnames hbody hlen hd hchunks⟩

end Stages

/-! ## Round trip -/

/-- The fourth of separated sets has nothing in common with the three before it. -/
theorem disjoint_fourth {session seq padding data : Set Bytes} {rest : List (Set Bytes)}
    (h : List.Pairwise Disjoint (session :: seq :: padding :: data :: rest)) :
    Disjoint data (padding ∪ (session ∪ seq)) := by
  obtain ⟨hSession, htail⟩ := List.pairwise_cons.mp h
  obtain ⟨hSeq, htail⟩ := List.pairwise_cons.mp htail
  obtain ⟨hPadding, -⟩ := List.pairwise_cons.mp htail
  simp only [Set.disjoint_union_right]
  exact ⟨(hPadding _ (by simp)).symm, (hSession _ (by simp)).symm, (hSeq _ (by simp)).symm⟩

section Roundtrip

variable {c : Config} {env : Env} (hnames : c.NamesSeparated env.agents)
  (hsession : c.getNormalizedSessionPlacement.IsMeta) (hseq : c.getNormalizedSeqPlacement.IsMeta)
  {dice : Dice} (hdice : c.Rolls dice)
include hnames hsession hseq hdice

omit hsession hseq in
/-- Padding leaves the places of the metadata free. -/
theorem writes_pad_free {r : Request} (hstored : CookieStored r.header)
    (hfree : CarriesMeta c r [] []) :
    Writes c.paddingHeaders c.paddingCookies c.paddingParams r (c.pad env dice r) ∧
      CarriesMeta c (c.pad env dice r) [] [] := by
  have hpad := writes_pad c env dice hdice hnames.cookie_notMem_paddingHeaders
    (fun n hn => hnames.tokens n (.inl (.inr hn))) hstored
  exact ⟨hpad, carries_before hnames hfree
    (hpad.mono Set.subset_union_right Set.subset_union_right subset_rfl)⟩

/-- From the initial header to the metadata. -/
theorem extract_filled {r r' got : Request} {session seq : Bytes} (hm : MetaValues session seq)
    (hpath : r.path = c.getNormalizedPath) (hstored : CookieStored r.header)
    (hfree : CarriesMeta c r [] [])
    (hw : Writes {bytes "Content-Type"} ∅ ∅
      (c.applyMetaToRequest (c.pad env dice r) session seq) r')
    (hpath' : r'.path = (c.applyMetaToRequest (c.pad env dice r) session seq).path)
    (hgot : Transmits r' got) :
    c.extractMetaFromRequest got c.getNormalizedPath = (session, seq) := by
  obtain ⟨hpad, hfree'⟩ := writes_pad_free hnames hdice hstored hfree
  obtain ⟨hmeta, -⟩ := carries_applyMeta hnames hm (hpad.stored hstored) hfree'
  obtain ⟨hSession, htail⟩ := List.pairwise_cons.mp hnames.headers
  obtain ⟨hSeq, -⟩ := List.pairwise_cons.mp htail
  have hsub : ({bytes "Content-Type"} : Set Bytes) ⊆ {bytes "Cookie", bytes "Content-Type"} :=
    Set.subset_insert _ _
  refine extractMeta_eq hm ((pad_fields c env dice r).1.trans hpath) hsession hseq hpath' ?_ ?_ hgot
  · exact hmeta.session.frame hw hnames.usable_session ((hSession _ (by simp)).mono_right hsub)
      (Set.disjoint_empty _) (Set.disjoint_empty _)
  · exact hmeta.seq.frame hw hnames.usable_seq ((hSeq _ (by simp)).mono_right hsub)
      (Set.disjoint_empty _) (Set.disjoint_empty _)

theorem stream_roundtrip (site : Bytes) (body : Option Bytes) {session : Bytes}
    {rand : Option Bytes} (hid : session = newSessionID rand ∨ session = []) {got : Request}
    (hgot : Transmits (c.fillStreamRequest env dice (c.newRequest site body) session) got) :
    c.extractMetaFromRequest got c.getNormalizedPath = (session, []) := by
  refine extract_filled hnames hsession hseq hdice (metaValues_stream hid)
    (r := { c.newRequest site body with header := c.getRequestHeader env.agents }) rfl
    (cookieStored_getRequestHeader c env.agents) (carries_base hnames rfl rfl) ?_ ?_ hgot
  · unfold Config.fillStreamRequest
    dsimp only
    split_ifs
    · exact @writes_setHeader (bytes "Content-Type") _ (bytes "application/grpc") (by decide)
    · exact .refl _
  · unfold Config.fillStreamRequest
    dsimp only
    split_ifs <;> rfl

theorem packet_roundtrip (hdata : c.getNormalizedUplinkDataPlacement.IsData)
    (hrange : ∀ r ∈ c.uplinkChunkSize, 1 ≤ r.lo ∧ r.lo ≤ r.hi) (site : Bytes)
    (rand : Option Bytes) (n : ℕ) {payload : Bytes}
    (hmax : (payload.length : ℤ) ≤ c.getNormalizedScMaxEachPostBytes.hi)
    (henough : (Base64.encode payload).length ≤ dice.chunkSizes.length) :
    ∃ r, c.fillPacketRequest env dice (c.newRequest site none) (newSessionID rand) (decimal n)
        payload = some r ∧
      ∀ got, Transmits r got →
        c.extractMetaFromRequest got c.getNormalizedPath = (newSessionID rand, decimal n) ∧
          c.uplinkPayload got = .ok payload := by
  have hsplit : c.getNormalizedUplinkDataPlacement = .header ∨
      c.getNormalizedUplinkDataPlacement = .cookie →
      ∃ chunks, splitChunks dice.chunkSizes (Base64.encode payload) = some chunks := by
    intro hplace
    refine exists_splitChunks (fun m hm => ?_) henough
    refine Config.chunkSize_pos hrange ?_ (hdice.chunkSizes m hm)
    unfold Config.getNormalizedUplinkDataPlacement Config.orDefaultPlacement at hplace
    split_ifs at hplace
    · rcases hplace with h | h <;> cases h
    · exact hplace
  obtain ⟨r, hr, hstage⟩ := @fillPayload_spec c env.agents hnames env rfl dice
    (c.newRequest site none) rfl rfl hdata payload hsplit
  have hstored : CookieStored r.header :=
    hstage.writes.stored (cookieStored_getRequestHeader c env.agents)
  have hfree := carries_before hnames (carries_base hnames (r := { c.newRequest site none with
    header := c.getRequestHeader env.agents }) rfl rfl)
    (hstage.writes.mono Set.subset_union_left Set.subset_union_left (Set.empty_subset _))
  refine ⟨c.applyMetaToRequest (c.pad env dice r) (newSessionID rand) (decimal n), ?_,
    fun got hgot => ⟨?_, ?_⟩⟩
  · rw [Config.fillPacketRequest, hr]
    rfl
  · exact extract_filled hnames hsession hseq hdice (metaValues_packet rand n) hstage.path hstored
      hfree (.refl _) rfl hgot
  · -- padding and metadata leave the chunks alone
    obtain ⟨hpad, hfree'⟩ := writes_pad_free hnames hdice hstored hfree
    obtain ⟨-, hmeta⟩ := carries_applyMeta hnames (metaValues_packet rand n)
      (hpad.stored hstored) hfree'
    obtain ⟨a, b, d, rfl, hcarries⟩ := hstage.payload
    refine uplinkPayload_eq hgot (hcarries.frame (hpad.trans hmeta) ?_ ?_ ?_ ?_) hmax
    · intro hread
      have hdata : chunkHeaders c.uplinkDataKey ⊆ c.dataHeaders := fun k hk => ⟨hread, hk⟩
      exact (disjoint_fourth hnames.headers).mono_left hdata
    · intro hread
      have hdata : chunkCookies c.uplinkDataKey ⊆ c.dataCookies := fun k hk => ⟨hread, hk⟩
      exact (disjoint_fourth hnames.cookies).mono_left hdata
    · exact (applyMeta_fields _ _ _).1.trans (pad_fields c env dice r).2.1
    · exact (applyMeta_fields _ _ _).2.trans (pad_fields c env dice r).2.2

end Roundtrip

/-- Requests round-trip: for every configuration whose names are separated, every placement of
session id, sequence number and payload, and all random outcomes, the server decodes a packet
request to the session id, the sequence number and the payload it was made of, and a stream request
to its session id and an empty sequence number. -/
theorem request_roundtrip (c : Config) (env : Env) (hnames : c.NamesSeparated env.agents)
    (hrange : ∀ r ∈ c.uplinkChunkSize, 1 ≤ r.lo ∧ r.lo ≤ r.hi)
    (hsession : c.getNormalizedSessionPlacement.IsMeta) (hseq : c.getNormalizedSeqPlacement.IsMeta)
    (hdata : c.getNormalizedUplinkDataPlacement.IsData) (dice : Dice) (hdice : c.Rolls dice)
    (site : Bytes) (rand : Option Bytes) :
    (∀ (n : ℕ) (payload : Bytes),
      (payload.length : ℤ) ≤ c.getNormalizedScMaxEachPostBytes.hi →
      -- the loop has a size for each turn
      (Base64.encode payload).length ≤ dice.chunkSizes.length →
      ∃ r, c.fillPacketRequest env dice (c.newRequest site none) (newSessionID rand) (decimal n)
          payload = some r ∧
        ∀ got, Transmits r got →
          c.extractMetaFromRequest got c.getNormalizedPath = (newSessionID rand, decimal n) ∧
            c.uplinkPayload got = .ok payload) ∧
    ∀ (body : Option Bytes) (session : Bytes), session = newSessionID rand ∨ session = [] →
      ∀ got, Transmits (c.fillStreamRequest env dice (c.newRequest site body) session) got →
        c.extractMetaFromRequest got c.getNormalizedPath = (session, []) := by
  constructor
  · intro n payload hmax henough
    exact packet_roundtrip hnames hsession hseq hdice hdata hrange site rand n hmax henough
  · intro body session hid got hgot
    exact stream_roundtrip hnames hsession hseq hdice site body hid hgot

/-! ## Examples of configurations -/

/-- A machine without user agents, on which every URL is well formed. -/
def plainEnv : Env := ⟨⟨[], [], [], []⟩, fun _ _ => true⟩

/-- The session id in a header, the sequence number in a cookie and the payload in headers. -/
def scattered : Config where
  path := bytes "/x"
  sessionPlacement := .header
  seqPlacement := .cookie
  uplinkDataPlacement := .header
  uplinkDataKey := bytes "X-Data"
  uplinkChunkSize := some ⟨1, 1⟩

theorem scattered_separated : scattered.NamesSeparated plainEnv.agents := by
  have hbase : ∀ p ∈ scattered.getRequestHeader plainEnv.agents,
      canonical p.1 ≠ bytes "X-Session" ∧ canonical p.1 ≠ bytes "Cookie" ∧
        (canonical p.1).all (fun b => b.toNat < 48 ∨ 57 < b.toNat) = true := by decide +kernel
  have hcookie : (scattered.getRequestHeader plainEnv.agents).wire (bytes "Cookie") = [] :=
    Header.wire_eq_nil_iff.mpr fun p hp => (hbase p hp).2.1
  have hdata : ∀ name : Bytes, (∀ b ∈ name, b.toNat < 48 ∨ 57 < b.toNat) →
      name ∉ scattered.dataHeaders := by
    rintro name hname ⟨-, i, hi⟩
    exact canonical_chunkHeader_ne hname _ i hi.symm
  -- the names in use, and the carriers that are not used
  have hsession : scattered.sessionHeaders = {bytes "X-Session"} := Placement.names_of_eq rfl _
  have hseq : scattered.seqHeaders = ∅ := Placement.names_of_ne (by decide) _
  have hpadding : scattered.paddingHeaders = {bytes "Referer"} :=
    Set.ext fun _ => and_iff_right (.inr rfl)
  have hsessionCookies : scattered.sessionCookies = ∅ := Placement.names_of_ne (by decide) _
  have hseqCookies : scattered.seqCookies = {bytes "x_seq"} := Placement.names_of_eq rfl _
  have hpaddingCookies : scattered.paddingCookies = ∅ := Placement.names_of_ne (by decide) _
  have hdataCookies : scattered.dataCookies = ∅ :=
    Set.eq_empty_of_forall_notMem fun n hn => absurd hn.1 (by decide)
  have hsessionParams : scattered.sessionParams = ∅ := Placement.names_of_ne (by decide) _
  have hseqParams : scattered.seqParams = ∅ := Placement.names_of_ne (by decide) _
  refine ⟨?_, ?_, ?_, ?_, fun n _ => ?_, ?_, ?_⟩
  · rw [hsession, hseq, hpadding]
    simp only [List.pairwise_cons, List.forall_mem_cons, Set.empty_disjoint,
      Set.disjoint_insert_right, Set.disjoint_singleton_left, Set.disjoint_singleton_right]
    exact ⟨⟨nofun, by decide, hdata _ (forall_mem_of_all (by decide +kernel)), by decide, nofun⟩,
      ⟨trivial, trivial, trivial, nofun⟩,
      ⟨hdata _ (forall_mem_of_all (by decide +kernel)), by decide, nofun⟩,
      ⟨⟨hdata _ (forall_mem_of_all (by decide +kernel)),
        hdata _ (forall_mem_of_all (by decide +kernel))⟩, nofun⟩, nofun, .nil⟩
  · rw [hsessionCookies, hpaddingCookies, hdataCookies]
    simp
  · rw [hsessionParams, hseqParams]
    simp
  · rw [hsession, hseq, Set.union_empty]
    rintro k (rfl | ⟨-, i, rfl⟩)
    · exact Header.wire_eq_nil_iff.mpr fun p hp => (hbase p hp).1
    · rw [Header.wire_canonical]
      exact Header.wire_eq_nil_iff.mpr fun p hp heq =>
        canonical_chunkHeader_ne (forall_mem_of_all (hbase p hp).2.2) _ i heq.symm
  · rw [Header.sentCookies, hcookie]
    rfl
  · rw [hsessionParams, hseqParams]
    simp
  · rw [hsessionCookies, hseqCookies, hpaddingCookies, hdataCookies]
    simp only [Set.empty_union, Set.union_empty, Set.mem_singleton_iff, forall_eq]
    decide +kernel

/-- Three chunk sizes, which are enough for two bytes. -/
def threeChunks : Dice where
  paddingLength := 100
  chunkSizes := [64, 64, 64]

theorem request_roundtrip_scattered :
    ∃ r, scattered.fillPacketRequest plainEnv threeChunks (scattered.newRequest [] none)
        (newSessionID none) (decimal 7) (bytes "AB") = some r ∧
      ∀ got, Transmits r got →
        scattered.extractMetaFromRequest got (bytes "/x/") = (newSessionID none, bytes "7") ∧
          scattered.uplinkPayload got = .ok (bytes "AB") := by
  have hdice : scattered.Rolls threeChunks := by
    refine ⟨by decide, fun s hs => ?_, by decide⟩
    cases hs
  have hround := request_roundtrip scattered plainEnv scattered_separated (by decide)
    (.inr (.inr (.inl rfl))) (.inr (.inr (.inr rfl))) (.inr (.inr (.inl rfl))) threeChunks hdice []
    none
  exact hround.1 7 (bytes "AB") (by decide) (by decide)

/-! ## Distinct keys are not enough -/

/-- The request as a server gets it. -/
def Request.receive (r : Request) : Request :=
  { r with header := r.header.map fun p => (canonical p.1, p.2) }

theorem transmits_receive (r : Request) : Transmits r r.receive :=
  ⟨rfl, rfl, .refl _, rfl, .inl rfl⟩

/-- The session id is placed in the header of the first chunk. -/
def colliding : Config where
  sessionPlacement := .header
  sessionKey := bytes "X-Data-0"
  uplinkDataPlacement := .header
  uplinkDataKey := bytes "X-Data"

/-- A request with one byte of payload. -/
def collidingRequest : Option Request :=
  colliding.fillPacketRequest plainEnv ⟨100, none, [3000]⟩ (colliding.newRequest [] none)
    (newSessionID none) (decimal 0) (bytes "A")

/-- All keys differ, but the session id overwrites a chunk, and the server decodes the session id
as the payload. -/
theorem colliding_loses_payload :
    [colliding.getNormalizedSessionKey, colliding.getNormalizedSeqKey, colliding.paddingKey,
        colliding.uplinkDataKey].Nodup ∧
      ∃ r got, collidingRequest = some r ∧ Transmits r got ∧
        colliding.uplinkPayload got ≠ .ok (bytes "A") := by
  have hsome : collidingRequest = some (collidingRequest.getD (colliding.newRequest [] none)) := by
    decide +kernel
  refine ⟨by decide +kernel, _, _, hsome, transmits_receive _, ?_⟩
  decide +kernel

end XHTTP

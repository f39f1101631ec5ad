import Gost.XHTTP.Config.Carriers

/-!
# Payload in chunks

The chunks of a payload are numbered headers or cookies, and the server collects them up to the
first missing number. The names of the chunks are distinct, so the collection loop ends after as
many turns as there are fields (`collect_ends`), and what was split is put together again
(`uplinkPayload_eq`).
-/

namespace XHTTP

open Bytes Http List Option

/-! ## Splitting and collecting -/

variable {sizes : List ℤ} {data key inHeaders inCookies inBody : Bytes} {chunks : List Bytes}
  {read : ℕ → Option Bytes} {fuel i n j : ℕ} {h : Header} {r : Request} {c : Config}

theorem splitChunks_spec (h : splitChunks sizes data = some chunks) :
    chunks.flatten = data ∧ ∀ c ∈ chunks, c ≠ [] := by
  induction sizes generalizing data chunks with
  | nil =>
    cases data with
    | nil =>
      cases h
      exact ⟨rfl, fun c hc => by cases hc⟩
    | cons b data => cases h
  | cons n sizes ih =>
    cases data with
    | nil =>
      cases h
      exact ⟨rfl, fun c hc => by cases hc⟩
    | cons b data =>
      rw [splitChunks] at h
      split_ifs at h with hn
      obtain ⟨rest, hrest, rfl⟩ := map_eq_some_iff.mp h
      obtain ⟨hflat, hne⟩ := ih hrest
      refine ⟨?_, fun c hc => ?_⟩
      · rw [flatten_cons, hflat, take_append_drop]
      · rcases mem_cons.mp hc with rfl | hc
        · have : n.toNat ≠ 0 := by omega
          simp [take_eq_nil_iff, this]
        · exact hne c hc

/-- As many positive sizes as there are bytes are enough. -/
theorem exists_splitChunks (hpos : ∀ n ∈ sizes, 1 ≤ n) (hlen : data.length ≤ sizes.length) :
    ∃ chunks, splitChunks sizes data = some chunks := by
  induction sizes generalizing data with
  | nil =>
    rw [eq_nil_of_length_eq_zero (Nat.le_zero.mp hlen)]
    exact ⟨[], rfl⟩
  | cons n sizes ih =>
    cases data with
    | nil => exact ⟨[], rfl⟩
    | cons b data =>
      have hn := hpos n mem_cons_self
      have hrest : ((b :: data).drop n.toNat).length ≤ sizes.length := by
        rw [length_drop]
        simp only [length_cons] at hlen ⊢
        omega
      obtain ⟨chunks, hchunks⟩ := ih (fun m hm => hpos m (mem_cons_of_mem _ hm)) hrest
      refine ⟨(b :: data).take n.toNat :: chunks, ?_⟩
      rw [splitChunks, if_neg (by omega), hchunks, map_some]

theorem collect_eq (hread : ∀ j ≤ chunks.length, read (i + j) = chunks[j]?)
    (hfuel : chunks.length ≤ fuel) : collect read fuel i = chunks := by
  induction chunks generalizing fuel i with
  | nil =>
    have h0 := hread 0 le_rfl
    cases fuel with
    | zero => rfl
    | succ fuel =>
      rw [collect, show read i = none from h0]
  | cons c chunks ih =>
    cases fuel with
    | zero => cases hfuel
    | succ fuel =>
      have h0 := hread 0 (Nat.zero_le _)
      rw [collect, show read i = some c from h0]
      refine congrArg _ (ih (fun j hj => ?_) (Nat.le_of_succ_le_succ hfuel))
      have := hread (j + 1) (Nat.succ_le_succ hj)
      rwa [getElem?_cons_succ, ← Nat.add_assoc, Nat.add_right_comm] at this

/-- With as much fuel as there can be values, the loop ends at a missing one. -/
theorem collect_ends (hfuel : ∀ n, (∀ i < n, read i ≠ none) → n ≤ fuel) :
    read (collect read fuel 0).length = none := by
  have hstop : ∀ (fuel i : ℕ), (∀ j < i, read j ≠ none) →
      (∀ j < i + (collect read fuel i).length, read j ≠ none) ∧
        (read (i + (collect read fuel i).length) = none ∨ (collect read fuel i).length = fuel) := by
    intro fuel
    induction fuel with
    | zero => exact fun i hi => ⟨hi, .inr rfl⟩
    | succ fuel ih =>
      intro i hi
      unfold collect
      split
      next hnone => exact ⟨hi, .inl hnone⟩
      next c hsome =>
        have hnext : ∀ j < i + 1, read j ≠ none := by
          intro j hj
          rcases Nat.lt_succ_iff_lt_or_eq.mp hj with hj | rfl
          · exact hi j hj
          · rw [hsome]
            exact some_ne_none c
        obtain ⟨hall, hend⟩ := ih (i + 1) hnext
        rw [length_cons, ← Nat.add_assoc, Nat.add_right_comm]
        exact ⟨hall, hend.imp_right fun hlen => by rw [hlen]⟩
  obtain ⟨hall, hend⟩ := hstop fuel 0 (fun j hj => absurd hj (Nat.not_lt_zero j))
  rw [Nat.zero_add] at hall hend
  rcases hend with hend | hlen
  · exact hend
  · by_contra hne
    have := hfuel (fuel + 1) fun i hi => by
      rcases Nat.lt_succ_iff_lt_or_eq.mp hi with hi | rfl
      · exact hall i (by rwa [hlen])
      · exact fun hnone => hne (by rwa [hlen])
    omega

/-! ## Names of chunks -/

theorem map_toLower_decimal (n : ℕ) : (decimal n).map toLower = decimal n := by
  refine (map_congr_left fun b hb => ?_).trans (map_id _)
  have hdigit := digit_of_mem_decimal hb
  exact forall_byte (P := fun b => 48 ≤ b.toNat ∧ b.toNat ≤ 57 → toLower b = b)
    (by decide +kernel) b hdigit

theorem canonical_chunkHeader_injective (key : Bytes) :
    Function.Injective fun i => canonical (chunkHeader key i) := by
  intro i j heq
  have hlower := congrArg (List.map toLower) heq
  simp only [map_toLower_canonical, chunkHeader, map_append, map_cons,
    map_toLower_decimal] at hlower
  exact decimal_injective (List.cons.inj (append_cancel_left hlower)).2

/-- The name of a chunk header ends with a digit. -/
theorem canonical_chunkHeader_ne {name : Bytes} (hname : ∀ b ∈ name, b.toNat < 48 ∨ 57 < b.toNat)
    (key : Bytes) (i : ℕ) : canonical (chunkHeader key i) ≠ name := by
  have hcase : ∀ b : UInt8, 48 ≤ (toLower b).toNat ∧ (toLower b).toNat ≤ 57 →
      48 ≤ b.toNat ∧ b.toNat ≤ 57 := forall_byte (by decide +kernel)
  rintro rfl
  obtain ⟨d, hd⟩ := exists_mem_of_ne_nil _ (decimal_ne_nil i)
  have hmem : d ∈ (canonical (chunkHeader key i)).map toLower := by
    rw [map_toLower_canonical, chunkHeader, map_append, map_cons, map_toLower_decimal]
    exact mem_append_right _ (mem_cons_of_mem _ hd)
  obtain ⟨b, hb, rfl⟩ := mem_map.mp hmem
  have := hcase b (digit_of_mem_decimal hd)
  have := hname b hb
  omega

theorem canonical_chunkHeader_ne_cookie (key : Bytes) (i : ℕ) :
    canonical (chunkHeader key i) ≠ bytes "Cookie" :=
  canonical_chunkHeader_ne (by decide +kernel) key i

theorem chunkCookie_injective (key : Bytes) : Function.Injective (chunkCookie key) := by
  intro i j heq
  exact decimal_injective (List.cons.inj (append_cancel_left heq)).2

theorem isToken_chunkCookie (hkey : ∀ c ∈ key, isTokenByte c = true) (i : ℕ) :
    IsToken (chunkCookie key i) := by
  refine ⟨by simp [chunkCookie], fun c hc => ?_⟩
  rcases mem_append.mp hc with hc | hc
  · exact hkey c hc
  · rcases mem_cons.mp hc with rfl | hc
    · decide
    · exact forall_byte (P := fun b => 48 ≤ b.toNat ∧ b.toNat ≤ 57 → isTokenByte b = true)
        (by decide +kernel) c (digit_of_mem_decimal hc)

/-! ## The collection loops end -/

/-- No more numbered names are found than there are entries. -/
theorem le_length_of_names {α : Type*} {l : List α} {f : α → Bytes} {name : ℕ → Bytes}
    (hinj : Function.Injective name) (hn : ∀ i < n, ∃ p ∈ l, f p = name i) : n ≤ l.length := by
  have hsub : (List.range n).map name ⊆ l.map f := by
    intro k hk
    obtain ⟨i, hi, rfl⟩ := mem_map.mp hk
    obtain ⟨p, hp, heq⟩ := hn i (mem_range.mp hi)
    exact mem_map.mpr ⟨p, hp, heq⟩
  have hnodup : ((List.range n).map name).Nodup := nodup_range.map hinj
  have hlen := (subperm_of_subset hnodup hsub).length_le
  rwa [length_map, length_range, length_map] at hlen

theorem readChunkHeader_fuel (h : Header) (key : Bytes)
    (hn : ∀ i < n, readChunkHeader h key i ≠ none) : n ≤ h.length := by
  refine le_length_of_names (f := Prod.fst) (canonical_chunkHeader_injective key) fun i hi => ?_
  have hget : h.get (chunkHeader key i) ≠ [] := by
    intro hnil
    exact hn i hi (if_pos hnil)
  obtain ⟨v, hv⟩ : ∃ v, v ∈ h.values (chunkHeader key i) := by
    apply exists_mem_of_ne_nil
    intro hnil
    exact hget (by rw [Header.get, hnil]; rfl)
  obtain ⟨p, hp, -⟩ := mem_map.mp hv
  rw [mem_filter, decide_eq_true_eq] at hp
  exact ⟨p, hp.1, hp.2⟩

theorem cookie_fuel (h : Header) (key : Bytes) (hn : ∀ i < n, h.cookie (chunkCookie key i) ≠ none) :
    n ≤ h.cookies.length := by
  refine le_length_of_names (f := Prod.fst) (chunkCookie_injective key) fun i hi => ?_
  obtain ⟨v, hv⟩ := ne_none_iff_exists'.mp (hn i hi)
  rw [Header.cookie] at hv
  split_ifs at hv
  obtain ⟨p, hp, -⟩ := mem_map.mp (mem_of_mem_head? hv)
  rw [mem_filter, decide_eq_true_eq] at hp
  exact ⟨p, hp.1, hp.2⟩

/-- The header loop of `ServeHTTP` has ended when the fuel is used up. -/
theorem headerChunks_end (h : Header) (key : Bytes) :
    readChunkHeader h key (collect (readChunkHeader h key) h.length 0).length = none :=
  collect_ends fun _ => readChunkHeader_fuel h key

/-- And so has the cookie loop. -/
theorem cookieChunks_end (h : Header) (key : Bytes) :
    h.cookie (chunkCookie key
      (collect (fun i => h.cookie (chunkCookie key i)) h.cookies.length 0).length) = none :=
  @collect_ends (fun i => h.cookie (chunkCookie key i)) _ fun _ => cookie_fuel h key

/-! ## Chunks in a request -/

/-- The header names of chunks. -/
def chunkHeaders (key : Bytes) : Set Bytes := {k | ∃ i, k = canonical (chunkHeader key i)}

/-- The cookie names of chunks. -/
def chunkCookies (key : Bytes) : Set Bytes := {n | ∃ i, n = chunkCookie key i}

theorem writes_setChunks (key : Bytes) (chunks : List Bytes) (i : ℕ) (r : Request) :
    Writes (chunkHeaders key) ∅ ∅ r { r with header := setChunks key i r.header chunks } := by
  induction chunks generalizing i r with
  | nil => exact .refl r
  | cons chunk chunks ih =>
    have hfirst := writes_setHeader r chunk (canonical_chunkHeader_ne_cookie key i)
    have hrest := ih (i + 1) (r.setHeader (chunkHeader key i) chunk)
    refine (hfirst.trans hrest).mono ?_ (by simp) (by simp)
    rintro k (rfl | hk)
    · exact ⟨i, rfl⟩
    · exact hk

theorem wire_setChunks_lt (hij : j < i) (h : Header) :
    (setChunks key i h chunks).wire (chunkHeader key j) = h.wire (chunkHeader key j) := by
  induction chunks generalizing i h with
  | nil => rfl
  | cons chunk chunks ih =>
    rw [setChunks, ih (Nat.lt_succ_of_lt hij), Header.wire_set_ne]
    intro heq
    have := canonical_chunkHeader_injective key heq
    omega

/-- The chunks that are set are found under their numbers, and no others. -/
theorem wire_setChunks (hfree : ∀ j, h.wire (chunkHeader key (i + j)) = []) (j : ℕ) :
    (setChunks key i h chunks).wire (chunkHeader key (i + j)) = (chunks[j]?).toList := by
  induction chunks generalizing i j h with
  | nil => exact hfree j
  | cons chunk chunks ih =>
    cases j with
    | zero =>
      show (setChunks key (i + 1) _ chunks).wire (chunkHeader key i) = [chunk]
      rw [wire_setChunks_lt (Nat.lt_succ_self i)]
      exact Header.wire_set_of_wire_eq_nil (hfree 0)
    | succ j =>
      have hfree' : ∀ m,
          (h.set (chunkHeader key i) chunk).wire (chunkHeader key (i + 1 + m)) = [] := by
        intro m
        rw [Header.wire_set_ne, Nat.add_assoc]
        · exact hfree (1 + m)
        · intro heq
          have := canonical_chunkHeader_injective key heq
          omega
      have := ih hfree' j
      rwa [Nat.add_assoc, Nat.add_comm 1 j] at this

section Cookies

variable {key : Bytes} (hkey : ∀ c ∈ key, isTokenByte c = true)
include hkey

theorem writes_addChunks (hclean : ∀ c ∈ chunks, CleanValue c) (i : ℕ)
    (hstored : CookieStored r.header) :
    Writes ∅ (chunkCookies key) ∅ r { r with header := addChunks key i r.header chunks } := by
  induction chunks generalizing i r with
  | nil => exact .refl r
  | cons chunk chunks ih =>
    have hfirst := writes_addCookie (isToken_chunkCookie hkey i) (hclean chunk mem_cons_self)
      hstored
    have hrest := ih (fun c hc => hclean c (mem_cons_of_mem _ hc)) (i + 1)
      (r := r.addCookie (chunkCookie key i) chunk) (hfirst.stored hstored)
    refine (hfirst.trans hrest).mono (by simp) ?_ (by simp)
    rintro n (rfl | hn)
    · exact ⟨i, rfl⟩
    · exact hn

theorem cookieIs_addChunks (hclean : ∀ c ∈ chunks, CleanValue c) (hstored : CookieStored h)
    {vs : List Bytes} (hc : CookieIs h (chunkCookie key j) vs) :
    CookieIs (addChunks key i h chunks) (chunkCookie key j)
      (vs ++ if i ≤ j then (chunks[j - i]?).toList else []) := by
  induction chunks generalizing i h vs with
  | nil => simpa [addChunks] using hc
  | cons chunk chunks ih =>
    have hadd := hc.add (isToken_chunkCookie hkey i) (hclean chunk mem_cons_self) hstored
    have hrest := ih (fun c hc => hclean c (mem_cons_of_mem _ hc)) (i := i + 1)
      (hstored.addCookie _ _) hadd
    rcases Nat.lt_trichotomy i j with hij | rfl | hij
    · have hne : chunkCookie key i ≠ chunkCookie key j := fun heq => by
        have := chunkCookie_injective key heq
        omega
      obtain ⟨m, rfl⟩ := Nat.exists_eq_add_of_lt hij
      rw [if_neg hne, append_nil, if_pos (by omega)] at hrest
      rw [if_pos (by omega), show i + m + 1 - i = m + 1 by omega, getElem?_cons_succ]
      rwa [show i + m + 1 - (i + 1) = m by omega] at hrest
    · rw [if_pos rfl, if_neg (by omega), append_nil] at hrest
      rwa [if_pos le_rfl, Nat.sub_self]
    · have hne : chunkCookie key i ≠ chunkCookie key j := fun heq => by
        have := chunkCookie_injective key heq
        omega
      rw [if_neg hne, append_nil, if_neg (by omega)] at hrest
      rwa [if_neg (by omega)]

end Cookies

/-! ## Reassembly -/

/-- The request carries payload in the places where the server looks for it. -/
structure CarriesPayload (c : Config) (r : Request) (inHeaders inCookies inBody : Bytes) :
    Prop where
  headers : c.ReadsHeaders → ∃ chunks : List Bytes, chunks.flatten = Base64.encode inHeaders ∧
    (∀ chunk ∈ chunks, chunk ≠ []) ∧
    ∀ j, r.header.wire (chunkHeader c.uplinkDataKey j) = (chunks[j]?).toList
  cookies : c.ReadsCookies → ∃ chunks : List Bytes, chunks.flatten = Base64.encode inCookies ∧
    ∀ j, CookieIs r.header (chunkCookie c.uplinkDataKey j) (chunks[j]?).toList
  body : r.body.getD [] = inBody
  contentLength : r.contentLength = inBody.length
  -- nothing is put where the server does not look
  noHeaders : ¬c.ReadsHeaders → inHeaders = []
  noCookies : ¬c.ReadsCookies → inCookies = []
  noBody : ¬c.ReadsBody → inBody = []

theorem CarriesPayload.frame {r' : Request} (h : CarriesPayload c r inHeaders inCookies inBody)
    {hs cs qs : Set Bytes} (hw : Writes hs cs qs r r')
    (hhs : c.ReadsHeaders → Disjoint (chunkHeaders c.uplinkDataKey) hs)
    (hcs : c.ReadsCookies → Disjoint (chunkCookies c.uplinkDataKey) cs) (hbody : r'.body = r.body)
    (hlen : r'.contentLength = r.contentLength) :
    CarriesPayload c r' inHeaders inCookies inBody where
  headers hread := by
    obtain ⟨chunks, hflat, hne, hwire⟩ := h.headers hread
    refine ⟨chunks, hflat, hne, fun j => ?_⟩
    rw [hw.header _ _ (canonical_chunkHeader_ne_cookie _ j)]
    · exact hwire j
    · exact fun hmem => Set.disjoint_left.mp (hhs hread) ⟨j, rfl⟩ hmem
  cookies hread := by
    obtain ⟨chunks, hflat, hcookie⟩ := h.cookies hread
    refine ⟨chunks, hflat, fun j => hw.cookie _ _ ?_ (hcookie j)⟩
    exact fun hmem => Set.disjoint_left.mp (hcs hread) ⟨j, rfl⟩ hmem
  body := hbody ▸ h.body
  contentLength := hlen ▸ h.contentLength
  noHeaders := h.noHeaders
  noCookies := h.noCookies
  noBody := h.noBody

section Reassembly

variable {r got : Request} (hgot : Transmits r got) {key payload : Bytes} {chunks : List Bytes}
include hgot

theorem headerPayload_eq (hflat : chunks.flatten = Base64.encode payload)
    (hne : ∀ chunk ∈ chunks, chunk ≠ [])
    (hwire : ∀ j, r.header.wire (chunkHeader key j) = (chunks[j]?).toList) :
    headerPayload got.header key = .ok payload := by
  have hread : ∀ j, readChunkHeader got.header key j = chunks[j]? := by
    intro j
    have hj := hwire j
    unfold readChunkHeader
    cases hchunk : chunks[j]? with
    | none =>
      rw [hchunk] at hj
      rw [hgot.header.get_eq_nil hj, if_pos rfl]
    | some chunk =>
      rw [hchunk] at hj
      rw [hgot.header.get_eq hj, if_neg (hne chunk (mem_of_getElem? hchunk))]
  have hfuel : chunks.length ≤ got.header.length := by
    refine readChunkHeader_fuel got.header key fun i hi => ?_
    rw [hread, getElem?_eq_getElem hi]
    exact some_ne_none _
  rw [headerPayload, collect_eq (i := 0) (fun j _ => by rw [Nat.zero_add, hread]) hfuel, hflat,
    Base64.decode_encode]

theorem cookiePayload_eq (hflat : chunks.flatten = Base64.encode payload)
    (hcookie : ∀ j, CookieIs r.header (chunkCookie key j) (chunks[j]?).toList) :
    cookiePayload got.header key = .ok payload := by
  have hread : ∀ j, got.header.cookie (chunkCookie key j) = chunks[j]? := by
    intro j
    have hj := (hcookie j).1
    cases hchunk : chunks[j]? with
    | none =>
      rw [hchunk] at hj
      exact hgot.header.cookie_eq_none hj
    | some chunk =>
      rw [hchunk] at hj
      exact hgot.header.cookie_eq (by simp [chunkCookie]) hj
  have hfuel : chunks.length ≤ got.header.cookies.length := by
    refine cookie_fuel got.header key fun i hi => ?_
    rw [hread, getElem?_eq_getElem hi]
    exact some_ne_none _
  rw [cookiePayload, collect_eq (i := 0) (fun j _ => by rw [Nat.zero_add, hread]) hfuel, hflat,
    Base64.decode_encode]

theorem bodyPayload_eq {scMaxEachPostBytes : ℤ} (hbody : r.body.getD [] = payload)
    (hlen : r.contentLength = payload.length) (hmax : (payload.length : ℤ) ≤ scMaxEachPostBytes) :
    bodyPayload got scMaxEachPostBytes = .ok payload := by
  have hgotBody : got.body.getD [] = payload := hgot.body.trans hbody
  have hgotLen := hgot.contentLength
  rw [hlen] at hgotLen
  unfold bodyPayload
  rw [hgotBody, if_neg (by omega)]
  by_cases hnil : payload = []
  · subst hnil
    rw [if_neg (by simp only [length_nil] at hgotLen; omega), take_nil]
  · have hpos : 0 < payload.length := length_pos_iff.mpr hnil
    have hsame : got.contentLength = payload.length := by omega
    rw [hsame, if_pos (by omega), Int.toNat_natCast, if_neg (lt_irrefl _), take_length]

/-- The server puts together what the request carries. -/
theorem uplinkPayload_eq (h : CarriesPayload c r inHeaders inCookies inBody)
    (hmax : ((inHeaders ++ inCookies ++ inBody).length : ℤ) ≤
      c.getNormalizedScMaxEachPostBytes.hi) :
    c.uplinkPayload got = .ok (inHeaders ++ inCookies ++ inBody) := by
  have hheaders : readIf c.ReadsHeaders (headerPayload got.header c.uplinkDataKey) =
      .ok inHeaders := by
    unfold readIf
    split_ifs with hread
    · obtain ⟨chunks, hflat, hne, hwire⟩ := h.headers hread
      exact headerPayload_eq hgot hflat hne hwire
    · rw [h.noHeaders hread]
  have hcookies : readIf c.ReadsCookies (cookiePayload got.header c.uplinkDataKey) =
      .ok inCookies := by
    unfold readIf
    split_ifs with hread
    · obtain ⟨chunks, hflat, hcookie⟩ := h.cookies hread
      exact cookiePayload_eq hgot hflat hcookie
    · rw [h.noCookies hread]
  have hbody : readIf c.ReadsBody (bodyPayload got c.getNormalizedScMaxEachPostBytes.hi) =
      .ok inBody := by
    unfold readIf
    split_ifs with hread
    · refine bodyPayload_eq hgot h.body h.contentLength (le_trans ?_ hmax)
      simp only [length_append]
      omega
    · rw [h.noBody hread]
  rw [Config.uplinkPayload, hheaders, hcookies, hbody]
  exact if_neg (not_lt.mpr hmax)

end Reassembly

end XHTTP

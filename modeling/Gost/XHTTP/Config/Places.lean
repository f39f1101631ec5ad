import Gost.XHTTP.Config.Stages

/-!
# What is placed behind the padding

Session id, sequence number and content type are placed in a request that has its padding already.
The lemmas compare a run of placements on the request without padding with the same run on the
request with padding: if the former leaves a header, a parameter or a cookie unused, then the latter
leaves the padding there alone. No assumption is made on the keys; a key that is not a token may
write several cookies at once.
-/

namespace XHTTP

open Bytes Http List

/-! ## Headers and parameters -/

/-- A value that is placed in a request, and where. -/
structure Place where
  placement : Placement
  key : Bytes
  value : Bytes

/-- The values are placed one after the other. -/
def Request.placeAll (r : Request) (ps : List Place) : Request :=
  ps.foldl (fun r p => r.placeMeta p.placement p.key p.value) r

/-- No value is placed in the header field. -/
def Untouched (name : Bytes) (ps : List Place) : Prop :=
  ∀ p ∈ ps, p.placement = .header → p.value ≠ [] → canonical p.key ≠ canonical name

section Behind

variable {r r' : Request} {p : Placement} {key value name : Bytes} {ps : List Place}

/-- Header fields that are not used stay as they are. -/
theorem wire_placeMeta (hname : canonical name ≠ bytes "Cookie")
    (hp : p = .header → value ≠ [] → canonical key ≠ canonical name) :
    (r.placeMeta p key value).header.wire name = r.header.wire name := by
  unfold Request.placeMeta
  split_ifs with hvalue
  · rfl
  · cases p with
    | header => exact Header.wire_set_ne (hp rfl hvalue)
    | cookie => exact Header.wire_addCookie hname
    | _ => rfl

theorem wire_placeAll (hname : canonical name ≠ bytes "Cookie") (hps : Untouched name ps) :
    (r.placeAll ps).header.wire name = r.header.wire name := by
  induction ps generalizing r with
  | nil => rfl
  | cons p ps ih =>
    obtain ⟨hp, hps⟩ := forall_mem_cons.mp hps
    exact (ih hps).trans (wire_placeMeta hname hp)

/-- If nothing is found under a name in the end, then nothing was placed there. -/
theorem untouched_of_wire (hname : canonical name ≠ bytes "Cookie")
    (h : (r.placeAll ps).header.wire name = []) : Untouched name ps ∧ r.header.wire name = [] := by
  induction ps generalizing r with
  | nil => exact ⟨forall_mem_nil _, h⟩
  | cons p ps ih =>
    obtain ⟨hps, hr⟩ := ih h
    change (r.placeMeta p.placement p.key p.value).header.wire name = [] at hr
    have hp : p.placement = .header → p.value ≠ [] → canonical p.key ≠ canonical name := by
      intro hplace hvalue hkey
      rw [hplace] at hr
      unfold Request.placeMeta at hr
      rw [if_neg hvalue] at hr
      refine Header.wire_eq_nil_iff.mp hr (canonical p.key, p.value) ?_ ?_
      · exact mem_append_right _ mem_cons_self
      · rw [canonical_canonical, hkey]
    rw [wire_placeMeta hname hp] at hr
    exact ⟨forall_mem_cons.mpr ⟨hp, hps⟩, hr⟩

/-- The values of a query parameter. -/
def Request.params (r : Request) (key : Bytes) : List Bytes :=
  Query.values (Query.parse r.rawQuery) key

theorem params_setParam : (r.setParam key value).params name =
    if key = name then [value] else r.params name :=
  Query.values_setParam r.rawQuery key value name

/-- A parameter that is not there in the end is not set, whatever was there before. -/
theorem params_placeMeta (h : (r.placeMeta p key value).params name = []) :
    r.params name = [] ∧
      ∀ r' : Request, (r'.placeMeta p key value).params name = r'.params name := by
  unfold Request.placeMeta at h ⊢
  split_ifs at h ⊢ with hvalue
  · exact ⟨h, fun _ => rfl⟩
  · cases p with
    | query =>
      have hne : key ≠ name := by
        intro heq
        rw [params_setParam, if_pos heq] at h
        cases h
      simp only [params_setParam, if_neg hne] at h ⊢
      exact ⟨h, fun _ => trivial⟩
    | _ => exact ⟨h, fun _ => rfl⟩

theorem params_placeAll (h : (r.placeAll ps).params name = []) :
    r.params name = [] ∧ ∀ r' : Request, (r'.placeAll ps).params name = r'.params name := by
  induction ps generalizing r with
  | nil => exact ⟨h, fun _ => rfl⟩
  | cons p ps ih =>
    obtain ⟨hr, hrest⟩ := ih h
    obtain ⟨hr, hfirst⟩ := params_placeMeta hr
    exact ⟨hr, fun r' => (hrest _).trans (hfirst r')⟩

end Behind

/-! ## Cookies -/

/-- The two requests have the same cookies. -/
structure SameCookies (r r' : Request) : Prop where
  wire : r'.header.wire (bytes "Cookie") = r.header.wire (bytes "Cookie")
  line : r'.header.get (bytes "Cookie") = r.header.get (bytes "Cookie")

/-- `r'` has the cookies of `r` in one line, with values `vs` of the cookie `name` in between. -/
structure InsertedCookies (name : Bytes) (vs : List Bytes) (r r' : Request) : Prop where
  sent : r'.header.sentCookies name = r'.header.lineCookies name
  inserted : ∃ a b, r.header.lineCookies name = a ++ b ∧
    r'.header.lineCookies name = a ++ vs ++ b

section Cookies

variable {r r' : Request} {p : Placement} {key value name : Bytes} {vs : List Bytes}
  {ps : List Place}

theorem cookieStored_placeMeta (h : CookieStored r.header) :
    CookieStored (r.placeMeta p key value).header := by
  unfold Request.placeMeta
  split_ifs
  · exact h
  · cases p with
    | header => exact h.set key value
    | cookie => exact h.addCookie key value
    | _ => exact h

theorem wire_set_cookie {h : Header} (hs : CookieStored h) (hkey : canonical key = bytes "Cookie") :
    (h.set key value).wire (bytes "Cookie") = [value] := by
  rw [Header.wire_congr (canonical_cookie.trans hkey.symm)]
  refine Header.wire_set_self ?_
  rw [hkey]
  exact hs

theorem get_set_cookie {h : Header} (hkey : canonical key = bytes "Cookie") :
    (h.set key value).get (bytes "Cookie") = value := by
  have hget : (h.set key value).get key = value := Header.get_set_self
  rw [Header.get, Header.values, hkey] at hget
  rw [Header.get, Header.values, canonical_cookie]
  exact hget

theorem SameCookies.set (h : SameCookies r r') (hs : CookieStored r.header)
    (hs' : CookieStored r'.header) :
    SameCookies (r.setHeader key value) (r'.setHeader key value) := by
  by_cases hkey : canonical key = bytes "Cookie"
  · constructor
    · exact (wire_set_cookie hs' hkey).trans (wire_set_cookie hs hkey).symm
    · exact (get_set_cookie hkey).trans (get_set_cookie hkey).symm
  · have hne : canonical key ≠ canonical (bytes "Cookie") := by rwa [canonical_cookie]
    constructor
    · exact (Header.wire_set_ne hne).trans (h.wire.trans (Header.wire_set_ne hne).symm)
    · exact (Header.get_set_ne hne).trans (h.line.trans (Header.get_set_ne hne).symm)

theorem SameCookies.placeMeta (h : SameCookies r r') (hs : CookieStored r.header)
    (hs' : CookieStored r'.header) :
    SameCookies (r.placeMeta p key value) (r'.placeMeta p key value) := by
  unfold Request.placeMeta
  split_ifs
  · exact h
  · cases p with
    | header => exact h.set hs hs'
    | cookie =>
      unfold Request.addCookie Header.addCookie
      rw [h.line]
      exact h.set hs hs'
    | _ => exact ⟨h.wire, h.line⟩

theorem SameCookies.placeAll (h : SameCookies r r') (hs : CookieStored r.header)
    (hs' : CookieStored r'.header) : SameCookies (r.placeAll ps) (r'.placeAll ps) := by
  induction ps generalizing r r' with
  | nil => exact h
  | cons p ps ih =>
    exact ih (h.placeMeta hs hs') (cookieStored_placeMeta hs) (cookieStored_placeMeta hs')

/-- A value in a cookie is added behind those that are there. -/
theorem InsertedCookies.placeMeta (h : InsertedCookies name vs r r') (hs' : CookieStored r'.header)
    (hp : p = .header → value ≠ [] → canonical key ≠ bytes "Cookie") :
    InsertedCookies name vs (r.placeMeta p key value) (r'.placeMeta p key value) := by
  unfold Request.placeMeta
  split_ifs with hvalue
  · exact h
  · obtain ⟨hsent, a, b, ha, hb⟩ := h
    cases p with
    | header =>
      have hne := hp rfl hvalue
      refine ⟨?_, a, b, (Header.lineCookies_set hne).trans ha,
        (Header.lineCookies_set hne).trans hb⟩
      exact (Header.sentCookies_set hne).trans (hsent.trans (Header.lineCookies_set hne).symm)
    | cookie =>
      refine ⟨Header.sentCookies_addCookie hs', a, b ++ Header.addedCookies key value name, ?_, ?_⟩
      · exact Header.lineCookies_addCookie.trans (by rw [ha, append_assoc])
      · exact Header.lineCookies_addCookie.trans (by rw [hb, append_assoc])
    | _ => exact ⟨hsent, a, b, ha, hb⟩

theorem InsertedCookies.placeAll (h : InsertedCookies name vs r r') (hs' : CookieStored r'.header)
    (hps : Untouched (bytes "Cookie") ps) :
    InsertedCookies name vs (r.placeAll ps) (r'.placeAll ps) := by
  induction ps generalizing r r' with
  | nil => exact h
  | cons p ps ih =>
    obtain ⟨hp, hps⟩ := forall_mem_cons.mp hps
    exact ih (h.placeMeta hs' hp) (cookieStored_placeMeta hs') hps

/-- If nothing is found without the insertion, then the inserted values are found. -/
theorem InsertedCookies.sent_eq (h : InsertedCookies name vs r r')
    (hr : r.header.sentCookies name = []) : r'.header.sentCookies name = vs := by
  obtain ⟨hsent, a, b, ha, hb⟩ := h
  rw [(cookieIs_nil hr).2] at ha
  obtain ⟨rfl, rfl⟩ := append_eq_nil_iff.mp ha.symm
  rw [hsent, hb, nil_append, append_nil]

end Cookies

end XHTTP

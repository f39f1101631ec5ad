import Mathlib.Order.CompletePartialOrder
import Gost.XHTTP.Config.Fill

/-!
# What a request carries under a name

Header fields, cookies and query parameters are the carriers of a request. `Writes hs cs qs r r'`
says that from `r` to `r'` only the header fields `hs`, the cookies `cs` and the parameters `qs`
change; every stage of preparing a request has such a frame. `Carries` says what is found under the
key of a placement, and `readMeta_eq` that the server then reads it.
-/

namespace XHTTP

open Bytes Http

/-! ## Frames -/

/-- `vs` are the values sent for the cookie, and the next cookie is added behind them. -/
def CookieIs (h : Header) (name : Bytes) (vs : List Bytes) : Prop :=
  h.sentCookies name = vs ∧ h.lineCookies name = vs

/-- The `Cookie` field is stored under its canonical name. -/
def CookieStored (h : Header) : Prop :=
  ∀ p ∈ h, canonical p.1 = bytes "Cookie" → p.1 = bytes "Cookie"

theorem canonical_cookie : canonical (bytes "Cookie") = bytes "Cookie" := by decide

variable {h : Header} {name value key : Bytes} {r : Request} {p carrier : Placement}

theorem CookieStored.set (hs : CookieStored h) (name value : Bytes) :
    CookieStored (h.set name value) := by
  intro p hp hcanon
  rcases List.mem_append.mp hp with hp | hp
  · exact hs p (List.mem_of_mem_filter hp) hcanon
  · rw [List.mem_singleton.mp hp] at hcanon ⊢
    rw [canonical_canonical] at hcanon
    exact hcanon

theorem CookieStored.addCookie (hs : CookieStored h) (name value : Bytes) :
    CookieStored (h.addCookie name value) :=
  hs.set _ _

/-- At most the header fields `hs`, by canonical name, the cookies `cs` and the parameters `qs`
are changed from `r` to `r'`. -/
structure Writes (hs cs qs : Set Bytes) (r r' : Request) : Prop where
  header : ∀ k, canonical k ∉ hs → canonical k ≠ bytes "Cookie" →
    r'.header.wire k = r.header.wire k
  cookie : ∀ n vs, n ∉ cs → CookieIs r.header n vs → CookieIs r'.header n vs
  query : ∀ k, k ∉ qs →
    Query.values (Query.parse r'.rawQuery) k = Query.values (Query.parse r.rawQuery) k
  stored : CookieStored r.header → CookieStored r'.header

namespace Writes

variable {hs cs qs hs' cs' qs' : Set Bytes} {r r' r'' : Request}

theorem refl (r : Request) : Writes hs cs qs r r :=
  ⟨fun _ _ _ => rfl, fun _ _ _ h => h, fun _ _ => rfl, id⟩

theorem trans (h : Writes hs cs qs r r') (h' : Writes hs' cs' qs' r' r'') :
    Writes (hs ∪ hs') (cs ∪ cs') (qs ∪ qs') r r'' where
  header k hk hne := by
    rw [Set.mem_union, not_or] at hk
    rw [h'.header k hk.2 hne, h.header k hk.1 hne]
  cookie n vs hn hc := by
    rw [Set.mem_union, not_or] at hn
    exact h'.cookie n vs hn.2 (h.cookie n vs hn.1 hc)
  query k hk := by
    rw [Set.mem_union, not_or] at hk
    rw [h'.query k hk.2, h.query k hk.1]
  stored hst := h'.stored (h.stored hst)

theorem mono (h : Writes hs cs qs r r') (hhs : hs ⊆ hs') (hcs : cs ⊆ cs') (hqs : qs ⊆ qs') :
    Writes hs' cs' qs' r r' :=
  ⟨fun k hk => h.header k fun hmem => hk (hhs hmem),
    fun n vs hn => h.cookie n vs fun hmem => hn (hcs hmem),
    fun k hk => h.query k fun hmem => hk (hqs hmem), h.stored⟩

/-- Fields that are not read here do not matter. -/
theorem congr_right (h : Writes hs cs qs r r') (hheader : r''.header = r'.header)
    (hquery : r''.rawQuery = r'.rawQuery) : Writes hs cs qs r r'' := by
  obtain ⟨h₁, h₂, h₃, h₄⟩ := h
  rw [← hheader] at h₁ h₂ h₄
  rw [← hquery] at h₃
  exact ⟨h₁, h₂, h₃, h₄⟩

end Writes

theorem writes_setHeader (r : Request) (value : Bytes) (hname : canonical name ≠ bytes "Cookie") :
    Writes {canonical name} ∅ ∅ r (r.setHeader name value) where
  header _ hk _ := Header.wire_set_ne fun heq => hk heq.symm
  cookie _ _ _ h :=
    ⟨(Header.sentCookies_set hname).trans h.1, (Header.lineCookies_set hname).trans h.2⟩
  query _ _ := rfl
  stored h := h.set name value

/-- The values of a cookie after one was added. -/
theorem CookieIs.add (hname : IsToken name) (hvalue : CleanValue value) (hstored : CookieStored h)
    {n : Bytes} {vs : List Bytes} (hc : CookieIs h n vs) :
    CookieIs (h.addCookie name value) n (vs ++ if name = n then [value] else []) := by
  have hline : (h.addCookie name value).lineCookies n =
      h.lineCookies n ++ if name = n then [value] else [] := by
    rw [Header.lineCookies_addCookie, Header.addedCookies_eq hname hvalue]
  rw [hc.2] at hline
  exact ⟨(Header.sentCookies_addCookie hstored).trans hline, hline⟩

theorem writes_addCookie (hname : IsToken name) (hvalue : CleanValue value)
    (hstored : CookieStored r.header) : Writes ∅ {name} ∅ r (r.addCookie name value) where
  header _ _ hk := Header.wire_addCookie hk
  cookie _ _ hn h := by
    have := h.add hname hvalue hstored
    rwa [if_neg (fun heq => hn heq.symm), List.append_nil] at this
  query _ _ := rfl
  stored h := h.addCookie name value

theorem writes_setParam (r : Request) (key value : Bytes) :
    Writes ∅ ∅ {key} r (r.setParam key value) where
  header _ _ _ := rfl
  cookie _ _ _ h := h
  query k hk := by
    change Query.values (Query.parse (Query.setParam r.rawQuery key value)) k = _
    rw [Query.values_setParam, if_neg (fun heq => hk heq.symm)]
  stored h := h

/-! ## Metadata -/

/-- The key, if it is used in the carrier. -/
def Placement.names (p carrier : Placement) (key : Bytes) : Set Bytes :=
  {k | p = carrier ∧ k = key}

theorem Placement.names_of_ne (h : p ≠ carrier) (key : Bytes) : p.names carrier key = ∅ :=
  Set.eq_empty_of_forall_notMem fun _ hk => h hk.1

theorem Placement.names_of_eq (h : p = carrier) (key : Bytes) : p.names carrier key = {key} :=
  Set.ext fun _ => and_iff_right h

/-- Conditions on a key for its placement: the `Cookie` field is not used for anything else, and
cookie names are tokens. -/
def Placement.Usable (p : Placement) (key : Bytes) : Prop :=
  (p = .header → canonical key ≠ bytes "Cookie") ∧ (p = .cookie → IsToken key)

/-- The values found for a value that is placed: none for an empty one. -/
def shown (value : Bytes) : List Bytes := if value = [] then [] else [value]

theorem writes_placeMeta (hp : p.Usable key) (hvalue : CleanValue value)
    (hstored : CookieStored r.header) :
    Writes (p.names .header (canonical key)) (p.names .cookie key) (p.names .query key) r
      (r.placeMeta p key value) := by
  unfold Request.placeMeta
  split_ifs
  · exact .refl r
  · split
    next => exact (Writes.refl r).congr_right rfl rfl
    next =>
      refine (writes_setParam r key value).mono (Set.empty_subset _) (Set.empty_subset _) ?_
      rintro k rfl
      exact ⟨rfl, rfl⟩
    next =>
      refine (writes_setHeader r value (hp.1 rfl)).mono ?_ (Set.empty_subset _) (Set.empty_subset _)
      rintro k rfl
      exact ⟨rfl, rfl⟩
    next =>
      refine (writes_addCookie (hp.2 rfl) hvalue hstored).mono (Set.empty_subset _) ?_
        (Set.empty_subset _)
      rintro k rfl
      exact ⟨rfl, rfl⟩
    next => exact .refl r

/-- What is found under the key of a placement, the path apart. -/
def Carries (r : Request) (p : Placement) (key value : Bytes) : Prop :=
  match p with
  | .header => r.header.wire key = shown value
  | .cookie => CookieIs r.header key (shown value)
  | .query => Query.values (Query.parse r.rawQuery) key = shown value
  | _ => True

/-- A value that is placed under a free key is found there. -/
theorem carries_placeMeta (hfree : Carries r p key []) (hp : p.Usable key)
    (hstored : CookieStored r.header) (hvalue : CleanValue value) :
    Carries (r.placeMeta p key value) p key value := by
  by_cases hnil : value = []
  · subst hnil
    exact hfree
  · have hshown : shown value = [value] := if_neg hnil
    unfold Request.placeMeta Carries
    rw [if_neg hnil, hshown]
    cases p with
    | header => exact Header.wire_set_of_wire_eq_nil hfree
    | cookie =>
      have := hfree.add (hp.2 rfl) hvalue hstored
      rwa [if_pos rfl] at this
    | query =>
      change Query.values (Query.parse (Query.setParam r.rawQuery key value)) key = _
      rw [Query.values_setParam, if_pos rfl]
    | _ => trivial

/-- A frame that does not write the key keeps what is found there. -/
theorem Carries.frame {hs cs qs : Set Bytes} {r' : Request} (hc : Carries r p key value)
    (h : Writes hs cs qs r r') (hp : p.Usable key)
    (hhs : Disjoint (p.names .header (canonical key)) hs) (hcs : Disjoint (p.names .cookie key) cs)
    (hqs : Disjoint (p.names .query key) qs) : Carries r' p key value := by
  cases p with
  | header => exact (h.header key (Set.disjoint_left.mp hhs ⟨rfl, rfl⟩) (hp.1 rfl)).trans hc
  | cookie => exact h.cookie key _ (Set.disjoint_left.mp hcs ⟨rfl, rfl⟩) hc
  | query => exact (h.query key (Set.disjoint_left.mp hqs ⟨rfl, rfl⟩)).trans hc
  | _ => trivial

/-- The server reads what the request carries. -/
theorem readMeta_eq {got : Request} (hgot : Transmits r got) (hc : Carries r p key value)
    (hp : p = .header ∨ p = .cookie ∨ p = .query) (hkey : key ≠ []) (subpath : List Bytes) :
    Config.readMeta got p key subpath = (value, subpath) := by
  have hval : value = [] ∨ shown value = [value] := by
    by_cases hnil : value = []
    · exact .inl hnil
    · exact .inr (if_neg hnil)
  unfold Config.readMeta
  rcases hp with rfl | rfl | rfl
  · rcases hval with rfl | hval
    · rw [hgot.header.get_eq_nil hc]
    · rw [hgot.header.get_eq (hc.trans hval)]
  · rcases hval with rfl | hval
    · rw [hgot.header.cookie_eq_none hc.1]
      rfl
    · rw [hgot.header.cookie_eq hkey (hc.1.trans hval)]
      rfl
  · rw [Request.param, hgot.rawQuery, Query.get, show Query.values _ key = shown value from hc]
    rcases hval with rfl | hval
    · rfl
    · rw [hval]
      rfl

end XHTTP

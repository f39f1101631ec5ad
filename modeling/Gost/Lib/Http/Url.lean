import Gost.Lib.Bytes

/-!
# URL texts

`url.Parse` and `URL.String`, as far as the query is concerned: the fragment starts at the first
`#`, and the query at the first `?` before it. Whether the front part (scheme, authority and path)
and the fragment are well formed is left to a parameter `accepts`.
-/

namespace Http

open Bytes List

/-- A URL, cut into the text before the query, the query and the fragment. -/
structure Url where
  front : Bytes
  rawQuery : Bytes
  fragment : Bytes
deriving DecidableEq, Repr

/-- ASCII control bytes. -/
def isControl (c : UInt8) : Bool := c < 32 || c == 127

/-- `url.Parse`. Control bytes before the fragment are an error. -/
def Url.parse (accepts : Bytes → Bytes → Bool) (text : Bytes) : Option Url :=
  let (rest, fragment) := cut 35 text
  let (front, rawQuery) := cut 63 rest
  if rest.any isControl || !accepts front fragment then none
  else some { front, rawQuery, fragment }

/-- `URL.String`. -/
def Url.string (u : Url) : Bytes :=
  u.front ++ (if u.rawQuery = [] then [] else 63 :: u.rawQuery) ++
    (if u.fragment = [] then [] else 35 :: u.fragment)

variable {accepts : Bytes → Bytes → Bool} {text : Bytes} {u : Url}

/-- What a parsed URL is made of. -/
theorem Url.of_parse (hu : Url.parse accepts text = some u) :
    35 ∉ u.front ∧ 63 ∉ u.front ∧ u.front.any isControl = false ∧
      accepts u.front u.fragment = true := by
  unfold Url.parse at hu
  dsimp only at hu
  split_ifs at hu with hno
  cases hu
  simp only [Bool.or_eq_true, Bool.not_eq_true', not_or, Bool.not_eq_true, Bool.not_eq_false] at hno
  have hsub := cut_fst_sublist 63 (cut 35 text).1
  refine ⟨fun h => notMem_cut_fst 35 text (hsub.subset h), notMem_cut_fst _ _, ?_, hno.2⟩
  rw [any_eq_false] at hno ⊢
  exact fun c hc => hno.1 c (hsub.subset hc)

section SetQuery

variable (hu : Url.parse accepts text = some u) {query : Bytes} (hquery : query ≠ [])
include hu hquery

/-- Without a `#` in the query the fragment stays what it is. -/
theorem Url.cut_string (hhash : 35 ∉ query) :
    cut 35 { u with rawQuery := query }.string = (u.front ++ 63 :: query, u.fragment) := by
  have hmem : 35 ∉ u.front ++ 63 :: query := by simp [(Url.of_parse hu).1, hhash]
  unfold Url.string
  rw [if_neg hquery]
  split_ifs with hfragment
  · rw [append_nil, cut_of_notMem hmem, hfragment]
  · rw [cut_append _ hmem]

/-- A query without `#` and control bytes takes the place of the one that was parsed. -/
theorem Url.parse_setQuery (hhash : 35 ∉ query) (hcontrol : query.any isControl = false) :
    Url.parse accepts { u with rawQuery := query }.string = some { u with rawQuery := query } := by
  obtain ⟨-, h63, hfront, haccepts⟩ := Url.of_parse hu
  have hany : (u.front ++ 63 :: query).any isControl = false := by
    rw [any_append, any_cons, hfront, hcontrol]
    rfl
  unfold Url.parse
  simp only [Url.cut_string hu hquery hhash, cut_append _ h63, hany, haccepts, Bool.not_true,
    Bool.or_self, Bool.false_eq_true, if_false]

/-- If the text is accepted, then only the query up to the first `#` is read, and it has no control
bytes. -/
theorem Url.of_parse_setQuery {v : Url}
    (hv : Url.parse accepts { u with rawQuery := query }.string = some v) :
    v.rawQuery = (cut 35 query).1 ∧ v.rawQuery.any isControl = false := by
  obtain ⟨h35, h63, -, -⟩ := Url.of_parse hu
  have hrest :
      (cut 35 { u with rawQuery := query }.string).1 = u.front ++ 63 :: (cut 35 query).1 := by
    by_cases hhash : 35 ∈ query
    · obtain ⟨q₁, q₂, rfl, hq₁⟩ := eq_append_cons_of_mem hhash
      have hmem : 35 ∉ u.front ++ 63 :: q₁ := by simp [h35, hq₁]
      have htext : { u with rawQuery := q₁ ++ 35 :: q₂ }.string = (u.front ++ 63 :: q₁) ++ 35 ::
          (q₂ ++ if u.fragment = [] then [] else 35 :: u.fragment) := by
        simp [Url.string]
      rw [htext, cut_append _ hmem, cut_append _ hq₁]
    · rw [Url.cut_string hu hquery hhash, cut_of_notMem hhash]
  unfold Url.parse at hv
  simp only [hrest, cut_append _ h63] at hv
  split_ifs at hv with hno
  cases hv
  simp only [any_append, any_cons, Bool.or_eq_true, not_or, Bool.not_eq_true] at hno
  exact ⟨rfl, hno.1.2.2⟩

end SetQuery

end Http

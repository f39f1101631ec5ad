import Mathlib.Data.List.Sort
import Gost.Lib.Bytes

/-!
# Query strings

`url.Values` with its text form: `ParseQuery`, `Encode` and the escaping between them. A multimap is
the list of its pairs. `values_setParam` says what a changed parameter does to the parameters that
are read back from the text.
-/

namespace Http.Query

open Bytes List

/-! ## Escaping -/

/-- Bytes that stand for themselves. -/
def unreserved (c : UInt8) : Bool :=
  65 ≤ c && c ≤ 90 || 97 ≤ c && c ≤ 122 || 48 ≤ c && c ≤ 57 || c == 45 || c == 46 || c == 95 ||
    c == 126

def hexDigit (n : ℕ) : UInt8 := if n < 10 then UInt8.ofNat (48 + n) else UInt8.ofNat (55 + n)

def hexValue (c : UInt8) : Option ℕ :=
  if 48 ≤ c ∧ c ≤ 57 then some (c.toNat - 48)
  else if 97 ≤ c ∧ c ≤ 102 then some (c.toNat - 87)
  else if 65 ≤ c ∧ c ≤ 70 then some (c.toNat - 55)
  else none

def escapeByte (c : UInt8) : Bytes :=
  if unreserved c then [c]
  else if c = 32 then [43]
  else [37, hexDigit (c.toNat / 16), hexDigit (c.toNat % 16)]

/-- `QueryEscape`. -/
def escape (s : Bytes) : Bytes := s.flatMap escapeByte

/-- `QueryUnescape`. -/
def unescape : Bytes → Option Bytes
  | [] => some []
  | c :: rest =>
    if c = 37 then
      match rest with
      | hi :: lo :: rest => do
        let h ← hexValue hi
        let l ← hexValue lo
        let s ← unescape rest
        some (UInt8.ofNat (h * 16 + l) :: s)
      | _ => none
    else (unescape rest).map ((if c = 43 then 32 else c) :: ·)

theorem unescape_cons {c : UInt8} (h : c ≠ 37) (s : Bytes) :
    unescape (c :: s) = (unescape s).map ((if c = 43 then 32 else c) :: ·) := by
  rw [unescape.eq_def]
  simp only [if_neg h]

theorem unescape_escapeByte (c : UInt8) (s : Bytes) :
    unescape (escapeByte c ++ s) = (unescape s).map (c :: ·) := by
  have hplain : unreserved c = true → c ≠ 37 ∧ c ≠ 43 :=
    forall_byte (P := fun c => unreserved c = true → c ≠ 37 ∧ c ≠ 43) (by decide +kernel) c
  have hhex : hexValue (hexDigit (c.toNat / 16)) = some (c.toNat / 16) ∧
      hexValue (hexDigit (c.toNat % 16)) = some (c.toNat % 16) ∧
      UInt8.ofNat (c.toNat / 16 * 16 + c.toNat % 16) = c :=
    forall_byte (P := fun c => hexValue (hexDigit (c.toNat / 16)) = some (c.toNat / 16) ∧
      hexValue (hexDigit (c.toNat % 16)) = some (c.toNat % 16) ∧
      UInt8.ofNat (c.toNat / 16 * 16 + c.toNat % 16) = c) (by decide +kernel) c
  unfold escapeByte
  split_ifs with hun hspace
  · rw [singleton_append, unescape_cons (hplain hun).1, if_neg (hplain hun).2]
  · subst hspace
    rw [singleton_append, unescape_cons (by decide), if_pos rfl]
  · simp only [cons_append, nil_append]
    rw [unescape.eq_def]
    simp only [if_true, hhex.1, hhex.2.1, hhex.2.2, Option.bind_eq_bind, Option.bind_some]
    cases unescape s <;> rfl

/-- Unescaping inverts escaping. -/
theorem unescape_escape (s : Bytes) : unescape (escape s) = some s := by
  induction s with
  | nil => rfl
  | cons c s ih =>
    change unescape (escapeByte c ++ escape s) = some (c :: s)
    rw [unescape_escapeByte, ih, Option.map_some]

/-- Escaped text has none of the separators `&`, `;` and `=`. -/
theorem separator_notMem_escape (s : Bytes) : 38 ∉ escape s ∧ 59 ∉ escape s ∧ 61 ∉ escape s := by
  have hbyte : ∀ c, 38 ∉ escapeByte c ∧ 59 ∉ escapeByte c ∧ 61 ∉ escapeByte c :=
    forall_byte (by decide +kernel)
  simp only [escape, mem_flatMap, not_exists, not_and]
  exact ⟨fun c _ => (hbyte c).1, fun c _ => (hbyte c).2.1, fun c _ => (hbyte c).2.2⟩

variable {s key value : Bytes}

/-- Text without `%` and `+` is not changed. -/
theorem unescape_of_notMem (hpercent : 37 ∉ s) (hplus : 43 ∉ s) : unescape s = some s := by
  induction s with
  | nil => rfl
  | cons c s ih =>
    rw [mem_cons, not_or] at hpercent hplus
    rw [unescape_cons (Ne.symm hpercent.1), ih hpercent.2 hplus.2, if_neg (Ne.symm hplus.1),
      Option.map_some]

/-- Unescaped text is not longer. -/
theorem length_le_of_unescape {t : Bytes} (h : unescape s = some t) : t.length ≤ s.length := by
  fun_induction unescape s generalizing t with
  | case1 =>
    rw [← Option.some.inj h]
  | case2 hi lo rest ih =>
    simp only [Option.bind_eq_bind, Option.bind_eq_some_iff, Option.some.injEq] at h
    obtain ⟨_, -, _, -, u, hu, rfl⟩ := h
    have := ih hu
    simp only [length_cons]
    omega
  | case3 => cases h
  | case4 c rest _ ih =>
    obtain ⟨u, hu, rfl⟩ := Option.map_eq_some_iff.mp h
    have := ih hu
    simp only [length_cons]
    omega

/-- Only text without `%` and `+` is its own unescaped form. -/
theorem unescape_eq_self_iff : unescape s = some s ↔ 37 ∉ s ∧ 43 ∉ s := by
  refine ⟨fun h => ?_, fun h => unescape_of_notMem h.1 h.2⟩
  induction s with
  | nil => exact ⟨not_mem_nil, not_mem_nil⟩
  | cons c s ih =>
    by_cases hc : c = 37
    · -- an escape sequence gets shorter
      subst hc
      match s, h with
      | hi :: lo :: s, h =>
        rw [unescape] at h
        simp only [if_true, Option.bind_eq_bind, Option.bind_eq_some_iff, Option.some.injEq] at h
        obtain ⟨_, -, _, -, u, hu, heq⟩ := h
        have hlen := congrArg List.length heq
        have := length_le_of_unescape hu
        simp only [length_cons] at hlen
        omega
    · rw [unescape_cons hc] at h
      obtain ⟨u, hu, heq⟩ := Option.map_eq_some_iff.mp h
      rw [List.cons.injEq] at heq
      obtain ⟨hhead, rfl⟩ := heq
      have hplus : c ≠ 43 := by
        rintro rfl
        exact absurd hhead (by decide)
      obtain ⟨h37, h43⟩ := ih hu
      exact ⟨not_mem_cons_of_ne_of_not_mem (Ne.symm hc) h37,
        not_mem_cons_of_ne_of_not_mem (Ne.symm hplus) h43⟩

/-! ## Parameters -/

/-- One parameter; `none` if it is skipped. -/
def parsePair (s : Bytes) : Option (Bytes × Bytes) :=
  if 59 ∈ s ∨ s = [] then none
  else do
    let k ← unescape (cut 61 s).1
    let v ← unescape (cut 61 s).2
    some (k, v)

theorem unescape_of_parsePair {p : Bytes × Bytes} (h : parsePair s = some p) :
    unescape (cut 61 s).1 = some p.1 := by
  unfold parsePair at h
  split_ifs at h
  simp only [Option.bind_eq_bind, Option.bind_eq_some_iff, Option.some.injEq] at h
  obtain ⟨k, hk, v, -, rfl⟩ := h
  exact hk

/-- `ParseQuery`, malformed parameters skipped. -/
def parse (query : Bytes) : List (Bytes × Bytes) := (query.splitOn 38).filterMap parsePair

/-- The values of a parameter. -/
def values (vs : List (Bytes × Bytes)) (key : Bytes) : List Bytes :=
  (vs.filter (·.1 = key)).map Prod.snd

/-- `Values.Get`. -/
def get (vs : List (Bytes × Bytes)) (key : Bytes) : Bytes := (values vs key).headD []

/-- `Values.Set`. -/
def set (vs : List (Bytes × Bytes)) (key value : Bytes) : List (Bytes × Bytes) :=
  vs.filter (·.1 ≠ key) ++ [(key, value)]

/-- `Values.Encode`: sorted by key. -/
def encode (vs : List (Bytes × Bytes)) : Bytes :=
  [38].intercalate
    ((vs.insertionSort fun p q => p.1 ≤ q.1).map fun p => escape p.1 ++ 61 :: escape p.2)

theorem parsePair_escape (k v : Bytes) : parsePair (escape k ++ 61 :: escape v) = some (k, v) := by
  have hk := separator_notMem_escape k
  have hv := separator_notMem_escape v
  have hmem : ¬(59 ∈ escape k ++ 61 :: escape v ∨ escape k ++ 61 :: escape v = []) := by
    simp [hk.2.1, hv.2.1]
  rw [parsePair, if_neg hmem, cut_append _ hk.2.2, unescape_escape, unescape_escape]
  rfl

/-- The text of a multimap is read back in the order of the keys. -/
theorem parse_encode (vs : List (Bytes × Bytes)) :
    parse (encode vs) = vs.insertionSort fun p q => p.1 ≤ q.1 := by
  unfold parse encode
  generalize (vs.insertionSort fun p q => p.1 ≤ q.1) = ws
  by_cases hne : ws = []
  · subst hne
    rfl
  · rw [splitOn_intercalate]
    · rw [filterMap_map]
      refine (filterMap_congr fun p _ => ?_).trans (filterMap_some)
      exact parsePair_escape p.1 p.2
    · intro l hl
      obtain ⟨p, -, rfl⟩ := mem_map.mp hl
      have hk := separator_notMem_escape p.1
      have hv := separator_notMem_escape p.2
      simp [hk.1, hv.1]
    · simpa using hne

/-! ## Parameters that are not escaped -/

/-- The key has no byte with a meaning in a query. -/
def PlainKey (key : Bytes) : Prop := 38 ∉ key ∧ 59 ∉ key ∧ 61 ∉ key ∧ 37 ∉ key ∧ 43 ∉ key

instance (key : Bytes) : Decidable (PlainKey key) := inferInstanceAs (Decidable (_ ∧ _))

theorem length_le_of_mem_splitOn {sep : UInt8} {part : Bytes} (h : part ∈ s.splitOn sep) :
    part.length ≤ s.length := by
  induction hn : s.length using Nat.strong_induction_on generalizing s with
  | _ n ih =>
    subst hn
    by_cases hsep : sep ∈ s
    · obtain ⟨s₁, s₂, rfl, hs₁⟩ := eq_append_cons_of_mem hsep
      rw [splitOn_append_cons_self_of_not_mem hs₁] at h
      rw [length_append, length_cons]
      rcases mem_cons.mp h with rfl | h
      · omega
      · have := ih s₂.length (by simp only [length_append, length_cons]; omega) h rfl
        omega
    · rw [splitOn_eq_singleton hsep, mem_singleton] at h
      rw [h]

/-- A query has no parameter with a longer name. -/
theorem values_parse_of_length_lt {query : Bytes} (h : query.length < key.length) :
    values (parse query) key = [] := by
  rw [values, map_eq_nil_iff, filter_eq_nil_iff]
  intro p hp hname
  rw [decide_eq_true_eq] at hname
  obtain ⟨s, hs, hpair⟩ := mem_filterMap.mp hp
  have := length_le_of_mem_splitOn hs
  have := (cut_fst_sublist 61 s).length_le
  have := length_le_of_unescape (unescape_of_parsePair hpair)
  rw [hname] at this
  omega

/-- The name of a parameter in `key=value` is not longer than the key, and shorter if the key has
separators. -/
theorem length_name_le (hvalue : 38 ∉ value) (hs : s ∈ (key ++ 61 :: value).splitOn 38) :
    (cut 61 s).1.length ≤ key.length ∧
      (38 ∈ key ∨ 61 ∈ key → (cut 61 s).1.length < key.length) := by
  induction hn : key.length using Nat.strong_induction_on generalizing key with
  | _ n ih =>
    subst hn
    by_cases hamp : 38 ∈ key
    · -- the first segment ends within the key, the others belong to a shorter one
      obtain ⟨k₁, k₂, rfl, hk₁⟩ := eq_append_cons_of_mem hamp
      rw [append_assoc, cons_append, splitOn_append_cons_self_of_not_mem hk₁] at hs
      have hlt : (cut 61 s).1.length < (k₁ ++ 38 :: k₂).length := by
        rw [length_append, length_cons]
        rcases mem_cons.mp hs with rfl | hs
        · have := (cut_fst_sublist 61 s).length_le
          omega
        · have := (ih k₂.length (by simp only [length_append, length_cons]; omega) hs
            rfl).1
          omega
      exact ⟨hlt.le, fun _ => hlt⟩
    · have hmem : 38 ∉ key ++ 61 :: value := by simp [hamp, hvalue]
      rw [splitOn_eq_singleton hmem, mem_singleton] at hs
      subst hs
      by_cases heq : 61 ∈ key
      · have hlt := length_cut_fst_lt heq
        rw [cut_append_of_mem heq]
        exact ⟨hlt.le, fun _ => hlt⟩
      · rw [cut_append value heq]
        exact ⟨le_rfl, fun h => absurd h (by simp [hamp, heq])⟩

/-- A parameter that is written without escaping is found under a plain key only. -/
theorem values_parse_pair (hvalue : 38 ∉ value ∧ 59 ∉ value ∧ 37 ∉ value ∧ 43 ∉ value) :
    values (parse (key ++ 61 :: value)) key = if PlainKey key then [value] else [] := by
  obtain ⟨h38, h59, h37, h43⟩ := hvalue
  split_ifs with hkey
  · obtain ⟨k38, k59, k61, k37, k43⟩ := hkey
    have hmem : 38 ∉ key ++ 61 :: value := by simp [k38, h38]
    have hpair : parsePair (key ++ 61 :: value) = some (key, value) := by
      rw [parsePair, if_neg (by simp [k59, h59]), cut_append value k61,
        unescape_of_notMem k37 k43, unescape_of_notMem h37 h43]
      rfl
    rw [parse, splitOn_eq_singleton hmem, filterMap_cons, hpair]
    simp [values]
  · rw [values, map_eq_nil_iff, filter_eq_nil_iff]
    intro p hp hname
    rw [decide_eq_true_eq] at hname
    obtain ⟨s, hs, hpair⟩ := mem_filterMap.mp hp
    have hk := unescape_of_parsePair hpair
    rw [hname] at hk
    -- a name that is shorter than the key cannot stand for it
    have hsep : ¬(38 ∈ key ∨ 61 ∈ key) := by
      intro hsep
      have := (length_name_le h38 hs).2 hsep
      have := length_le_of_unescape hk
      omega
    rw [not_or] at hsep
    have hmem : 38 ∉ key ++ 61 :: value := by simp [hsep.1, h38]
    rw [splitOn_eq_singleton hmem, mem_singleton] at hs
    subst hs
    rw [cut_append value hsep.2, unescape_eq_self_iff] at hk
    refine hkey ⟨hsep.1, fun h => ?_, hsep.2, hk.1, hk.2⟩
    rw [parsePair, if_pos (.inl (mem_append_left _ h))] at hpair
    cases hpair

/-! ## Encoded multimaps -/

/-- Sorting by key keeps the values of a parameter, in their order. -/
theorem values_insertionSort (vs : List (Bytes × Bytes)) (key : Bytes) :
    values (vs.insertionSort fun p q => p.1 ≤ q.1) key = values vs key := by
  have hsorted : (vs.filter (·.1 = key)).Pairwise fun p q => p.1 ≤ q.1 := by
    refine pairwise_of_forall_mem_list fun p hp q hq => ?_
    rw [mem_filter, decide_eq_true_eq] at hp hq
    rw [hp.2, hq.2]
    exact List.le_refl key
  have hsub := (sublist_insertionSort hsorted filter_sublist).filter (·.1 = key)
  rw [filter_filter] at hsub
  simp only [Bool.and_self] at hsub
  have hperm := (perm_insertionSort (fun p q => p.1 ≤ q.1) vs).filter (·.1 = key)
  rw [values, values, hsub.eq_of_length hperm.length_eq.symm]

/-- The query text with a parameter set. -/
def setParam (query key value : Bytes) : Bytes := encode (set (parse query) key value)

theorem values_setParam (query key value key' : Bytes) :
    values (parse (setParam query key value)) key' =
      if key = key' then [value] else values (parse query) key' := by
  rw [setParam, parse_encode, values_insertionSort, values, set, filter_append, filter_filter]
  split_ifs with h
  · subst h
    simp
  · have hfilter : (parse query).filter (fun p => decide (p.1 = key') && decide (p.1 ≠ key)) =
        (parse query).filter (·.1 = key') := by
      refine filter_congr fun p _ => ?_
      by_cases hp : p.1 = key'
      · simp [hp, Ne.symm h]
      · simp [hp]
    rw [hfilter]
    simp [values, h]

end Http.Query

import Gost.Lib.Bytes

/-!
# Header fields

`http.Header` as the list of its fields. `Set` and `Get` work with the canonical form of a name, a
direct assignment to the map does not. What a server receives has canonical names only; `wire` are
the values that it may then find under a name.
-/

namespace Http

open Bytes List

/-! ## Canonical names -/

/-- Bytes of a token. -/
def isTokenByte (c : UInt8) : Bool :=
  65 ≤ c && c ≤ 90 || 97 ≤ c && c ≤ 122 || 48 ≤ c && c ≤ 57 ||
    (bytes "!#$%&'*+-.^_`|~").contains c

/-- A nonempty sequence of token bytes. -/
def IsToken (s : Bytes) : Prop := s ≠ [] ∧ ∀ c ∈ s, isTokenByte c = true

instance (s : Bytes) : Decidable (IsToken s) := inferInstanceAs (Decidable (_ ∧ _))

def toUpper (c : UInt8) : UInt8 := if 97 ≤ c ∧ c ≤ 122 then c - 32 else c

def toLower (c : UInt8) : UInt8 := if 65 ≤ c ∧ c ≤ 90 then c + 32 else c

/-- Upper case for the first letter, if `upper`, and for letters after a hyphen. -/
def capitalize (upper : Bool) : Bytes → Bytes
  | [] => []
  | c :: cs => (if upper then toUpper c else toLower c) :: capitalize (c == 45) cs

/-- `CanonicalHeaderKey`; names with other bytes than those of tokens stay as they are. -/
def canonical (name : Bytes) : Bytes :=
  if name.all isTokenByte then capitalize true name else name

theorem capitalize_capitalize (upper : Bool) (s : Bytes) :
    capitalize upper (capitalize upper s) = capitalize upper s := by
  have hcase : ∀ c, (toUpper (toUpper c) = toUpper c ∧ toLower (toLower c) = toLower c) ∧
      ((toUpper c == 45) = (c == 45) ∧ (toLower c == 45) = (c == 45)) :=
    forall_byte (by decide +kernel)
  induction s generalizing upper with
  | nil => rfl
  | cons c s ih =>
    obtain ⟨⟨hup, hlow⟩, hup', hlow'⟩ := hcase c
    cases upper
    · simp only [capitalize, Bool.false_eq_true, if_false, hlow, hlow', ih]
    · simp only [capitalize, if_true, hup, hup', ih]

theorem all_isTokenByte_capitalize (upper : Bool) (s : Bytes) :
    (capitalize upper s).all isTokenByte = s.all isTokenByte := by
  have hcase : ∀ c, isTokenByte (toUpper c) = isTokenByte c ∧
      isTokenByte (toLower c) = isTokenByte c := forall_byte (by decide +kernel)
  induction s generalizing upper with
  | nil => rfl
  | cons c s ih =>
    rw [capitalize, all_cons, all_cons, ih]
    cases upper
    · simp only [Bool.false_eq_true, if_false, (hcase c).2]
    · simp only [if_true, (hcase c).1]

@[simp]
theorem canonical_canonical (name : Bytes) : canonical (canonical name) = canonical name := by
  by_cases h : name.all isTokenByte = true
  · have hcap : canonical name = capitalize true name := if_pos h
    rw [hcap, canonical, all_isTokenByte_capitalize, if_pos h, capitalize_capitalize]
  · have hself : canonical name = name := if_neg h
    rw [hself, hself]

/-- The canonical form changes the case of letters only. -/
theorem map_toLower_canonical (name : Bytes) :
    (canonical name).map toLower = name.map toLower := by
  have hcase : ∀ c, toLower (toUpper c) = toLower c ∧ toLower (toLower c) = toLower c :=
    forall_byte (by decide +kernel)
  have hcap : ∀ (s : Bytes) (upper : Bool), (capitalize upper s).map toLower = s.map toLower := by
    intro s
    induction s with
    | nil => exact fun _ => rfl
    | cons c s ih =>
      intro upper
      rw [capitalize, map_cons, map_cons, ih]
      cases upper
      · simp only [Bool.false_eq_true, if_false, (hcase c).2]
      · simp only [if_true, (hcase c).1]
  unfold canonical
  split_ifs
  · exact hcap name true
  · rfl

/-! ## Fields -/

/-- The fields of a header, as stored. -/
abbrev Header := List (Bytes × Bytes)

namespace Header

/-- `Header.Values`. -/
def values (h : Header) (name : Bytes) : List Bytes :=
  (h.filter (·.1 = canonical name)).map Prod.snd

/-- `Header.Get`. -/
def get (h : Header) (name : Bytes) : Bytes := (h.values name).headD []

/-- `Header.Add`. -/
def add (h : Header) (name value : Bytes) : Header := h ++ [(canonical name, value)]

/-- `Header.Del`. -/
def del (h : Header) (name : Bytes) : Header := h.filter (·.1 ≠ canonical name)

/-- `Header.Set`. -/
def set (h : Header) (name value : Bytes) : Header := (h.del name).add name value

/-- Assignment to the map, under the name as it is. -/
def assign (h : Header) (name value : Bytes) : Header :=
  h.filter (·.1 ≠ name) ++ [(name, value)]

/-- The values sent under a name, in any spelling. -/
def wire (h : Header) (name : Bytes) : List Bytes :=
  (h.filter (canonical ·.1 = canonical name)).map Prod.snd

/-- `got` is a header received for `sent`: the names are canonical, and the order of the fields is
kept among those of one spelling only, so it may be any. -/
def Received (sent got : Header) : Prop :=
  got.Perm (sent.map fun p => (canonical p.1, p.2))

variable {h got : Header} {name name' value : Bytes}

theorem wire_eq_nil_iff : h.wire name = [] ↔ ∀ p ∈ h, canonical p.1 ≠ canonical name := by
  simp [wire, filter_eq_nil_iff]

theorem wire_congr (hname : canonical name = canonical name') : h.wire name = h.wire name' := by
  rw [wire, wire, hname]

@[simp]
theorem wire_canonical : h.wire (canonical name) = h.wire name :=
  wire_congr (canonical_canonical name)

/-- A field that is set replaces all fields stored under the canonical name. -/
theorem wire_set_self (hstored : ∀ p ∈ h, canonical p.1 = canonical name → p.1 = canonical name) :
    (h.set name value).wire name = [value] := by
  have hdel : (h.del name).filter (canonical ·.1 = canonical name) = [] := by
    rw [filter_eq_nil_iff]
    intro p hp
    rw [del, mem_filter, decide_eq_true_eq] at hp
    rw [decide_eq_true_eq]
    exact fun heq => hp.2 (hstored p hp.1 heq)
  rw [wire, set, add, filter_append, hdel]
  simp

theorem wire_set_of_wire_eq_nil (hnil : h.wire name = []) :
    (h.set name value).wire name = [value] :=
  wire_set_self fun p hp heq => absurd heq (wire_eq_nil_iff.mp hnil p hp)

/-- Fields of another name stay as they are. -/
theorem wire_set_ne (hne : canonical name ≠ canonical name') :
    (h.set name value).wire name' = h.wire name' := by
  have hdel : (h.del name).filter (canonical ·.1 = canonical name') =
      h.filter (canonical ·.1 = canonical name') := by
    rw [del, filter_filter]
    refine filter_congr fun p _ => ?_
    by_cases hp : canonical p.1 = canonical name'
    · have hstored : p.1 ≠ canonical name := by
        intro heq
        rw [heq, canonical_canonical] at hp
        exact hne hp
      simp [hp, hstored]
    · simp [hp]
  rw [wire, set, add, filter_append, hdel, wire]
  simp [hne]

theorem get_set_self : (h.set name value).get name = value := by
  have hdel : (h.del name).filter (·.1 = canonical name) = [] := by
    simp [del, filter_filter]
  rw [get, values, set, add, filter_append, hdel]
  simp

theorem values_del_ne (hne : canonical name ≠ canonical name') :
    (h.del name).values name' = h.values name' := by
  have hdel : (h.del name).filter (·.1 = canonical name') = h.filter (·.1 = canonical name') := by
    rw [del, filter_filter]
    refine filter_congr fun p _ => ?_
    by_cases hp : p.1 = canonical name'
    · simp [hp, Ne.symm hne]
    · simp [hp]
  rw [values, hdel, values]

theorem get_del_ne (hne : canonical name ≠ canonical name') :
    (h.del name).get name' = h.get name' := by
  rw [get, values_del_ne hne, get]

theorem get_set_ne (hne : canonical name ≠ canonical name') :
    (h.set name value).get name' = h.get name' := by
  have hadd : ((h.del name).add name value).values name' = (h.del name).values name' := by
    simp [values, add, hne]
  rw [get, set, hadd, values_del_ne hne, get]

/-! ## Transmission -/

/-- A server finds the values that were sent under the name. -/
theorem Received.values_perm (hgot : Received h got) (name : Bytes) :
    (got.values name).Perm (h.wire name) := by
  have hperm := (hgot.filter (·.1 = canonical name)).map Prod.snd
  rw [filter_map, map_map] at hperm
  exact hperm

theorem Received.values_eq (hgot : Received h got) (hwire : h.wire name = [value]) :
    got.values name = [value] := by
  have hperm := hgot.values_perm name
  rw [hwire] at hperm
  exact perm_singleton.mp hperm

theorem Received.get_eq (hgot : Received h got) (hwire : h.wire name = [value]) :
    got.get name = value := by
  rw [get, hgot.values_eq hwire]
  rfl

theorem Received.get_eq_nil (hgot : Received h got) (hwire : h.wire name = []) :
    got.get name = [] := by
  have hperm := hgot.values_perm name
  rw [hwire] at hperm
  rw [get, perm_nil.mp hperm]
  rfl

end Header

end Http

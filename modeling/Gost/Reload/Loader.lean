import Gost.Lib.Text

/-!
# Loading lines from the sources of a configuration

The `load` of an ingress (`x/ingress/ingress.go`) and that of a router (`x/router/router.go`) take
their lines from the same three loaders (`x/internal/loader`): one that is a `Lister` gives a list
of lines, any other one a reader. The errors of the loaders are only logged.

What a line is parsed to is a pointer in the source, which is nil for a line that is not well
formed; here it is an `Option`. The lines of a list are appended whatever they are parsed to, and
those of a reader only if they are parsed.
-/

namespace Reload

open Bytes List Text

/-- What a loader gives: a list of lines if it is a `Lister`, a reader otherwise, which can be
nil. -/
inductive Source
  | lister (list : List Bytes)
  | reader (r : Option Bytes)
deriving DecidableEq, Repr

structure Loaders where
  file : Option Source := none
  redis : Option Source := none
  http : Option (Option Bytes) := none
deriving DecidableEq, Repr

/-- The fields of a line, as both `parseLine` take it apart. -/
def fields (s : Bytes) : List Bytes :=
  let line := (cut 0x23 (trimSpace (untab s))).1
  ((line.splitOn 0x20).map trimSpace).filter (· ≠ [])

variable {s : Bytes}

theorem ne_nil_of_mem_fields {field : Bytes} (h : field ∈ fields s) : field ≠ [] := by
  simpa using (mem_filter.mp h).2

variable {ρ : Type*}

/-- The first two fields of a line, as both `parseLine` use them. -/
def parseFields (f : Bytes → Bytes → Option ρ) (s : Bytes) : Option ρ :=
  match fields s with
  | a :: b :: _ => f a b
  | _ => none

theorem isSome_parseFields {f : Bytes → Bytes → Option ρ}
    (hf : ∀ a b, a ≠ [] → (f a b).isSome) (s : Bytes) :
    (parseFields f s).isSome ↔ 2 ≤ (fields s).length := by
  unfold parseFields
  split
  next a b rest h =>
    have ha : a ≠ [] := ne_nil_of_mem_fields (s := s) (by rw [h]; exact mem_cons_self)
    rw [h]
    exact iff_of_true (hf a b ha) (Nat.le_add_left 2 rest.length)
  next h =>
    refine iff_of_false nofun fun hlen => ?_
    match hfields : fields s, hlen with
    | a :: b :: rest, _ => exact h a b rest hfields

section

variable (parseLine : Bytes → Option ρ) (parseReader : Option Bytes → List ρ)

/-- What `load` takes from one loader. -/
def Source.load : Option Source → List (Option ρ)
  | none => []
  | some (.lister list) => list.map parseLine
  | some (.reader r) => (parseReader r).map some

/-- `load`. -/
def Loaders.load (l : Loaders) : List (Option ρ) :=
  Source.load parseLine parseReader l.file ++ Source.load parseLine parseReader l.redis ++
    (l.http.elim [] parseReader).map some

/-! ## The lines that are well formed -/

/-- What the lines of one loader are parsed to, without those that are not well formed. -/
def Source.accepted : Option Source → List ρ
  | none => []
  | some (.lister list) => list.filterMap parseLine
  | some (.reader r) => parseReader r

def Loaders.accepted (l : Loaders) : List ρ :=
  Source.accepted parseLine parseReader l.file ++ Source.accepted parseLine parseReader l.redis ++
    l.http.elim [] parseReader

/-- The lines that come in a list. -/
def Source.listed : Option Source → List Bytes
  | some (.lister list) => list
  | _ => []

def Loaders.listed (l : Loaders) : List Bytes := Source.listed l.file ++ Source.listed l.redis

variable {parseLine parseReader}

theorem map_parseLine {list : List Bytes} (h : ∀ s ∈ list, (parseLine s).isSome) :
    list.map parseLine = (list.filterMap parseLine).map some := by
  induction list with
  | nil => rfl
  | cons s list ih =>
    obtain ⟨hs, hlist⟩ := forall_mem_cons.mp h
    obtain ⟨r, hr⟩ := Option.isSome_iff_exists.mp hs
    rw [map_cons, hr, filterMap_cons_some hr, map_cons, ih hlist]

variable {src : Option Source} {l : Loaders}

theorem Source.load_eq_map_some (h : ∀ s ∈ Source.listed src, (parseLine s).isSome) :
    Source.load parseLine parseReader src =
      (Source.accepted parseLine parseReader src).map some := by
  match src, h with
  | none, _ => rfl
  | some (.lister list), h => exact map_parseLine h
  | some (.reader r), _ => rfl

theorem Loaders.load_eq_map_some (h : ∀ s ∈ l.listed, (parseLine s).isSome) :
    l.load parseLine parseReader = (l.accepted parseLine parseReader).map some := by
  obtain ⟨hfile, hredis⟩ := forall_mem_append.mp h
  rw [load, accepted, Source.load_eq_map_some hfile, Source.load_eq_map_some hredis,
    map_append, map_append]

/-- A line of a list that is not well formed leaves a nil pointer. -/
theorem Source.none_mem_load (hs : s ∈ Source.listed src) (hnone : parseLine s = none) :
    none ∈ Source.load parseLine parseReader src := by
  match src, hs with
  | some (.lister list), hs => exact mem_map.mpr ⟨s, hs, hnone⟩

theorem Loaders.none_mem_load (hs : s ∈ l.listed) (hnone : parseLine s = none) :
    none ∈ l.load parseLine parseReader := by
  refine mem_append_left _ ?_
  rcases mem_append.mp hs with hs | hs
  · exact mem_append_left _ (Source.none_mem_load hs hnone)
  · exact mem_append_right _ (Source.none_mem_load hs hnone)

end

end Reload

import Gost.Lib.Text

/-!
# The credentials of an authenticator

`x/auth/auth.go`: `reload` takes the credentials of the configuration and of up to three loaders
and installs them, unless a loader failed. `reload` panics where the source does, on an assignment
to an entry of a nil map; it returns an `Option` here.

A map is the list of its entries, the newest first, and `none` is the nil map.
-/

namespace Reload.Auth

open Bytes List Option Text

/-! ## Maps -/

/-- The entries of a `map[string]string`, the newest first. -/
abbrev Entries := List (Bytes × Bytes)

/-- `maps.Copy(dst, src)`: the map `dst` then. -/
def copy (dst src : Option Entries) : Option (Option Entries) :=
  match dst, src with
  | some dst, src => some (some (src.getD [] ++ dst))
  | none, none => some none
  | none, some [] => some none
  | none, some (_ :: _) => none

/-! ## Loading -/

/-- The credential in a line. -/
def parseLine (s : Bytes) : Option (Bytes × Bytes) :=
  let line := trimSpace (untab s)
  if line.head? = some 0x23 then none
  else
    let sp := cut 0x20 line
    let k := trimSpace sp.1
    if k = [] then none else some (k, trimSpace sp.2)

/-- The entries that a text is parsed to. -/
def parseLines (lines : List Bytes) : Entries := (lines.filterMap parseLine).reverse

/-- `parseAuths`: the map, and whether the scanner failed. -/
def parseAuths : Option Bytes → Option Entries × Bool
  | none => (none, false)
  | some text => (some (parseLines (scanLines text).1), (scanLines text).2)

variable {E : Type*}

/-- What a loader gives, with its error: a map if it is a `Mapper`, a reader otherwise. Both can be
nil. -/
inductive Source (E : Type*)
  | mapper (m : Option Entries) (err : Option E)
  | reader (r : Option Bytes) (err : Option E)
deriving DecidableEq, Repr

def Source.err : Source E → Option E
  | .mapper _ err => err
  | .reader _ err => err

structure Loaders (E : Type*) where
  file : Option (Source E) := none
  redis : Option (Source E) := none
  http : Option (Option Bytes × Option E) := none
deriving DecidableEq, Repr

/-- What is copied for a loader; `none` if its text could not be scanned. -/
def Source.auths : Source E → Option (Option Entries)
  | .mapper m _ => some m
  | .reader r _ => if (parseAuths r).2 then none else some (parseAuths r).1

/-- The part of `load` for the file. -/
def loadFile (m : Option Entries) : Option (Source E) → Option Entries
  | none => m
  | some src => src.auths.getD m

/-- The parts of `load` for the other loaders. -/
def loadNext (m : Option Entries) : Option (Source E) → Option (Option Entries)
  | none => some m
  | some src => src.auths.elim (some m) (copy m)

def Loaders.httpSource (l : Loaders E) : Option (Source E) :=
  l.http.map fun (r, err) => .reader r err

/-- `loadErr`, the first error of a loader. -/
def Loaders.err (l : Loaders E) : Option E :=
  (l.file.bind Source.err).orElse fun _ =>
    (l.redis.bind Source.err).orElse fun _ => l.httpSource.bind Source.err

/-- `load`. -/
def load (l : Loaders E) : Option (Option Entries × Option E) :=
  (loadNext (loadFile (some []) l.file) l.redis).bind fun m =>
    (loadNext m l.httpSource).map fun m => (m, l.err)

/-- `reload` with the credentials of the configuration and those installed before: what is
installed then, and the error. -/
def reload (auths : Option Entries) (kvs : Entries) (l : Loaders E) :
    Option (Entries × Option E) :=
  (load l).map fun (m, err) =>
    match err with
    | some e => (kvs, some e)
    | none => (m.getD [] ++ auths.getD [], none)

/-! ## The union of the sources -/

/-- All entries of a source. -/
def Source.entries : Source E → Entries
  | .mapper m _ => m.getD []
  | .reader r _ => r.elim [] fun text => parseLines (lines text)

/-- The source is a map, or no line of it is too long for the scanner. -/
def Source.scanned (src : Source E) : Bool := src.auths.isSome

/-- The sources in the order in which they are loaded. -/
def Loaders.sources (l : Loaders E) : List (Source E) :=
  l.file.toList ++ (l.redis.toList ++ l.httpSource.toList)

/-- The entries of the sources over `base`. Later sources override earlier ones. -/
def union (base : Entries) (sources : List (Source E)) : Entries :=
  sources.foldl (fun m src => src.entries ++ m) base

/-- The file gives no map at all, not even an empty one. -/
def Loaders.FileNil (l : Loaders E) : Prop := ∃ src, l.file = some src ∧ src.auths = some none

theorem union_append (base : Entries) (xs ys : List (Source E)) :
    union base (xs ++ ys) = union (union base xs) ys := foldl_append ..

theorem union_eq_append (base : Entries) (sources : List (Source E)) :
    union base sources = union [] sources ++ base := by
  induction sources generalizing base with
  | nil => rfl
  | cons src sources ih =>
    change union (src.entries ++ base) sources = union (src.entries ++ []) sources ++ base
    rw [ih, ih (src.entries ++ []), append_assoc, append_nil]

theorem Source.entries_eq_of_auths {src : Source E} {m : Option Entries}
    (h : src.auths = some m) : src.entries = m.getD [] := by
  cases src with
  | mapper m' err =>
    cases h
    rfl
  | reader r err =>
    rw [auths] at h
    split_ifs at h with hscan
    cases h
    cases r with
    | none => rfl
    | some text =>
      have hlines : (scanLines text).1 = lines text :=
        scanLines_eq_lines (Bool.eq_false_iff.mpr hscan)
      change parseLines (lines text) = parseLines (scanLines text).1
      rw [hlines]

/-! ## Copying -/

theorem copy_eq_none_iff {dst src : Option Entries} :
    copy dst src = none ↔ dst = none ∧ src.getD [] ≠ [] := by
  unfold copy
  split <;> simp

theorem copy_eq_some {dst src m : Option Entries} (h : copy dst src = some m) :
    m.getD [] = src.getD [] ++ dst.getD [] ∧ (m = none ↔ dst = none) := by
  unfold copy at h
  split at h
  all_goals cases h
  all_goals simp

section

variable {src : Option (Source E)} {m m' : Option Entries}

theorem filter_scanned_of_auths {src : Source E} {a : Option Entries} (h : src.auths = some a) :
    [src].filter Source.scanned = [src] :=
  filter_cons_of_pos (by rw [Source.scanned, h]; rfl)

theorem filter_scanned_of_none {src : Source E} (h : src.auths = none) :
    [src].filter Source.scanned = [] :=
  filter_cons_of_neg (by rw [Source.scanned, h]; nofun)

theorem loadNext_eq_none_iff :
    loadNext m src = none ↔ m = none ∧ union [] (src.toList.filter Source.scanned) ≠ [] := by
  cases src with
  | none => simp [loadNext, union]
  | some src =>
    rw [loadNext, toList_some]
    cases hauths : src.auths with
    | none =>
      rw [filter_scanned_of_none hauths]
      simp [union]
    | some a =>
      rw [filter_scanned_of_auths hauths, elim_some, copy_eq_none_iff,
        ← Source.entries_eq_of_auths hauths]
      simp [union]

theorem loadNext_eq_some (h : loadNext m src = some m') :
    m'.getD [] = union (m.getD []) (src.toList.filter Source.scanned) ∧ (m' = none ↔ m = none) := by
  cases src with
  | none =>
    cases h
    exact ⟨rfl, Iff.rfl⟩
  | some src =>
    rw [loadNext] at h
    rw [toList_some]
    cases hauths : src.auths with
    | none =>
      rw [hauths] at h
      cases h
      rw [filter_scanned_of_none hauths]
      exact ⟨rfl, Iff.rfl⟩
    | some a =>
      rw [hauths] at h
      rw [filter_scanned_of_auths hauths]
      obtain ⟨hget, hnone⟩ := copy_eq_some h
      refine ⟨?_, hnone⟩
      rw [hget, ← Source.entries_eq_of_auths hauths]
      rfl

theorem loadFile_getD (file : Option (Source E)) :
    (loadFile (some []) file).getD [] = union [] (file.toList.filter Source.scanned) := by
  cases file with
  | none => rfl
  | some src =>
    rw [loadFile, toList_some]
    cases hauths : src.auths with
    | none =>
      rw [filter_scanned_of_none hauths]
      rfl
    | some a =>
      rw [filter_scanned_of_auths hauths, getD_some, ← Source.entries_eq_of_auths hauths]
      exact (append_nil _).symm

theorem loadFile_eq_none_iff (l : Loaders E) : loadFile (some []) l.file = none ↔ l.FileNil := by
  unfold Loaders.FileNil
  cases l.file with
  | none => exact iff_of_false nofun nofun
  | some src =>
    rw [loadFile]
    constructor
    · intro h
      cases hauths : src.auths with
      | none =>
        rw [hauths] at h
        cases h
      | some a =>
        rw [hauths, getD_some] at h
        exact ⟨src, rfl, by rw [hauths, h]⟩
    · rintro ⟨src', heq, hauths⟩
      cases heq
      rw [hauths]
      rfl

end

/-! ## Reloading -/

section

variable {l : Loaders E}

/-- What follows the file, without the texts that cannot be scanned. -/
def Loaders.later (l : Loaders E) : List (Source E) :=
  (l.redis.toList ++ l.httpSource.toList).filter Source.scanned

theorem union_nil_append_eq_nil_iff {xs ys : List (Source E)} :
    union [] (xs ++ ys) = [] ↔ union [] xs = [] ∧ union [] ys = [] := by
  rw [union_append, union_eq_append, append_eq_nil_iff, and_comm]

theorem load_eq_none_iff : load l = none ↔ l.FileNil ∧ union [] l.later ≠ [] := by
  rw [Loaders.later, filter_append, Ne, union_nil_append_eq_nil_iff, load, ← loadFile_eq_none_iff]
  cases hredis : loadNext (loadFile (some []) l.file) l.redis with
  | none =>
    obtain ⟨hnil, hne⟩ := loadNext_eq_none_iff.mp hredis
    exact iff_of_true rfl ⟨hnil, fun h => hne h.1⟩
  | some m =>
    rw [bind_some, map_eq_none_iff, loadNext_eq_none_iff, (loadNext_eq_some hredis).2]
    refine and_congr_right fun hnil => ?_
    have hempty : union [] (l.redis.toList.filter Source.scanned) = [] := by
      by_contra hne
      rw [loadNext_eq_none_iff.mpr ⟨hnil, hne⟩] at hredis
      cases hredis
    rw [and_iff_right hempty]

theorem load_eq_some {m : Option Entries} {err : Option E} (h : load l = some (m, err)) :
    m.getD [] = union [] (l.sources.filter Source.scanned) ∧ err = l.err := by
  obtain ⟨m₁, hredis, hrest⟩ := bind_eq_some_iff.mp h
  obtain ⟨m₂, hhttp, heq⟩ := map_eq_some_iff.mp hrest
  cases heq
  refine ⟨?_, rfl⟩
  rw [(loadNext_eq_some hhttp).1, (loadNext_eq_some hredis).1, loadFile_getD, Loaders.sources,
    filter_append, filter_append, union_append, union_append]

/-- `reload` does not panic, keeps the credentials if it returns an error and otherwise installs
the union of all sources, if and only if: where the file gives no map, the later loaders give no
credentials; and, unless a loader failed, the texts with a line too long for the scanner can be left
out of the union. -/
theorem reload_iff (auths : Option Entries) (kvs : Entries) (l : Loaders E) :
    (∃ kvs' err, reload auths kvs l = some (kvs', err) ∧ (err ≠ none → kvs' = kvs) ∧
      (err = none → ∀ user, kvs'.lookup user = (union (auths.getD []) l.sources).lookup user)) ↔
      (l.FileNil → union [] l.later = []) ∧
      (l.err ≠ none ∨ ∀ user,
        (union (auths.getD []) (l.sources.filter Source.scanned)).lookup user =
          (union (auths.getD []) l.sources).lookup user) := by
  have hpanic : (l.FileNil → union [] l.later = []) ↔ load l ≠ none := by
    rw [Ne, load_eq_none_iff, not_and, not_not]
  rw [hpanic]
  cases hload : load l with
  | none =>
    refine iff_of_false ?_ fun h => h.1 rfl
    rintro ⟨kvs', err, hreload, -⟩
    rw [reload, hload] at hreload
    cases hreload
  | some r =>
    obtain ⟨m, err⟩ := r
    obtain ⟨hm, rfl⟩ := load_eq_some hload
    rw [and_iff_right (some_ne_none _), reload, hload, map_some,
      union_eq_append (auths.getD []) (l.sources.filter Source.scanned), ← hm]
    cases herr : l.err with
    | none =>
      constructor
      · rintro ⟨kvs', err, heq, -, hunion⟩
        cases heq
        exact .inr (hunion rfl)
      · intro h
        exact ⟨_, none, rfl, fun h => absurd rfl h, fun _ => h.resolve_left fun h => h rfl⟩
    | some e =>
      refine iff_of_true ?_ (.inl (some_ne_none e))
      exact ⟨kvs, some e, rfl, fun _ => rfl, nofun⟩

/-- The file cannot be read, and there is a user in redis. -/
theorem failed_file_panics :
    reload none [] ⟨some (.reader none (some ())),
      some (.reader (some (bytes "user pass")) none), none⟩ = none := by
  decide +kernel

end

end Reload.Auth

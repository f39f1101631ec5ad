import Gost.Lib.HostPort
import Gost.Reload.Loader

/-!
# The rules of an ingress

`x/ingress/ingress.go`: `reload` makes a table of the rules of the configuration and of those that
the loaders give, and `GetRule` looks a host up in it. To read the fields of a rule that is not
there is a panic, and so is a slice beyond the end of a string; both functions return an `Option`.
-/

namespace Reload.Ingress

open Bytes HostPort Option Text

/-! ## Loading -/

structure Rule where
  hostname : Bytes
  endpoint : Bytes
deriving DecidableEq, Repr

/-- `parseLine`. -/
def parseLine : Bytes → Option Rule :=
  parseFields fun hostname endpoint => some ⟨hostname, endpoint⟩

/-- `parseRules`; the error of the scanner is not looked at by its callers. -/
def parseRules : Option Bytes → List Rule
  | none => []
  | some text => ((scanLines text).1.filterMap parseLine).filter (·.hostname ≠ [])

/-- `load`. -/
def load (l : Loaders) : List (Option Rule) := l.load parseLine parseRules

/-! ## The table -/

/-- `map[string]*Rule`, the newest entry first. -/
abbrev Table := List (Bytes × Rule)

/-- The function of `reload` that adds a rule. -/
def insert (rules : Table) (rule : Rule) : Table :=
  if rule.hostname = [] ∨ rule.endpoint = [] then rules
  else
    let host := if rule.hostname.head? = some 0x2a then rule.hostname.tail else rule.hostname
    (host, rule) :: rules

/-- The same for a pointer. -/
def add (rules : Table) (rule : Option Rule) : Option Table := rule.map (insert rules)

/-- `reload`, with the rules of the configuration. -/
def reload (rules : List Rule) (l : Loaders) : Option Table :=
  ((rules.map some).foldlM add []).bind fun table => (load l).foldlM add table

/-- `s[i:]`. -/
def sliceFrom (s : Bytes) (i : ℕ) : Option Bytes := if i ≤ s.length then some (s.drop i) else none

/-- The loop of `GetRule` over the domains that the host is in. A round shortens the host. -/
def lookupDomains (rules : Table) : ℕ → Bytes → Option (Option Rule)
  | 0, _ => some none
  | rounds + 1, s =>
    let index := s.idxOf 0x2e
    if 0 < index ∧ index < s.length then
      (sliceFrom s index).bind fun domain =>
        (sliceFrom s (index + 1)).bind fun rest =>
          match rules.lookup domain with
          | some rule => some (some rule)
          | none => lookupDomains rules rounds rest
    else some none

/-- `GetRule`. The fields of the rule are read only if there is one. -/
def getRule (rules : Table) (host : Bytes) : Option (Option Rule) :=
  if host = [] then some none
  else
    let host :=
      match splitHostPort host with
      | some (v, _) => if v ≠ [] then v else host
      | none => host
    match (rules.lookup host).orElse fun _ => rules.lookup (0x2e :: host) with
    | some rule => some (some rule)
    | none => lookupDomains rules host.length host

/-! ## Reloading -/

/-- The table of the rules of the configuration and of the lines that are well formed. -/
def table (rules : List Rule) (l : Loaders) : Table :=
  (rules ++ l.accepted parseLine parseRules).foldl insert []

theorem isSome_parseLine (s : Bytes) : (parseLine s).isSome ↔ 2 ≤ (fields s).length :=
  isSome_parseFields (fun _ _ _ => rfl) s

theorem foldlM_add_map_some (rules : List Rule) (t : Table) :
    (rules.map some).foldlM add t = some (rules.foldl insert t) := by
  induction rules generalizing t with
  | nil => rfl
  | cons rule rules ih => exact ih (insert t rule)

theorem foldlM_add_of_mem {rules : List (Option Rule)} (h : none ∈ rules) (t : Table) :
    rules.foldlM add t = none := by
  induction rules generalizing t with
  | nil => cases h
  | cons rule rules ih =>
    cases rule with
    | none => rfl
    | some rule => exact ih (List.mem_of_ne_of_mem (some_ne_none rule).symm h) _

theorem sliceFrom_eq_some {s : Bytes} {i : ℕ} (h : i ≤ s.length) :
    sliceFrom s i = some (s.drop i) := if_pos h

theorem isSome_lookupDomains (rules : Table) (rounds : ℕ) (s : Bytes) :
    (lookupDomains rules rounds s).isSome := by
  induction rounds generalizing s with
  | zero => rfl
  | succ rounds ih =>
    rw [lookupDomains]
    split_ifs with hindex
    · rw [sliceFrom_eq_some hindex.2.le, sliceFrom_eq_some hindex.2, bind_some, bind_some]
      split
      · rfl
      · exact ih _
    · rfl

theorem isSome_getRule (rules : Table) (host : Bytes) : (getRule rules host).isSome := by
  unfold getRule
  split_ifs
  · rfl
  · dsimp only
    split
    · rfl
    · exact isSome_lookupDomains ..

/-- `reload` completes, makes the table of what is well formed, and every `GetRule` then is safe, if
and only if every line of a list has two fields. -/
theorem reload_safe_iff (rules : List Rule) (l : Loaders) :
    (∃ loaded, reload rules l = some loaded ∧ loaded = table rules l ∧
      ∀ host, (getRule loaded host).isSome) ↔
      ∀ s ∈ l.listed, 2 ≤ (fields s).length := by
  rw [reload, foldlM_add_map_some, bind_some, load]
  constructor
  · rintro ⟨loaded, hreload, -, -⟩ s hs
    by_contra hfields
    have hnone : parseLine s = none :=
      not_isSome_iff_eq_none.mp (mt (isSome_parseLine s).mp hfields)
    rw [foldlM_add_of_mem (Loaders.none_mem_load hs hnone)] at hreload
    cases hreload
  · intro h
    refine ⟨_, ?_, rfl, isSome_getRule _⟩
    rw [Loaders.load_eq_map_some fun s hs => (isSome_parseLine s).mpr (h s hs),
      foldlM_add_map_some, table, List.foldl_append]

end Reload.Ingress

import Mathlib.Data.List.Basic
import Mathlib.Data.Int.Order.Basic

/-!
# Selectors

`x/selector` for items of any type. A filter finds out about an item by type assertions, so it is
given the `View` of an item: what the assertions and the methods behind them return. A strategy is
any function from lists to items.

A filter never empties a list of one item. `FailFilter` and `LatencyFilter` may empty a longer one;
`BackupFilter` does not.
-/

namespace Chains

/-! ## Markers and metadata -/

/-- `selector.Marker`: the failures since the last success and the time of the last one. -/
structure Marker where
  count : ℕ := 0
  time : ℕ := 0
deriving DecidableEq, Repr

/-- `Mark`. -/
def Marker.mark (now : ℕ) (m : Marker) : Marker where
  count := m.count + 1
  time := now

/-- `Reset`. -/
def Marker.reset (m : Marker) : Marker := { m with count := 0 }

/-- The metadata that the filters read. -/
structure Metadata where
  maxFails : Option ℤ := none
  failTimeout : Option ℤ := none
  backup : Bool := false
deriving DecidableEq, Repr

/-- `chain.ProbeResult`. -/
structure ProbeResult where
  success : Bool
  latency : ℤ
deriving DecidableEq, Repr

/-- What an item shows of itself. -/
structure View where
  -- `selector.Markable`
  marker : Option Marker := none
  -- `metadata.Metadatable`
  metadata : Option Metadata := none
  -- `chain.ProbeResultReader`
  probe : Option ProbeResult := none
deriving DecidableEq, Repr

def defaultMaxFails : ℤ := 1

/-- Ten seconds, in nanoseconds. -/
def defaultFailTimeout : ℤ := 10 * 1000000000

/-- `effectiveFailSettings`. -/
def effectiveFailSettings (v : View) (maxFails failTimeout : ℤ) : ℤ × ℤ :=
  let maxFails := (v.metadata.bind (·.maxFails)).getD maxFails
  let failTimeout := (v.metadata.bind (·.failTimeout)).getD failTimeout
  (if maxFails ≤ 0 then 1 else maxFails,
    if failTimeout ≤ 0 then defaultFailTimeout else failTimeout)

/-- `IsFailed`. -/
def isFailed (now : ℕ) (v : View) (maxFails failTimeout : ℤ) : Bool :=
  match v.marker with
  | none => false
  | some m =>
    !(m.count < (effectiveFailSettings v maxFails failTimeout).1 ||
      (effectiveFailSettings v maxFails failTimeout).2 ≤ (now : ℤ) - m.time)

/-- An item that no failure was counted for is not failed. -/
theorem isFailed_eq_false_of_count {now : ℕ} {v : View} (h : ∀ m, v.marker = some m → m.count = 0)
    (maxFails failTimeout : ℤ) : isFailed now v maxFails failTimeout = false := by
  unfold isFailed
  split
  · rfl
  next m hm =>
    have hpos : (0 : ℤ) < (effectiveFailSettings v maxFails failTimeout).1 := by
      dsimp only [effectiveFailSettings]
      split
      · exact Int.one_pos
      next hle => exact not_le.mp hle
    simp [h m hm, hpos]

/-- The flag `backup` of the metadata. -/
def View.isBackup (v : View) : Bool := v.metadata.any (·.backup)

/-! ## Filters -/

inductive Filter
  -- `FailFilter`
  | fail (maxFails failTimeout : ℤ)
  -- `BackupFilter`
  | backup
  -- `LatencyFilter`
  | latency (maxLatency : ℤ)
deriving DecidableEq, Repr

variable {T : Type*}

/-- `Filter`. -/
def Filter.apply (now : ℕ) (view : T → View) (vs : List T) : Filter → List T
  | .fail maxFails failTimeout =>
    if vs.length ≤ 1 then vs
    else vs.filter fun v => !isFailed now (view v) maxFails failTimeout
  | .backup =>
    if vs.length ≤ 1 then vs
    else if (vs.filter fun v => !(view v).isBackup).isEmpty then
      vs.filter fun v => (view v).isBackup
    else vs.filter fun v => !(view v).isBackup
  | .latency maxLatency =>
    if vs.length ≤ 1 ∨ maxLatency ≤ 0 then vs
    else vs.filter fun v => (view v).probe.all fun r => r.success && r.latency ≤ maxLatency

section Filters

variable {now : ℕ} {view : T → View} {vs : List T} {v : T}

theorem Filter.apply_subset (filter : Filter) : filter.apply now view vs ⊆ vs := by
  cases filter with
  | fail maxFails failTimeout | latency maxLatency =>
    change (if _ then _ else _) ⊆ vs
    split
    · exact List.Subset.refl vs
    · exact List.filter_subset_self vs
  | backup =>
    change (if _ then _ else _) ⊆ vs
    split
    · exact List.Subset.refl vs
    · split <;> exact List.filter_subset_self vs

/-- A fail filter keeps a list none of whose items is failed. -/
theorem Filter.apply_fail_eq_self {maxFails failTimeout : ℤ}
    (h : ∀ v ∈ vs, isFailed now (view v) maxFails failTimeout = false) :
    (Filter.fail maxFails failTimeout).apply now view vs = vs := by
  change (if _ then _ else _) = vs
  split
  · rfl
  · refine List.filter_eq_self.mpr fun v hv => ?_
    rw [h v hv]
    rfl

/-- The backup filter keeps a list without backups. -/
theorem Filter.apply_backup_eq_self (h : ∀ v ∈ vs, (view v).isBackup = false) :
    Filter.backup.apply now view vs = vs := by
  have hall : (vs.filter fun v => !(view v).isBackup) = vs := by
    refine List.filter_eq_self.mpr fun v hv => ?_
    rw [h v hv]
    rfl
  change (if _ then _ else _) = vs
  rw [hall]
  split
  · rfl
  next hlen =>
    rw [if_neg]
    rw [List.isEmpty_iff]
    rintro rfl
    exact hlen (Nat.zero_le 1)

theorem Filter.apply_backup_ne_nil (h : vs ≠ []) : Filter.backup.apply now view vs ≠ [] := by
  change (if _ then _ else _) ≠ []
  split
  · exact h
  · split
    next hnone =>
      rw [List.isEmpty_iff, List.filter_eq_nil_iff] at hnone
      rw [Ne, List.filter_eq_nil_iff]
      obtain ⟨v, hv⟩ := List.exists_mem_of_ne_nil vs h
      exact fun hall => hnone v hv (by simpa using hall v hv)
    next hsome => exact fun hnil => hsome (List.isEmpty_iff.mpr hnil)

/-- What the backup filter keeps is no backup if the list has an item that is none. -/
theorem Filter.isBackup_of_mem_backup (hv : v ∈ Filter.backup.apply now view vs)
    (hprimary : ∃ u ∈ vs, (view u).isBackup = false) : (view v).isBackup = false := by
  obtain ⟨u, hu, hub⟩ := hprimary
  change v ∈ (if _ then _ else _) at hv
  split at hv
  next hlen =>
    have hsame : v = u := by
      match vs, hlen with
      | [], _ => cases hv
      | [w], _ => rw [List.mem_singleton.mp hv, List.mem_singleton.mp hu]
    rw [hsame, hub]
  · split at hv
    next hnone =>
      rw [List.isEmpty_iff, List.filter_eq_nil_iff] at hnone
      exact absurd (by rw [hub]; rfl) (hnone u hu)
    · simpa using (List.mem_filter.mp hv).2

end Filters

/-! ## Selectors -/

/-- `defaultSelector`. -/
structure Selector (T : Type*) where
  filters : List Filter
  strategy : List T → Option T

/-- The filters of `DefaultNodeSelector` and `DefaultChainSelector`. -/
def defaultFilters : List Filter := [.fail defaultMaxFails defaultFailTimeout, .backup]

/-- The items that the filters leave, one filter after the other. -/
def kept (filters : List Filter) (now : ℕ) (view : T → View) (vs : List T) : List T :=
  filters.foldl (fun vs filter => filter.apply now view vs) vs

/-- `Select`. -/
def Selector.select (s : Selector T) (now : ℕ) (view : T → View) (vs : List T) : Option T :=
  if (kept s.filters now view vs).isEmpty then none
  else s.strategy (kept s.filters now view vs)

/-- The strategy makes a choice of every list that is not empty. -/
def Yields (strategy : List T → Option T) : Prop := ∀ vs, vs ≠ [] → ∃ v, strategy vs = some v

/-- The choice is an item of the list. -/
def Picks (strategy : List T → Option T) : Prop :=
  ∀ vs, vs ≠ [] → ∃ v ∈ vs, strategy vs = some v

theorem Picks.yields {strategy : List T → Option T} (h : Picks strategy) : Yields strategy :=
  fun vs hne => (h vs hne).imp fun _ hv => hv.2

open Classical in
/-- Some strategy picks a given item wherever it finds it. -/
theorem exists_picks (v : T) :
    ∃ strategy : List T → Option T, Picks strategy ∧ ∀ vs, v ∈ vs → strategy vs = some v := by
  refine ⟨fun vs => if v ∈ vs then some v else vs.head?, fun vs hne => ?_, fun vs hv => if_pos hv⟩
  by_cases hv : v ∈ vs
  · exact ⟨v, hv, if_pos hv⟩
  · exact ⟨vs.head hne, List.head_mem hne, (if_neg hv).trans (List.head?_eq_some_head hne)⟩

theorem picks_head : Picks (List.head? : List T → Option T) := fun vs hne =>
  ⟨vs.head hne, List.head_mem hne, List.head?_eq_some_head hne⟩

section Selectors

variable {now : ℕ} {view : T → View} {vs : List T} {s : Selector T}

theorem kept_cons (filter : Filter) (filters : List Filter) :
    kept (filter :: filters) now view vs = kept filters now view (filter.apply now view vs) := rfl

theorem kept_subset (filters : List Filter) : kept filters now view vs ⊆ vs := by
  induction filters generalizing vs with
  | nil => exact List.Subset.refl vs
  | cons filter filters ih => exact fun v hv => filter.apply_subset (ih hv)

theorem Selector.select_ne_none_iff (hs : Yields s.strategy) :
    s.select now view vs ≠ none ↔ kept s.filters now view vs ≠ [] := by
  unfold Selector.select
  split
  next hnil => simp [List.isEmpty_iff.mp hnil]
  next hne =>
    rw [List.isEmpty_iff] at hne
    obtain ⟨v, hv⟩ := hs _ hne
    simp [hv, hne]

theorem Selector.mem_kept_of_select (hs : Picks s.strategy) {v : T}
    (h : s.select now view vs = some v) : v ∈ kept s.filters now view vs := by
  unfold Selector.select at h
  split at h
  · cases h
  next hne =>
    obtain ⟨u, hu, hpick⟩ := hs _ (fun hnil => hne (List.isEmpty_iff.mpr hnil))
    rw [hpick, Option.some.injEq] at h
    exact h ▸ hu

end Selectors

end Chains

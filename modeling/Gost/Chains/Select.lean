import Gost.Chains.Selector
import Gost.Lib.Tiers
import Gost.Sniffer.Hop

/-!
# Selection of a node by any selector

`chainHop.Select` with a selector of any kind. Whether a node is failed is asked twice: `first` when
the candidates are collected, `again` when all of them turn out to be failed. The selection of
`Gost.Sniffer.Hop` is the case in which the answers agree and the selector is one of those that a
configuration can ask for (`select_eq_selectBy`).

`select_meets_spec` is the specification for a selector that prefers primary nodes.
-/

namespace Chains

open List Sniffer Tiers

/-! ## The stages -/

variable (pick : Option (List Node → Option Node))

/-- The tiers of one priority, highest first, until one of them yields a node. -/
def selectTierBy (hasAnyPrimary : Bool) : List (List Node) → Option Node
  | [] => none
  | tier :: tiers =>
    if hasAnyPrimary && tier.all (·.options.backup) then selectTierBy hasAnyPrimary tiers
    else pick.elim tier.head? fun select => (select tier).or (selectTierBy hasAnyPrimary tiers)

/-- With mixed priorities. -/
def selectMixedBy (nodes : List Node) : Option Node :=
  selectTierBy pick (nodes.any (·.options.backup) && nodes.any fun n => !n.options.backup)
    (tiers (·.options.priority) nodes)

/-- With mixed priorities, `sorted` being what `sort.Slice` has made of the candidates. -/
def selectMixedOf (sorted nodes : List Node) : Option Node :=
  selectTierBy pick (nodes.any (·.options.backup) && nodes.any fun n => !n.options.backup)
    (sorted.splitBy fun a b => a.options.priority == b.options.priority)

/-- What is known of `sort.Slice`: a permutation in the order of the comparison. -/
structure IsSorting (nodes sorted : List Node) : Prop where
  perm : sorted.Perm nodes
  pairwise : sorted.Pairwise fun a b => b.options.priority ≤ a.options.priority

/-- The candidates that pass the gates, two of them at least. -/
def selectPoolBy (nodes : List Node) : Option Node :=
  let top := nodes.filter (·.options.priority = ChainHop.maxPriority nodes)
  match top with
  | [node] =>
    if 0 < ChainHop.maxPriority nodes ∧ node.options.backup = false then some node
    else selectMixedBy pick nodes
  | _ =>
    if top.length = nodes.length then pick.elim nodes.head? fun select => select nodes
    else selectMixedBy pick nodes

/-- The candidates that are not failed. -/
def candidates (nodes : List Node) (first : Node → Bool) (opts : SelectOptions) : List Node :=
  nodes.filter fun n => !first n && nodeMatches n opts

/-- `chainHop.Select`. -/
def selectBy (hop : ChainHop) (first again : Node → Bool) (opts : SelectOptions) : Option Node :=
  if hop.bypass.any (· opts.bypassQuery) then none
  else
    match candidates hop.nodes first opts with
    | [] =>
      -- `sawFailed`, then the last resort
      if hop.nodes.any first then hop.nodes.find? fun n => again n && nodeMatches n opts
      else none
    | [node] => some node
    | nodes => selectPoolBy pick nodes

/-! ## The selectors of a configuration -/

theorem selectTier_eq (hop : ChainHop) (survey : Survey) (primary : Bool) (ts : List (List Node)) :
    hop.selectTier survey primary ts =
      selectTierBy (hop.selector.map (·.select survey)) primary ts := by
  induction ts with
  | nil => rfl
  | cons tier ts ih =>
    rw [ChainHop.selectTier, selectTierBy, ih]
    cases hop.selector <;> rfl

theorem selectPool_eq (hop : ChainHop) (survey : Survey) (nodes : List Node) :
    hop.selectPool survey nodes =
      selectPoolBy (hop.selector.map (·.select survey)) nodes := by
  have hmixed : ChainHop.selectPool.mixed hop survey nodes =
      selectMixedBy (hop.selector.map (·.select survey)) nodes := selectTier_eq hop survey _ _
  unfold ChainHop.selectPool selectPoolBy
  rw [hmixed]
  cases hop.selector <;> rfl

/-- The selection of a configured hop whose markers do not change meanwhile. -/
theorem select_eq_selectBy (hop : ChainHop) (survey : Survey) (opts : SelectOptions) :
    hop.select survey opts = selectBy (hop.selector.map (·.select survey)) hop
      (fun n => survey.failed n.id) (fun n => survey.failed n.id) opts := by
  have hcand : candidates hop.nodes (fun n => survey.failed n.id) opts =
      hop.nodes.filter fun n => !survey.failed n.id && nodeMatches n opts := rfl
  unfold ChainHop.select selectBy
  rw [hcand]
  by_cases hbypass : hop.bypass.any (· opts.bypassQuery) = true
  · rw [if_pos hbypass, if_pos hbypass]
  rw [if_neg hbypass, if_neg hbypass]
  generalize hop.nodes.filter (fun n => !survey.failed n.id && nodeMatches n opts) = nodes
  rcases nodes with _ | ⟨node, _ | ⟨node', nodes⟩⟩
  · -- the last resort finds nothing where no node is failed
    symm
    refine ite_eq_left_iff.mpr fun hnone => ?_
    symm
    rw [find?_eq_none]
    intro n hn
    have hfailed : survey.failed n.id = false := by
      simpa using fun h => hnone (any_eq_true.mpr ⟨n, hn, h⟩)
    simp [hfailed]
  · rfl
  · exact selectPool_eq hop survey (node :: node' :: nodes)

/-! ## Hops -/

/-- What a selection finds in its surroundings: the clock, the markers of the nodes and their last
probe results. -/
structure Surroundings where
  now : ℕ := 0
  marker : ℕ → Marker := fun _ => {}
  probe : ℕ → Option ProbeResult := fun _ => none

/-- `chainHop` with its options. -/
structure Hop where
  nodes : List Node
  bypass : Option Bypass := none
  selector : Option (Selector Node) := none
  failMaxFails : ℤ := defaultMaxFails
  failTimeout : ℤ := defaultFailTimeout
  -- `maxFails` and `failTimeout` in the metadata of a node
  settings : ℕ → Option ℤ × Option ℤ := fun _ => (none, none)

namespace Hop

/-- What a node shows to the filters. -/
def view (hop : Hop) (w : Surroundings) (node : Node) : View where
  marker := if node.marker then some (w.marker node.id) else none
  metadata := some {
    maxFails := (hop.settings node.id).1
    failTimeout := (hop.settings node.id).2
    backup := node.options.backup }
  probe := w.probe node.id

/-- `IsFailed` with the settings of the hop. -/
def failed (hop : Hop) (w : Surroundings) (node : Node) : Bool :=
  isFailed w.now (hop.view w node) hop.failMaxFails hop.failTimeout

/-- `Select`. The surroundings may change between the first look at the nodes and the second. -/
def select (hop : Hop) (w w' : Surroundings) (opts : SelectOptions) : Option Node :=
  selectBy (hop.selector.map fun s => s.select w'.now (hop.view w'))
    { nodes := hop.nodes, bypass := hop.bypass } (hop.failed w) (hop.failed w') opts

end Hop

/-! ## What a selector that prefers primary nodes selects -/

section Specification

variable {select : List Node → Option Node} {nodes : List Node} {node : Node}

/-- Every list that is not empty yields one of its nodes, a primary one if there is one. -/
def Prefers (select : List Node → Option Node) : Prop :=
  ∀ nodes, nodes ≠ [] → ∃ n ∈ nodes, select nodes = some n ∧
    ((∃ m ∈ nodes, m.options.backup = false) → n.options.backup = false)

theorem prefers_backup {strategy : List Node → Option Node} (hstrategy : Picks strategy)
    (hop : Hop) (w : Surroundings) :
    Prefers (({ filters := [.backup], strategy } : Selector Node).select w.now (hop.view w)) := by
  intro nodes hne
  have hkeep : Filter.backup.apply w.now (hop.view w) nodes ≠ [] := Filter.apply_backup_ne_nil hne
  have hyields : ({ filters := [.backup], strategy } : Selector Node).select w.now (hop.view w)
      nodes ≠ none := (Selector.select_ne_none_iff hstrategy.yields).mpr hkeep
  obtain ⟨n, hn⟩ := Option.ne_none_iff_exists'.mp hyields
  have hkept : n ∈ Filter.backup.apply w.now (hop.view w) nodes :=
    Selector.mem_kept_of_select hstrategy hn
  exact ⟨n, Filter.apply_subset .backup hkept, hn, fun hprimary =>
    Filter.isBackup_of_mem_backup hkept hprimary⟩

/-- A primary node if there is one, with the highest priority of its class. -/
structure Best (nodes : List Node) (node : Node) : Prop where
  mem : node ∈ nodes
  primary : (∃ m ∈ nodes, m.options.backup = false) → node.options.backup = false
  highest : ∀ m ∈ nodes, m.options.backup = node.options.backup →
    m.options.priority ≤ node.options.priority

theorem le_maxPriority {m : Node} (hm : m ∈ nodes) :
    m.options.priority ≤ ChainHop.maxPriority nodes := by
  have hfold : ∀ (l : List ℤ) (init : ℤ), init ≤ l.foldl max init ∧
      ∀ p ∈ l, p ≤ l.foldl max init := by
    intro l
    induction l with
    | nil => exact fun init => ⟨le_rfl, nofun⟩
    | cons q l ih =>
      intro init
      obtain ⟨hinit, hall⟩ := ih (max init q)
      refine ⟨(le_max_left init q).trans hinit, fun p hp => ?_⟩
      rcases mem_cons.mp hp with rfl | hp
      · exact (le_max_right init p).trans hinit
      · exact hall p hp
  exact (hfold _ 0).2 _ (mem_map_of_mem hm)

/-- A walk through the tiers, with `primary` telling that the nodes are of both classes. -/
theorem selectTierBy_best (hselect : Prefers select) {primary : Bool} {ts : List (List Node)}
    (hts : Descending (fun n : Node => n.options.priority) ts) (hne : ts ≠ [])
    (hmixed : primary = true → ∃ m ∈ ts.flatten, m.options.backup = false)
    (hsame : primary = false → ∀ m ∈ ts.flatten, ∀ n ∈ ts.flatten,
      m.options.backup = n.options.backup) :
    ∃ n, selectTierBy (some select) primary ts = some n ∧ Best ts.flatten n := by
  induction ts with
  | nil => exact absurd rfl hne
  | cons tier ts ih =>
    rw [selectTierBy]
    by_cases hskip : (primary && tier.all (·.options.backup)) = true
    · -- the tier is passed over: the primary nodes are in the rest
      rw [if_pos hskip]
      obtain ⟨rfl, hall⟩ := Bool.and_eq_true_iff.mp hskip
      have htier : ∀ m ∈ tier, m.options.backup = true := all_eq_true.mp hall
      obtain ⟨m, hm, hprimary⟩ := hmixed rfl
      have hrest : m ∈ ts.flatten := by
        rcases mem_append.mp (flatten_cons ▸ hm) with hm | hm
        · exact absurd ((htier m hm).symm.trans hprimary) Bool.true_eq_false.mp
        · exact hm
      obtain ⟨n, hn, hbest⟩ := ih hts.tail (by rintro rfl; cases hrest)
        (fun _ => ⟨m, hrest, hprimary⟩) nofun
      have hnprimary := hbest.primary ⟨m, hrest, hprimary⟩
      refine ⟨n, hn, mem_append_right tier hbest.mem, fun _ => hnprimary,
        fun u hu hclass => ?_⟩
      rcases mem_append.mp (flatten_cons ▸ hu) with hu | hu
      · exact absurd ((htier u hu).symm.trans (hclass.trans hnprimary)) Bool.true_eq_false.mp
      · exact hbest.highest u hu hclass
    · rw [if_neg hskip]
      obtain ⟨n, hn, hyields, hprefer⟩ := hselect tier (hts.ne_nil tier mem_cons_self)
      have hmem : n ∈ (tier :: ts).flatten := mem_append_left _ hn
      refine ⟨n, by rw [Option.elim_some, hyields, Option.some_or], hmem, ?_, fun u hu _ =>
        hts.le_of_mem_head hn hu⟩
      rintro ⟨m, hm, hprimary⟩
      cases primary with
      | false => exact (hsame rfl n hmem m hm).trans hprimary
      | true =>
        refine hprefer ?_
        simpa using hskip

theorem isSorting_mergeSort (nodes : List Node) :
    IsSorting nodes (nodes.mergeSort fun a b => b.options.priority ≤ a.options.priority) where
  perm := mergeSort_perm nodes _
  pairwise := pairwise_mergeSort_key (fun n : Node => n.options.priority) nodes

/-- Whatever the sort makes of ties. -/
theorem selectMixedOf_best (hselect : Prefers select) {sorted : List Node}
    (hsorted : IsSorting nodes sorted) (hne : nodes ≠ []) :
    ∃ n, selectMixedOf (some select) sorted nodes = some n ∧ Best nodes n := by
  let ts := sorted.splitBy fun a b => a.options.priority == b.options.priority
  have hmem : ∀ {m : Node}, m ∈ ts.flatten ↔ m ∈ nodes := by
    rw [flatten_splitBy]
    exact hsorted.perm.mem_iff
  obtain ⟨u, hu⟩ := exists_mem_of_ne_nil nodes hne
  have hts : ts ≠ [] := by
    intro hnil
    have hflat := hmem.mpr hu
    rw [hnil] at hflat
    cases hflat
  have hclass : ∃ n, selectTierBy (some select)
      (nodes.any (·.options.backup) && nodes.any fun n => !n.options.backup) ts = some n ∧
        Best ts.flatten n := by
    refine selectTierBy_best hselect (descending_splitBy hsorted.pairwise) hts (fun hboth => ?_)
      fun hone m hm n hn => ?_
    · obtain ⟨m, hm, hprimary⟩ := any_eq_true.mp (Bool.and_eq_true_iff.mp hboth).2
      exact ⟨m, hmem.mpr hm, by simpa using hprimary⟩
    · rw [hmem] at hm hn
      rcases Bool.and_eq_false_iff.mp hone with hone | hone
      · rw [any_eq_false] at hone
        rw [Bool.eq_false_iff.mpr (hone m hm), Bool.eq_false_iff.mpr (hone n hn)]
      · rw [any_eq_false] at hone
        have hbackup : ∀ m ∈ nodes, m.options.backup = true := fun m hm => by
          simpa using hone m hm
        rw [hbackup m hm, hbackup n hn]
  obtain ⟨n, hn, hbest⟩ := hclass
  exact ⟨n, hn, hmem.mp hbest.mem, fun ⟨m, hm, hprimary⟩ =>
    hbest.primary ⟨m, hmem.mpr hm, hprimary⟩, fun m hm => hbest.highest m (hmem.mpr hm)⟩

theorem selectMixedBy_best (hselect : Prefers select) (hne : nodes ≠ []) :
    ∃ n, selectMixedBy (some select) nodes = some n ∧ Best nodes n :=
  selectMixedOf_best hselect (isSorting_mergeSort nodes) hne

theorem selectPoolBy_best (hselect : Prefers select) (hne : nodes ≠ []) :
    ∃ n, selectPoolBy (some select) nodes = some n ∧ Best nodes n := by
  unfold selectPoolBy
  dsimp only
  split
  next top htop =>
    split
    next hshort =>
      -- the only node of the highest priority is a primary one
      have hmem : top ∈ nodes.filter (·.options.priority = ChainHop.maxPriority nodes) := by
        rw [htop]
        exact mem_singleton_self top
      obtain ⟨hmem, hpriority⟩ := mem_filter.mp hmem
      refine ⟨top, rfl, hmem, fun _ => hshort.2, fun m hm _ => ?_⟩
      rw [of_decide_eq_true hpriority]
      exact le_maxPriority hm
    · exact selectMixedBy_best hselect hne
  · split
    next hlen =>
      have hall := length_filter_eq_length_iff.mp hlen
      obtain ⟨n, hn, hyields, hprefer⟩ := hselect nodes hne
      refine ⟨n, hyields, hn, hprefer, fun m hm _ => ?_⟩
      rw [of_decide_eq_true (hall n hn)]
      exact le_maxPriority hm
    · exact selectMixedBy_best hselect hne

end Specification

section Select

variable {hop : Hop} (hbypass : hop.bypass = none) {w w' : Surroundings} {opts : SelectOptions}
include hbypass

/-- With candidates that are not failed the selection is up to the selector. -/
theorem Hop.select_of_candidates {s : Selector Node} (hselector : hop.selector = some s)
    (hs : Prefers (s.select w'.now (hop.view w')))
    (hne : candidates hop.nodes (hop.failed w) opts ≠ []) :
    ∃ n, hop.select w w' opts = some n ∧ Best (candidates hop.nodes (hop.failed w) opts) n := by
  unfold Hop.select selectBy
  rw [hbypass, hselector]
  split
  next h => cases h
  · split
    next hnil => exact absurd hnil hne
    next n hone =>
      rw [hone]
      have hn : ∀ m ∈ [n], m = n := fun m hm => mem_singleton.mp hm
      refine ⟨n, rfl, mem_singleton_self n, ?_, fun m hm _ => by rw [hn m hm]⟩
      rintro ⟨m, hm, hprimary⟩
      rw [← hn m hm, hprimary]
    · exact selectPoolBy_best hs hne

/-- Without such candidates it is a failed one, if it is still failed. -/
theorem Hop.select_of_candidates_eq_nil (hnil : candidates hop.nodes (hop.failed w) opts = []) :
    hop.select w w' opts =
      hop.nodes.find? fun n => hop.failed w' n && nodeMatches n opts := by
  unfold Hop.select selectBy
  rw [hbypass, hnil]
  refine (if_neg nofun).trans (ite_eq_left_iff.mpr fun hnone => ?_)
  rw [eq_comm, find?_eq_none]
  intro n hn
  -- a node that was not failed would be a candidate
  have hfailed : hop.failed w n = false := by
    simpa using fun h => hnone (any_eq_true.mpr ⟨n, hn, h⟩)
  have hout := filter_eq_nil_iff.mp hnil n hn
  rw [hfailed] at hout
  simp only [Bool.not_false, Bool.true_and] at hout
  simp [hout]

end Select

/-- The specification of `Select` for a hop without a bypass of its own, with a selector that
consists of the backup filter and a strategy. -/
theorem Hop.select_meets_spec (hop : Hop) (hbypass : hop.bypass = none)
    {strategy : List Node → Option Node} (hstrategy : Picks strategy)
    (hselector : hop.selector = some { filters := [.backup], strategy }) (w : Surroundings)
    (opts : SelectOptions) :
    (hop.select w w opts = none ↔ ∀ n ∈ hop.nodes, nodeMatches n opts = false) ∧
    ((∃ n ∈ hop.nodes, nodeMatches n opts = true ∧ hop.failed w n = false) →
      ∃ n, hop.select w w opts = some n ∧
        Best (candidates hop.nodes (hop.failed w) opts) n) ∧
    ((∀ n ∈ hop.nodes, nodeMatches n opts = true → hop.failed w n = true) →
      hop.select w w opts = hop.nodes.find? (nodeMatches · opts)) := by
  have hsome : candidates hop.nodes (hop.failed w) opts ≠ [] → ∃ n,
      hop.select w w opts = some n ∧ Best (candidates hop.nodes (hop.failed w) opts) n :=
    Hop.select_of_candidates hbypass hselector (prefers_backup hstrategy hop w)
  have hlive : ∀ n ∈ hop.nodes, nodeMatches n opts = true → hop.failed w n = false →
      candidates hop.nodes (hop.failed w) opts ≠ [] := by
    intro n hn hmatch hfailed
    exact ne_nil_of_mem (mem_filter.mpr ⟨hn, by rw [hmatch, hfailed]; rfl⟩)
  -- if every node that passes the gates is failed, the first of them is the last resort
  have hresort : (∀ n ∈ hop.nodes, nodeMatches n opts = true → hop.failed w n = true) →
      hop.select w w opts = hop.nodes.find? (nodeMatches · opts) := by
    intro hall
    rw [Hop.select_of_candidates_eq_nil hbypass]
    · rw [← head?_filter, ← head?_filter]
      refine congrArg head? (filter_congr fun n hn => ?_)
      cases hmatch : nodeMatches n opts with
      | false => rw [Bool.and_false]
      | true => rw [hall n hn hmatch]; rfl
    · refine filter_eq_nil_iff.mpr fun n hn => ?_
      rw [Bool.and_eq_true, not_and]
      intro hfailed hmatch
      rw [hall n hn hmatch] at hfailed
      cases hfailed
  refine ⟨⟨fun hnone n hn => ?_, fun hall => ?_⟩, fun ⟨n, hn, hmatch, hfailed⟩ =>
    hsome (hlive n hn hmatch hfailed), hresort⟩
  · by_contra hmatch
    rw [Bool.not_eq_false] at hmatch
    by_cases hfailed : ∀ n ∈ hop.nodes, nodeMatches n opts = true → hop.failed w n = true
    · rw [hresort hfailed, find?_eq_none] at hnone
      exact hnone n hn hmatch
    · push Not at hfailed
      obtain ⟨m, hm, hmm, hmf⟩ := hfailed
      obtain ⟨u, hu, -⟩ := hsome (hlive m hm hmm (Bool.not_eq_true _ |>.mp hmf))
      rw [hnone] at hu
      cases hu
  · rw [hresort fun n hn hmatch => absurd hmatch (by rw [hall n hn]; nofun), find?_eq_none]
    exact fun n hn => by rw [hall n hn]; nofun

def primaryNode : Node := { id := 2, name := [], addr := [], built := some { priority := 1 } }

def backupNode : Node :=
  { id := 1, name := [], addr := [], built := some { priority := 5, backup := true } }

/-- A backup of high priority and a primary node. -/
def standbyHop : Hop where
  nodes := [backupNode, primaryNode]
  selector := some { filters := [.backup], strategy := List.head? }

def anyRequest : SelectOptions where
  clientIP := []
  protocol := []
  host := []
  method := []
  path := []
  query := []
  header := []
  body := []

theorem Hop.select_meets_spec_standby :
    ∃ n, standbyHop.select {} {} anyRequest = some n ∧ n.options.backup = false := by
  have hspec := (Hop.select_meets_spec standbyHop rfl picks_head rfl {} anyRequest).2.1
    ⟨_, mem_cons_self, rfl, rfl⟩
  obtain ⟨n, hn, hbest⟩ := hspec
  have hmem : primaryNode ∈ candidates standbyHop.nodes (standbyHop.failed {}) anyRequest :=
    mem_filter.mpr ⟨mem_cons_of_mem _ mem_cons_self, rfl⟩
  exact ⟨n, hn, hbest.primary ⟨primaryNode, hmem, rfl⟩⟩

end Chains

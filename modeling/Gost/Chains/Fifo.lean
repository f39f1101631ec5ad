import Gost.Chains.Select

/-!
# Selection in the order of the configuration

`chainHop.Select` with the strategy `fifo`, which takes the first node it is given. With mixed
priorities the nodes are given to it as `sort.Slice` leaves them, and that sort is not stable. So
nothing is known about the order within a tier but that it is some order: `sorted` stands for the
result of the sort and ranges over all its possible results.

`fifo_in_order_iff`: the selected node is always the first of its priority and class in configured
order, if and only if the candidates are not sorted at all or only one of them can be selected.
-/

namespace Chains

open List Option Sniffer Tiers

/-- The selector of a configuration with the strategy `fifo`; the hop has the settings of its
`FailFilter`. -/
def fifoSelector (hop : Hop) : Selector Node where
  filters := [.fail hop.failMaxFails hop.failTimeout, .backup]
  strategy := List.head?

/-! ## The stages after a sort -/

section Stages

variable (pick : Option (List Node → Option Node)) (sorted : List Node)

/-- The candidates with the highest priority. -/
def top (nodes : List Node) : List Node :=
  nodes.filter (·.options.priority = ChainHop.maxPriority nodes)

/-- `selectPoolBy`, with the result of the sort. -/
def selectPoolOf (nodes : List Node) : Option Node :=
  match top nodes with
  | [node] =>
    if 0 < ChainHop.maxPriority nodes ∧ node.options.backup = false then some node
    else selectMixedOf pick sorted nodes
  | _ =>
    if (top nodes).length = nodes.length then pick.elim nodes.head? fun select => select nodes
    else selectMixedOf pick sorted nodes

/-- `chainHop.Select`, with the result of the sort. -/
def selectOf (hop : ChainHop) (failed : Node → Bool) (opts : SelectOptions) : Option Node :=
  if hop.bypass.any (· opts.bypassQuery) then none
  else
    match candidates hop.nodes failed opts with
    | [] =>
      if hop.nodes.any failed then hop.nodes.find? fun n => failed n && nodeMatches n opts
      else none
    | [node] => some node
    | nodes => selectPoolOf pick sorted nodes

end Stages

/-- `Select` of a hop. -/
def Hop.selectOf (hop : Hop) (sorted : List Node) (w : Surroundings) (opts : SelectOptions) :
    Option Node :=
  Chains.selectOf (hop.selector.map fun s => s.select w.now (hop.view w)) sorted
    { nodes := hop.nodes, bypass := hop.bypass } (hop.failed w) opts

/-- The selection of `Gost.Chains.Select` is the one with a stable sort. -/
theorem Hop.select_eq_selectOf (hop : Hop) (w : Surroundings) (opts : SelectOptions) :
    hop.select w w opts = hop.selectOf ((candidates hop.nodes (hop.failed w) opts).mergeSort
      fun a b => b.options.priority ≤ a.options.priority) w opts := by
  unfold Hop.select Hop.selectOf selectBy Chains.selectOf
  generalize candidates hop.nodes (hop.failed w) opts = nodes
  rcases nodes with _ | ⟨node, _ | ⟨node', nodes⟩⟩ <;> rfl

/-! ## The first of a kind -/

/-- The same priority and the same class. -/
def sameKind (n m : Node) : Bool :=
  m.options.priority == n.options.priority && m.options.backup == n.options.backup

variable {n : Node} {select : List Node → Option Node} {ts : List (List Node)}

theorem sameKind_iff {m : Node} : sameKind n m = true ↔
    m.options.priority = n.options.priority ∧ m.options.backup = n.options.backup := by
  rw [sameKind, Bool.and_eq_true, beq_iff_eq, beq_iff_eq]

theorem sameKind_self (n : Node) : sameKind n n = true := sameKind_iff.mpr ⟨rfl, rfl⟩

/-- The node comes first in the list among the nodes of its priority and class. -/
def FirstOfKind (nodes : List Node) (n : Node) : Prop := nodes.find? (sameKind n) = some n

/-- The pool is handed to `sort.Slice`. -/
def Mixed (nodes : List Node) : Prop :=
  1 < nodes.length ∧ (top nodes).length ≠ nodes.length ∧
    ∀ n, top nodes = [n] → ¬(0 < ChainHop.maxPriority nodes ∧ n.options.backup = false)

/-- One node alone can be selected. -/
def Settled (nodes : List Node) : Prop := ∀ m m', Best nodes m → Best nodes m' → m = m'

/-- The selector takes the first node of a class, the primary one if it has a node. -/
def Leads (select : List Node → Option Node) : Prop :=
  ∀ nodes, nodes ≠ [] → ∃ n, select nodes = some n ∧
    nodes.find? (fun m => m.options.backup == n.options.backup) = some n ∧
    ((∃ m ∈ nodes, m.options.backup = false) → n.options.backup = false)

section Kinds

variable {nodes : List Node} {m n : Node}

theorem Leads.prefers (h : Leads select) : Prefers select := by
  intro nodes hne
  obtain ⟨n, hn, hfind, hprimary⟩ := h nodes hne
  exact ⟨n, mem_of_find?_eq_some hfind, hn, hprimary⟩

/-- Nodes that can be selected are of one kind. -/
theorem Best.sameKind (hm : Best nodes m) (hn : Best nodes n) : sameKind n m = true := by
  have hclass : m.options.backup = n.options.backup := by
    by_cases hprimary : ∃ u ∈ nodes, u.options.backup = false
    · rw [hm.primary hprimary, hn.primary hprimary]
    · have hall : ∀ u ∈ nodes, u.options.backup = true := fun u hu =>
        Bool.not_eq_false _ ▸ fun hfalse => hprimary ⟨u, hu, hfalse⟩
      rw [hall m hm.mem, hall n hn.mem]
  exact sameKind_iff.mpr ⟨le_antisymm (hn.highest m hm.mem hclass)
    (hm.highest n hn.mem hclass.symm), hclass⟩

theorem Best.of_sameKind (hn : Best nodes n) (hm : m ∈ nodes) (h : Chains.sameKind n m = true) :
    Best nodes m := by
  obtain ⟨hpriority, hclass⟩ := sameKind_iff.mp h
  refine ⟨hm, fun hprimary => hclass.trans (hn.primary hprimary), fun u hu hu' => ?_⟩
  rw [hpriority]
  exact hn.highest u hu (hu'.trans hclass)

theorem sameKind_congr (h : sameKind n m = true) : sameKind n = sameKind m := by
  obtain ⟨hpriority, hclass⟩ := sameKind_iff.mp h
  funext u
  rw [sameKind, sameKind, hpriority, hclass]

/-- Within one priority the first of a class is the first of a kind. -/
theorem firstOfKind_of_const (hconst : ∀ u ∈ nodes, u.options.priority = n.options.priority)
    (h : nodes.find? (fun m => m.options.backup == n.options.backup) = some n) :
    FirstOfKind nodes n := by
  rw [← head?_filter] at h
  rw [FirstOfKind, ← head?_filter, ← h]
  refine congrArg head? (filter_congr fun u hu => ?_)
  rw [sameKind, hconst u hu, beq_self_eq_true, Bool.true_and]

end Kinds

/-! ## The walk through the tiers -/

section Walk

variable {select : List Node → Option Node} {nodes sorted : List Node}

/-- The selected node is the first of its kind in the order of the tiers: a tier that is passed over
has only backups, and a primary node is selected then. -/
theorem selectTierBy_first (hselect : Leads select) {primary : Bool}
    (hts : Descending (fun n : Node => n.options.priority) ts)
    (hclass : primary = true → n.options.backup = false)
    (h : selectTierBy (some select) primary ts = some n) : FirstOfKind ts.flatten n := by
  induction ts with
  | nil => cases h
  | cons tier ts ih =>
    rw [selectTierBy] at h
    unfold FirstOfKind
    rw [flatten_cons, find?_append]
    by_cases hskip : (primary && tier.all (·.options.backup)) = true
    · rw [if_pos hskip] at h
      obtain ⟨hprimary, hall⟩ := Bool.and_eq_true_iff.mp hskip
      have hnone : tier.find? (sameKind n) = none := by
        refine find?_eq_none.mpr fun u hu hkind => ?_
        have hbackup := (sameKind_iff.mp hkind).2
        rw [hclass hprimary, all_eq_true.mp hall u hu] at hbackup
        cases hbackup
      rw [hnone, none_or]
      exact ih hts.tail h
    · rw [if_neg hskip] at h
      obtain ⟨m, hm, hfind, -⟩ := hselect tier (hts.ne_nil tier mem_cons_self)
      obtain rfl : m = n := by
        rw [elim_some, hm, some_or] at h
        exact some.inj h
      have hconst : ∀ u ∈ tier, u.options.priority = m.options.priority := fun u hu =>
        hts.const tier mem_cons_self u hu m (mem_of_find?_eq_some hfind)
      have hfirst : tier.find? (sameKind m) = some m := firstOfKind_of_const hconst hfind
      rw [hfirst, some_or]

/-- With mixed priorities it is the first of its kind after the sort. -/
theorem selectMixedOf_first (hselect : Leads select) (hsorted : IsSorting nodes sorted)
    (hne : nodes ≠ []) :
    ∃ n, selectMixedOf (some select) sorted nodes = some n ∧ Best nodes n ∧
      FirstOfKind sorted n := by
  obtain ⟨n, hn, hbest⟩ := selectMixedOf_best hselect.prefers hsorted hne
  refine ⟨n, hn, hbest, ?_⟩
  have hfirst := selectTierBy_first hselect (descending_splitBy hsorted.pairwise) (fun hboth => ?_)
    hn
  · rwa [flatten_splitBy] at hfirst
  · obtain ⟨m, hm, hprimary⟩ := any_eq_true.mp (Bool.and_eq_true_iff.mp hboth).2
    exact hbest.primary ⟨m, hm, by simpa using hprimary⟩

/-- Without a sort it is the first of its kind among the candidates. -/
theorem selectPoolOf_first (hselect : Leads select) (hne : nodes ≠ []) (hlen : 1 < nodes.length)
    (hmixed : ¬Mixed nodes) :
    ∃ n, selectPoolOf (some select) sorted nodes = some n ∧ FirstOfKind nodes n := by
  unfold selectPoolOf
  split
  next n htop =>
    have hshort : 0 < ChainHop.maxPriority nodes ∧ n.options.backup = false := by
      by_contra hnot
      refine hmixed ⟨hlen, ?_, fun u hu => ?_⟩
      · rw [htop, length_singleton]
        exact hlen.ne
      · obtain rfl : n = u := by simpa using htop.symm.trans hu
        exact hnot
    refine ⟨n, if_pos hshort, ?_⟩
    -- no other node has its priority
    have hmem : n ∈ top nodes := by rw [htop]; exact mem_singleton_self n
    obtain ⟨hn, hpriority⟩ := mem_filter.mp hmem
    obtain ⟨u, hu⟩ := isSome_iff_exists.mp
      (find?_isSome.mpr ⟨n, hn, sameKind_self n⟩)
    have hkind := sameKind_iff.mp (find?_some hu)
    have htop' : u ∈ top nodes := mem_filter.mpr ⟨mem_of_find?_eq_some hu,
      decide_eq_true (hkind.1.trans (of_decide_eq_true hpriority))⟩
    rw [htop, mem_singleton] at htop'
    exact htop' ▸ hu
  next hnot =>
    have hall : (top nodes).length = nodes.length := by
      by_contra hne'
      exact hmixed ⟨hlen, hne', fun u hu => absurd hu (hnot u)⟩
    rw [if_pos hall]
    obtain ⟨n, hn, hfind, -⟩ := hselect nodes hne
    refine ⟨n, hn, firstOfKind_of_const (fun u hu => ?_) hfind⟩
    have htop : ∀ v ∈ nodes, v.options.priority = ChainHop.maxPriority nodes := fun v hv =>
      of_decide_eq_true (length_filter_eq_length_iff.mp hall v hv)
    rw [htop u hu, htop n (mem_of_find?_eq_some hfind)]

theorem selectPoolOf_of_mixed (hmixed : Mixed nodes) (pick : Option (List Node → Option Node)) :
    selectPoolOf pick sorted nodes = selectMixedOf pick sorted nodes := by
  unfold selectPoolOf
  split
  next n htop => exact if_neg (hmixed.2.2 n htop)
  · exact if_neg hmixed.2.1

/-- The pool is selected from in order whatever the sort does, if and only if it is not sorted or
leaves no choice. -/
theorem selectPoolOf_first_iff (hselect : Leads select) (hlen : 1 < nodes.length) :
    (∀ sorted, IsSorting nodes sorted →
      ∃ n, selectPoolOf (some select) sorted nodes = some n ∧ FirstOfKind nodes n) ↔
    ¬Mixed nodes ∨ Settled nodes := by
  have hne : nodes ≠ [] := ne_nil_of_length_pos (Nat.zero_lt_of_lt hlen)
  constructor
  · intro h
    by_cases hmixed : Mixed nodes
    · -- every node that can be selected is selected after some sort
      have hany : ∀ m, Best nodes m → FirstOfKind nodes m := by
        intro m hm
        have hstable := isSorting_mergeSort nodes
        obtain ⟨sorted, hperm, hpairwise, hfind⟩ := exists_perm_find?_eq hstable.pairwise
          (fun a b ha hb => (sameKind_iff.mp ha).1.trans (sameKind_iff.mp hb).1.symm)
          (hstable.perm.mem_iff.mpr hm.mem) (sameKind_self m)
        have hsorted : IsSorting nodes sorted := ⟨hperm.trans hstable.perm, hpairwise⟩
        obtain ⟨n, hn, hbest, hfirst⟩ := selectMixedOf_first hselect hsorted hne
        obtain ⟨n', hn', hconf⟩ := h sorted hsorted
        rw [selectPoolOf_of_mixed hmixed, hn, some.injEq] at hn'
        subst hn'
        have hsame : n = m := by
          unfold FirstOfKind at hfirst
          rw [sameKind_congr (hm.sameKind hbest), hfind] at hfirst
          exact (some.inj hfirst).symm
        exact hsame ▸ hconf
      refine .inr fun m m' hm hm' => ?_
      have hfirst := hany m hm
      unfold FirstOfKind at hfirst
      rw [sameKind_congr (hm'.sameKind hm), hany m' hm'] at hfirst
      exact (some.inj hfirst).symm
    · exact .inl hmixed
  · intro h sorted hsorted
    by_cases hmixed : Mixed nodes
    · have hsettled : Settled nodes := h.resolve_left fun hnot => hnot hmixed
      obtain ⟨n, hn, hbest, -⟩ := selectMixedOf_first hselect hsorted hne
      refine ⟨n, (selectPoolOf_of_mixed hmixed _).trans hn, ?_⟩
      obtain ⟨u, hu⟩ := isSome_iff_exists.mp
        (find?_isSome.mpr ⟨n, hbest.mem, sameKind_self n⟩)
      have hbest' := hbest.of_sameKind (mem_of_find?_eq_some hu) (find?_some hu)
      exact hsettled u n hbest' hbest ▸ hu
    · exact selectPoolOf_first hselect hne hlen hmixed

end Walk

/-! ## The strategy -/

section Strategy

variable (hop : Hop) (w : Surroundings) {nodes : List Node} {select' : List Node → Option Node}

/-- The backup filter keeps the order, so its first node is the first of its class. -/
theorem find?_of_head?_backup (h : (Filter.backup.apply w.now (hop.view w) nodes).head? = some n) :
    nodes.find? (fun m => m.options.backup == n.options.backup) = some n := by
  have hview : ∀ m, (hop.view w m).isBackup = m.options.backup := fun m => rfl
  change head? (if _ then _ else _) = some n at h
  split at h
  next hlen =>
    match nodes, hlen with
    | [], _ => cases h
    | [m], _ =>
      obtain rfl := some.inj h
      exact find?_cons_of_pos (beq_self_eq_true m.options.backup)
  · simp only [hview] at h
    split at h
    · -- there are backups only
      rw [head?_filter] at h
      have hn := find?_some h
      rw [← h]
      congr 1
      funext m
      rw [hn, beq_true]
    · rw [head?_filter] at h
      have hn : n.options.backup = false := by simpa using find?_some h
      rw [← h]
      congr 1
      funext m
      rw [hn, beq_false]

theorem leads_backup : Leads (({ filters := [.backup], strategy := head? } :
    Selector Node).select w.now (hop.view w)) := by
  intro nodes hne
  have hkeep : Filter.backup.apply w.now (hop.view w) nodes ≠ [] := Filter.apply_backup_ne_nil hne
  obtain ⟨n, rest, hkept⟩ := exists_cons_of_ne_nil hkeep
  have hhead : (Filter.backup.apply w.now (hop.view w) nodes).head? = some n := by rw [hkept]; rfl
  have hselect : ({ filters := [.backup], strategy := head? } : Selector Node).select w.now
      (hop.view w) nodes = some n := by
    show (if (Filter.backup.apply w.now (hop.view w) nodes).isEmpty then none
      else (Filter.backup.apply w.now (hop.view w) nodes).head?) = some n
    rw [hhead, hkept]
    rfl
  exact ⟨n, hselect, find?_of_head?_backup hop w hhead, fun hprimary =>
    Filter.isBackup_of_mem_backup (mem_of_head? hhead) hprimary⟩

/-- Among nodes that are not failed the fail filter has nothing to do. -/
theorem select_fifo_eq (h : ∀ n ∈ nodes, hop.failed w n = false) :
    (fifoSelector hop).select w.now (hop.view w) nodes =
      ({ filters := [.backup], strategy := head? } : Selector Node).select w.now (hop.view w)
        nodes := by
  have hkept : kept (fifoSelector hop).filters w.now (hop.view w) nodes =
      kept [.backup] w.now (hop.view w) nodes := by
    show kept [.backup] w.now (hop.view w)
      ((Filter.fail hop.failMaxFails hop.failTimeout).apply w.now (hop.view w) nodes) = _
    rw [Filter.apply_fail_eq_self h]
  unfold Selector.select
  rw [hkept]
  rfl

/-- The tiers are made of candidates, so a selector matters only on lists of candidates. -/
theorem selectTierBy_congr (h : ∀ t ∈ ts, select t = select' t) (primary : Bool) :
    selectTierBy (some select) primary ts = selectTierBy (some select') primary ts := by
  induction ts with
  | nil => rfl
  | cons t ts ih =>
    have hrest := ih fun t' ht' => h t' (mem_cons_of_mem t ht')
    rw [selectTierBy, selectTierBy, elim_some, elim_some, h t mem_cons_self, hrest]

theorem selectPoolOf_congr {sorted : List Node}
    (h : ∀ l : List Node, l ⊆ nodes → select l = select' l) (hsorted : IsSorting nodes sorted) :
    selectPoolOf (some select) sorted nodes = selectPoolOf (some select') sorted nodes := by
  have hmixed : selectMixedOf (some select) sorted nodes =
      selectMixedOf (some select') sorted nodes := by
    refine selectTierBy_congr (fun t ht => h t fun u hu => ?_) _
    have hflat : u ∈ List.flatten _ := mem_flatten.mpr ⟨t, ht, hu⟩
    rw [flatten_splitBy] at hflat
    exact hsorted.perm.subset hflat
  unfold selectPoolOf
  rw [hmixed, elim_some, elim_some, h nodes (List.Subset.refl nodes)]

end Strategy

/-- With the strategy `fifo` and a request that some candidate is there for: `Select` returns the
first of the candidates, in configured order, that have the selected priority and class, whatever
the sort does with equal priorities, if and only if the candidates are not sorted or one of them
alone can be selected. -/
theorem fifo_in_order_iff (hop : Hop) (hselector : hop.selector = some (fifoSelector hop))
    (w : Surroundings) (opts : SelectOptions)
    (hbypass : hop.bypass.any (· opts.bypassQuery) = false)
    (hne : candidates hop.nodes (hop.failed w) opts ≠ []) :
    (∀ sorted, IsSorting (candidates hop.nodes (hop.failed w) opts) sorted →
      ∃ n, hop.selectOf sorted w opts = some n ∧
        FirstOfKind (candidates hop.nodes (hop.failed w) opts) n) ↔
    ¬Mixed (candidates hop.nodes (hop.failed w) opts) ∨
      Settled (candidates hop.nodes (hop.failed w) opts) := by
  have hlive : ∀ n ∈ candidates hop.nodes (hop.failed w) opts, hop.failed w n = false := by
    intro n hn
    simpa using (Bool.and_eq_true_iff.mp (mem_filter.mp hn).2).1
  unfold Hop.selectOf selectOf
  rw [hselector, map_some]
  simp only [hbypass, Bool.false_eq_true, if_false]
  generalize candidates hop.nodes (hop.failed w) opts = nodes at hne hlive ⊢
  match nodes with
  | [] => exact absurd rfl hne
  | [n] =>
    refine iff_of_true (fun sorted _ => ⟨n, rfl, ?_⟩) (.inl fun hmixed => ?_)
    · exact find?_cons_of_pos (sameKind_self n)
    · exact absurd hmixed.1 (lt_irrefl 1)
  | n :: m :: nodes =>
    have hlen : 1 < (n :: m :: nodes).length := by
      rw [length_cons, length_cons]
      omega
    rw [← selectPoolOf_first_iff (leads_backup hop w) hlen]
    refine forall_congr' fun sorted => forall_congr' fun hsorted => ?_
    have hsame := selectPoolOf_congr (fun l hl =>
      select_fifo_eq hop w fun u hu => hlive u (hl hu)) hsorted
    rw [← hsame]

/-- Twelve nodes of priority one behind one of priority zero. -/
def manyNode (i : ℕ) : Node :=
  { id := i, name := [], addr := [], built := some { priority := if i = 0 then 0 else 1 } }

def manyHop : Hop where
  nodes := (List.range 13).map manyNode

def fifoHop (hop : Hop) : Hop := { hop with selector := some (fifoSelector hop) }

theorem fifo_in_order_equal_priorities :
    ∃ n, (fifoHop { nodes := [manyNode 1, manyNode 2] }).selectOf [manyNode 2, manyNode 1] {}
      anyRequest = some n ∧ FirstOfKind [manyNode 1, manyNode 2] n := by
  refine (fifo_in_order_iff (fifoHop { nodes := [manyNode 1, manyNode 2] }) rfl {} anyRequest rfl
    (cons_ne_nil _ _)).mpr (.inl fun h => h.2.1 rfl) [manyNode 2, manyNode 1] ⟨?_, ?_⟩
  · exact .swap _ _ _
  · exact pairwise_pair.mpr le_rfl

/-- What `sort.Slice` makes of thirteen nodes: the seventh is the pivot and changes places with the
first. -/
def manySorted : List Node := [6, 1, 2, 3, 4, 5, 7, 8, 9, 10, 11, 12, 0].map manyNode

theorem fifo_out_of_order :
    IsSorting (candidates manyHop.nodes ((fifoHop manyHop).failed {}) anyRequest) manySorted ∧
    (fifoHop manyHop).selectOf manySorted {} anyRequest = some (manyNode 6) ∧
    ¬FirstOfKind (candidates manyHop.nodes ((fifoHop manyHop).failed {}) anyRequest)
      (manyNode 6) := by
  have hcandidates : candidates manyHop.nodes ((fifoHop manyHop).failed {}) anyRequest =
      manyHop.nodes := rfl
  rw [hcandidates]
  refine ⟨⟨?_, ?_⟩, rfl, fun h => ?_⟩
  · refine List.Perm.map manyNode ?_
    decide
  · refine pairwise_map.mpr ?_
    decide
  · have hid := congrArg (Option.map (·.id)) h
    revert hid
    decide

end Chains

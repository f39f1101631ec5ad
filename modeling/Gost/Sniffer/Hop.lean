import Mathlib.Data.List.SplitBy
import Gost.Sniffer.Rewrite

/-!
# Selection of a node

`x/hop` and `x/selector`: which node of a hop a request goes to. Markers, probe results, counters
and random numbers belong to the surroundings, so a selection is given what it finds there.
`select_spec` says what is known about the node: its matcher and its bypass accept the request, or
it stands for several nodes that are dialed in parallel.
-/

namespace Sniffer

open Bytes Http List Option

/-! ## Bypasses, matchers, nodes -/

/-- The arguments of `Bypass.Contains`. -/
structure BypassQuery where
  network : Bytes
  addr : Bytes
  service : Bytes := []
  host : Bytes := []
  path : Bytes := []
deriving DecidableEq, Repr

abbrev Bypass := BypassQuery → Bool

/-- `hop.SelectOptions`. -/
structure SelectOptions where
  clientIP : Bytes
  network : Bytes := []
  addr : Bytes := []
  protocol : Bytes
  host : Bytes
  method : Bytes
  path : Bytes
  query : List (Bytes × Bytes)
  header : Header
  body : Bytes
deriving DecidableEq, Repr

/-- `routing.Request`, what a matcher sees. -/
structure RoutingRequest where
  clientIP : Bytes
  network : Bytes
  host : Bytes
  protocol : Bytes
  method : Bytes
  path : Bytes
  query : List (Bytes × Bytes)
  header : Header
  body : Bytes
deriving DecidableEq, Repr

/-- `chain.NodeOptions`. -/
structure NodeOptions where
  bypass : Option Bypass := none
  matcher : Option (RoutingRequest → Bool) := none
  matcherBodySize : ℕ := 0
  priority : ℤ := 0
  -- the metadata `backup`
  backup : Bool := false
  http : Option HTTPNodeSettings := none

/-- `chain.Node`. -/
structure Node where
  -- the object, which its marker belongs to
  id : ℕ := 0
  name : Bytes
  addr : Bytes
  -- `none` for a literal, which has no marker either
  built : Option NodeOptions := none

/-- `Node.Options`. -/
def Node.options (node : Node) : NodeOptions := node.built.getD {}

/-- `Node.Marker` is not `nil`. -/
def Node.marker (node : Node) : Bool := node.built.isSome

/-- The request that the options describe. -/
def SelectOptions.routing (opts : SelectOptions) : RoutingRequest where
  clientIP := opts.clientIP
  network := opts.network
  host := opts.host
  protocol := opts.protocol
  method := opts.method
  path := opts.path
  query := opts.query
  header := opts.header
  body := opts.body

/-- The bypass of a hop or a node is asked for the host. -/
def SelectOptions.bypassQuery (opts : SelectOptions) : BypassQuery where
  network := opts.network
  addr := opts.addr
  host := opts.host

/-- `nodeMatches`. -/
def nodeMatches (node : Node) (opts : SelectOptions) : Bool :=
  !node.options.bypass.any (· opts.bypassQuery) && node.options.matcher.all (· opts.routing)

/-! ## Selectors -/

/-- What a selection finds in its surroundings. -/
structure Survey where
  -- `IsFailed`
  failed : ℕ → Bool := fun _ => false
  -- a probe failed or took too long
  slow : ℕ → Bool := fun _ => false
  -- counter, hash, random number or lowest latency
  draw : ℕ := 0
  -- the entry of a group that is selected
  entry : ℕ := 0

inductive Filter
  | fail
  | backup
  | latency
deriving DecidableEq, Repr

/-- `Filter`. A single node is never filtered out. -/
def Filter.apply (survey : Survey) (nodes : List Node) (filter : Filter) : List Node :=
  if nodes.length ≤ 1 then nodes
  else match filter with
    | .fail => nodes.filter fun n => !survey.failed n.id
    | .latency => nodes.filter fun n => !survey.slow n.id
    | .backup =>
      if (nodes.filter fun n => !n.options.backup).isEmpty then
        nodes.filter fun n => n.options.backup
      else nodes.filter fun n => !n.options.backup

inductive Strategy
  | roundRobin
  | random
  | fifo
  | hash
  | lowestLatency
  | parallel
deriving DecidableEq, Repr

/-- The node that stands for several. -/
def parallelNode : Node := { name := bytes "parallel", addr := [], built := some {} }

/-- `Apply`. -/
def Strategy.apply (survey : Survey) (nodes : List Node) : Strategy → Option Node
  | .fifo => nodes.head?
  | .parallel => if nodes.length ≤ 1 then nodes.head? else some parallelNode
  | _ => nodes[survey.draw % nodes.length]?

structure Selector where
  filters : List Filter
  strategy : Strategy
deriving DecidableEq, Repr

/-- `defaultSelector.Select`. -/
def Selector.select (s : Selector) (survey : Survey) (nodes : List Node) : Option Node :=
  s.strategy.apply survey (s.filters.foldl (Filter.apply survey) nodes)

/-! ## Hops -/

structure ChainHop where
  nodes : List Node
  bypass : Option Bypass := none
  selector : Option Selector := none

namespace ChainHop

/-- The highest priority, if it is above zero. -/
def maxPriority (nodes : List Node) : ℤ := (nodes.map (·.options.priority)).foldl max 0

/-- The tiers of one priority, highest first, until one of them yields a node. -/
def selectTier (hop : ChainHop) (survey : Survey) (hasAnyPrimary : Bool) :
    List (List Node) → Option Node
  | [] => none
  | tier :: tiers =>
    -- with a primary node in the pool a tier of backups is passed over
    if hasAnyPrimary && tier.all (·.options.backup) then hop.selectTier survey hasAnyPrimary tiers
    else match hop.selector with
      | none => tier.head?
      | some s => (s.select survey tier).or (hop.selectTier survey hasAnyPrimary tiers)

/-- The candidates that pass the gates, two of them at least. -/
def selectPool (hop : ChainHop) (survey : Survey) (nodes : List Node) : Option Node :=
  let top := nodes.filter (·.options.priority = maxPriority nodes)
  match top with
  | [node] =>
    if 0 < maxPriority nodes ∧ node.options.backup = false then some node else mixed nodes
  | _ =>
    if top.length = nodes.length then
      match hop.selector with
      | none => nodes.head?
      | some s => s.select survey nodes
    else mixed nodes
where
  mixed (nodes : List Node) : Option Node :=
    let sorted := nodes.mergeSort fun a b => b.options.priority ≤ a.options.priority
    hop.selectTier survey
      (nodes.any (·.options.backup) && nodes.any fun n => !n.options.backup)
      (sorted.splitBy fun a b => a.options.priority == b.options.priority)

/-- `chainHop.Select`. -/
def select (hop : ChainHop) (survey : Survey) (opts : SelectOptions) : Option Node :=
  if hop.bypass.any (· opts.bypassQuery) then none
  else
    match hop.nodes.filter fun n => !survey.failed n.id && nodeMatches n opts with
    | [] =>
      -- the last resort if nodes are marked failed
      hop.nodes.find? fun n => survey.failed n.id && nodeMatches n opts
    | [node] => some node
    | nodes => hop.selectPool survey nodes

end ChainHop

/-- `HopEntry`. -/
structure HopEntry where
  hop : ChainHop
  matcher : Option (RoutingRequest → Bool) := none

inductive Hop
  | chain (hop : ChainHop)
  | group (entries : List HopEntry)

/-- `Nodes`. -/
def Hop.nodes : Hop → List Node
  | .chain hop => hop.nodes
  | .group entries => entries.flatMap (·.hop.nodes)

/-- `Select`. -/
def Hop.select (survey : Survey) (opts : SelectOptions) : Hop → Option Node
  | .chain hop => hop.select survey opts
  | .group entries =>
    let eligible := entries.filter fun e => e.matcher.all (· opts.routing)
    (eligible[survey.entry % eligible.length]?).bind fun e => e.hop.select survey opts

/-! ## What is selected -/

section Selected

variable {survey : Survey} {nodes : List Node} {node : Node}

theorem Filter.apply_subset (filter : Filter) : filter.apply survey nodes ⊆ nodes := by
  unfold Filter.apply
  split
  · exact List.Subset.refl nodes
  · split
    · exact fun _ h => mem_of_mem_filter h
    · exact fun _ h => mem_of_mem_filter h
    · split <;> exact fun _ h => mem_of_mem_filter h

theorem Strategy.mem_of_apply {strategy : Strategy} (h : strategy.apply survey nodes = some node) :
    node ∈ nodes ∨ node = parallelNode := by
  cases strategy with
  | fifo => exact .inl (mem_of_head? h)
  | parallel =>
    change (if nodes.length ≤ 1 then nodes.head? else some parallelNode) = some node at h
    split at h
    · exact .inl (mem_of_head? h)
    · exact .inr (some.inj h).symm
  | roundRobin | random | hash | lowestLatency => exact .inl (mem_of_getElem? h)

theorem Selector.mem_of_select {s : Selector} (h : s.select survey nodes = some node) :
    node ∈ nodes ∨ node = parallelNode := by
  have hsub : ∀ (filters : List Filter) (nodes : List Node),
      filters.foldl (Filter.apply survey) nodes ⊆ nodes := by
    intro filters
    induction filters with
    | nil => exact fun nodes => List.Subset.refl nodes
    | cons filter filters ih => exact fun nodes n hn => filter.apply_subset (ih _ hn)
  exact (Strategy.mem_of_apply h).imp_left fun hmem => hsub _ _ hmem

variable {hop : ChainHop}

theorem ChainHop.mem_of_selectTier {primary : Bool} {tiers : List (List Node)}
    (h : hop.selectTier survey primary tiers = some node) :
    node ∈ tiers.flatten ∨ node = parallelNode := by
  induction tiers with
  | nil => cases h
  | cons tier tiers ih =>
    have hrest := fun h => (ih h).imp_left fun hmem => mem_append_right tier hmem
    unfold ChainHop.selectTier at h
    split at h
    · exact hrest h
    · split at h
      · exact .inl (mem_append_left _ (mem_of_head? h))
      · rcases or_eq_some_iff.mp h with h | ⟨-, h⟩
        · exact (Selector.mem_of_select h).imp_left fun hmem => mem_append_left _ hmem
        · exact hrest h

theorem ChainHop.mem_of_selectPool (h : hop.selectPool survey nodes = some node) :
    node ∈ nodes ∨ node = parallelNode := by
  have hmixed : ∀ {n}, ChainHop.selectPool.mixed hop survey nodes = some n →
      n ∈ nodes ∨ n = parallelNode := by
    intro n hn
    refine (ChainHop.mem_of_selectTier hn).imp_left fun hmem => ?_
    rw [flatten_splitBy] at hmem
    exact (mergeSort_perm _ _).subset hmem
  unfold ChainHop.selectPool at h
  dsimp only at h
  split at h
  next top htop =>
    split at h
    · have hmem : top ∈ nodes.filter (·.options.priority = maxPriority nodes) := by
        rw [htop]
        exact mem_singleton_self top
      exact .inl (some.inj h ▸ mem_of_mem_filter hmem)
    · exact hmixed h
  · split at h
    · split at h
      · exact .inl (mem_of_head? h)
      · exact Selector.mem_of_select h
    · exact hmixed h

variable {opts : SelectOptions}

/-- The selected node is one of the hop's that the request matches, or stands for several. -/
theorem ChainHop.select_spec (h : hop.select survey opts = some node) :
    node ∈ hop.nodes ∧ nodeMatches node opts = true ∨ node = parallelNode := by
  have hpool : ∀ n ∈ hop.nodes.filter fun n => !survey.failed n.id && nodeMatches n opts,
      n ∈ hop.nodes ∧ nodeMatches n opts = true := by
    intro n hn
    have hn' := mem_filter.mp hn
    exact ⟨hn'.1, (Bool.and_eq_true_iff.mp hn'.2).2⟩
  unfold ChainHop.select at h
  split at h
  · cases h
  · split at h
    · have hmatch := find?_some h
      rw [Bool.and_eq_true] at hmatch
      exact .inl ⟨mem_of_find?_eq_some h, hmatch.2⟩
    next single hsingle =>
      rw [hsingle] at hpool
      exact .inl (some.inj h ▸ hpool single (mem_singleton_self single))
    · exact (ChainHop.mem_of_selectPool h).imp_left (hpool node)

/-- The matcher and the bypass of the selected node accept the request. -/
theorem Hop.select_matches {hop : Hop} (h : hop.select survey opts = some node) :
    nodeMatches node opts = true := by
  have hchain : ∀ {hop : ChainHop}, hop.select survey opts = some node →
      nodeMatches node opts = true := by
    intro hop h
    rcases hop.select_spec h with ⟨-, h⟩ | rfl
    · exact h
    · rfl
  cases hop with
  | chain hop => exact hchain h
  | group entries =>
    obtain ⟨e, -, he⟩ := bind_eq_some_iff.mp h
    exact hchain he

end Selected

end Sniffer

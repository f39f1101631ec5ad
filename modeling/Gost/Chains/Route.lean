import Gost.Chains.Select

/-!
# Routes

`x/chain`: `Chain.Route`, `chainGroup.Route` and the attempts of `Router.dial`. A route without
nodes dials the target itself, and so does `DefaultRoute`, which stands in for a missing route.

The markers, the probe results and the clock are read anew in each selection, so an attempt is given
what every look finds; nothing is assumed about how one look is related to the next.
-/

namespace Chains

open Bytes List Sniffer Tiers

/-! ## Chains -/

/-- `Chain`. -/
structure Chain where
  id : ℕ
  hops : List Hop
  metadata : Metadata := {}

/-- `chainRoute`. A node that multiplexes starts a new route; the route so far becomes the tunnel of
that node's transport. -/
structure Route where
  nodes : List Node := []
  tunnel : List (List Node) := []

/-- What the two looks of the selection in each hop find. -/
abbrev Looks := ℕ → Surroundings × Surroundings

section Route

variable (multiplex : Node → Bool) (looks : Looks) (opts : SelectOptions)

/-- `addNode`, with the split at a node that multiplexes. -/
def Route.extend (rt : Route) (node : Node) : Route :=
  if multiplex node then { nodes := [node], tunnel := rt.nodes :: rt.tunnel }
  else { rt with nodes := rt.nodes ++ [node] }

/-- The loop of `Chain.Route` from the hop number `i` on. -/
def extendRoute (rt : Route) (i : ℕ) : List Hop → Route
  | [] => rt
  | hop :: hops =>
    match hop.select (looks i).1 (looks i).2 opts with
    | none => rt
    | some node => extendRoute (rt.extend multiplex node) (i + 1) hops

/-- `Chain.Route`. -/
def Chain.route (c : Chain) : Option Route :=
  if c.hops.isEmpty then none else some (extendRoute multiplex looks opts {} 0 c.hops)

end Route

/-! ## Groups of chains -/

/-- `ChainEntry`, a chain with a marker of its own. -/
structure ChainEntry where
  id : ℕ
  chain : Chain
  matcher : Option (RoutingRequest → Bool) := none

/-- What an entry shows to the filters. It is no `Metadatable`. -/
def ChainEntry.view (marker : ℕ → Marker) (e : ChainEntry) : View where
  marker := some (marker e.id)

/-- `chainGroup`. -/
structure ChainGroup where
  entries : List ChainEntry
  selector : Option (Selector ChainEntry) := none

namespace ChainGroup

variable (g : ChainGroup) (now : ℕ) (marker : ℕ → Marker)

/-- `selectFrom`. -/
def selectFrom (eligible : List ChainEntry) : Option ChainEntry :=
  g.selector.elim eligible.head? fun s => s.select now (ChainEntry.view marker) eligible

/-- `selectChain`. -/
def selectChain (req : RoutingRequest) : Option ChainEntry :=
  if g.entries.isEmpty then none
  else if g.entries.any (·.matcher.isSome) then
    let eligible := g.entries.filter fun e => e.matcher.all (· req)
    if eligible.isEmpty then none else g.selectFrom now marker eligible
  else g.selectFrom now marker g.entries

end ChainGroup

/-! ## The router -/

/-- `chain.Chainer`. -/
inductive Chainer
  | chain (c : Chain)
  | group (g : ChainGroup)

/-- What an attempt to dial finds. -/
structure Attempt where
  -- `xnet.Resolve`
  resolved : Option Bytes := some []
  -- when the chain of a group is selected
  now : ℕ := 0
  entryMarker : ℕ → Marker := fun _ => {}
  looks : Looks := fun _ => ({}, {})
  -- the route's `Dial` is successful
  connects : Bool := true

/-- `Route` of a chain and of a group. -/
def Chainer.route (multiplex : Node → Bool) (a : Attempt) (opts : SelectOptions) :
    Chainer → Option Route
  | .chain c => c.route multiplex a.looks opts
  | .group g => (g.selectChain a.now a.entryMarker opts.routing).bind fun e =>
      e.chain.route multiplex a.looks opts

/-- `Router`. -/
structure Router where
  chainer : Option Chainer
  retries : ℤ := 0
  multiplex : Node → Bool := fun _ => false

/-- What a node or an entry is matched with: the network, the address that the target was resolved
to, and as the host the address before that. -/
def selectOptions (network address ip : Bytes) : SelectOptions where
  clientIP := []
  network := network
  addr := ip
  protocol := []
  host := address
  method := []
  path := []
  query := []
  header := []
  body := []

namespace Router

variable (r : Router) (network address : Bytes)

/-- The route of an attempt; `none` is `DefaultRoute`. -/
def route (a : Attempt) (ip : Bytes) : Option Route :=
  r.chainer.bind fun c => c.route r.multiplex a (selectOptions network address ip)

/-- The attempts of `dial`: the routes that are used. -/
def dialLoop : List Attempt → List (Option Route)
  | [] => []
  | a :: attempts =>
    match a.resolved with
    | none => dialLoop attempts
    | some ip => r.route network address a ip :: if a.connects then [] else dialLoop attempts

/-- The first attempt and the retries. -/
def attempts (attempt : ℕ → Attempt) : List Attempt :=
  (List.range (max 1 (r.retries + 1).toNat)).map attempt

/-- `dial`. -/
def dial (attempt : ℕ → Attempt) : List (Option Route) :=
  r.dialLoop network address (r.attempts attempt)

end Router

/-- The target is dialed through a proxy node. -/
def Proxied (rt : Option Route) : Prop := ∃ route, rt = some route ∧ route.nodes ≠ []

/-! ## When a hop offers a node -/

section Offers

variable {pick : Option (List Node → Option Node)} {nodes : List Node}

/-- The only node of the highest priority is a primary one, and the priority is above zero. -/
def Outranks (nodes : List Node) : Prop :=
  ∃ node, nodes.filter (·.options.priority = ChainHop.maxPriority nodes) = [node] ∧
    0 < ChainHop.maxPriority nodes ∧ node.options.backup = false

/-- The tiers that are looked at: one of backups only is passed over if there are primary nodes. -/
def considered (nodes : List Node) : List (List Node) :=
  (tiers (·.options.priority) nodes).filter fun tier =>
    !((nodes.any (·.options.backup) && nodes.any fun n => !n.options.backup) &&
      tier.all (·.options.backup))

/-- The selection finds a node: one that is still failed if there is no other, the only candidate,
or one that the filters leave of a tier. -/
def Hop.Offers (hop : Hop) (w w' : Surroundings) (opts : SelectOptions) : Prop :=
  match candidates hop.nodes (hop.failed w) opts with
  | [] => ∃ n ∈ hop.nodes, hop.failed w' n = true ∧ nodeMatches n opts = true
  | [_] => True
  | nodes => Outranks nodes ∨ ∃ tier ∈ considered nodes, ∀ s, hop.selector = some s →
      kept s.filters w'.now (hop.view w') tier ≠ []

theorem selectTierBy_ne_none_iff {primary : Bool} {ts : List (List Node)} (hne : [] ∉ ts) :
    selectTierBy pick primary ts ≠ none ↔
      ∃ tier ∈ ts.filter (fun tier => !(primary && tier.all (·.options.backup))),
        ∀ select, pick = some select → select tier ≠ none := by
  induction ts with
  | nil => simp [selectTierBy]
  | cons tier ts ih =>
    obtain ⟨htier, hrest⟩ := not_or.mp (mem_cons.not.mp hne)
    rw [selectTierBy]
    split
    next hskip => rw [filter_cons_of_neg (by simp [hskip]), ih hrest]
    next hlook =>
      rw [filter_cons_of_pos (by rw [Bool.eq_false_iff.mpr hlook]; rfl),
        exists_mem_cons_iff, ← ih hrest]
      cases pick with
      | none =>
        have hhead : tier.head? ≠ none := by
          rw [Ne, head?_eq_none_iff]
          exact fun h => htier h.symm
        simp [hhead]
      | some select =>
        rw [Option.elim_some, Ne, Option.or_eq_none_iff, not_and_or]
        simp

theorem nil_notMem_tiers (nodes : List Node) :
    [] ∉ tiers (fun n : Node => n.options.priority) nodes := fun h =>
  (descending_tiers _ nodes).ne_nil [] h rfl

/-- With one priority for all nodes the selector is given all of them. -/
theorem selectMixedBy_of_const (hne : nodes ≠ [])
    (h : ∀ m ∈ nodes, m.options.priority = ChainHop.maxPriority nodes) :
    selectMixedBy pick nodes = pick.elim nodes.head? fun select => select nodes := by
  have hlook : ((nodes.any (·.options.backup) && nodes.any fun n => !n.options.backup) &&
      nodes.all (·.options.backup)) = false := by
    rw [Bool.and_assoc, ← Bool.not_not (nodes.all _), not_all_eq_any_not, Bool.and_not_self,
      Bool.and_false]
  rw [selectMixedBy, tiers_of_const hne fun a ha b hb => (h a ha).trans (h b hb).symm,
    selectTierBy, hlook, if_neg Bool.false_ne_true]
  cases pick with
  | none => rfl
  | some select => exact Option.or_none

/-- Outside the short cut the tiers are looked at. -/
theorem selectPoolBy_ne_none_iff (hne : nodes ≠ []) :
    selectPoolBy pick nodes ≠ none ↔ Outranks nodes ∨ selectMixedBy pick nodes ≠ none := by
  unfold selectPoolBy
  dsimp only
  split
  next node htop =>
    have hiff : Outranks nodes ↔ 0 < ChainHop.maxPriority nodes ∧ node.options.backup = false := by
      refine ⟨fun ⟨node', htop', h⟩ => ?_, fun h => ⟨node, htop, h⟩⟩
      rw [htop, List.cons.injEq] at htop'
      exact htop'.1 ▸ h
    rw [hiff]
    split
    next h => simp [h]
    next h => simp [h]
  next htop =>
    have hnot : ¬Outranks nodes := fun ⟨node, h, _⟩ => htop node h
    split
    next hlen =>
      have hall := length_filter_eq_length_iff.mp hlen
      rw [selectMixedBy_of_const hne fun m hm => of_decide_eq_true (hall m hm)]
      simp [hnot]
    · simp [hnot]

/-- `Select` returns a node exactly if the hop offers one. -/
theorem Hop.select_ne_none_iff {hop : Hop} (hbypass : hop.bypass = none)
    (hstrategy : ∀ s, hop.selector = some s → Yields s.strategy) (w w' : Surroundings)
    (opts : SelectOptions) : hop.select w w' opts ≠ none ↔ hop.Offers w w' opts := by
  unfold Hop.Offers
  split
  next hnil =>
    rw [Hop.select_of_candidates_eq_nil hbypass hnil, Option.ne_none_iff_isSome, find?_isSome]
    simp
  next node hone =>
    have hsel : hop.select w w' opts = some node := by
      unfold Hop.select selectBy
      rw [hbypass, hone]
      rfl
    simp [hsel]
  next hnil hone =>
    have hsel : hop.select w w' opts =
        selectPoolBy (hop.selector.map fun s => s.select w'.now (hop.view w'))
          (candidates hop.nodes (hop.failed w) opts) := by
      unfold Hop.select selectBy
      rw [hbypass]
      split
      next h => cases h
      · split
        next h => exact absurd h hnil
        next node h => exact absurd h (hone node)
        · rfl
    rw [hsel, selectPoolBy_ne_none_iff hnil, selectMixedBy,
      selectTierBy_ne_none_iff (nil_notMem_tiers _)]
    refine or_congr_right (exists_congr fun tier => and_congr_right fun _ => ?_)
    cases hs : hop.selector with
    | none => simp
    | some s =>
      simp only [Option.map_some, Option.some.injEq, forall_eq']
      exact Selector.select_ne_none_iff (hstrategy s hs)

end Offers

/-! ## Hops without bypasses and matchers -/

/-- A hop with a node and with a supported selector, without a bypass or a matcher anywhere. -/
structure Hop.Plain (hop : Hop) : Prop where
  nodes_ne_nil : hop.nodes ≠ []
  bypass : hop.bypass = none
  unmatched : ∀ n ∈ hop.nodes, n.options.bypass = none ∧ n.options.matcher = none
  strategy : ∀ s, hop.selector = some s → Yields s.strategy

/-! ## Routes with nodes -/

section Proxied

variable {multiplex : Node → Bool} {looks : Looks} {opts : SelectOptions}

theorem Route.extend_nodes_ne_nil (rt : Route) (node : Node) :
    (rt.extend multiplex node).nodes ≠ [] := by
  unfold Route.extend
  split
  · exact cons_ne_nil node []
  · exact append_ne_nil_of_right_ne_nil _ (cons_ne_nil node [])

/-- Once a route has a node it keeps one: every hop adds a node or ends the route. -/
theorem extendRoute_nodes_ne_nil (hops : List Hop) {rt : Route} (h : rt.nodes ≠ []) (i : ℕ) :
    (extendRoute multiplex looks opts rt i hops).nodes ≠ [] := by
  induction hops generalizing rt i with
  | nil => exact h
  | cons hop hops ih =>
    rw [extendRoute]
    split
    · exact h
    · exact ih (rt.extend_nodes_ne_nil _) (i + 1)

/-- The first hop offers a node. -/
def Chain.Offers (c : Chain) (looks : Looks) (opts : SelectOptions) : Prop :=
  ∃ hop hops, c.hops = hop :: hops ∧ hop.Offers (looks 0).1 (looks 0).2 opts

/-- The route of a chain has a node exactly if its first hop offers one. -/
theorem Chain.route_proxied_iff {c : Chain} (hplain : ∀ hop ∈ c.hops, hop.Plain) :
    Proxied (c.route multiplex looks opts) ↔ c.Offers looks opts := by
  unfold Chain.route Chain.Offers Proxied
  cases hhops : c.hops with
  | nil => simp
  | cons hop hops =>
    have hhop : hop.Plain := hplain hop (hhops ▸ mem_cons_self)
    have hiff := Hop.select_ne_none_iff hhop.bypass hhop.strategy (looks 0).1 (looks 0).2 opts
    have hroute : (extendRoute multiplex looks opts {} 0 (hop :: hops)).nodes ≠ [] ↔
        hop.select (looks 0).1 (looks 0).2 opts ≠ none := by
      rw [extendRoute]
      split
      next hnone => simp [hnone]
      next node hsome =>
        simp [hsome, extendRoute_nodes_ne_nil hops (Route.extend_nodes_ne_nil _ node) 1]
    simp [hroute, hiff]

/-- The entries that the selector of a group is left with. -/
def ChainGroup.left (g : ChainGroup) (now : ℕ) (marker : ℕ → Marker) : List ChainEntry :=
  g.selector.elim (g.entries.take 1) fun s =>
    kept s.filters now (ChainEntry.view marker) g.entries

theorem ChainGroup.left_subset (g : ChainGroup) (now : ℕ) (marker : ℕ → Marker) :
    g.left now marker ⊆ g.entries := by
  unfold ChainGroup.left
  cases g.selector with
  | none => exact take_subset 1 g.entries
  | some s => exact kept_subset s.filters

/-- The group with another strategy. -/
def ChainGroup.withStrategy (strategy : List ChainEntry → Option ChainEntry) (g : ChainGroup) :
    ChainGroup :=
  { g with selector := g.selector.map fun s => { s with strategy } }

section Groups

variable {g : ChainGroup} {strategy : List ChainEntry → Option ChainEntry} {now : ℕ}
  {marker : ℕ → Marker} (hmatcher : ∀ e ∈ g.entries, e.matcher = none) (req : RoutingRequest)
include hmatcher

/-- Without matchers the strategy is given what the filters leave. -/
theorem ChainGroup.selectChain_withStrategy :
    (g.withStrategy strategy).selectChain now marker req =
      if (g.left now marker).isEmpty then none
      else g.selector.elim (g.left now marker).head? fun _ => strategy (g.left now marker) := by
  have hany : g.entries.any (·.matcher.isSome) = false := by
    rw [any_eq_false]
    intro e he
    simp [hmatcher e he]
  unfold ChainGroup.selectChain ChainGroup.selectFrom ChainGroup.withStrategy ChainGroup.left
  rw [hany, if_neg Bool.false_ne_true]
  cases g.selector with
  | none => cases g.entries <;> rfl
  | some s =>
    cases hentries : g.entries with
    | nil =>
      have hkept : kept s.filters now (ChainEntry.view marker) [] = [] :=
        subset_nil.mp (kept_subset s.filters)
      simp [hkept]
    | cons e entries => rfl

theorem ChainGroup.selectChain_mem_left (hpicks : Picks strategy) (hleft : g.left now marker ≠ []) :
    ∃ e ∈ g.left now marker, (g.withStrategy strategy).selectChain now marker req = some e := by
  rw [selectChain_withStrategy hmatcher, if_neg (by simpa using hleft)]
  cases g.selector with
  | none => exact ⟨_, head_mem hleft, head?_eq_some_head hleft⟩
  | some s => exact hpicks _ hleft

/-- Each of them is selected by some strategy. -/
theorem ChainGroup.exists_selectChain {e : ChainEntry} (he : e ∈ g.left now marker) :
    ∃ strategy, Picks strategy ∧
      (g.withStrategy strategy).selectChain now marker req = some e := by
  have hne : ¬(g.left now marker).isEmpty = true := by
    simpa using ne_nil_of_mem he
  obtain ⟨strategy, hpicks, hpick⟩ := exists_picks e
  refine ⟨strategy, hpicks, ?_⟩
  rw [selectChain_withStrategy hmatcher, if_neg hne]
  cases hs : g.selector with
  | none =>
    unfold ChainGroup.left at he ⊢
    rw [hs, Option.elim_none] at he ⊢
    cases hentries : g.entries with
    | nil => simp [hentries] at he
    | cons e' entries =>
      rw [hentries, take_succ_cons, take_zero, mem_singleton] at he
      rw [he]
      rfl
  | some s => exact hpick _ he

end Groups

end Proxied

/-! ## When a router dials through its chains -/

namespace Chainer

/-- A chain, or a group of chains, without a bypass or a matcher. -/
def Plain : Chainer → Prop
  | .chain c => ∀ hop ∈ c.hops, hop.Plain
  | .group g => ∀ e ∈ g.entries, e.matcher = none ∧ ∀ hop ∈ e.chain.hops, hop.Plain

/-- The filters of a group leave an entry, and the first hops of the chains offer a node. -/
def Served (a : Attempt) (opts : SelectOptions) : Chainer → Prop
  | .chain c => c.Offers a.looks opts
  | .group g => g.left a.now a.entryMarker ≠ [] ∧
      ∀ e ∈ g.left a.now a.entryMarker, e.chain.Offers a.looks opts

/-- The group with another strategy. -/
def withStrategy (strategy : List ChainEntry → Option ChainEntry) : Chainer → Chainer
  | .chain c => .chain c
  | .group g => .group (g.withStrategy strategy)

/-- The route of a plain chainer has a node, whatever the strategy of the group is, exactly if the
filters leave an entry, and every chain that they leave offers a node. -/
theorem route_proxied_iff {c : Chainer} (hplain : c.Plain) (multiplex : Node → Bool) (a : Attempt)
    (opts : SelectOptions) :
    (∀ strategy, Picks strategy → Proxied ((c.withStrategy strategy).route multiplex a opts)) ↔
      c.Served a opts := by
  cases c with
  | chain c =>
    have hiff : Proxied (c.route multiplex a.looks opts) ↔ c.Offers a.looks opts :=
      Chain.route_proxied_iff hplain
    exact ⟨fun h => hiff.mp (h _ picks_head), fun h _ _ => hiff.mpr h⟩
  | group g =>
    have hmatcher : ∀ e ∈ g.entries, e.matcher = none := fun e he => (hplain e he).1
    have hiff : ∀ e ∈ g.left a.now a.entryMarker,
        Proxied (e.chain.route multiplex a.looks opts) ↔ e.chain.Offers a.looks opts :=
      fun e he => Chain.route_proxied_iff (hplain e (g.left_subset _ _ he)).2
    refine ⟨fun h => ⟨fun hnil => ?_, fun e he => ?_⟩,
      fun ⟨hleft, hoffers⟩ strategy hstrategy => ?_⟩
    · have hroute := h _ picks_head
      simp [withStrategy, Chainer.route, Proxied,
        ChainGroup.selectChain_withStrategy hmatcher, hnil] at hroute
    · obtain ⟨strategy, hstrategy, hsel⟩ := ChainGroup.exists_selectChain hmatcher opts.routing he
      have hroute := h strategy hstrategy
      simp only [withStrategy, Chainer.route, hsel, Option.bind_some] at hroute
      exact (hiff e he).mp hroute
    · obtain ⟨e, he, hsel⟩ :=
        ChainGroup.selectChain_mem_left hmatcher opts.routing hstrategy hleft
      simp only [withStrategy, Chainer.route, hsel, Option.bind_some]
      exact (hiff e he).mpr (hoffers e he)

end Chainer

namespace Router

/-- The attempts that are made: the last one is the first whose connection is established. -/
def made : List Attempt → List Attempt
  | [] => []
  | a :: attempts => a :: if a.resolved.isSome && a.connects then [] else made attempts

variable {r : Router} {network address : Bytes}

theorem mem_dialLoop {attempts : List Attempt} {rt : Option Route} :
    rt ∈ r.dialLoop network address attempts ↔
      ∃ a ∈ made attempts, ∃ ip, a.resolved = some ip ∧ rt = r.route network address a ip := by
  induction attempts with
  | nil => simp [dialLoop, made]
  | cons a attempts ih =>
    rw [dialLoop, made, exists_mem_cons_iff]
    cases hip : a.resolved with
    | none => simpa [hip] using ih
    | some ip =>
      simp only [Option.some.injEq, exists_eq_left', mem_cons, Option.isSome_some, Bool.true_and]
      refine or_congr_right ?_
      split
      · simp
      · exact ih

/-- A chain of one hop with the default selector. -/
def oneHop (nodes : List Node) (filters : List Filter) : Chain where
  id := 0
  hops := [{ nodes, selector := some { filters, strategy := List.head? } }]

def plainNode (id : ℕ) : Node := { id, name := [], addr := [], built := some {} }

/-- Two chains with probes. -/
def probedGroup : ChainGroup where
  entries := [
    { id := 0, chain := oneHop [plainNode 0] defaultFilters },
    { id := 1, chain := oneHop [plainNode 1] defaultFilters }]
  selector := some { filters := defaultFilters, strategy := List.head? }

theorem plain_oneHop (id : ℕ) (filters : List Filter) :
    ∀ hop ∈ (oneHop [plainNode id] filters).hops, hop.Plain := by
  intro hop hhop
  rw [mem_singleton.mp hhop]
  refine ⟨cons_ne_nil _ _, rfl, fun n hn => ?_, fun s hs => ?_⟩
  · rw [mem_singleton.mp hn]
    exact ⟨rfl, rfl⟩
  · cases hs
    exact picks_head.yields

theorem exists_of_mem_probedGroup {e : ChainEntry} (he : e ∈ probedGroup.entries) :
    ∃ id, e = { id, chain := oneHop [plainNode id] defaultFilters } := by
  rcases mem_cons.mp he with rfl | he
  · exact ⟨0, rfl⟩
  · exact ⟨1, mem_singleton.mp he⟩

theorem plain_probedGroup : (Chainer.group probedGroup).Plain := by
  intro e he
  obtain ⟨id, rfl⟩ := exists_of_mem_probedGroup he
  exact ⟨rfl, plain_oneHop id _⟩

end Router

end Chains

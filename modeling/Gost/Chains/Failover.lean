import Gost.Chains.Route
import Gost.Lib.TransitionSystem

/-!
# Failover between the chains of a group

`chainRoute.connect` counts the failures of a chain on the marker of the chain. A group selects by
the markers of its entries, which only probes set, and an entry shows no metadata. So without probes
the filters of a group leave every entry (`left_eq_entries`), whatever the chains have gone through,
and the selection agrees with the markers and metadata of the chains exactly where the filters would
leave every chain.
-/

namespace Chains

open List Option Sniffer TransitionSystem

/-! ## What dials do to the markers -/

/-- The clock and the markers. -/
structure Marks where
  now : ℕ := 0
  node : ℕ → Marker := fun _ => {}
  chain : ℕ → Marker := fun _ => {}
  entry : ℕ → Marker := fun _ => {}

/-- The nodes of a route one after the other, each with whether it is reached: resolved, dialed and
shaken hands with. Tells whether all of them are. -/
def connectNodes (w : Marks) : List (ℕ × Bool) → Marks × Bool
  | [] => (w, true)
  | (id, true) :: nodes =>
    connectNodes { w with node := Function.update w.node id (w.node id).reset } nodes
  | (id, false) :: _ =>
    ({ w with node := Function.update w.node id ((w.node id).mark w.now) }, false)

/-- `chainRoute.connect` for a route of the chain. -/
def connect (chain : ℕ) (w : Marks) (nodes : List (ℕ × Bool)) : Marks :=
  let w' := (connectNodes w nodes).1
  let marker := if (connectNodes w nodes).2 then (w'.chain chain).reset
    else (w'.chain chain).mark w.now
  { w' with chain := Function.update w'.chain chain marker }

inductive Event
  | tick (d : ℕ)
  -- a dial through the group: what the strategy does, and the routes of the selected chain that are
  -- connected, those of its tunnels first
  | dial (strategy : List ChainEntry → Option ChainEntry) (req : RoutingRequest)
      (connects : List (List (ℕ × Bool)))

/-- One event in the life of a group without probes. -/
def ChainGroup.step (g : ChainGroup) (w : Marks) : Event → Option Marks
  | .tick d => some { w with now := w.now + d }
  | .dial strategy req connects =>
    match (g.withStrategy strategy).selectChain w.now w.entry req with
    | none => some w
    | some e => some (connects.foldl (connect e.chain.id) w)

/-- What a chain shows to the filters. -/
def Chain.view (marker : ℕ → Marker) (c : Chain) : View where
  marker := some (marker c.id)
  metadata := some c.metadata

/-! ## The markers of the entries -/

theorem connectNodes_entry (w : Marks) (nodes : List (ℕ × Bool)) :
    (connectNodes w nodes).1.entry = w.entry := by
  induction nodes generalizing w with
  | nil => rfl
  | cons node nodes ih =>
    obtain ⟨id, reached⟩ := node
    cases reached with
    | true => exact ih _
    | false => rfl

theorem connect_entry (chain : ℕ) (w : Marks) (nodes : List (ℕ × Bool)) :
    (connect chain w nodes).entry = w.entry := connectNodes_entry w nodes

variable {g : ChainGroup} {w : Marks} {events : List Event}

theorem ChainGroup.step_entry {w' : Marks} {event : Event} (h : g.step w event = some w') :
    w'.entry = w.entry := by
  have hconnects : ∀ (chain : ℕ) (connects : List (List (ℕ × Bool))) (w : Marks),
      (connects.foldl (connect chain) w).entry = w.entry := by
    intro chain connects
    induction connects with
    | nil => exact fun _ => rfl
    | cons nodes connects ih => exact fun w => (ih _).trans (connect_entry chain w nodes)
  cases event with
  | tick d => rw [← some.inj h]
  | dial strategy req connects =>
    rw [ChainGroup.step] at h
    split at h
    · rw [some.inj h]
    · cases h
      exact hconnects _ _ _

/-- Dials leave the markers of the entries as they were made. -/
theorem ChainGroup.run_entry (hrun : run g.step {} events = some w) : w.entry = fun _ => {} :=
  run_induction (I := fun w => w.entry = fun _ => {})
    (fun _ _ _ hw hstep => (step_entry hstep).trans hw) rfl hrun

theorem kept_entries {filters : List Filter} {now : ℕ} {vs : List ChainEntry} :
    kept filters now (ChainEntry.view fun _ => {}) vs = vs := by
  induction filters with
  | nil => rfl
  | cons filter filters ih =>
    have hsame : filter.apply now (ChainEntry.view fun _ => {}) vs = vs := by
      cases filter with
      | fail maxFails failTimeout =>
        refine Filter.apply_fail_eq_self fun v _ => isFailed_eq_false_of_count (fun m hm => ?_) _ _
        rw [← some.inj hm]
      | backup => exact Filter.apply_backup_eq_self fun _ _ => rfl
      | latency maxLatency =>
        change (if _ then _ else _) = vs
        split
        · rfl
        · exact filter_eq_self.mpr fun _ _ => rfl
    rw [kept_cons, hsame, ih]

/-- The filters of the group leave every entry. -/
theorem ChainGroup.left_eq_entries {s : Selector ChainEntry} (hselector : g.selector = some s)
    (hrun : run g.step {} events = some w) : g.left w.now w.entry = g.entries := by
  unfold ChainGroup.left
  rw [hselector, run_entry hrun]
  exact kept_entries

/-- After every history of dials, whatever the strategy, the chain that a group selects is one that
its filters would leave of the chains, with their own markers and metadata, exactly if they would
leave every chain. -/
theorem ChainGroup.selected_kept_iff (g : ChainGroup)
    (hmatcher : ∀ e ∈ g.entries, e.matcher = none) {s : Selector ChainEntry}
    (hselector : g.selector = some s) {events : List Event} {w : Marks}
    (hrun : run g.step {} events = some w) :
    (∀ strategy, Picks strategy → ∀ req e,
      (g.withStrategy strategy).selectChain w.now w.entry req = some e →
        e.chain ∈ kept s.filters w.now (Chain.view w.chain) (g.entries.map (·.chain))) ↔
      ∀ e ∈ g.entries,
        e.chain ∈ kept s.filters w.now (Chain.view w.chain) (g.entries.map (·.chain)) := by
  have hleft := left_eq_entries hselector hrun
  constructor
  · intro h e he
    have hreq : RoutingRequest := ⟨[], [], [], [], [], [], [], [], []⟩
    obtain ⟨strategy, hpicks, hsel⟩ := exists_selectChain hmatcher hreq (hleft ▸ he)
    exact h strategy hpicks hreq e hsel
  · intro h strategy hpicks req e hsel
    rw [selectChain_withStrategy hmatcher, hleft, hselector] at hsel
    split at hsel
    · cases hsel
    next hne =>
      obtain ⟨e', he', hpick⟩ := hpicks g.entries (by simpa using hne)
      rw [elim_some, hpick, some.injEq] at hsel
      exact h e (hsel ▸ he')

/-- Two chains without probes. -/
def plainGroup : ChainGroup where
  entries := [
    { id := 0, chain := { id := 0, hops := [{ nodes := [Router.plainNode 0] }] } },
    { id := 1, chain := { id := 1, hops := [{ nodes := [Router.plainNode 1] }] } }]
  selector := some { filters := defaultFilters, strategy := List.head? }

def emptyRequest : RoutingRequest := ⟨[], [], [], [], [], [], [], [], []⟩

theorem ChainGroup.selected_kept_fresh :
    ∃ e, plainGroup.selectChain 0 (fun _ => {}) emptyRequest = some e ∧
      e.chain ∈ kept defaultFilters 0 (Chain.view fun _ => {})
        (plainGroup.entries.map (·.chain)) := by
  have hall : kept defaultFilters 0 (Chain.view fun _ => {}) (plainGroup.entries.map (·.chain)) =
      plainGroup.entries.map (·.chain) := rfl
  have hkept := (selected_kept_iff plainGroup (by simp [plainGroup]) rfl
    (show run plainGroup.step {} [] = some {} from rfl)).mpr
    fun e he => hall ▸ mem_map_of_mem he
  exact ⟨_, rfl, hkept _ picks_head emptyRequest _ rfl⟩

/-- A chain that could not be connected is selected again, though the filters would leave only the
other one. -/
theorem ChainGroup.failed_chain_selected :
    ((run plainGroup.step {} [.dial List.head? emptyRequest [[(0, false)]]]).map fun w =>
      (((plainGroup.withStrategy List.head?).selectChain w.now w.entry emptyRequest).map
        (·.chain.id),
      (kept defaultFilters w.now (Chain.view w.chain) (plainGroup.entries.map (·.chain))).map
        (·.id))) = some (some 0, [1]) := by
  decide +kernel

end Chains

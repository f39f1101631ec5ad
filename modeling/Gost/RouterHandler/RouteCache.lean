import Gost.Lib.TransitionSystem
import Gost.Reload.Router

/-!
# The route cache of the router handler

`getRoute` of `x/handler/router/associate.go` over the cache of `x/internal/util/cache`. The routers
of the registry and the fallback router have fixed tables, the clock is advanced by the environment.
A panic of a router is an outcome of its own, `none`, and a cached `nil` is a route like any other.

The key of the cache is the destination. `results_uncached_iff` says what that means for the router
identifiers: an entry answers lookups under every identifier with the route of the one under which
it was stored.
-/

namespace RouterHandler

open Bytes TransitionSystem
open Reload.Router (Net Route)

variable {IP IPNet : Type*}

/-! ## The cache -/

/-- `cache.Item`, with times in nanoseconds. An expiration of 0 is none. -/
structure Item (α : Type*) where
  v : α
  expiration : ℤ
deriving DecidableEq, Repr

namespace Item

variable {α : Type*}

/-- `NewItem`. -/
def new (now : ℤ) (v : α) (d : ℤ) : Item α := ⟨v, if 0 < d then now + d else 0⟩

/-- `Expired`. -/
def expired (now : ℤ) (item : Item α) : Bool := 0 < item.expiration && item.expiration < now

end Item

/-! ## The handler -/

/-- What a router returns: no route, a route, or, if it panics, nothing. -/
abbrev Outcome (IPNet : Type*) := Option (Option (Route IPNet))

/-- The handler with the routers it can reach. A list of routes is one of pointers. -/
structure Handler (IP IPNet : Type*) where
  net : Net IP IPNet
  /-- the tables in `RouterRegistry()` -/
  registry : Bytes → Option (List (Option (Route IPNet)))
  /-- `md.router` -/
  router : Option (List (Option (Route IPNet)))
  routerCacheEnabled : Bool
  routerCacheExpiration : ℤ

/-- `routeCache` and the clock. `storedUnder` is not in the source and nothing reads it: the router
identifier of the lookup that stored the entry of a destination. -/
structure State (IPNet : Type*) where
  now : ℤ
  routeCache : Bytes → Option (Item (Option (Route IPNet)))
  storedUnder : Bytes → Bytes

namespace Handler

variable (h : Handler IP IPNet)

/-- The lookup of `getRoute` without the cache. The registry has nothing under the empty name. -/
def lookup (rid dst : Bytes) : Outcome IPNet :=
  let registered : Outcome IPNet :=
    match if rid = [] then none else h.registry rid with
    | some routes => Reload.Router.getRoute h.net routes dst
    | none => some none
  registered.bind fun route =>
    match route, h.router with
    | none, some routes => Reload.Router.getRoute h.net routes dst
    | route, _ => some route

/-- The entry of the cache that answers a lookup. -/
def cached (s : State IPNet) (dst : Bytes) : Option (Item (Option (Route IPNet))) :=
  if h.routerCacheEnabled then (s.routeCache dst).filter fun item => !item.expired s.now else none

/-- `getRoute`. The routers take the time `elapsed`. -/
def getRoute (s : State IPNet) (rid dst : Bytes) (elapsed : ℕ) : Outcome IPNet × State IPNet :=
  match h.cached s dst with
  | some item => (some item.v, s)
  | none =>
    let now := s.now + elapsed
    match h.lookup rid dst with
    | none => (none, { s with now })
    | some route =>
      if h.routerCacheEnabled then
        let item := Item.new now route h.routerCacheExpiration
        (some route, ⟨now, Function.update s.routeCache dst (some item),
          Function.update s.storedUnder dst rid⟩)
      else (some route, { s with now })

/-! ## Runs -/

inductive Op
  | lookup (rid dst : Bytes) (elapsed : ℕ)
  | tick (d : ℕ)
deriving DecidableEq, Repr

def step (s : State IPNet) : Op → Option (State IPNet)
  | .lookup rid dst elapsed => some (h.getRoute s rid dst elapsed).2
  | .tick d => some { s with now := s.now + d }

/-- `NewCache`. -/
def init (now : ℤ) : State IPNet := ⟨now, fun _ => none, fun _ => []⟩

/-- The lookup returns what it returns without the cache. -/
def Uncached (s : State IPNet) : Op → Prop
  | .lookup rid dst elapsed => (h.getRoute s rid dst elapsed).1 = h.lookup rid dst
  | .tick _ => True

/-- If the cache answers the lookup, the router that the entry comes from has the same route. -/
def SameRoute (s : State IPNet) : Op → Prop
  | .lookup rid dst _ =>
    (h.cached s dst).isSome = true → h.lookup (s.storedUnder dst) dst = h.lookup rid dst
  | .tick _ => True

/-- The entries are routes that were looked up under the identifier they are stored under. -/
def Stored (s : State IPNet) : Prop :=
  ∀ dst item, s.routeCache dst = some item → h.lookup (s.storedUnder dst) dst = some item.v

/-! ## What the entries are -/

variable {h} {s s' : State IPNet} {dst rid : Bytes}

theorem eq_of_cached {item : Item (Option (Route IPNet))} (hcached : h.cached s dst = some item) :
    s.routeCache dst = some item := by
  unfold cached at hcached
  split_ifs at hcached
  exact Option.eq_some_of_filter_eq_some hcached

theorem stored_init (now : ℤ) : h.Stored (init now) := nofun

theorem Stored.update {now : ℤ} {route : Option (Route IPNet)} {expiration : ℤ} (hs : h.Stored s)
    (hroute : h.lookup rid dst = some route) :
    h.Stored ⟨now, Function.update s.routeCache dst (some ⟨route, expiration⟩),
      Function.update s.storedUnder dst rid⟩ := by
  intro dst' item hitem
  change Function.update s.routeCache dst _ dst' = some item at hitem
  show h.lookup (Function.update s.storedUnder dst rid dst') dst' = some item.v
  by_cases hdst : dst' = dst
  · subst hdst
    rw [Function.update_self, Option.some.injEq] at hitem
    rw [Function.update_self, hroute, ← hitem]
  · rw [Function.update_of_ne hdst] at hitem ⊢
    exact hs dst' item hitem

theorem Stored.getRoute (hs : h.Stored s) (rid dst : Bytes) (elapsed : ℕ) :
    h.Stored (h.getRoute s rid dst elapsed).2 := by
  unfold Handler.getRoute
  cases h.cached s dst with
  | some item => exact hs
  | none =>
    cases hroute : h.lookup rid dst with
    | none => exact hs -- a router panicked, and nothing was stored
    | some route =>
      by_cases henabled : h.routerCacheEnabled = true
      · simp only [henabled, if_true]
        exact hs.update hroute
      · simp only [henabled]
        exact hs

theorem Stored.step {op : Op} (hs : h.Stored s) (hstep : h.step s op = some s') :
    h.Stored s' := by
  cases op with
  | lookup rid dst elapsed =>
    cases hstep
    exact hs.getRoute rid dst elapsed
  | tick d =>
    cases hstep
    exact hs

theorem getRoute_of_miss (elapsed : ℕ) (hmiss : h.cached s dst = none) :
    (h.getRoute s rid dst elapsed).1 = h.lookup rid dst := by
  unfold Handler.getRoute
  rw [hmiss]
  cases h.lookup rid dst with
  | none => rfl
  | some route =>
    by_cases henabled : h.routerCacheEnabled = true
    · simp only [henabled, if_true]
    · simp only [henabled]
      rfl

theorem getRoute_of_hit (elapsed : ℕ) (hs : h.Stored s) (hhit : (h.cached s dst).isSome = true) :
    (h.getRoute s rid dst elapsed).1 = h.lookup (s.storedUnder dst) dst := by
  obtain ⟨item, hitem⟩ := Option.isSome_iff_exists.mp hhit
  rw [hs dst item (eq_of_cached hitem), Handler.getRoute, hitem]

theorem uncached_iff_sameRoute (hs : h.Stored s) (op : Op) :
    h.Uncached s op ↔ h.SameRoute s op := by
  cases op with
  | tick d => rfl
  | lookup rid dst elapsed =>
    show (h.getRoute s rid dst elapsed).1 = _ ↔ (_ → _)
    by_cases hhit : (h.cached s dst).isSome = true
    · -- the entry has the route of the identifier it was stored under, not of `rid`
      rw [getRoute_of_hit elapsed hs hhit]
      exact ⟨fun heq _ => heq, fun heq => heq hhit⟩
    · have hmiss : h.cached s dst = none := by simpa using hhit
      exact iff_of_true (getRoute_of_miss elapsed hmiss) fun hsome => absurd hsome hhit

/-- In a run, every lookup returns what it returns without the cache exactly if every lookup that
the cache answers is one whose router has the same route as the router the entry comes from. -/
theorem results_uncached_iff (h : Handler IP IPNet) (now : ℤ) (ops : List Op) :
    Along h.step h.Uncached (init now) ops ↔ Along h.step h.SameRoute (init now) ops :=
  along_iff_of_invariant (J := h.Stored) (fun _ _ _ hs hstep => hs.step hstep)
    (fun _ op hs => uncached_iff_sameRoute hs op) (stored_init now) ops

/-- Two routers that send one destination to gateways of their own; entries live for a second. -/
def twoTenants : Handler Unit Unit where
  net := ⟨fun _ => none, fun _ => none, fun _ _ => false⟩
  registry rid :=
    if rid = bytes "a" then some [some ⟨none, bytes "10.0.0.1", bytes "gw-a"⟩]
    else if rid = bytes "b" then some [some ⟨none, bytes "10.0.0.1", bytes "gw-b"⟩]
    else none
  router := none
  routerCacheEnabled := true
  routerCacheExpiration := 1000000000

theorem tenants_mixed :
    ∃ s, twoTenants.step (init 1) (.lookup (bytes "a") (bytes "10.0.0.1") 0) = some s ∧
      (twoTenants.getRoute s (bytes "b") (bytes "10.0.0.1") 0).1 =
        some (some ⟨none, bytes "10.0.0.1", bytes "gw-a"⟩) ∧
      twoTenants.lookup (bytes "b") (bytes "10.0.0.1") =
        some (some ⟨none, bytes "10.0.0.1", bytes "gw-b"⟩) := by
  refine ⟨_, rfl, ?_, ?_⟩ <;> decide

end Handler

end RouterHandler

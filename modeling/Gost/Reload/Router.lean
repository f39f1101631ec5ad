import Gost.Reload.Ingress

/-!
# The routes of a router

`x/router/router.go` and `x/router/router_linux.go`: `reload` appends the routes that the loaders
give to those of the configuration and, on Linux, sets them in the system as well. `GetRoute` goes
through them. The list is one of pointers, and to read the fields of `none` is a panic, so `reload`,
`setSysRoutes` and `getRoute` return an `Option`.
-/

namespace Reload.Router

open Bytes List Text

/-- What is used of package `net`. -/
structure Net (IP IPNet : Type*) where
  parseCIDR : Bytes → Option IPNet
  parseIP : Bytes → Option IP
  contains : IPNet → Option IP → Bool

structure Route (IPNet : Type*) where
  net : Option IPNet
  dst : Bytes
  gateway : Bytes
deriving DecidableEq, Repr

/-- Where the router runs. -/
structure Host (IP IPNet : Type*) where
  linux : Bool
  -- whether `netlink.RouteReplace` succeeds
  routeReplace : IPNet → IP → Bool

variable {IP IPNet : Type*} (net : Net IP IPNet)

/-! ## Loading -/

/-- `ParseRoute`. -/
def parseRoute (dst gateway : Bytes) : Option (Route IPNet) :=
  if dst = [] then none else some ⟨net.parseCIDR dst, dst, gateway⟩

/-- `parseLine`. -/
def parseLine : Bytes → Option (Route IPNet) := parseFields (parseRoute net)

/-- `parseRoutes`; its callers drop the routes if the scanner failed. -/
def parseRoutes : Option Bytes → List (Route IPNet)
  | none => []
  | some text =>
    if (scanLines text).2 then [] else (scanLines text).1.filterMap (parseLine net)

/-- `load`. -/
def load (l : Loaders) : List (Option (Route IPNet)) := l.load (parseLine net) (parseRoutes net)

/-! ## Reloading -/

/-- `setSysRoutes` on Linux: whether all routes were set. -/
def setSysRoutes (host : Host IP IPNet) : List (Option (Route IPNet)) → Option Bool
  | [] => some true
  | none :: _ => none
  | some route :: routes =>
    match route.net, net.parseIP route.gateway with
    | some dst, some gw =>
      if host.routeReplace dst gw then setSysRoutes host routes else some false
    | _, _ => setSysRoutes host routes

/-- `reload`, with the routes of the configuration. An error of `setSysRoutes` is only logged. -/
def reload (host : Host IP IPNet) (noSysRoute : Bool) (routes : List (Route IPNet))
    (l : Loaders) : Option (List (Option (Route IPNet))) :=
  let routes := routes.map some ++ load net l
  if host.linux && !noSysRoute then (setSysRoutes net host routes).map fun _ => routes
  else some routes

/-- The loop of `GetRoute`. -/
def matchRoute (dst : Bytes) : List (Option (Route IPNet)) → Option (Option (Route IPNet))
  | [] => some none
  | none :: _ => none
  | some route :: routes =>
    if route.dst = dst ∨ route.net.any (net.contains · (net.parseIP dst)) then some (some route)
    else matchRoute dst routes

/-- `GetRoute`. -/
def getRoute (routes : List (Option (Route IPNet))) (dst : Bytes) :
    Option (Option (Route IPNet)) :=
  if dst = [] then some none else matchRoute net dst routes

/-! ## Safety -/

variable {net}

theorem isSome_parseLine (s : Bytes) : (parseLine net s).isSome ↔ 2 ≤ (fields s).length :=
  isSome_parseFields (fun _ _ hdst => by rw [parseRoute, if_neg hdst]; rfl) s

variable (net) in
theorem isSome_setSysRoutes (host : Host IP IPNet) (routes : List (Route IPNet)) :
    (setSysRoutes net host (routes.map some)).isSome := by
  induction routes with
  | nil => rfl
  | cons route routes ih =>
    rw [map_cons, setSysRoutes]
    split
    · split_ifs
      · exact ih
      · rfl
    · exact ih

theorem isSome_getRoute (routes : List (Route IPNet)) (dst : Bytes) :
    (getRoute net (routes.map some) dst).isSome := by
  have hmatch : (matchRoute net dst (routes.map some)).isSome := by
    induction routes with
    | nil => rfl
    | cons route routes ih =>
      rw [map_cons, matchRoute]
      split_ifs
      · rfl
      · exact ih
  unfold getRoute
  split_ifs
  · rfl
  · exact hmatch

theorem eq_of_reload {host : Host IP IPNet} {noSysRoute : Bool} {routes : List (Route IPNet)}
    {l : Loaders} {loaded : List (Option (Route IPNet))}
    (h : reload net host noSysRoute routes l = some loaded) :
    loaded = routes.map some ++ load net l := by
  unfold reload at h
  split_ifs at h
  · obtain ⟨_, -, hloaded⟩ := Option.map_eq_some_iff.mp h
    exact hloaded.symm
  · exact (Option.some.inj h).symm

/-- `reload` completes, leaves the routes of what is well formed, and every `GetRoute` then is safe,
if and only if every line of a list has two fields. -/
theorem reload_safe_iff (host : Host IP IPNet) (noSysRoute : Bool) (routes : List (Route IPNet))
    (l : Loaders) :
    (∃ loaded, reload net host noSysRoute routes l = some loaded ∧
      loaded = (routes ++ l.accepted (parseLine net) (parseRoutes net)).map some ∧
      ∀ dst, (getRoute net loaded dst).isSome) ↔
      ∀ s ∈ l.listed, 2 ≤ (fields s).length := by
  constructor
  · rintro ⟨loaded, hreload, hloaded, -⟩ s hs
    by_contra hfields
    have hnone : parseLine net s = none :=
      Option.not_isSome_iff_eq_none.mp (mt (isSome_parseLine s).mp hfields)
    have hmem : none ∈ loaded := by
      rw [eq_of_reload hreload]
      exact mem_append_right _ (Loaders.none_mem_load hs hnone)
    rw [hloaded] at hmem
    obtain ⟨route, -, hroute⟩ := mem_map.mp hmem
    cases hroute
  · intro h
    have hload : load net l = (l.accepted (parseLine net) (parseRoutes net)).map some :=
      Loaders.load_eq_map_some fun s hs => (isSome_parseLine s).mpr (h s hs)
    refine ⟨_, ?_, rfl, isSome_getRoute _⟩
    unfold reload
    rw [hload, ← map_append]
    dsimp only
    split_ifs
    · obtain ⟨_, hset⟩ := Option.isSome_iff_exists.mp (isSome_setSysRoutes net host _)
      rw [hset]
      rfl
    · rfl

end Reload.Router

namespace Reload

open Router

/-- For an ingress and for a router alike: what the loaders give is taken without a panic, without
the lines that are not well formed and so that every later lookup is safe, if and only if every line
that comes in a list has two fields. -/
theorem safe_iff {IP IPNet : Type*} (net : Net IP IPNet) (host : Host IP IPNet) (noSysRoute : Bool)
    (rules : List Ingress.Rule) (routes : List (Route IPNet)) (l : Loaders) :
    ((∃ loaded, Ingress.reload rules l = some loaded ∧ loaded = Ingress.table rules l ∧
      ∀ host, (Ingress.getRule loaded host).isSome) ↔
      ∀ s ∈ l.listed, 2 ≤ (fields s).length) ∧
    ((∃ loaded, Router.reload net host noSysRoute routes l = some loaded ∧
      loaded = (routes ++ l.accepted (parseLine net) (parseRoutes net)).map some ∧
      ∀ dst, (getRoute net loaded dst).isSome) ↔
      ∀ s ∈ l.listed, 2 ≤ (fields s).length) :=
  ⟨Ingress.reload_safe_iff rules l, Router.reload_safe_iff host noSysRoute routes l⟩

/-- A comment in a list: the ingress panics in `reload`. So does the router if it sets the routes of
the system, and otherwise in `GetRoute`. -/
theorem comment_panics :
    let l : Loaders := { file := some (.lister [bytes "# rules"]) }
    let net : Net Unit Unit := ⟨fun _ => none, fun _ => none, fun _ _ => false⟩
    Ingress.reload [] l = none ∧ Router.reload net ⟨true, fun _ _ => true⟩ false [] l = none ∧
      Router.reload net ⟨true, fun _ _ => true⟩ true [] l = some [none] ∧
      getRoute net [none] (bytes "10.0.0.1") = none := by
  decide +kernel

end Reload

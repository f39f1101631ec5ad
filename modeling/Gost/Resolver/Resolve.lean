import Gost.Lib.TransitionSystem
import Gost.Resolver.Cache

/-!
# Resolving over a list of nameservers

`x/resolver/resolver.go`: `Resolve` asks the nameservers in order until one gives an address. All of
them share one cache, whose key is the question alone. A nameserver that is `Async` is not asked as
long as there is something in the cache; what has expired is refreshed in the background.

A nameserver answers a question always in the same way. The clock stands still during a call.
-/

namespace Resolver

open TransitionSystem

inductive Family
  | ipv4
  | ipv6
deriving DecidableEq, Repr

def Family.qtype : Family → ℕ
  | .ipv4 => typeA
  | .ipv6 => typeAAAA

/-- A nameserver as `NewResolver` leaves it. A preference is a text in the source; any other text
than the two families is as none. -/
structure NameServer (IP : Type*) where
  ttl : ℤ
  prefer : Option Family
  only : Option Family
  async : Bool
  -- what `exchange` comes to for a question, `none` for an error
  answer : Question → Option (Msg IP)

/-- A refresh in the background. -/
structure Job (IP : Type*) where
  server : NameServer IP
  host : Bytes
  callerPref : Option Family

structure LocalResolver (IP : Type*) where
  servers : List (NameServer IP)
  domain : Bytes
  texts : Texts
  parseIP : Bytes → Option IP

structure State (IP : Type*) where
  cache : Cache IP := []
  now : ℤ := 0
  jobs : List (Job IP) := []

variable {IP : Type*}

/-! ## One nameserver -/

/-- `dns.IsFqdn`: the last dot is not escaped. -/
def isFqdn (s : Bytes) : Bool :=
  match s.reverse with
  | 0x2e :: rest => (rest.takeWhile (· == 0x5c)).length % 2 == 0
  | _ => false

/-- `dns.Fqdn`. -/
def fqdn (s : Bytes) : Bytes := if isFqdn s then s else s ++ bytes "."

/-- `callerNetworkPref`. -/
def callerNetworkPref (network : Bytes) : Option Family :=
  if network = bytes "ip4" then some .ipv4
  else if network = bytes "ip6" then some .ipv6
  else none

/-- `resolvePreference`. -/
def resolvePreference (server : NameServer IP) (callerPref : Option Family) : Option Family :=
  server.only.orElse fun _ => callerPref.orElse fun _ => server.prefer

/-- `shouldReturn`. -/
def shouldReturn (ips : List IP) (server : NameServer IP) (callerPref : Option Family)
    (family : Family) : Bool :=
  !ips.isEmpty || server.only == some family || callerPref == some family

/-- The question for a host. -/
def question (host : Bytes) (family : Family) : Question :=
  ⟨fqdn host, classINET, family.qtype⟩

namespace LocalResolver

variable (r : LocalResolver IP)

/-- `exchange`, and what `resolveIPs` does with its result. -/
def ask (s : State IP) (server : NameServer IP) (q : Question) : State IP × Option (List IP) :=
  match server.answer q with
  | none => (s, none)
  | some mr =>
    ({ s with cache := s.cache.store s.now (r.texts.key q) mr server.ttl }, some (extractIPs mr))

/-- `resolveIPs`: the addresses, or `none` for an error. -/
def resolveIPs (s : State IP) (server : NameServer IP) (q : Question) :
    State IP × Option (List IP) :=
  match s.cache.load s.now (r.texts.key q) with
  | some (mr, ttl) => if 0 < ttl then (s, some (extractIPs mr)) else r.ask s server q
  | none => r.ask s server q

/-- `resolve4` and `resolve6`. -/
def resolveFamily (s : State IP) (server : NameServer IP) (host : Bytes) (family : Family) :
    State IP × Option (List IP) :=
  r.resolveIPs s server (question host family)

/-- `resolve`, with one nameserver. -/
def resolveVia (s : State IP) (server : NameServer IP) (host : Bytes) (callerPref : Option Family) :
    State IP × Option (List IP) :=
  if resolvePreference server callerPref = some .ipv6 then
    let (s, ips) := r.resolveFamily s server host .ipv6
    if shouldReturn (ips.getD []) server callerPref .ipv6 then (s, ips)
    else r.resolveFamily s server host .ipv4
  else
    let (s, ips) := r.resolveFamily s server host .ipv4
    if shouldReturn (ips.getD []) server callerPref .ipv4 then (s, ips)
    else r.resolveFamily s server host .ipv6

/-- `lookup` of `lookupCache`: the addresses and the TTL if there is an entry. -/
def lookup (s : State IP) (host : Bytes) (family : Family) : Option (List IP × ℤ) :=
  (s.cache.load s.now (r.texts.key (question host family))).map fun (mr, ttl) =>
    (extractIPs mr, ttl)

/-- `lookupCache`. -/
def lookupCache (s : State IP) (server : NameServer IP) (host : Bytes)
    (callerPref : Option Family) : Option (List IP × ℤ) :=
  let ips (entry : Option (List IP × ℤ)) := (entry.map (·.1)).getD []
  if resolvePreference server callerPref = some .ipv6 then
    let entry := r.lookup s host .ipv6
    if shouldReturn (ips entry) server callerPref .ipv6 then entry else r.lookup s host .ipv4
  else
    let entry := r.lookup s host .ipv4
    if shouldReturn (ips entry) server callerPref .ipv4 then entry else r.lookup s host .ipv6

def maxAsyncRefresh : ℕ := 32

/-- `resolveAsync`. -/
def resolveAsync (s : State IP) (server : NameServer IP) (host : Bytes)
    (callerPref : Option Family) : State IP × Option (List IP) :=
  match r.lookupCache s server host callerPref with
  | none => r.resolveVia s server host callerPref
  | some (ips, ttl) =>
    if ttl ≤ 0 ∧ s.jobs.length < maxAsyncRefresh then
      ({ s with jobs := s.jobs ++ [⟨server, host, callerPref⟩] }, some ips)
    else (s, some ips)

/-! ## All nameservers -/

/-- The body of the loop of `Resolve`. -/
def resolveServer (s : State IP) (server : NameServer IP) (host : Bytes)
    (callerPref : Option Family) : State IP × Option (List IP) :=
  if server.async then r.resolveAsync s server host callerPref
  else r.resolveVia s server host callerPref

/-- The loop of `Resolve`, with the result of the nameserver before. -/
def resolveLoop (host : Bytes) (callerPref : Option Family) :
    List (NameServer IP) → State IP → Option (List IP) → State IP × Option (List IP)
  | [], s, last => (s, last)
  | server :: servers, s, _ =>
    let (s, ips) := r.resolveServer s server host callerPref
    if (ips.getD []).isEmpty then resolveLoop host callerPref servers s ips else (s, ips)

/-- The host with the domain of the resolver. -/
def qualify (host : Bytes) : Bytes :=
  if r.domain ≠ [] ∧ 0x2e ∉ host then host ++ bytes "." ++ r.domain else host

/-- `Resolve`. -/
def resolve (s : State IP) (network host : Bytes) : State IP × Option (List IP) :=
  match r.parseIP host with
  | some ip => (s, some [ip])
  | none => r.resolveLoop (r.qualify host) (callerNetworkPref network) r.servers s (some [])

inductive Op
  | resolve (network host : Bytes)
  | tick (d : ℕ)
  -- the background job at a place of the list runs
  | refresh (i : ℕ)
deriving DecidableEq, Repr

def step (s : State IP) : Op → Option (State IP)
  | .resolve network host => some (r.resolve s network host).1
  | .tick d => some { s with now := s.now + d }
  | .refresh i =>
    (s.jobs[i]?).map fun job =>
      (r.resolveVia { s with jobs := s.jobs.eraseIdx i } job.server job.host job.callerPref).1

end LocalResolver

end Resolver

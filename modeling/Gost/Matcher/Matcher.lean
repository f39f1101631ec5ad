import Gost.Lib.HostPort
import Gost.Lib.Text
import Gost.Matcher.CidrTrie

/-!
# Matchers for addresses

The matchers of `x/internal/matcher` for `HOST:PORT` addresses, for wildcards and for ranges of IPs,
with the port and IP ranges of `x/internal/net`. A matcher is what its constructor makes of a list
of patterns. A map from hosts to port ranges is the list of its entries; a nil port range, which
stands for every port, is `none`.
-/

namespace Matcher

open Bytes Netip

/-- The functions of other packages: `strings.ToLower` and `glob`. -/
structure Packages (γ : Type) where
  toLower : Bytes → Bytes
  compile : Bytes → Option γ
  globMatch : γ → Bytes → Bool

/-- `splitHostPort`: an address that cannot be split is a host. -/
def splitHostPort (addr : Bytes) : Bytes × Bytes :=
  if 58 ∉ addr then (addr, [])
  else
    match HostPort.splitHostPort addr with
    | some (host, port) => (if host = [] then addr else host, port)
    | none => (addr, [])

/-- The first value of `strconv.Atoi`, which is clipped where the number does not fit, and zero
where there is none. -/
def atoiValue (s : Bytes) : ℤ :=
  match s with
  | 45 :: ds => (Resp.digits ds).elim 0 fun n => max (-2 ^ 63) (-n)
  | 43 :: ds => (Resp.digits ds).elim 0 fun n => min (2 ^ 63 - 1) n
  | ds => (Resp.digits ds).elim 0 fun n => min (2 ^ 63 - 1) n

/-! ## Port ranges -/

structure PortRange where
  min : ℤ
  max : ℤ
deriving DecidableEq, Repr

namespace PortRange

/-- `Parse`. The bounds are checked for a single port only. -/
def parse (s : Bytes) : Option PortRange :=
  match s.splitOn 45 with
  | [_] =>
    (Resp.atoi s).bind fun port => if port < 0 ∨ 65535 < port then none else some ⟨port, port⟩
  | [min, max] => (Resp.atoi min).bind fun min => (Resp.atoi max).map fun max => ⟨min, max⟩
  | _ => none

def contains (pr : PortRange) (port : ℤ) : Bool := pr.min ≤ port && port ≤ pr.max

end PortRange

def portRangeMatch (prs : List (Option PortRange)) (port : ℤ) : Bool :=
  prs.any fun pr => pr.all (·.contains port)

/-! ## Hosts with ports -/

section Hosts

variable {γ : Type} (pk : Packages γ)

/-- `AddrMatcher`. -/
def addrMatcher (addrs : List Bytes) : List (Bytes × Option PortRange) :=
  addrs.map fun addr =>
    let (host, port) := splitHostPort addr
    if host = [] then (pk.toLower addr, none) else (pk.toLower host, PortRange.parse port)

/-- The suffixes `.b.c` and `.c` of `a.b.c` in the order of the loop of `Match`, which ends at a
host that starts with a dot. Each round makes the host shorter. -/
def domainSuffixes : ℕ → Bytes → List Bytes
  | 0, _ => []
  | rounds + 1, host =>
    if 46 ∈ host ∧ host.head? ≠ some 46 then
      (46 :: (cut 46 host).2) :: domainSuffixes rounds (cut 46 host).2
    else []

/-- `Match` of an `addrMatcher`. -/
def addrMatch (addrs : List (Bytes × Option PortRange)) (addr : Bytes) : Bool :=
  let (host, sp) := splitHostPort addr
  let host := pk.toLower host
  (host :: (46 :: host) :: domainSuffixes host.length host).any fun name =>
    portRangeMatch ((addrs.filter fun entry => entry.1 == name).map (·.2)) (atoiValue sp)

/-- `WildcardMatcher`; a pattern that is no glob is left out. -/
def wildcardMatcher (patterns : List Bytes) : List (γ × Option PortRange) :=
  patterns.filterMap fun pattern =>
    let (host, port) := splitHostPort pattern
    (pk.compile (pk.toLower (if host = [] then pattern else host))).map
      (·, PortRange.parse port)

/-- `Match` of a `wildcardMatcher`. -/
def wildcardMatch (patterns : List (γ × Option PortRange)) (addr : Bytes) : Bool :=
  let (host, sp) := splitHostPort addr
  patterns.any fun (glob, pr) =>
    pk.globMatch glob (pk.toLower host) && pr.all (·.contains (atoiValue sp))

variable {pk}

@[simp]
theorem addrMatch_nil (addr : Bytes) : addrMatch pk [] addr = false := by
  simp only [addrMatch, List.any_eq_false]
  simp [portRangeMatch]

@[simp]
theorem wildcardMatch_nil (addr : Bytes) : wildcardMatch pk [] addr = false := rfl

end Hosts

/-! ## Ranges of IPs -/

structure IPRange where
  min : Addr
  max : Addr
deriving DecidableEq, Repr

namespace IPRange

/-- `Parse`: a single IP or `min-max`. -/
def parse (s : Bytes) : Option IPRange :=
  match s.splitOn 45 with
  | [_] => (parseAddr (Text.trimSpace s)).map fun addr => ⟨addr, addr⟩
  | [min, max] =>
    (parseAddr (Text.trimSpace min)).bind fun min =>
      (parseAddr (Text.trimSpace max)).map fun max => ⟨min, max⟩
  | _ => none

/-- `Contains`, which compares the addresses as they are. -/
def contains (r : IPRange) (addr : Addr) : Bool := !(addr.less r.min || r.max.less addr)

end IPRange

/-- `Match` of an `ipRangeMatcher`. -/
def ipRangeMatch (ranges : List IPRange) (addr : Bytes) : Bool :=
  match parseAddr (splitHostPort addr).1 with
  | some addr => ranges.any (·.contains addr)
  | none => false

/-! ## An address that can be split -/

theorem splitHostPort_joinHostPort {host port : Bytes} (hne : host ≠ [])
    (hhost : 91 ∉ host ∧ 93 ∉ host) (hport : 58 ∉ port ∧ 91 ∉ port ∧ 93 ∉ port) :
    splitHostPort (HostPort.joinHostPort host port) = (host, port) := by
  have hcolon : 58 ∈ HostPort.joinHostPort host port := by
    unfold HostPort.joinHostPort
    split_ifs <;> simp
  rw [splitHostPort, if_neg (not_not_intro hcolon), HostPort.splitHostPort_joinHostPort hhost hport]
  simp [hne]

end Matcher

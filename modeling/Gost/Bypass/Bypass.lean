import Gost.Matcher.Matcher

/-!
# Bypass rules and the two forms of an IPv4 address

`localBypass` of `x/bypass`. `classifyPatterns` sorts the patterns into four matchers, and `decide`
takes an address for matched if one of them matches it. The CIDR matcher takes an IPv4 address and
its IPv6 form `::ffff:a.b.c.d` for the same. The matcher of IP ranges, to which single IPs go as
well, does not: in its order every IPv4 address is below every IPv6 address.
-/

namespace Bypass

open List Matcher Netip

variable {γ : Type} (pk : Packages γ)

/-- What `classifyPatterns` takes a pattern for. -/
inductive Kind
  | cidr (inet : IPNet)
  | wildcard (pattern : Bytes)
  | ipRange (r : IPRange)
  | addr (pattern : Bytes)

/-- The body of the loop of `classifyPatterns`. An invalid wildcard falls through. -/
def classify (pattern : Bytes) : Kind :=
  match parseCIDR pattern with
  | some inet => .cidr inet
  | none =>
    if (pattern.any fun c => c == 42 || c == 63) ∧ (pk.compile pattern).isSome then
      .wildcard pattern
    else
      match IPRange.parse pattern with
      | some r => .ipRange r
      | none => .addr pattern

namespace Kind

def cidr? : Kind → Option IPNet
  | cidr inet => some inet
  | _ => none

def wildcard? : Kind → Option Bytes
  | wildcard pattern => some pattern
  | _ => none

def ipRange? : Kind → Option IPRange
  | ipRange r => some r
  | _ => none

def addr? : Kind → Option Bytes
  | addr pattern => some pattern
  | _ => none

end Kind

/-- The networks among the patterns. -/
def inets (patterns : List Bytes) : List IPNet := patterns.filterMap fun p => (classify pk p).cidr?

/-- The IP ranges and single IPs among the patterns. -/
def ipRanges (patterns : List Bytes) : List IPRange :=
  patterns.filterMap fun p => (classify pk p).ipRange?

structure PatternSet (γ : Type) where
  cidr : CidrTrie
  addr : List (Bytes × Option PortRange)
  wildcard : List (γ × Option PortRange)
  ipRange : List IPRange

def classifyPatterns (patterns : List Bytes) : PatternSet γ where
  cidr := cidrMatcher (inets pk patterns)
  addr := addrMatcher pk (patterns.filterMap fun p => (classify pk p).addr?)
  wildcard := wildcardMatcher pk (patterns.filterMap fun p => (classify pk p).wildcard?)
  ipRange := ipRanges pk patterns

/-- `matchAny`. -/
def PatternSet.matchAny (ps : PatternSet γ) (addr : Bytes) : Bool :=
  let host := ((HostPort.splitHostPort addr).map (·.1)).getD []
  let host := if host = [] then addr else host
  ipRangeMatch ps.ipRange addr || addrMatch pk ps.addr addr ||
    ((parseIP host).isSome && ps.cidr.match host) || wildcardMatch pk ps.wildcard addr

inductive Decision
  | bypass
  | proxy
deriving DecidableEq, Repr

structure LocalBypass (γ : Type) where
  whitelist : Bool
  network : Bytes
  patterns : Option (PatternSet γ)

/-- `NewBypass` after `reload`. -/
def newBypass (whitelist : Bool) (network : Bytes) (patterns : List Bytes) : LocalBypass γ where
  whitelist
  network
  patterns := if patterns = [] then none else some (classifyPatterns pk patterns)

/-- `decide`. -/
def LocalBypass.decision (b : LocalBypass γ) (network addr : Bytes) : Decision :=
  if b.network ≠ [] ∧ b.network ≠ network then .proxy
  else
    match b.patterns with
    | none => if b.network ≠ [] ∧ ¬b.whitelist then .bypass else .proxy
    | some ps => if ps.matchAny pk addr = b.whitelist then .proxy else .bypass

/-! ## Patterns that are networks, ranges and single IPs -/

/-- The pattern is classified as a network or as a range. -/
def IsIPPattern (pattern : Bytes) : Prop :=
  (classify pk pattern).cidr?.isSome ∨ (classify pk pattern).ipRange?.isSome

variable {pk} {patterns : List Bytes}

/-- Such patterns leave nothing for the other two matchers. -/
theorem classifyPatterns_of_ip (h : ∀ p ∈ patterns, IsIPPattern pk p) :
    (classifyPatterns pk patterns).addr = [] ∧ (classifyPatterns pk patterns).wildcard = [] := by
  have hnone : ∀ p ∈ patterns, (classify pk p).addr? = none ∧ (classify pk p).wildcard? = none := by
    intro p hp
    have hkind := h p hp
    unfold IsIPPattern at hkind
    cases hc : classify pk p <;> simp [hc, Kind.cidr?, Kind.ipRange?] at hkind <;> exact ⟨rfl, rfl⟩
  have haddr : (patterns.filterMap fun p => (classify pk p).addr?) = [] :=
    filterMap_eq_nil_iff.mpr fun p hp => (hnone p hp).1
  have hwild : (patterns.filterMap fun p => (classify pk p).wildcard?) = [] :=
    filterMap_eq_nil_iff.mpr fun p hp => (hnone p hp).2
  simp [classifyPatterns, haddr, hwild, addrMatcher, wildcardMatcher]

/-- An address with a port is matched by a range that contains it as it is, or by a network that
contains its IPv4 form. -/
theorem matchAny_joinHostPort (h : ∀ p ∈ patterns, IsIPPattern pk p) {host port : Bytes}
    {addr : Addr} (hparse : parseAddr host = some addr) (hzone : addr.zone = [])
    (hhost : 91 ∉ host ∧ 93 ∉ host) (hport : 58 ∉ port ∧ 91 ∉ port ∧ 93 ∉ port) :
    (classifyPatterns pk patterns).matchAny pk (HostPort.joinHostPort host port) =
      ((ipRanges pk patterns).any (·.contains addr) ||
        (cidrMatcher (inets pk patterns)).contains addr.unmap) := by
  obtain ⟨haddr, hwild⟩ := classifyPatterns_of_ip h
  have hne : host ≠ [] := by
    rintro rfl
    cases hparse
  have hrange : ipRangeMatch (classifyPatterns pk patterns).ipRange
      (HostPort.joinHostPort host port) = (ipRanges pk patterns).any (·.contains addr) := by
    rw [ipRangeMatch, splitHostPort_joinHostPort hne hhost hport]
    simp [hparse, classifyPatterns]
  have hcidr : (classifyPatterns pk patterns).cidr.match host =
      (cidrMatcher (inets pk patterns)).contains addr.unmap := by
    simp [CidrTrie.match, hparse, classifyPatterns]
  have hip : (parseIP host).isSome = true := by
    simp [parseIP, hparse, Option.filter, hzone]
  rw [PatternSet.matchAny, HostPort.splitHostPort_joinHostPort hhost hport]
  simp [hne, hrange, hcidr, hip, haddr, hwild]

/-! ## The two forms of an IPv4 address -/

/-- `a.b.c.d:p`. -/
def plainAddr (a : BitVec 32) (port : ℕ) : Bytes :=
  HostPort.joinHostPort (ipv4Text a) (Bytes.decimal port)

/-- `[::ffff:a.b.c.d]:p`. -/
def mappedAddr (a : BitVec 32) (port : ℕ) : Bytes :=
  HostPort.joinHostPort (mappedText a) (Bytes.decimal port)

theorem decimal_port (port : ℕ) :
    58 ∉ Bytes.decimal port ∧ 91 ∉ Bytes.decimal port ∧ 93 ∉ Bytes.decimal port :=
  ⟨notMem_decimal (by decide) port, notMem_decimal (by decide) port,
    notMem_decimal (by decide) port⟩

theorem matchAny_plainAddr (h : ∀ p ∈ patterns, IsIPPattern pk p) (a : BitVec 32) (port : ℕ) :
    (classifyPatterns pk patterns).matchAny pk (plainAddr a port) =
      ((ipRanges pk patterns).any (·.contains (.v4 a)) ||
        (cidrMatcher (inets pk patterns)).contains (.v4 a)) := by
  have hhost : 91 ∉ ipv4Text a ∧ 93 ∉ ipv4Text a :=
    ⟨notMem_ipv4Text (by decide) a, notMem_ipv4Text (by decide) a⟩
  exact matchAny_joinHostPort h (parseAddr_ipv4Text a) rfl hhost (decimal_port port)

theorem matchAny_mappedAddr (h : ∀ p ∈ patterns, IsIPPattern pk p) (a : BitVec 32) (port : ℕ) :
    (classifyPatterns pk patterns).matchAny pk (mappedAddr a port) =
      ((ipRanges pk patterns).any (·.contains (.v6 (mapped a) [])) ||
        (cidrMatcher (inets pk patterns)).contains (.v4 a)) := by
  have hhost : 91 ∉ mappedText a ∧ 93 ∉ mappedText a := by
    have hopen : (91 : UInt8) ∉ ipv4Text a := notMem_ipv4Text (by decide) a
    have hclose : (93 : UInt8) ∉ ipv4Text a := notMem_ipv4Text (by decide) a
    simp [mappedText, hopen, hclose]
  have hunmap : (Addr.v6 (mapped a) []).unmap = .v4 a := by simp [Addr.unmap]
  rw [mappedAddr, matchAny_joinHostPort h (parseAddr_mappedText a) rfl hhost (decimal_port port),
    hunmap]

/-- A network contains the address, or the ranges do not tell its two forms apart. -/
def FormInvariant (pk : Packages γ) (patterns : List Bytes) (a : BitVec 32) : Prop :=
  (cidrMatcher (inets pk patterns)).contains (.v4 a) ∨
    ((∃ r ∈ ipRanges pk patterns, r.contains (.v4 a)) ↔
      ∃ r ∈ ipRanges pk patterns, r.contains (.v6 (mapped a) []))

theorem matchAny_eq_iff (h : ∀ p ∈ patterns, IsIPPattern pk p) (a : BitVec 32) (port : ℕ) :
    (classifyPatterns pk patterns).matchAny pk (plainAddr a port) =
        (classifyPatterns pk patterns).matchAny pk (mappedAddr a port) ↔
      FormInvariant pk patterns a := by
  rw [matchAny_plainAddr h, matchAny_mappedAddr h]
  unfold FormInvariant
  rw [← any_eq_true, ← any_eq_true]
  cases (ipRanges pk patterns).any (·.contains (.v4 a)) <;>
    cases (ipRanges pk patterns).any (·.contains (.v6 (mapped a) [])) <;> simp

/-- In either mode the decision tells whether the address was matched. -/
theorem outcome_inj : ∀ whitelist matched matched' : Bool,
    (if matched = whitelist then Decision.proxy else .bypass) =
      (if matched' = whitelist then Decision.proxy else .bypass) → matched = matched' := by
  decide

/-- No wildcards, and no letters to be lowered. -/
def digitsOnly : Packages Empty where
  toLower := id
  compile _ := none
  globMatch glob := glob.elim

/-- `10.0.0.1`. -/
def ten : BitVec 32 := 0x0a000001#32

/-- `10.0.0.0/8`, which contains both forms. -/
def tenNetwork : Bytes := [49, 48, 46, 48, 46, 48, 46, 48, 47, 56]

end Bypass

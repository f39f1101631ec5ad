import Gost.Matcher.Matcher

/-!
# What the address matcher matches

`AddrMatcher` puts its patterns `host`, `host:port` and `host:min-max` into a map from hosts to port
ranges, and `Match` looks up the host, the host behind a dot, and one suffix after the other. That
is a scan of the patterns (`addr_match_iff`): one of them has the host, or is `.rest` where the host
is `rest` or ends in `.rest`, and its ports, if it has any, contain the port.

The loop of `Match` stops at a host that starts with a dot, so this is for hosts without an empty
label. Hosts are compared after `strings.ToLower`.
-/

namespace Matcher

open Bytes List

/-! ## The specification -/

/-- No label between the dots is empty. -/
def NoEmptyLabel (host : Bytes) : Prop := [] ∉ host.splitOn 46

instance (host : Bytes) : Decidable (NoEmptyLabel host) := inferInstanceAs (Decidable (¬ _))

/-- A pattern's host is the host, or a dot and the host or a suffix of it behind a dot. -/
def HostMatches (pattern host : Bytes) : Prop :=
  pattern = host ∨
    ∃ rest, pattern = 46 :: rest ∧ (rest = host ∨ ∃ front, host = front ++ 46 :: rest)

/-- The ports that the port part of a pattern stands for, with `none` for all of them. -/
inductive PortPart : Bytes → Option PortRange → Prop
  | absent : PortPart [] none
  | port {s : Bytes} {n : ℤ} : 45 ∉ s → Resp.atoi s = some n → 0 ≤ n → n ≤ 65535 →
      PortPart s (some ⟨n, n⟩)
  | range {min max : Bytes} {a b : ℤ} : 45 ∉ min → 45 ∉ max → Resp.atoi min = some a →
      Resp.atoi max = some b → PortPart (min ++ 45 :: max) (some ⟨a, b⟩)

/-- The pattern matches an address with the host and port. -/
def PatternMatches {γ : Type} (pk : Packages γ) (pattern host : Bytes) (port : ℤ) : Prop :=
  HostMatches (pk.toLower (splitHostPort pattern).1) host ∧
    ∃ ports, PortPart (splitHostPort pattern).2 ports ∧
      ∀ r ∈ ports, r.min ≤ port ∧ port ≤ r.max

/-! ## Port ranges -/

variable {ports : Option PortRange} {port : ℤ} {label name host : Bytes}

/-- `Parse` has the ports, and an error for an absent part. -/
theorem PortPart.parse_eq {s : Bytes} (h : PortPart s ports) : PortRange.parse s = ports := by
  cases h with
  | absent => decide
  | port hdash hatoi hlower hupper =>
    simp only [PortRange.parse, splitOn_eq_singleton hdash, hatoi, Option.bind_some]
    exact if_neg (by omega)
  | range hmin hmax hatoi hatoi' =>
    simp only [PortRange.parse, splitOn_append_cons_self_of_not_mem hmin,
      splitOn_eq_singleton hmax, hatoi, hatoi', Option.bind_some, Option.map_some]

theorem all_contains_iff {pr : Option PortRange} :
    (pr.all (·.contains port)) = true ↔ ∀ r ∈ pr, r.min ≤ port ∧ port ≤ r.max := by
  cases pr with
  | none => simp
  | some r => simp [PortRange.contains]

theorem portRangeMatch_iff {prs : List (Option PortRange)} :
    portRangeMatch prs port = true ↔ ∃ pr ∈ prs, ∀ r ∈ pr, r.min ≤ port ∧ port ≤ r.max := by
  simp only [portRangeMatch, any_eq_true, all_contains_iff]

/-! ## Suffixes -/

/-- Where the first label ends, the rest of the host has no empty label either. -/
theorem NoEmptyLabel.cut {rest : Bytes} (h : NoEmptyLabel (label ++ 46 :: rest))
    (hdot : 46 ∉ label) :
    label ≠ [] ∧ NoEmptyLabel rest := by
  rw [NoEmptyLabel, splitOn_append_cons_self_of_not_mem hdot, mem_cons, not_or] at h
  exact ⟨fun hnil => h.1 hnil.symm, h.2⟩

/-- The suffixes behind a dot: the one behind the first label, and those of the rest. -/
theorem exists_suffix_iff {tail : Bytes} (hlabel : 46 ∉ label) :
    (∃ front rest, label ++ 46 :: tail = front ++ 46 :: rest ∧ name = 46 :: rest) ↔
      name = 46 :: tail ∨ ∃ front rest, tail = front ++ 46 :: rest ∧ name = 46 :: rest := by
  constructor
  · rintro ⟨front, rest, heq, rfl⟩
    -- the dot in front of the rest is the first one, or stands behind it
    rcases append_eq_append_iff.mp heq with ⟨mid, rfl, hmid⟩ | ⟨mid, rfl, hmid⟩
    · cases mid with
      | nil => exact .inl (by rw [List.cons.inj hmid |>.2])
      | cons c mid =>
        obtain ⟨rfl, rfl⟩ := List.cons.inj hmid
        exact .inr ⟨mid, rest, rfl, rfl⟩
    · cases mid with
      | nil => exact .inl (by rw [List.cons.inj hmid |>.2])
      | cons c mid =>
        obtain ⟨rfl, -⟩ := List.cons.inj hmid
        exact absurd (by simp) hlabel
  · rintro (rfl | ⟨front, rest, rfl, rfl⟩)
    · exact ⟨label, tail, rfl, rfl⟩
    · exact ⟨label ++ 46 :: front, rest, by simp, rfl⟩

/-- The loop of `Match` goes through all suffixes that start with a dot. -/
theorem mem_domainSuffixes_iff {rounds : ℕ} (hlen : host.length ≤ rounds)
    (hlabels : NoEmptyLabel host) :
    name ∈ domainSuffixes rounds host ↔ ∃ front rest, host = front ++ 46 :: rest ∧
      name = 46 :: rest := by
  induction rounds generalizing host with
  | zero =>
    obtain rfl : host = [] := length_eq_zero_iff.mp (by omega)
    simp [domainSuffixes]
  | succ rounds ih =>
    rw [domainSuffixes]
    by_cases hdot : 46 ∈ host
    · obtain ⟨label, tail, rfl, hlabel⟩ := eq_append_cons_of_mem hdot
      obtain ⟨hne, htail⟩ := hlabels.cut hlabel
      have hhead : (label ++ 46 :: tail).head? ≠ some 46 := by
        obtain ⟨c, label, rfl⟩ := exists_cons_of_ne_nil hne
        intro heq
        exact hlabel (mem_cons.mpr (.inl (Option.some.inj heq).symm))
      have htail_len : tail.length ≤ rounds := by
        rw [length_append, length_cons] at hlen
        omega
      rw [if_pos ⟨hdot, hhead⟩, cut_append tail hlabel, mem_cons, ih htail_len htail,
        exists_suffix_iff hlabel]
    · rw [if_neg fun h => hdot h.1]
      constructor
      · intro hmem
        exact absurd hmem not_mem_nil
      · rintro ⟨front, rest, rfl, -⟩
        exact absurd (by simp) hdot

/-- The names that `Match` looks up are the hosts of the patterns that match. -/
theorem mem_names_iff (hlabels : NoEmptyLabel host) :
    name ∈ host :: (46 :: host) :: domainSuffixes host.length host ↔ HostMatches name host := by
  rw [mem_cons, mem_cons, mem_domainSuffixes_iff le_rfl hlabels, HostMatches]
  constructor
  · rintro (rfl | rfl | ⟨front, rest, hhost, rfl⟩)
    · exact .inl rfl
    · exact .inr ⟨host, rfl, .inl rfl⟩
    · exact .inr ⟨rest, rfl, .inr ⟨front, hhost⟩⟩
  · rintro (rfl | ⟨rest, rfl, rfl | ⟨front, hhost⟩⟩)
    · exact .inl rfl
    · exact .inr (.inl rfl)
    · exact .inr (.inr ⟨front, rest, hhost, rfl⟩)

/-! ## The matcher -/

section Match

variable {γ : Type} {pk : Packages γ} {addr : Bytes}

/-- The ranges that stand under one host in the map match if one of the entries does. -/
theorem addrMatch_iff_exists {addrs : List (Bytes × Option PortRange)}
    (hlabels : NoEmptyLabel (pk.toLower (splitHostPort addr).1)) :
    addrMatch pk addrs addr = true ↔ ∃ entry ∈ addrs,
      HostMatches entry.1 (pk.toLower (splitHostPort addr).1) ∧
        ∀ r ∈ entry.2, r.min ≤ atoiValue (splitHostPort addr).2 ∧
          atoiValue (splitHostPort addr).2 ≤ r.max := by
  simp only [addrMatch, any_eq_true, portRangeMatch_iff, mem_names_iff hlabels,
    mem_map, mem_filter, beq_iff_eq]
  constructor
  · rintro ⟨name, hname, -, ⟨entry, ⟨hmem, rfl⟩, rfl⟩, hports⟩
    exact ⟨entry, hmem, hname, hports⟩
  · rintro ⟨entry, hmem, hname, hports⟩
    exact ⟨entry.1, hname, entry.2, ⟨entry, ⟨hmem, rfl⟩, rfl⟩, hports⟩

theorem splitHostPort_fst_eq_nil (h : (splitHostPort addr).1 = []) : addr = [] := by
  by_cases hcolon : 58 ∈ addr
  · rw [splitHostPort, if_neg (not_not_intro hcolon)] at h
    cases hsplit : HostPort.splitHostPort addr with
    | none => simpa [hsplit] using h
    | some hostport =>
      simp only [hsplit] at h
      by_cases hhost : hostport.1 = []
      · simpa [hhost] using h
      · simp [hhost] at h
  · rwa [splitHostPort, if_pos hcolon] at h

/-- The entry of a pattern: its host and the ports that it stands for. -/
theorem addrMatcher_entry {pattern : Bytes} (hports : PortPart (splitHostPort pattern).2 ports) :
    (if (splitHostPort pattern).1 = [] then (pk.toLower pattern, none)
      else (pk.toLower (splitHostPort pattern).1, PortRange.parse (splitHostPort pattern).2)) =
      (pk.toLower (splitHostPort pattern).1, ports) := by
  split_ifs with hhost
  · obtain rfl := splitHostPort_fst_eq_nil hhost
    rw [← hports.parse_eq]
    rfl
  · rw [hports.parse_eq]

/-- The matcher of patterns `host`, `host:port` and `host:min-max` matches an address if and only if
one of the patterns does. -/
theorem addr_match_iff (pk : Packages γ) (patterns : List Bytes)
    (hpatterns : ∀ pattern ∈ patterns, ∃ ports, PortPart (splitHostPort pattern).2 ports)
    (addr : Bytes) (hlabels : NoEmptyLabel (pk.toLower (splitHostPort addr).1)) :
    addrMatch pk (addrMatcher pk patterns) addr = true ↔
      ∃ pattern ∈ patterns, PatternMatches pk pattern (pk.toLower (splitHostPort addr).1)
        (atoiValue (splitHostPort addr).2) := by
  rw [addrMatch_iff_exists hlabels]
  constructor
  · rintro ⟨entry, hmem, hhost, hport⟩
    obtain ⟨pattern, hpattern, rfl⟩ := mem_map.mp hmem
    obtain ⟨ports, hports⟩ := hpatterns pattern hpattern
    simp only [addrMatcher_entry hports] at hhost hport
    exact ⟨pattern, hpattern, hhost, ports, hports, hport⟩
  · rintro ⟨pattern, hpattern, hhost, ports, hports, hport⟩
    exact ⟨_, mem_map.mpr ⟨pattern, hpattern, addrMatcher_entry hports⟩, hhost, hport⟩

end Match

/-- `strings.ToLower` for ASCII, and no globs. -/
def asciiPackages : Packages Unit where
  toLower s := s.map fun c => if 65 ≤ c ∧ c ≤ 90 then c + 32 else c
  compile _ := none
  globMatch _ _ := false

/-- A subdomain matches within the ports of the pattern, and not outside. -/
theorem addr_match_iff_subdomain :
    let patterns := [bytes "other.org", bytes ".Example.com:80-443"]
    let matcher := addrMatcher asciiPackages patterns
    addrMatch asciiPackages matcher (bytes "www.EXAMPLE.com:443") = true ∧
      addrMatch asciiPackages matcher (bytes "www.EXAMPLE.com") = false ∧
      ∃ pattern ∈ patterns, PatternMatches asciiPackages pattern (bytes "www.example.com") 443 := by
  have hmatch : addrMatch asciiPackages (addrMatcher asciiPackages
      [bytes "other.org", bytes ".Example.com:80-443"]) (bytes "www.EXAMPLE.com:443") = true := by
    decide +kernel
  have habsent : PortPart (splitHostPort (bytes "other.org")).2 none := by
    rw [show (splitHostPort (bytes "other.org")).2 = [] by decide]
    exact .absent
  have hrange : PortPart (splitHostPort (bytes ".Example.com:80-443")).2 (some ⟨80, 443⟩) := by
    rw [show (splitHostPort (bytes ".Example.com:80-443")).2 = bytes "80" ++ 45 :: bytes "443" by
      decide]
    exact .range (by decide) (by decide) (by decide) (by decide)
  have hpatterns : ∀ pattern ∈ [bytes "other.org", bytes ".Example.com:80-443"],
      ∃ ports, PortPart (splitHostPort pattern).2 ports := by
    rintro pattern hmem
    rcases mem_pair.mp hmem with rfl | rfl
    · exact ⟨_, habsent⟩
    · exact ⟨_, hrange⟩
  refine ⟨hmatch, by decide +kernel, ?_⟩
  exact (addr_match_iff asciiPackages _ hpatterns (bytes "www.EXAMPLE.com:443")
    (by decide +kernel)).mp hmatch

end Matcher

import Gost.Lib.Netip
import Gost.Lib.PrefixTrie

/-!
# The CIDR matcher

`cidrTrie` and `CIDRMatcher` of `x/internal/matcher`. Networks go into one of two tries, for IPv4
and for IPv6, by the bits of their addresses. `ipNetToPrefix` turns a network of IPv6 forms of IPv4
addresses into one of IPv4 addresses, and cuts its length down to 32 instead of taking off the 96
bits that have gone, so that it contains its own address only.
-/

namespace Matcher

open List Netip

/-- `netip.Prefix`. -/
structure NetPrefix where
  addr : Addr
  bits : ℕ
deriving DecidableEq, Repr

/-- The test by which the trie tells IPv4 from IPv6. -/
def isIPv4 (addr : Addr) : Bool := addr.is4 || addr.is4In6

/-- `bitAt`: the bits of an IPv4 address are in the last four bytes. -/
def bitAt (b : BitVec 128) (i : ℕ) (is4 : Bool) : Bool :=
  b.getMsbD ((if is4 then 96 else 0) + i)

/-- The first bits of an address, in the order in which the loops of the trie read them. -/
def path (addr : Addr) (bits : ℕ) : List Bool :=
  (List.range bits).map fun i => bitAt addr.as16 i (isIPv4 addr)

def maxBits (addr : Addr) : ℕ := if isIPv4 addr then 32 else 128

structure CidrTrie where
  root4 : PrefixTrie := .nil
  root6 : PrefixTrie := .nil

namespace CidrTrie

def root (t : CidrTrie) (addr : Addr) : PrefixTrie := if isIPv4 addr then t.root4 else t.root6

def setRoot (t : CidrTrie) (addr : Addr) (root : PrefixTrie) : CidrTrie :=
  if isIPv4 addr then { t with root4 := root } else { t with root6 := root }

/-- `insert`; a length of zero marks the root. -/
def insert (t : CidrTrie) (p : NetPrefix) : CidrTrie :=
  t.setRoot p.addr ((t.root p.addr).insert (path p.addr (min p.bits (maxBits p.addr))))

def contains (t : CidrTrie) (addr : Addr) : Bool :=
  (t.root addr).covers (path addr (maxBits addr))

end CidrTrie

/-- The IP of a network as an address, `netip.AddrFromSlice`. -/
def addrFromSlice : IPNet → Addr
  | .v4 n => .v4 n.ip
  | .v6 n => .v6 n.ip []

/-- `Size` of the mask. -/
def maskSize : IPNet → ℕ
  | .v4 n => n.ones
  | .v6 n => n.ones

def ipNetToPrefix (inet : IPNet) : NetPrefix :=
  let addr := (addrFromSlice inet).unmap
  { addr, bits := min (maskSize inet) addr.bitLen }

/-- `CIDRMatcher`. -/
def cidrMatcher (inets : List IPNet) : CidrTrie :=
  inets.foldl (fun trie inet => trie.insert (ipNetToPrefix inet)) {}

/-- `Match` of a `cidrMatcher`. -/
def CidrTrie.match (t : CidrTrie) (ip : Bytes) : Bool :=
  match parseAddr ip with
  | some addr => t.contains addr.unmap
  | none => false

/-- The plain scan: the address is in one of the networks. -/
def scan (inets : List IPNet) (ip : Bytes) : Bool :=
  match parseAddr ip with
  | some addr => inets.any fun inet => inet.contains addr.as16
  | none => false

/-! ## Paths -/

/-- Two lists of values of functions, one a beginning of the other. -/
theorem map_range_isPrefix_iff {α : Type*} {f g : ℕ → α} {m n : ℕ} (h : m ≤ n) :
    (List.range m).map f <+: (List.range n).map g ↔ ∀ i < m, f i = g i := by
  rw [prefix_iff_eq_take, length_map, length_range, ← map_take, take_range, min_eq_left h]
  simp

/-- The bits of the IPv4 form of an address are its last ones. -/
theorem bitAt_mapped (a : BitVec 32) {i : ℕ} (h : i < 32) :
    bitAt (mapped a) i true = a.getMsbD i := by
  have hhigh : 96 + i < 128 := by omega
  have hlow : 128 - 1 - (96 + i) = 32 - 1 - i := by omega
  have hlt : 32 - 1 - i < 32 := by omega
  rw [bitAt, if_pos rfl, BitVec.getMsbD_eq_getLsbD, BitVec.getMsbD_eq_getLsbD, hlow,
    getLsbD_mapped, if_pos hlt]
  simp [hhigh, h]

variable {ones : ℕ} {n : Masked 128} {ip : BitVec 32}

/-- An IPv4 network and an IPv4 address. -/
theorem path_v4_iff {a b : BitVec 32} (h : ones ≤ 32) :
    path (.v4 a) ones <+: path (.v4 b) 32 ↔
      a &&& cidrMask 32 ones = b &&& cidrMask 32 ones := by
  rw [and_cidrMask_eq_iff h, path, path, map_range_isPrefix_iff h]
  refine forall₂_congr fun i hi => ?_
  show bitAt (mapped a) i true = bitAt (mapped b) i true ↔ _
  rw [bitAt_mapped a (hi.trans_le h), bitAt_mapped b (hi.trans_le h)]

/-- An IPv6 network and an IPv6 address without IPv4 forms. -/
theorem path_v6_iff {a b : BitVec 128} {zone zone' : Bytes} (h : ones ≤ 128) (ha : to4 a = none)
    (hb : to4 b = none) :
    path (.v6 a zone) ones <+: path (.v6 b zone') 128 ↔
      a &&& cidrMask 128 ones = b &&& cidrMask 128 ones := by
  rw [and_cidrMask_eq_iff h, path, path, map_range_isPrefix_iff h]
  simp [bitAt, Addr.as16, isIPv4, Addr.is4, Addr.is4In6, ha, hb]

/-! ## What the trie contains -/

/-- The address is one of those that the entry stands for. -/
def NetPrefix.Covers (p : NetPrefix) (addr : Addr) : Prop :=
  isIPv4 p.addr = isIPv4 addr ∧
    path p.addr (min p.bits (maxBits p.addr)) <+: path addr (maxBits addr)

theorem contains_insert (t : CidrTrie) (p : NetPrefix) (addr : Addr) :
    (t.insert p).contains addr ↔ p.Covers addr ∨ t.contains addr := by
  unfold CidrTrie.contains CidrTrie.insert CidrTrie.setRoot CidrTrie.root NetPrefix.Covers
  cases isIPv4 p.addr <;> cases isIPv4 addr <;> simp [PrefixTrie.covers_insert]

theorem contains_foldl (inets : List IPNet) (t : CidrTrie) (addr : Addr) :
    (inets.foldl (fun trie inet => trie.insert (ipNetToPrefix inet)) t).contains addr ↔
      (∃ inet ∈ inets, (ipNetToPrefix inet).Covers addr) ∨ t.contains addr := by
  induction inets generalizing t with
  | nil => simp
  | cons inet inets ih =>
    rw [foldl_cons, ih, contains_insert]
    simp [or_assoc, or_left_comm]

theorem contains_cidrMatcher (inets : List IPNet) (addr : Addr) :
    (cidrMatcher inets).contains addr ↔ ∃ inet ∈ inets, (ipNetToPrefix inet).Covers addr := by
  have hempty : CidrTrie.contains {} addr = false := by
    simp [CidrTrie.contains, CidrTrie.root]
  rw [cidrMatcher, contains_foldl, hempty]
  simp

/-! ## Networks of IPv6 forms -/

/-- The network is given by IPv6 forms of IPv4 addresses and is larger than one address. -/
def Clamped (inet : IPNet) : Prop := (addrFromSlice inet).is4In6 ∧ maskSize inet < 128

/-- The address is the one of the network itself. -/
def Own (inet : IPNet) (addr : Addr) : Prop := (addrFromSlice inet).unmap = addr.unmap

/-- A network of IPv6 forms has all their common bits. -/
theorem le_ones_of_mapped (h : n.ip = mapped ip) : 96 ≤ n.ones := by
  by_contra hlt
  have hbit : (n.ip &&& cidrMask 128 n.ones).getMsbD 95 = n.ip.getMsbD 95 :=
    congrArg (·.getMsbD 95) n.masked
  -- the last of the common bits is set in the address, but not in the mask
  have hset : n.ip.getMsbD 95 = true := by
    rw [h, BitVec.getMsbD_eq_getLsbD, getLsbD_mapped, if_neg (by decide)]
    decide
  have hclear : (cidrMask 128 n.ones).getMsbD 95 = false := by
    rw [getMsbD_cidrMask n.ones_le]
    exact decide_eq_false (by omega)
  rw [BitVec.getMsbD_and, hset, hclear] at hbit
  exact absurd hbit (by decide)

variable {addr : Addr} {b : BitVec 32}

theorem unmap_of_to4 (h : to4 addr.as16 = some b) : addr.unmap = .v4 b := by
  rw [Addr.unmap_eq, h]

/-- An address without an IPv4 form is an IPv6 address. -/
theorem exists_v6_of_to4 (h : to4 addr.as16 = none) :
    ∃ a zone, addr = .v6 a zone ∧ addr.unmap = .v6 a zone ∧ to4 a = none := by
  cases addr with
  | v4 a => simp [Addr.as16] at h
  | v6 a zone => exact ⟨a, zone, rfl, by rw [Addr.unmap_eq, h], h⟩

/-- The entry of a network of IPv4 addresses. -/
theorem covers_v4_iff (hones : ones ≤ 32) :
    NetPrefix.Covers ⟨.v4 ip, ones⟩ addr.unmap ↔
      ∃ x, to4 addr.as16 = some x ∧ ip &&& cidrMask 32 ones = x &&& cidrMask 32 ones := by
  have hmin : min ones (maxBits (.v4 ip)) = ones := min_eq_left hones
  unfold NetPrefix.Covers
  rw [hmin]
  cases hto4 : to4 addr.as16 with
  | some x =>
    rw [unmap_of_to4 hto4]
    show true = true ∧ path (.v4 ip) ones <+: path (.v4 x) 32 ↔ _
    rw [path_v4_iff hones]
    simp
  | none =>
    obtain ⟨a, zone, -, hunmap, ha⟩ := exists_v6_of_to4 hto4
    simp [hunmap, isIPv4, Addr.is4, Addr.is4In6, ha]

/-- The entry of a network of other addresses. -/
theorem covers_v6_iff {ip : BitVec 128} (hip : to4 ip = none) (hones : ones ≤ 128) :
    NetPrefix.Covers ⟨.v6 ip [], ones⟩ addr.unmap ↔
      to4 addr.as16 = none ∧ ip &&& cidrMask 128 ones = addr.as16 &&& cidrMask 128 ones := by
  have hv6 : isIPv4 (.v6 ip []) = false := by simp [isIPv4, Addr.is4, Addr.is4In6, hip]
  have hmin : min ones (maxBits (.v6 ip [])) = ones := by simp [maxBits, hv6, hones]
  unfold NetPrefix.Covers
  rw [hmin, hv6]
  cases hto4 : to4 addr.as16 with
  | some x => simp [unmap_of_to4 hto4, isIPv4, Addr.is4]
  | none =>
    obtain ⟨a, zone, rfl, hunmap, ha⟩ := exists_v6_of_to4 hto4
    have haddr : isIPv4 (.v6 a zone) = false := by simp [isIPv4, Addr.is4, Addr.is4In6, ha]
    rw [hunmap, haddr, show maxBits (.v6 a zone) = 128 by simp [maxBits, haddr],
      path_v6_iff hones hip ha]
    simp [Addr.as16]

theorem own_iff_of_some (hip : to4 n.ip = some ip) :
    Own (.v6 n) addr ↔ to4 addr.as16 = some ip := by
  unfold Own
  rw [Addr.unmap_eq addr]
  cases hto4 : to4 addr.as16 with
  | some x => simp [addrFromSlice, Addr.unmap, hip, eq_comm]
  | none =>
    obtain ⟨a, zone, rfl, -, -⟩ := exists_v6_of_to4 hto4
    simp [addrFromSlice, Addr.unmap, hip]

/-- A network of IPv6 forms becomes the entry of its own address. -/
theorem covers_mapped_iff (hip : to4 n.ip = some ip) :
    (ipNetToPrefix (.v6 n)).Covers addr.unmap ↔ to4 addr.as16 = some ip := by
  have hones : 96 ≤ n.ones := le_ones_of_mapped (to4_eq_some_iff.mp hip)
  have hmin : min n.ones 32 = 32 := by omega
  have hbits : ipNetToPrefix (.v6 n) = ⟨.v4 ip, 32⟩ := by
    simp [ipNetToPrefix, addrFromSlice, maskSize, Addr.unmap, Addr.bitLen, hip, hmin]
  rw [hbits, covers_v4_iff le_rfl]
  simp only [and_cidrMask_self, exists_eq_right']

/-- The entry of a network stands for the addresses in it, but if it is clamped only for its own. -/
theorem covers_ipNetToPrefix_iff (inet : IPNet) :
    (ipNetToPrefix inet).Covers addr.unmap ↔
      inet.contains addr.as16 ∧ (Clamped inet → Own inet addr) := by
  cases inet with
  | v4 n =>
    have hbits : ipNetToPrefix (.v4 n) = ⟨.v4 n.ip, n.ones⟩ := by
      simp [ipNetToPrefix, addrFromSlice, maskSize, Addr.unmap, Addr.bitLen, n.ones_le]
    rw [hbits, covers_v4_iff n.ones_le, IPNet.contains_v4_iff]
    simp [Clamped, addrFromSlice, Addr.is4In6]
  | v6 n =>
    cases hip : to4 n.ip with
    | none =>
      have hbits : ipNetToPrefix (.v6 n) = ⟨.v6 n.ip [], n.ones⟩ := by
        simp [ipNetToPrefix, addrFromSlice, maskSize, Addr.unmap, Addr.bitLen, n.ones_le, hip]
      rw [hbits, covers_v6_iff hip n.ones_le, IPNet.contains_v6_iff_of_none hip]
      simp [Clamped, addrFromSlice, Addr.is4In6, hip]
    | some ip =>
      rw [covers_mapped_iff hip, own_iff_of_some hip, IPNet.contains_v6_iff_of_some hip]
      constructor
      · intro hto4
        exact ⟨⟨ip, hto4, rfl⟩, fun _ => hto4⟩
      · rintro ⟨⟨x, hto4, heq⟩, hclamped⟩
        by_cases hlt : n.ones < 128
        · exact hclamped ⟨by simp [addrFromSlice, Addr.is4In6, hip], hlt⟩
        · -- the mask of a single address
          have hmask : (cidrMask 128 n.ones).setWidth 32 = cidrMask 32 32 := by
            rw [le_antisymm n.ones_le (not_lt.mp hlt)]
            decide
          rw [hmask, and_cidrMask_self, and_cidrMask_self] at heq
          rw [heq, hto4]

/-! ## The matcher and the scan -/

/-- Where a clamped network contains the address, another network does, or it is its own address. -/
def Faithful (inets : List IPNet) (ip : Bytes) : Prop :=
  ∀ addr, parseAddr ip = some addr → ∀ inet ∈ inets, inet.contains addr.as16 → Clamped inet →
    ∃ inet' ∈ inets, inet'.contains addr.as16 ∧ (Clamped inet' → Own inet' addr)

/-- The matcher agrees with the plain scan on an address if and only if the address is not in
networks of IPv6 forms of IPv4 addresses only, other than as their own address. -/
theorem match_eq_scan_iff (inets : List IPNet) (ip : Bytes) :
    (cidrMatcher inets).match ip = scan inets ip ↔ Faithful inets ip := by
  unfold CidrTrie.match scan Faithful
  cases hparse : parseAddr ip with
  | none => simp
  | some addr =>
    have hmatch : (cidrMatcher inets).contains addr.unmap ↔
        ∃ inet ∈ inets, inet.contains addr.as16 ∧ (Clamped inet → Own inet addr) := by
      rw [contains_cidrMatcher]
      exact exists_congr fun inet => and_congr_right fun _ => covers_ipNetToPrefix_iff inet
    rw [Bool.eq_iff_iff, hmatch, any_eq_true]
    constructor
    · rintro h addr' haddr inet hinet hcontains -
      cases haddr
      exact h.mpr ⟨inet, hinet, hcontains⟩
    · intro h
      constructor
      · rintro ⟨inet, hinet, hcontains, -⟩
        exact ⟨inet, hinet, hcontains⟩
      · rintro ⟨inet, hinet, hcontains⟩
        by_cases hclamped : Clamped inet
        · exact h addr rfl inet hinet hcontains hclamped
        · exact ⟨inet, hinet, hcontains, fun hc => absurd hc hclamped⟩

/-- `::ffff:10.0.0.0/104`, the IPv6 form of `10.0.0.0/8`. -/
def mappedTen : Bytes :=
  [58, 58, 102, 102, 102, 102, 58, 49, 48, 46, 48, 46, 48, 46, 48, 47, 49, 48, 52]

/-- `10.1.2.3`. -/
def tenAddr : Bytes := [49, 48, 46, 49, 46, 50, 46, 51]

/-- The network contains the address, and the matcher does not find it. -/
theorem match_misses_mapped :
    (parseCIDR mappedTen).map (fun inet => ((cidrMatcher [inet]).match tenAddr,
      scan [inet] tenAddr)) = some (false, true) := by
  decide

end Matcher

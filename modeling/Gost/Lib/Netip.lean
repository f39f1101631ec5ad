import Gost.Lib.Resp

/-!
# IP addresses and networks

`netip.Addr` with `ParseAddr`, `Unmap` and `Less`, and from package `net` the functions `ParseIP`
and `ParseCIDR` and the method `Contains` of a network. The four or sixteen bytes of an address are
a bit vector, first byte first. An IPv4 address has an IPv6 form, `::ffff:a.b.c.d`, and most
functions take the two for one; `Less` does not.
-/

namespace Netip

open Bytes

/-! ## Addresses -/

/-- `netip.Addr`. -/
inductive Addr
  | v4 (a : BitVec 32)
  | v6 (a : BitVec 128) (zone : Bytes)
deriving DecidableEq, Repr

/-- The IPv6 form of an IPv4 address. -/
def mapped (a : BitVec 32) : BitVec 128 := 0xffff#96 ++ a

/-- `To4`. -/
def to4 (a : BitVec 128) : Option (BitVec 32) :=
  if a.extractLsb' 32 96 = 0xffff#96 then some (a.setWidth 32) else none

theorem getLsbD_mapped (a : BitVec 32) (i : ℕ) :
    (mapped a).getLsbD i = if i < 32 then a.getLsbD i else (0xffff#96).getLsbD (i - 32) :=
  BitVec.getLsbD_append

@[simp]
theorem to4_mapped (a : BitVec 32) : to4 (mapped a) = some a := by
  have hhigh : (mapped a).extractLsb' 32 96 = 0xffff#96 := by
    ext i hi
    simp [getLsbD_mapped, BitVec.getLsbD_eq_getElem hi]
  have hlow : (mapped a).setWidth 32 = a := by
    ext i hi
    simp [getLsbD_mapped, hi]
  rw [to4, if_pos hhigh, hlow]

/-- The IPv6 forms of IPv4 addresses are the ones that have an IPv4 form. -/
theorem to4_eq_some_iff {a : BitVec 128} {b : BitVec 32} : to4 a = some b ↔ a = mapped b := by
  constructor
  · intro h
    unfold to4 at h
    split_ifs at h with hhigh
    cases h
    apply BitVec.eq_of_getLsbD_eq
    intro i hi
    rw [getLsbD_mapped, ← hhigh]
    by_cases hlt : i < 32
    · simp [hlt]
    · have hsub : i - 32 < 96 := by omega
      simp [hlt, hsub, Nat.add_sub_cancel' (not_lt.mp hlt)]
  · rintro rfl
    exact to4_mapped b

namespace Addr

def zone : Addr → Bytes
  | v4 _ => []
  | v6 _ zone => zone

def bitLen : Addr → ℕ
  | v4 _ => 32
  | v6 _ _ => 128

def as16 : Addr → BitVec 128
  | v4 a => mapped a
  | v6 a _ => a

def is4 : Addr → Bool
  | v4 _ => true
  | v6 _ _ => false

def is4In6 : Addr → Bool
  | v4 _ => false
  | v6 a _ => (to4 a).isSome

/-- `Unmap`: the IPv4 form, if there is one. -/
def unmap : Addr → Addr
  | v4 a => v4 a
  | v6 a zone =>
    match to4 a with
    | some a => v4 a
    | none => v6 a zone

/-- `Less`: IPv4 before IPv6, also before the IPv6 forms of IPv4 addresses. -/
def less : Addr → Addr → Bool
  | v4 a, v4 b => a < b
  | v4 _, v6 _ _ => true
  | v6 _ _, v4 _ => false
  | v6 a zone, v6 b zone' => a < b || (a = b && zone < zone')

/-- An address without IPv4 form is `Unmap`'s value for itself only. -/
theorem unmap_eq (a : Addr) :
    a.unmap = match to4 a.as16 with
      | some b => v4 b
      | none => a := by
  cases a with
  | v4 a => simp [unmap, as16]
  | v6 a zone => rfl

end Addr

/-! ## Parsing -/

/-- A field of an IPv4 address: a number below 256 without leading zeros. -/
def octet (s : Bytes) : Option ℕ :=
  (Resp.digits s).filter fun n => n ≤ 255 && (s.head? != some 48 || s.length == 1)

/-- `parseIPv4Fields`. -/
def parseIPv4Fields (s : Bytes) : Option (BitVec 32) :=
  match (s.splitOn 46).mapM octet with
  | some [a, b, c, d] => some (BitVec.ofNat 32 (((a * 256 + b) * 256 + c) * 256 + d))
  | _ => none

/-- The value of a hexadecimal digit. -/
def hexDigit (c : UInt8) : Option ℕ :=
  if 48 ≤ c ∧ c ≤ 57 then some (c.toNat - 48)
  else if 97 ≤ c ∧ c ≤ 102 then some (c.toNat - 87)
  else if 65 ≤ c ∧ c ≤ 70 then some (c.toNat - 55)
  else none

/-- The loop of `parseIPv6` over the groups, of which eight fit: the groups it has read so far and
the place of the ellipsis among them. -/
def parseGroups : ℕ → Option ℕ → List ℕ → Bytes → Option (List ℕ × Option ℕ)
  | 0, ellipsis, groups, s => if s = [] then some (groups, ellipsis) else none
  | rounds + 1, ellipsis, groups, s =>
    let digits := (s.takeWhile fun c => (hexDigit c).isSome).filterMap hexDigit
    let groups' := groups ++ [digits.foldl (fun n d => n * 16 + d) 0]
    if digits = [] ∨ 4 < digits.length then none
    else
      match s.dropWhile fun c => (hexDigit c).isSome with
      | [] => some (groups', ellipsis)
      -- an IPv4 address in the place of the last two groups
      | 46 :: _ =>
        if (ellipsis = none ∧ groups.length ≠ 6) ∨ 6 < groups.length then none
        else
          (parseIPv4Fields s).map fun a =>
            (groups ++ [a.toNat / 65536, a.toNat % 65536], ellipsis)
      | [58] => none
      | 58 :: 58 :: rest =>
        if ellipsis.isSome then none
        else if rest = [] then some (groups', some groups'.length)
        else parseGroups rounds (some groups'.length) groups' rest
      | 58 :: rest => parseGroups rounds ellipsis groups' rest
      | _ => none

/-- The end of `parseIPv6`: an ellipsis stands for the groups that are missing, at least one. -/
def expand : List ℕ × Option ℕ → Option (List ℕ)
  | (groups, ellipsis) =>
    if groups.length < 8 then
      ellipsis.map fun k => groups.take k ++ List.replicate (8 - groups.length) 0 ++ groups.drop k
    else if ellipsis.isSome then none
    else some groups

/-- `parseIPv6`. -/
def parseIPv6 (s : Bytes) : Option Addr :=
  let zone := (cut 37 s).2
  if 37 ∈ s ∧ zone = [] then none
  else
    let groups :=
      match (cut 37 s).1 with
      | [58, 58] => some ([], some 0)
      | 58 :: 58 :: rest => parseGroups 8 (some 0) [] rest
      | s => parseGroups 8 none [] s
    (groups.bind expand).map fun groups =>
      .v6 (BitVec.ofNat 128 (groups.foldl (fun n g => n * 65536 + g) 0)) zone

/-- `netip.ParseAddr`: the first of the characters `.`, `:` and `%` decides. -/
def parseAddr (s : Bytes) : Option Addr :=
  match s.find? fun c => c == 46 || c == 58 || c == 37 with
  | some 46 => (parseIPv4Fields s).map .v4
  | some 58 => parseIPv6 s
  | _ => none

/-- `net.ParseIP`, which takes no zone. -/
def parseIP (s : Bytes) : Option (BitVec 128) :=
  ((parseAddr s).filter fun a => a.zone == []).map Addr.as16

/-! ## Networks -/

/-- `net.CIDRMask`. -/
def cidrMask (w ones : ℕ) : BitVec w := BitVec.allOnes w <<< (w - ones)

/-- An address of which only the first bits are set, with their number. -/
structure Masked (w : ℕ) where
  ip : BitVec w
  ones : ℕ
  ones_le : ones ≤ w
  masked : ip &&& cidrMask w ones = ip

/-- `net.IPNet`, as `net.ParseCIDR` returns it: the bytes of the IP and of the mask are four or
sixteen. -/
inductive IPNet
  | v4 (n : Masked 32)
  | v6 (n : Masked 128)

/-- `Mask` of an IP. -/
def Masked.of {w ones : ℕ} (ip : BitVec w) (h : ones ≤ w) : Masked w where
  ip := ip &&& cidrMask w ones
  ones := ones
  ones_le := h
  masked := by rw [BitVec.and_assoc, BitVec.and_self]

/-- `net.ParseCIDR`. -/
def parseCIDR (s : Bytes) : Option IPNet :=
  if 47 ∈ s then
    match parseAddr (cut 47 s).1, Resp.digits (cut 47 s).2 with
    | some (.v4 a), some n => if h : n ≤ 32 then some (.v4 (.of a h)) else none
    | some (.v6 a []), some n => if h : n ≤ 128 then some (.v6 (.of a h)) else none
    | _, _ => none
  else none

namespace IPNet

/-- `networkNumberAndMask`: a network of IPv6 forms of IPv4 addresses is one of IPv4 addresses. -/
def networkNumberAndMask : IPNet → (BitVec 32 × BitVec 32) ⊕ (BitVec 128 × BitVec 128)
  | v4 n => .inl (n.ip, cidrMask 32 n.ones)
  | v6 n =>
    match to4 n.ip with
    | some ip => .inl (ip, (cidrMask 128 n.ones).setWidth 32)
    | none => .inr (n.ip, cidrMask 128 n.ones)

/-- `Contains`. -/
def contains (n : IPNet) (ip : BitVec 128) : Bool :=
  match n.networkNumberAndMask, to4 ip with
  | .inl (nn, m), some x => nn &&& m == x &&& m
  | .inr (nn, m), none => nn &&& m == ip &&& m
  | _, _ => false

variable {ip : BitVec 128} {n : Masked 128}

/-- A network of IPv4 addresses contains addresses with an IPv4 form. -/
theorem contains_v4_iff {n : Masked 32} :
    (v4 n).contains ip ↔
      ∃ x, to4 ip = some x ∧ n.ip &&& cidrMask 32 n.ones = x &&& cidrMask 32 n.ones := by
  unfold contains networkNumberAndMask
  cases to4 ip <;> simp

/-- So does a network of IPv6 forms. -/
theorem contains_v6_iff_of_some {a : BitVec 32} (h : to4 n.ip = some a) :
    (v6 n).contains ip ↔ ∃ x, to4 ip = some x ∧
      a &&& (cidrMask 128 n.ones).setWidth 32 = x &&& (cidrMask 128 n.ones).setWidth 32 := by
  unfold contains networkNumberAndMask
  cases to4 ip <;> simp [h]

/-- The others contain addresses without an IPv4 form only. -/
theorem contains_v6_iff_of_none (h : to4 n.ip = none) :
    (v6 n).contains ip ↔
      to4 ip = none ∧ n.ip &&& cidrMask 128 n.ones = ip &&& cidrMask 128 n.ones := by
  unfold contains networkNumberAndMask
  cases to4 ip <;> simp [h]

end IPNet

/-! ## Masks -/

variable {w : ℕ} {c : UInt8}

theorem getMsbD_cidrMask {ones i : ℕ} (h : ones ≤ w) :
    (cidrMask w ones).getMsbD i = decide (i < ones) := by
  simp only [cidrMask, BitVec.getMsbD_shiftLeft, BitVec.getMsbD_allOnes]
  rw [decide_eq_decide]
  omega

/-- The mask of a single address. -/
theorem and_cidrMask_self (a : BitVec w) : a &&& cidrMask w w = a := by
  rw [cidrMask, Nat.sub_self, BitVec.shiftLeft_zero, BitVec.and_allOnes]

/-- Two addresses under one mask are equal if and only if their first bits are. -/
theorem and_cidrMask_eq_iff {ones : ℕ} {a b : BitVec w} (h : ones ≤ w) :
    a &&& cidrMask w ones = b &&& cidrMask w ones ↔ ∀ i < ones, a.getMsbD i = b.getMsbD i := by
  constructor
  · intro heq i hi
    have hbit := congrArg (·.getMsbD i) heq
    simpa [getMsbD_cidrMask h, hi] using hbit
  · intro hbits
    apply BitVec.eq_of_getMsbD_eq
    intro i hi
    by_cases hlt : i < ones
    · simp [hbits i hlt]
    · simp [getMsbD_cidrMask h, hlt]

/-! ## The two texts of an IPv4 address -/

/-- `a.b.c.d`, as `String` prints it. -/
def ipv4Text (a : BitVec 32) : Bytes :=
  decimal (a.toNat / 2 ^ 24) ++ 46 :: (decimal (a.toNat / 2 ^ 16 % 256) ++
    46 :: (decimal (a.toNat / 2 ^ 8 % 256) ++ 46 :: decimal (a.toNat % 256)))

/-- `::ffff:a.b.c.d`. -/
def mappedText (a : BitVec 32) : Bytes := [58, 58, 102, 102, 102, 102, 58] ++ ipv4Text a

theorem notMem_decimal (h : c.toNat < 48 ∨ 57 < c.toNat) (n : ℕ) : c ∉ decimal n := by
  intro hmem
  have := digit_of_mem_decimal hmem
  omega

/-- The text has digits and dots only. -/
theorem notMem_ipv4Text (h : c ≠ 46 ∧ (c.toNat < 48 ∨ 57 < c.toNat)) (a : BitVec 32) :
    c ∉ ipv4Text a := by
  have hdecimal : ∀ n, c ∉ decimal n := notMem_decimal h.2
  simp [ipv4Text, hdecimal, h.1]

theorem octet_decimal : ∀ n < 256, octet (decimal n) = some n := by
  decide +kernel

/-- A field could be a group as well. -/
theorem hexDigits_decimal : ∀ n < 256, (decimal n).filterMap hexDigit ≠ [] ∧
    ¬4 < ((decimal n).filterMap hexDigit).length := by
  decide +kernel

theorem parseIPv4Fields_ipv4Text (a : BitVec 32) : parseIPv4Fields (ipv4Text a) = some a := by
  have hdot : ∀ n, (46 : UInt8) ∉ decimal n := notMem_decimal (by decide)
  have hsplit : (ipv4Text a).splitOn 46 = [decimal (a.toNat / 2 ^ 24),
      decimal (a.toNat / 2 ^ 16 % 256), decimal (a.toNat / 2 ^ 8 % 256),
      decimal (a.toNat % 256)] := by
    rw [ipv4Text, List.splitOn_append_cons_self_of_not_mem (hdot _),
      List.splitOn_append_cons_self_of_not_mem (hdot _),
      List.splitOn_append_cons_self_of_not_mem (hdot _), List.splitOn_eq_singleton (hdot _)]
  have h₃ := octet_decimal (a.toNat / 2 ^ 24) (by omega)
  have h₂ := octet_decimal (a.toNat / 2 ^ 16 % 256) (by omega)
  have h₁ := octet_decimal (a.toNat / 2 ^ 8 % 256) (by omega)
  have h₀ := octet_decimal (a.toNat % 256) (by omega)
  rw [parseIPv4Fields, hsplit]
  simp only [List.mapM_cons, List.mapM_nil, h₃, h₂, h₁, h₀, Option.bind_eq_bind, Option.bind_some,
    Option.pure_def]
  congr 1
  apply BitVec.eq_of_toNat_eq
  rw [BitVec.toNat_ofNat]
  omega

theorem parseAddr_ipv4Text (a : BitVec 32) : parseAddr (ipv4Text a) = some (.v4 a) := by
  have hfind : (ipv4Text a).find? (fun c => c == 46 || c == 58 || c == 37) = some 46 := by
    have hnone : (decimal (a.toNat / 2 ^ 24)).find? (fun c => c == 46 || c == 58 || c == 37) =
        none := by
      apply List.find?_eq_none.mpr
      intro c hc
      have hdigit := digit_of_mem_decimal hc
      have hne : ∀ b : UInt8, b.toNat < 48 ∨ 57 < b.toNat → c ≠ b := by
        rintro b hb rfl
        omega
      simp [hne 46 (by decide), hne 58 (by decide), hne 37 (by decide)]
    rw [ipv4Text, List.find?_append, hnone]
    rfl
  rw [parseAddr, hfind]
  simp [parseIPv4Fields_ipv4Text]

theorem toNat_mapped (a : BitVec 32) : (mapped a).toNat = 0xffff * 2 ^ 32 + a.toNat := by
  have happend : (mapped a).toNat = 0xffff <<< 32 ||| a.toNat := BitVec.toNat_append _ _
  rw [happend, ← Nat.shiftLeft_add_eq_or_of_lt a.isLt, Nat.shiftLeft_eq]

/-- The digits of the first field and the dot behind it, as the loop over the groups sees them. -/
theorem span_ipv4Text (a : BitVec 32) :
    ((ipv4Text a).takeWhile fun c => (hexDigit c).isSome) = decimal (a.toNat / 2 ^ 24) ∧
      ∃ rest, ((ipv4Text a).dropWhile fun c => (hexDigit c).isSome) = 46 :: rest := by
  have hhex : ∀ c ∈ decimal (a.toNat / 2 ^ 24), (hexDigit c).isSome = true := by
    intro c hc
    have hdigit := digit_of_mem_decimal hc
    have hbounds : 48 ≤ c ∧ c ≤ 57 := hdigit
    simp [hexDigit, hbounds]
  constructor
  · rw [ipv4Text, List.takeWhile_append_of_pos hhex]
    simp [hexDigit]
  · rw [ipv4Text, List.dropWhile_append_of_pos hhex]
    exact ⟨_, rfl⟩

/-- The last round of the loop reads an IPv4 address for the last two groups. -/
theorem parseGroups_ipv4Text (rounds k : ℕ) (a : BitVec 32) {groups : List ℕ}
    (h : groups.length ≤ 6) : parseGroups (rounds + 1) (some k) groups (ipv4Text a) =
      some (groups ++ [a.toNat / 65536, a.toNat % 65536], some k) := by
  obtain ⟨htake, rest, hdrop⟩ := span_ipv4Text a
  obtain ⟨hne, hle⟩ := hexDigits_decimal (a.toNat / 2 ^ 24) (by omega)
  rw [parseGroups]
  simp only [htake, hdrop, hne, hle, or_self, if_false]
  rw [if_neg (by simp; omega), parseIPv4Fields_ipv4Text]
  rfl

theorem parseAddr_mappedText (a : BitVec 32) :
    parseAddr (mappedText a) = some (.v6 (mapped a) []) := by
  have hzone : (37 : UInt8) ∉ mappedText a := by
    have htext : (37 : UInt8) ∉ ipv4Text a := notMem_ipv4Text (by decide) a
    simp [mappedText, htext]
  -- the group `ffff`, and the address behind it
  have hgroups : parseGroups 8 (some 0) [] ([102, 102, 102, 102, 58] ++ ipv4Text a) =
      some ([65535, a.toNat / 65536, a.toNat % 65536], some 0) := by
    obtain ⟨c, rest, hcons, hc⟩ : ∃ c rest, ipv4Text a = c :: rest ∧ c ≠ 58 := by
      cases htext : ipv4Text a with
      | nil => simp [ipv4Text] at htext
      | cons c rest =>
        refine ⟨c, rest, rfl, ?_⟩
        rintro rfl
        have hcolon : (58 : UInt8) ∉ ipv4Text a := notMem_ipv4Text (by decide) a
        simp [htext] at hcolon
    have hround : parseGroups 8 (some 0) [] ([102, 102, 102, 102, 58] ++ ipv4Text a) =
        parseGroups 7 (some 0) [65535] (ipv4Text a) := by
      rw [hcons, parseGroups]
      simp [hexDigit, hc]
    rw [hround, parseGroups_ipv4Text 6 0 a (by decide)]
    rfl
  have hvalue : BitVec.ofNat 128 (((65535 * 65536 + a.toNat / 65536) * 65536) + a.toNat % 65536) =
      mapped a := by
    apply BitVec.eq_of_toNat_eq
    rw [toNat_mapped, BitVec.toNat_ofNat]
    omega
  have hfind : (mappedText a).find? (fun c => c == 46 || c == 58 || c == 37) = some 58 := rfl
  rw [parseAddr, hfind]
  rw [parseIPv6, cut_of_notMem hzone]
  simp only [hzone, false_and, if_false]
  show Option.map _ ((parseGroups 8 (some 0) [] ([102, 102, 102, 102, 58] ++ ipv4Text a)).bind
    expand) = _
  rw [hgroups, ← hvalue]
  simp [expand]

end Netip

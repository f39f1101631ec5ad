import Mathlib.Data.List.TakeWhile
import Mathlib.Data.Nat.Digits.Defs

/-!
# Byte strings

Go's `[]byte` and `string` are both sequences of bytes. `bytes` turns an ASCII literal into
one, `cut` is `strings.Cut` for a one-byte separator, and `decimal` is what `%d` prints for a
natural number. `strings.Split` with a one-byte separator is `List.splitOn`.
-/

/-- A sequence of bytes. -/
abbrev Bytes := List UInt8

/-- The bytes of an ASCII literal. -/
def bytes (s : String) : Bytes := s.toList.map fun c => UInt8.ofNat c.toNat

namespace Bytes

open List

/-- A literal is the list of its characters, which need not be decoded. -/
theorem bytes_ofList (l : List Char) :
    bytes (String.ofList l) = l.map fun c => UInt8.ofNat c.toNat := by
  rw [bytes, String.toList_ofList]

variable {P : UInt8 → Prop} {s a : Bytes} {sep : UInt8} {n width : ℕ}

/-- A property of all bytes is a finite check. -/
theorem forall_byte (h : ∀ n : Fin 256, P (UInt8.ofFin n)) (b : UInt8) : P b :=
  h b.toFin

/-- A property of the bytes of a text is checked along the text. The instance for the quantifier may
be the one that tries all 256 bytes. -/
theorem forall_mem_of_all [DecidablePred P] (h : s.all (fun b => decide (P b)) = true) :
    ∀ b ∈ s, P b := fun b hb =>
  of_decide_eq_true (all_eq_true.mp h b hb)

/-! ## Cutting -/

/-- The text before the first `sep` and the text after it; without a `sep`, the whole text and
nothing. -/
def cut (sep : UInt8) (s : Bytes) : Bytes × Bytes :=
  (s.takeWhile (· != sep), (s.dropWhile (· != sep)).tail)

theorem cut_of_notMem (h : sep ∉ s) : cut sep s = (s, []) := by
  have hne : ∀ b ∈ s, (b != sep) = true := fun b hb => bne_iff_ne.mpr fun heq => h (heq ▸ hb)
  rw [cut, takeWhile_eq_self_iff.mpr hne, dropWhile_eq_nil_iff.mpr hne, tail_nil]

theorem cut_append (b : Bytes) (h : sep ∉ a) : cut sep (a ++ sep :: b) = (a, b) := by
  have hne : ∀ c ∈ a, (c != sep) = true := fun c hc => bne_iff_ne.mpr fun heq => h (heq ▸ hc)
  rw [cut, takeWhile_append_of_pos hne, dropWhile_append_of_pos hne]
  simp

theorem notMem_cut_fst (sep : UInt8) (s : Bytes) : sep ∉ (cut sep s).1 := by
  intro h
  have hne : (sep != sep) = true := mem_takeWhile_imp (p := (· != sep)) h
  exact bne_iff_ne.mp hne rfl

theorem cut_fst_sublist (sep : UInt8) (s : Bytes) : (cut sep s).1.Sublist s :=
  takeWhile_sublist _

/-- Cutting at a separator that occurs leaves a shorter text before it. -/
theorem length_cut_fst_lt (h : sep ∈ s) : (cut sep s).1.length < s.length := by
  refine lt_of_le_of_ne (cut_fst_sublist sep s).length_le fun heq => ?_
  have hfull := (cut_fst_sublist sep s).eq_of_length heq
  exact notMem_cut_fst sep s (hfull.symm ▸ h)

/-- Only the text up to the first separator matters. -/
theorem cut_append_of_mem (h : sep ∈ a) (b : Bytes) : (cut sep (a ++ b)).1 = (cut sep a).1 := by
  obtain ⟨a₁, a₂, rfl, ha₁⟩ := eq_append_cons_of_mem h
  rw [append_assoc, cons_append, cut_append _ ha₁, cut_append _ ha₁]

/-! ## Decimal numbers -/

/-- The decimal digits of a number, as `%d` prints it. -/
def decimal (n : ℕ) : Bytes :=
  if n = 0 then [48] else (Nat.digits 10 n).reverse.map fun d => UInt8.ofNat (48 + d)

/-- Decimal digits are bytes from `0` to `9`. -/
theorem digit_of_mem_decimal {b : UInt8} (h : b ∈ decimal n) : 48 ≤ b.toNat ∧ b.toNat ≤ 57 := by
  unfold decimal at h
  split_ifs at h
  · rw [mem_singleton.mp h]
    decide
  · obtain ⟨d, hd, rfl⟩ := mem_map.mp h
    have := Nat.digits_lt_base (by decide : 1 < 10) (mem_reverse.mp hd)
    rw [UInt8.toNat_ofNat']
    omega

theorem decimal_ne_nil (n : ℕ) : decimal n ≠ [] := by
  unfold decimal
  split_ifs with hn
  · exact cons_ne_nil _ _
  · simpa [Nat.digits_ne_nil_iff_ne_zero] using hn

theorem decimal_injective : Function.Injective decimal := by
  have hdigit : ∀ d ∈ List.range 10, (UInt8.ofNat (48 + d)).toNat - 48 = d := by decide
  -- the digits can be read off
  have hread : ∀ n, n ≠ 0 → (decimal n).reverse.map (fun b => b.toNat - 48) = Nat.digits 10 n := by
    intro n hn
    rw [decimal, if_neg hn, ← map_reverse, reverse_reverse, map_map]
    refine (map_congr_left fun d hd => ?_).trans (map_id _)
    exact hdigit d (mem_range.mpr (Nat.digits_lt_base (by decide) hd))
  have hzero : ∀ n, decimal n = decimal 0 → n = 0 := by
    intro n h
    by_contra hn
    have hdig := hread n hn
    rw [h] at hdig
    have := Nat.ofDigits_digits 10 n
    rw [← hdig] at this
    exact hn (by simpa [decimal] using this.symm)
  intro m n h
  by_cases hm : m = 0
  · subst hm
    exact (hzero n h.symm).symm
  · by_cases hn : n = 0
    · subst hn
      exact hzero m h
    · have := hread m hm
      rw [h, hread n hn] at this
      exact (Nat.digits_inj_iff.mp this).symm

/-! ## Numbers of a fixed width -/

/-- The number that the bytes stand for, least significant byte first. -/
def littleEndian : Bytes → ℕ
  | [] => 0
  | b :: s => b.toNat + 256 * littleEndian s

/-- The lowest `width` bytes of a number, least significant byte first. -/
def putLittleEndian : ℕ → ℕ → Bytes
  | 0, _ => []
  | width + 1, n => UInt8.ofNat (n % 256) :: putLittleEndian width (n / 256)

/-- The number that the bytes stand for, most significant byte first. -/
def bigEndian (s : Bytes) : ℕ := littleEndian s.reverse

/-- The lowest `width` bytes of a number, most significant byte first. -/
def putBigEndian (width n : ℕ) : Bytes := (putLittleEndian width n).reverse

theorem putLittleEndian_littleEndian (s : Bytes) :
    putLittleEndian s.length (littleEndian s) = s := by
  induction s with
  | nil => rfl
  | cons b s ih =>
    have hlt := b.toNat_lt
    have hmod : (b.toNat + 256 * littleEndian s) % 256 = b.toNat := by omega
    have hdiv : (b.toNat + 256 * littleEndian s) / 256 = littleEndian s := by omega
    rw [length_cons, littleEndian, putLittleEndian, hmod, hdiv, ih, UInt8.ofNat_toNat]

theorem putBigEndian_bigEndian (s : Bytes) : putBigEndian s.length (bigEndian s) = s := by
  rw [putBigEndian, bigEndian, ← length_reverse, putLittleEndian_littleEndian, reverse_reverse]

@[simp]
theorem length_putLittleEndian (width n : ℕ) : (putLittleEndian width n).length = width := by
  induction width generalizing n with
  | zero => rfl
  | succ width ih => rw [putLittleEndian, length_cons, ih]

@[simp]
theorem length_putBigEndian (width n : ℕ) : (putBigEndian width n).length = width := by
  rw [putBigEndian, length_reverse, length_putLittleEndian]

theorem littleEndian_lt (s : Bytes) : littleEndian s < 256 ^ s.length := by
  induction s with
  | nil => exact Nat.one_pos
  | cons b s ih =>
    have hlt := b.toNat_lt
    rw [littleEndian, length_cons, pow_succ]
    omega

theorem littleEndian_putLittleEndian (h : n < 256 ^ width) :
    littleEndian (putLittleEndian width n) = n := by
  induction width generalizing n with
  | zero =>
    rw [pow_zero, Nat.lt_one_iff] at h
    rw [h]
    rfl
  | succ width ih =>
    have hdiv : n / 256 < 256 ^ width := by
      exact Nat.div_lt_of_lt_mul (by rwa [Nat.mul_comm])
    have hmod : (UInt8.ofNat (n % 256)).toNat = n % 256 := by
      exact Nat.mod_mod n 256
    rw [putLittleEndian, littleEndian, ih hdiv, hmod]
    exact Nat.mod_add_div n 256

theorem bigEndian_putBigEndian (h : n < 256 ^ width) : bigEndian (putBigEndian width n) = n := by
  rw [bigEndian, putBigEndian, reverse_reverse, littleEndian_putLittleEndian h]

/-! ## Buffers -/

/-- `copy(dst[pos : pos+width], src)`. -/
def copyAt (dst : Bytes) (pos width : ℕ) (src : Bytes) : Bytes :=
  dst.take pos ++ (src.take width ++ dst.drop (pos + (src.take width).length))

theorem copyAt_append (a b : Bytes) (width : ℕ) (src : Bytes) :
    copyAt (a ++ b) a.length width src =
      a ++ (src.take width ++ b.drop (src.take width).length) := by
  rw [copyAt, take_left, ← drop_drop, drop_left]

end Bytes

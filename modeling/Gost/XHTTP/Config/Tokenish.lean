import Mathlib.Data.Rat.Floor
import Mathlib.Tactic.FieldSimp
import Mathlib.Tactic.Linarith
import Gost.Lib.MachineInt
import Gost.XHTTP.Config.Padding

/-!
# Tokenish padding and its check

`GenerateTokenishPaddingBase62` appends or drops characters of a random text until its Huffman
encoded length is close to the target. An appended `X` or `Z` has 8 bits and adds a byte. A dropped
character has at most 8 bits, so it takes at most a byte away. Neither direction passes over the
tolerance of two bytes on both sides, and 150 rounds are enough for the texts that it starts from,
whose characters have 5 to 8 bits.

`IsPaddingValid` accepts the text for every range that has the target, unless the tolerance takes a
bound of the range out of the integers of 32 bits: `tokenish_accepted_iff`.
-/

namespace XHTTP

open Bytes List MachineInt

/-! ## The model -/

/-- The length of the random text, `math.Ceil(target / avgHuffmanBytesPerCharBase62)` and at
least 1. -/
def tokenishRandLength (target : ℤ) : ℤ := max 1 ⌈(target : ℚ) / (4 / 5)⌉

/-- `IsPaddingValid` with its integers of 32 bits. -/
def Config.isPaddingValidInt32 (c : Config) (padding : Bytes) (lo hi : ℤ)
    (method : PaddingMethod) : Bool :=
  if padding = [] then false
  else
    let r := if hi ≤ 0 then c.getNormalizedXPaddingBytes else ⟨lo, hi⟩
    match method with
    | .tokenish =>
      let n := int32 (huffmanEncodeLength padding)
      let f := int32 (r.lo - validationTolerance)
      let t := int32 (r.hi + validationTolerance)
      (if f < 0 then 0 else f) ≤ n && n ≤ t
    | _ =>
      let n := int32 padding.length
      r.lo ≤ n && n ≤ r.hi

/-! ## Huffman lengths -/

/-- Bits of the Huffman code of a text. -/
def huffmanBits (s : Bytes) : ℕ := (s.map fun c => huffmanCodeLen.getD c.toNat 0).sum

theorem huffmanEncodeLength_eq (s : Bytes) : huffmanEncodeLength s = (huffmanBits s + 7) / 8 := rfl

theorem huffmanBits_concat (s : Bytes) (c : UInt8) :
    huffmanBits (s ++ [c]) = huffmanBits s + huffmanCodeLen.getD c.toNat 0 := by
  simp [huffmanBits]

variable {c : UInt8} {s : Bytes}

/-- Letters and digits have codes of 5 to 8 bits. -/
theorem codeLen_bounds (h : c ∈ charsetBase62) :
    5 ≤ huffmanCodeLen.getD c.toNat 0 ∧ huffmanCodeLen.getD c.toNat 0 ≤ 8 := by
  have hall : ∀ b ∈ charsetBase62,
      5 ≤ huffmanCodeLen.getD b.toNat 0 ∧ huffmanCodeLen.getD b.toNat 0 ≤ 8 :=
    forall_mem_of_all (by decide +kernel)
  exact hall c h

theorem huffmanBits_bounds (h : ∀ c ∈ s, c ∈ charsetBase62) :
    5 * s.length ≤ huffmanBits s ∧ huffmanBits s ≤ 8 * s.length := by
  induction s with
  | nil => simp [huffmanBits]
  | cons c s ih =>
    obtain ⟨hlower, hupper⟩ := ih fun d hd => h d (mem_cons_of_mem c hd)
    have hcode := codeLen_bounds (h c mem_cons_self)
    have hcons : huffmanBits (c :: s) = huffmanCodeLen.getD c.toNat 0 + huffmanBits s := by
      simp [huffmanBits]
    rw [hcons, length_cons]
    omega

/-- `X` and `Z`, which the loop appends, have 8 bits. -/
theorem huffmanEncodeLength_append (h : c = 88 ∨ c = 90) (s : Bytes) :
    huffmanEncodeLength (s ++ [c]) = huffmanEncodeLength s + 1 := by
  have hcode : huffmanCodeLen.getD c.toNat 0 = 8 := by rcases h with rfl | rfl <;> decide
  rw [huffmanEncodeLength_eq, huffmanEncodeLength_eq, huffmanBits_concat, hcode]
  omega

/-- A dropped character takes at most a byte away. -/
theorem huffmanEncodeLength_le_dropLast (h : ∀ c ∈ s, c ∈ charsetBase62) (hne : s ≠ []) :
    huffmanEncodeLength s ≤ huffmanEncodeLength s.dropLast + 1 := by
  have hcode := codeLen_bounds (h _ (getLast_mem hne))
  have hbits : huffmanBits s = huffmanBits s.dropLast +
      huffmanCodeLen.getD (s.getLast hne).toNat 0 := by
    rw [← huffmanBits_concat, dropLast_append_getLast]
  rw [huffmanEncodeLength_eq, huffmanEncodeLength_eq, hbits]
  omega

theorem huffmanEncodeLength_le_length (h : ∀ c ∈ s, c ∈ charsetBase62) :
    huffmanEncodeLength s ≤ s.length := by
  have hbits := huffmanBits_bounds h
  rw [huffmanEncodeLength_eq]
  omega

/-! ## The loop -/

/-- The Huffman length of the text is the target, up to the tolerance. -/
def WithinTolerance (target : ℤ) (s : Bytes) : Prop :=
  |(huffmanEncodeLength s : ℤ) - target| ≤ validationTolerance

theorem withinTolerance_iff {target : ℤ} : WithinTolerance target s ↔
    target - 2 ≤ huffmanEncodeLength s ∧ (huffmanEncodeLength s : ℤ) ≤ target + 2 := by
  rw [WithinTolerance, validationTolerance, abs_le]
  omega

variable {target : ℤ} {s : Bytes} {adjustChar : UInt8}

theorem adjustTokenish_of_within (h : WithinTolerance target s) (iter : ℕ) :
    adjustTokenish target iter s adjustChar = s := by
  cases iter with
  | zero => rfl
  | succ iter => exact if_pos h

theorem adjustTokenish_append (h : (huffmanEncodeLength s : ℤ) < target - 2) (iter : ℕ) :
    adjustTokenish target (iter + 1) s adjustChar =
      adjustTokenish target iter (s ++ [adjustChar]) (if adjustChar = 88 then 90 else 88) := by
  have hout : ¬WithinTolerance target s := by
    rw [withinTolerance_iff]
    omega
  exact (if_neg hout).trans (if_pos (by omega))

/-- The exit for a text of one character is not taken: such a text has at most a byte. -/
theorem adjustTokenish_drop (htarget : 1 ≤ target) (hlen : huffmanEncodeLength s ≤ s.length)
    (h : target + 2 < huffmanEncodeLength s) (iter : ℕ) :
    adjustTokenish target (iter + 1) s adjustChar =
      adjustTokenish target iter s.dropLast adjustChar := by
  have hout : ¬WithinTolerance target s := by
    rw [withinTolerance_iff]
    omega
  exact (if_neg hout).trans ((if_neg (by omega)).trans (if_neg (by omega)))

/-- From below, each round appends a byte and stops within the tolerance. -/
theorem within_of_below (iter : ℕ) (hchar : adjustChar = 88 ∨ adjustChar = 90)
    (hupper : (huffmanEncodeLength s : ℤ) ≤ target + 2)
    (hrounds : target - 2 ≤ huffmanEncodeLength s + iter) :
    WithinTolerance target (adjustTokenish target iter s adjustChar) := by
  induction iter generalizing s adjustChar with
  | zero =>
    have hwithin : WithinTolerance target s :=
      withinTolerance_iff.mpr ⟨by simpa using hrounds, hupper⟩
    rwa [adjustTokenish_of_within hwithin]
  | succ iter ih =>
    by_cases hlower : target - 2 ≤ huffmanEncodeLength s
    · have hwithin : WithinTolerance target s := withinTolerance_iff.mpr ⟨hlower, hupper⟩
      rwa [adjustTokenish_of_within hwithin]
    · have happend := huffmanEncodeLength_append hchar s
      rw [adjustTokenish_append (not_le.mp hlower)]
      apply ih
      · split_ifs <;> simp
      · omega
      · omega

/-- From above, each round drops a character. A text has at least as many characters as bytes of
its Huffman code, so the rounds end within the tolerance. -/
theorem within_of_above (htarget : 1 ≤ target) (iter : ℕ)
    (hcharset : ∀ c ∈ s, c ∈ charsetBase62) (hlower : target - 2 ≤ huffmanEncodeLength s)
    (hrounds : s.length ≤ target + 2 + iter) :
    WithinTolerance target (adjustTokenish target iter s adjustChar) := by
  induction iter generalizing s with
  | zero =>
    have hlen := huffmanEncodeLength_le_length hcharset
    have hwithin : WithinTolerance target s := withinTolerance_iff.mpr ⟨hlower, by omega⟩
    rwa [adjustTokenish_of_within hwithin]
  | succ iter ih =>
    have hlen := huffmanEncodeLength_le_length hcharset
    by_cases hupper : (huffmanEncodeLength s : ℤ) ≤ target + 2
    · have hwithin : WithinTolerance target s := withinTolerance_iff.mpr ⟨hlower, hupper⟩
      rwa [adjustTokenish_of_within hwithin]
    · have hne : s ≠ [] := ne_nil_of_length_pos (by omega)
      have hdrop := huffmanEncodeLength_le_dropLast hcharset hne
      rw [adjustTokenish_drop htarget hlen (not_le.mp hupper)]
      apply ih
      · exact fun c hc => hcharset c (dropLast_subset s hc)
      · omega
      · rw [length_dropLast]
        omega

/-- The loop leaves at least one character. -/
theorem adjustTokenish_ne_nil (iter : ℕ) (h : s ≠ []) :
    adjustTokenish target iter s adjustChar ≠ [] := by
  induction iter generalizing s adjustChar with
  | zero => exact h
  | succ iter ih =>
    rw [adjustTokenish]
    split_ifs with hwithin hbelow hchar hone
    · exact h
    · exact ih (by simp)
    · exact ih (by simp)
    · exact h
    · apply ih
      apply ne_nil_of_length_pos
      rw [length_dropLast]
      omega

/-! ## Tokenish padding -/

theorem tokenishRandLength_bounds (h : 1 ≤ target) :
    5 * target ≤ 4 * tokenishRandLength target ∧
      4 * tokenishRandLength target < 5 * target + 4 := by
  have hlower := Int.le_ceil ((target : ℚ) / (4 / 5))
  have hupper := Int.ceil_lt_add_one ((target : ℚ) / (4 / 5))
  unfold tokenishRandLength
  generalize ⌈(target : ℚ) / (4 / 5)⌉ = n at *
  have hlower' : 5 * target ≤ 4 * n := by
    have hcast : (5 * target : ℚ) ≤ 4 * n := by linarith
    exact_mod_cast hcast
  have hupper' : 4 * n < 5 * target + 4 := by
    have hcast : (4 * n : ℚ) < 5 * target + 4 := by linarith
    exact_mod_cast hcast
  omega

/-- From each random text the loop comes within the tolerance, for targets up to 600. -/
theorem generateTokenish_within (htarget : 1 ≤ target ∧ target ≤ 600)
    (hlength : s.length = tokenishRandLength target) (hcharset : ∀ c ∈ s, c ∈ charsetBase62) :
    WithinTolerance target (generateTokenishPaddingBase62 target (some s)) := by
  have hrand := tokenishRandLength_bounds htarget.1
  have hbits := huffmanBits_bounds hcharset
  have hencode := huffmanEncodeLength_eq s
  rcases le_total (huffmanEncodeLength s : ℤ) (target + 2) with hside | hside
  · -- at least 25/32 of the target to start with: at most 129 characters are appended
    apply within_of_below 150 (.inl rfl) hside
    omega
  · -- at most 5/4 of the target: at most 148 characters are dropped
    apply within_of_above htarget.1 150 hcharset <;> omega

section Check

variable {c : Config} {padding : Bytes} {lo hi : ℤ}

/-- The check of a tokenish padding, whose Huffman length is an `int32`. -/
theorem isPaddingValidInt32_tokenish (hne : padding ≠ []) (hpos : 0 < hi)
    (hlen : huffmanEncodeLength padding < 2 ^ 31) :
    c.isPaddingValidInt32 padding lo hi .tokenish = true ↔
      int32 (lo - 2) ≤ huffmanEncodeLength padding ∧
        (huffmanEncodeLength padding : ℤ) ≤ int32 (hi + 2) := by
  have hint : int32 (huffmanEncodeLength padding) = huffmanEncodeLength padding :=
    int32_of_range (by omega) (by exact_mod_cast hlen)
  rw [Config.isPaddingValidInt32, if_neg hne, if_neg (not_le.mpr hpos)]
  simp only [validationTolerance, hint, Bool.and_eq_true, decide_eq_true_eq]
  split_ifs <;> omega

/-- Away from the ends of the integers of 32 bits the check is the one over all integers. -/
theorem isPaddingValidInt32_eq (hpos : 0 < hi) (hlo : -2 ^ 31 + 2 ≤ lo ∧ lo < 2 ^ 31)
    (hhi : hi < 2 ^ 31 - 2) (hlen : huffmanEncodeLength padding < 2 ^ 31) :
    c.isPaddingValidInt32 padding lo hi .tokenish = c.isPaddingValid padding lo hi .tokenish := by
  by_cases hne : padding = []
  · rw [Config.isPaddingValidInt32, Config.isPaddingValid, if_pos hne, if_pos hne]
  · rw [Bool.eq_iff_iff, isPaddingValidInt32_tokenish hne hpos hlen,
      int32_of_range (by omega) (by omega), int32_of_range (by omega) (by omega),
      Config.isPaddingValid, if_neg hne, if_neg (not_le.mpr hpos)]
    simp only [Bool.and_eq_true, decide_eq_true_eq]
    rw [validationTolerance, max_le_iff]
    omega

end Check

/-- Tokenish padding for a target from 1 to 600 is within the tolerance. A range that has the target
accepts it if and only if the tolerance does not take one of its bounds out of the integers of 32
bits. -/
theorem tokenish_accepted_iff (c : Config) (htarget : 1 ≤ target ∧ target ≤ 600)
    (hlength : s.length = tokenishRandLength target) (hcharset : ∀ c ∈ s, c ∈ charsetBase62) :
    |(huffmanEncodeLength (generateTokenishPaddingBase62 target (some s)) : ℤ) - target| ≤ 2 ∧
      ∀ lo hi : ℤ, -2 ^ 31 ≤ lo → lo ≤ target → target ≤ hi → hi < 2 ^ 31 →
        (c.isPaddingValidInt32 (generateTokenishPaddingBase62 target (some s)) lo hi .tokenish =
            true ↔ -2 ^ 31 + 2 ≤ lo ∧ hi < 2 ^ 31 - 2) := by
  have hwithin := generateTokenish_within htarget hlength hcharset
  refine ⟨hwithin, fun lo hi hlo htarget_lo htarget_hi hhi => ?_⟩
  have hrand := tokenishRandLength_bounds htarget.1
  have hne : generateTokenishPaddingBase62 target (some s) ≠ [] :=
    adjustTokenish_ne_nil 150 (ne_nil_of_length_pos (by omega))
  rw [withinTolerance_iff] at hwithin
  rw [isPaddingValidInt32_tokenish hne (by omega) (by omega)]
  unfold int32
  omega

/-- 25 zeros have 16 bytes; for a target of 20 two more are appended, and a range that ends there
accepts the text. -/
theorem tokenish_accepted_zeros :
    generateTokenishPaddingBase62 20 (some (List.replicate 25 48)) =
        List.replicate 25 48 ++ bytes "XZ" ∧
      ({} : Config).isPaddingValidInt32 (List.replicate 25 48 ++ bytes "XZ") 1 20 .tokenish =
        true := by
  have hgenerate : generateTokenishPaddingBase62 20 (some (List.replicate 25 48)) =
      List.replicate 25 48 ++ bytes "XZ" := by decide +kernel
  have hlength : ((List.replicate 25 (48 : UInt8)).length : ℤ) = tokenishRandLength 20 := by
    decide +kernel
  have hcharset : ∀ c ∈ List.replicate 25 (48 : UInt8), c ∈ charsetBase62 := fun c hc =>
    eq_of_mem_replicate hc ▸ (by decide)
  have haccepted := (tokenish_accepted_iff {} (by decide) hlength hcharset).2 1 20
    (by decide) (by decide) (by decide) (by decide)
  rw [hgenerate] at haccepted
  exact ⟨hgenerate, haccepted.mpr (by decide)⟩

/-- A range up to the largest integer of 32 bits has the target too, and refuses the text. -/
theorem tokenish_refused :
    ({} : Config).isPaddingValidInt32
      (generateTokenishPaddingBase62 20 (some (List.replicate 25 48))) 1 2147483647 .tokenish =
        false := by
  decide +kernel

end XHTTP

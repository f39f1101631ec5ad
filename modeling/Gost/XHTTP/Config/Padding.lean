import Gost.XHTTP.Config.Defs

/-!
# Padding values

Generation and validation of padding, from `xhttp/config/xpadding.go` and
`xhttp/internal/hpack/huffman.go`. The random base62 string that tokenish padding starts from is an
argument.
-/

namespace XHTTP

open Bytes List

/-- `huffmanCodeLen`: bits of the Huffman code of a byte. -/
def huffmanCodeLen : List ℕ :=
  [13, 23, 28, 28, 28, 28, 28, 28, 28, 24, 30, 28, 28, 30, 28, 28,
   28, 28, 28, 28, 28, 28, 30, 28, 28, 28, 28, 28, 28, 28, 28, 28,
   6, 10, 10, 12, 13, 6, 8, 11, 10, 10, 8, 11, 8, 6, 6, 6,
   5, 5, 5, 6, 6, 6, 6, 6, 6, 6, 7, 8, 15, 6, 12, 10,
   13, 6, 7, 7, 7, 7, 7, 7, 7, 7, 7, 7, 7, 7, 7, 7,
   7, 7, 7, 7, 7, 7, 7, 7, 8, 7, 8, 13, 19, 13, 14, 6,
   15, 5, 6, 5, 6, 5, 6, 6, 6, 5, 7, 7, 6, 6, 6, 5,
   6, 7, 6, 5, 5, 6, 7, 7, 7, 7, 7, 15, 11, 14, 13, 28,
   20, 22, 20, 20, 22, 22, 22, 23, 22, 23, 23, 23, 23, 23, 24, 23,
   24, 24, 22, 23, 24, 23, 23, 23, 23, 21, 22, 23, 22, 23, 23, 24,
   22, 21, 20, 22, 22, 23, 23, 21, 23, 22, 22, 24, 21, 22, 23, 23,
   21, 21, 22, 21, 23, 22, 23, 23, 20, 22, 22, 22, 23, 22, 22, 23,
   26, 26, 20, 19, 22, 23, 22, 25, 26, 26, 26, 27, 27, 26, 24, 25,
   19, 21, 26, 27, 27, 26, 27, 24, 21, 21, 26, 26, 28, 27, 27, 27,
   20, 24, 20, 21, 22, 21, 21, 23, 22, 22, 25, 25, 24, 24, 26, 23,
   26, 27, 26, 26, 27, 27, 27, 27, 27, 28, 27, 27, 27, 27, 27, 26]

/-- `HuffmanEncodeLength`: bytes of the Huffman encoded text. -/
def huffmanEncodeLength (s : Bytes) : ℕ :=
  ((s.map fun c => huffmanCodeLen.getD c.toNat 0).sum + 7) / 8

def charsetBase62 : Bytes :=
  bytes "0123456789ABCDEFGHIJKLMNOPQRSTUVWXYZabcdefghijklmnopqrstuvwxyz"

def validationTolerance : ℤ := 2

/-- The loop of `GenerateTokenishPaddingBase62`, with the iterations that are left. -/
def adjustTokenish (target : ℤ) : ℕ → Bytes → UInt8 → Bytes
  | 0, s, _ => s
  | iter + 1, s, adjustChar =>
    let diff := (huffmanEncodeLength s : ℤ) - target
    if |diff| ≤ validationTolerance then s
    else if diff < 0 then
      adjustTokenish target iter (s ++ [adjustChar]) (if adjustChar = 88 then 90 else 88)
    else if s.length ≤ 1 then s
    else adjustTokenish target iter s.dropLast adjustChar

/-- `GenerateTokenishPaddingBase62`, for the outcome of `RandStringFromCharset`. -/
def generateTokenishPaddingBase62 (target : ℤ) (rand : Option Bytes) : Bytes :=
  match rand with
  | none => []
  | some s => adjustTokenish target 150 s 88

/-- `GeneratePadding`. -/
def generatePadding (method : PaddingMethod) (length : ℤ) (rand : Option Bytes) : Bytes :=
  if length ≤ 0 then []
  else
    match method with
    | .tokenish =>
      let padding := generateTokenishPaddingBase62 length rand
      if padding = [] then List.replicate length.toNat 88 else padding
    | _ => List.replicate length.toNat 88

/-- `IsPaddingValid`. -/
def Config.isPaddingValid (c : Config) (padding : Bytes) (lo hi : ℤ) (method : PaddingMethod) :
    Bool :=
  if padding = [] then false
  else
    let r := if hi ≤ 0 then c.getNormalizedXPaddingBytes else ⟨lo, hi⟩
    match method with
    | .tokenish =>
      let n : ℤ := huffmanEncodeLength padding
      max 0 (r.lo - validationTolerance) ≤ n && n ≤ r.hi + validationTolerance
    | _ => r.lo ≤ padding.length && padding.length ≤ r.hi

theorem adjustChars_mem_charset : (88 : UInt8) ∈ charsetBase62 ∧ (90 : UInt8) ∈ charsetBase62 := by
  decide

/-- The loop appends `X` and `Z` and drops characters. -/
theorem mem_charset_of_mem_adjustTokenish {target : ℤ} (iter : ℕ) {s : Bytes} {adjustChar : UInt8}
    (hs : ∀ c ∈ s, c ∈ charsetBase62) (hchar : adjustChar ∈ charsetBase62) :
    ∀ c ∈ adjustTokenish target iter s adjustChar, c ∈ charsetBase62 := by
  induction iter generalizing s adjustChar with
  | zero => exact hs
  | succ iter ih =>
    have happend : ∀ c ∈ s ++ [adjustChar], c ∈ charsetBase62 := by
      intro c hc
      rcases mem_append.mp hc with hc | hc
      · exact hs c hc
      · exact mem_singleton.mp hc ▸ hchar
    rw [adjustTokenish]
    split_ifs
    · exact hs
    · exact ih happend adjustChars_mem_charset.2
    · exact ih happend adjustChars_mem_charset.1
    · exact hs
    · exact ih (fun c hc => hs c (dropLast_subset s hc)) hchar

/-- Padding is made of letters and digits. -/
theorem mem_charset_of_mem_generatePadding {method : PaddingMethod} {length : ℤ}
    {rand : Option Bytes} (hrand : ∀ s ∈ rand, ∀ c ∈ s, c ∈ charsetBase62) {c : UInt8}
    (h : c ∈ generatePadding method length rand) : c ∈ charsetBase62 := by
  have hrepeat : c ∈ List.replicate length.toNat 88 → c ∈ charsetBase62 := fun hc =>
    eq_of_mem_replicate hc ▸ adjustChars_mem_charset.1
  unfold generatePadding at h
  split_ifs at h
  · cases h
  · split at h
    next =>
      dsimp only at h
      split_ifs at h
      · exact hrepeat h
      · cases rand with
        | none => cases h
        | some s =>
          exact mem_charset_of_mem_adjustTokenish 150 (hrand s rfl) adjustChars_mem_charset.1 c h
    next => exact hrepeat h

end XHTTP

import Gost.Lib.Bytes

/-!
# Text line by line

`trimSpace` is `strings.TrimSpace` and `scanLines` is what a `bufio.Scanner` with its default buffer
makes of a text: the lines without their ends, up to the first one that does not fit.
-/

namespace Text

/-! ## White space -/

/-- The white space of Unicode, encoded. -/
def spaces : List Bytes :=
  [[0x09], [0x0a], [0x0b], [0x0c], [0x0d], [0x20], [0xc2, 0x85], [0xc2, 0xa0], [0xe1, 0x9a, 0x80],
    [0xe2, 0x80, 0x80], [0xe2, 0x80, 0x81], [0xe2, 0x80, 0x82], [0xe2, 0x80, 0x83],
    [0xe2, 0x80, 0x84], [0xe2, 0x80, 0x85], [0xe2, 0x80, 0x86], [0xe2, 0x80, 0x87],
    [0xe2, 0x80, 0x88], [0xe2, 0x80, 0x89], [0xe2, 0x80, 0x8a], [0xe2, 0x80, 0xa8],
    [0xe2, 0x80, 0xa9], [0xe2, 0x80, 0xaf], [0xe2, 0x81, 0x9f], [0xe3, 0x80, 0x80]]

/-- The text without the words in front of it. None of them is empty, so its length is enough
rounds. -/
def stripWords (words : List Bytes) : ℕ → Bytes → Bytes
  | 0, s => s
  | rounds + 1, s =>
    match words.find? (·.isPrefixOf s) with
    | none => s
    | some word => stripWords words rounds (s.drop word.length)

/-- `strings.TrimSpace`. -/
def trimSpace (s : Bytes) : Bytes :=
  let s := stripWords spaces s.length s
  (stripWords (spaces.map List.reverse) s.length s.reverse).reverse

/-- `strings.Replace(s, "\t", " ", -1)`. -/
def untab (s : Bytes) : Bytes := s.map fun b => if b = 0x09 then 0x20 else b

/-! ## Lines -/

/-- `bufio.MaxScanTokenSize`. -/
def maxScanTokenSize : ℕ := 64 * 1024

/-- The lines of a text. The last one need not have an end. -/
def rawLines (s : Bytes) : List Bytes :=
  let lines := s.splitOn 0x0a
  if lines.getLast? = some [] then lines.dropLast else lines

def dropCR (line : Bytes) : Bytes :=
  if line.getLast? = some 0x0d then line.dropLast else line

/-- The line does not fit into the buffer. -/
def isTooLong (line : Bytes) : Bool := maxScanTokenSize ≤ line.length

/-- All lines, whatever their length. -/
def lines (s : Bytes) : List Bytes := (rawLines s).map dropCR

/-- The lines that are scanned, and whether the scanner failed then. -/
def scanLines (s : Bytes) : List Bytes × Bool :=
  (((rawLines s).takeWhile (!isTooLong ·)).map dropCR, (rawLines s).any isTooLong)

theorem scanLines_eq_lines {s : Bytes} (h : (scanLines s).2 = false) :
    (scanLines s).1 = lines s := by
  have hfit : ∀ line ∈ rawLines s, (!isTooLong line) = true := by
    intro line hline
    rw [Bool.not_eq_true']
    refine Bool.eq_false_iff.mpr fun h' => ?_
    exact Bool.eq_false_iff.mp h (List.any_eq_true.mpr ⟨_, hline, h'⟩)
  rw [scanLines, List.takeWhile_eq_self_iff.mpr hfit]
  rfl

end Text

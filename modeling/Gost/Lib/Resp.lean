import Mathlib.Data.List.DropRight
import Gost.Lib.Bytes

/-!
# The Redis serialization format

The part of RESP that commands are sent in. A line ends with a line feed. A bulk string is `$`, its
length in decimal on a line, and its bytes with two more behind them; a negative length stands for
null. An array is `*`, the number of its elements on a line, and the elements, which are bulk
strings.

`lengths k s` are the sizes that the bulk strings of an array announce, up to the first one that is
not complete.
-/

namespace Resp

open Bytes

/-- The decimal digits of a number. -/
def digits (s : Bytes) : Option ℕ :=
  if s ≠ [] ∧ s.all (fun c => 48 ≤ c && c ≤ 57) then
    some (s.foldl (fun n c => n * 10 + (c.toNat - 48)) 0)
  else none

/-- `strconv.Atoi` for integers of 64 bits. -/
def atoi (s : Bytes) : Option ℤ :=
  let n : Option ℤ :=
    match s with
    | 45 :: ds => (digits ds).map fun n => -n
    | 43 :: ds => (digits ds).map fun n => n
    | ds => (digits ds).map fun n => n
  n.filter fun n => -2 ^ 63 ≤ n && n < 2 ^ 63

/-- A line without its end, and what is behind it. -/
def line (s : Bytes) : Option (Bytes × Bytes) :=
  if 10 ∈ s then some ((cut 10 s).1.rdropWhile (fun c => c = 13 || c = 10), (cut 10 s).2) else none

/-- A number on a line. -/
def number (s : Bytes) : Option (ℤ × Bytes) :=
  (line s).bind fun (text, rest) => (atoi text).map (·, rest)

/-- A bulk string behind its `$`. -/
def bulk (s : Bytes) : Option (Bytes × Bytes) :=
  (number s).bind fun (n, rest) =>
    if n < 0 then some ([], rest)
    else if n.toNat + 2 ≤ rest.length then some (rest.take n.toNat, rest.drop (n.toNat + 2))
    else none

/-- An element of an array. -/
def element : Bytes → Option (Bytes × Bytes)
  | 36 :: s => bulk s
  | _ => none

/-- What is behind the first `k` elements. -/
def elements : ℕ → Bytes → Option Bytes
  | 0, s => some s
  | k + 1, s => (element s).bind fun (_, rest) => elements k rest

/-- The size that a bulk string announces, with the number of bytes that are behind the line. -/
def announced (s : Bytes) : List (ℕ × ℕ) :=
  match number s with
  | some (n, rest) => if n < 0 then [] else [(n.toNat, rest.length)]
  | none => []

/-- The sizes that the first `k` elements announce. -/
def lengths : ℕ → Bytes → List (ℕ × ℕ)
  | k + 1, 36 :: s =>
    announced s ++
      match bulk s with
      | some (_, rest) => lengths k rest
      | none => []
  | _, _ => []

example : element (bytes "$3\r\nGET\r\nrest") = some (bytes "GET", bytes "rest") ∧
    element (bytes "$-1\r\n") = some ([], []) ∧ element (bytes "$3\r\nGE") = none ∧
    lengths 2 (bytes "$3\r\nGET\r\n$999\r\nk") = [(3, 12), (999, 1)] := by
  decide

/-! ## The first element -/

variable {c : UInt8} {s value rest : Bytes}

theorem element_of_ne (rest : Bytes) (h : c ≠ 36) : element (c :: rest) = none := by
  unfold element
  split
  · next heq => exact absurd (List.cons.inj heq).1 h
  · rfl

theorem lengths_of_ne (k : ℕ) (rest : Bytes) (h : c ≠ 36) : lengths (k + 1) (c :: rest) = [] := by
  unfold lengths
  split
  · next heq => exact absurd (List.cons.inj heq).1 h
  · rfl

theorem lengths_of_bulk_eq_some (k : ℕ) (h : bulk s = some (value, rest)) :
    lengths (k + 1) (36 :: s) = announced s ++ lengths k rest := by
  show announced s ++ _ = _
  rw [h]

theorem lengths_of_bulk_eq_none (k : ℕ) (h : bulk s = none) :
    lengths (k + 1) (36 :: s) = announced s := by
  show announced s ++ _ = _
  rw [h, List.append_nil]

end Resp

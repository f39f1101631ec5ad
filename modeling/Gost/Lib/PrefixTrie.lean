import Mathlib.Data.List.Infix

/-!
# Binary tries of bit strings

A trie holds a set of bit strings. `covers` asks whether one of them is a beginning of a given
string, and stops at the first one it meets on the way down.
-/

/-- A trie; `nil` is the empty one. -/
inductive PrefixTrie
  | nil
  | node (entry : Bool) (zero one : PrefixTrie)
deriving DecidableEq, Repr

namespace PrefixTrie

/-- Marks the node at the end of the path, which is made where it is missing. -/
def insert : List Bool → PrefixTrie → PrefixTrie
  | [], nil => node true nil nil
  | [], node _ zero one => node true zero one
  | false :: path, nil => node false (insert path nil) nil
  | true :: path, nil => node false nil (insert path nil)
  | false :: path, node entry zero one => node entry (insert path zero) one
  | true :: path, node entry zero one => node entry zero (insert path one)

/-- One of the strings in the trie is a beginning of the given one. -/
def covers : PrefixTrie → List Bool → Bool
  | nil, _ => false
  | node true _ _, _ => true
  | node false _ _, [] => false
  | node false zero one, bit :: bits => (if bit then one else zero).covers bits

@[simp]
theorem covers_nil (bits : List Bool) : nil.covers bits = false := by simp [covers]

/-- Inserting a string adds what begins with it, and nothing else. -/
theorem covers_insert (path : List Bool) (t : PrefixTrie) (bits : List Bool) :
    (t.insert path).covers bits ↔ path <+: bits ∨ t.covers bits := by
  induction path generalizing t bits with
  | nil => cases t <;> simp [insert, covers]
  | cons b path ih =>
    -- a node that is marked already covers everything, otherwise the first bit decides
    cases t with
    | nil => cases b <;> rcases bits with _ | ⟨_ | _, bits⟩ <;> simp [insert, covers, ih]
    | node entry zero one =>
      cases entry with
      | true => cases b <;> simp [insert, covers]
      | false => cases b <;> rcases bits with _ | ⟨_ | _, bits⟩ <;> simp [insert, covers, ih]

end PrefixTrie

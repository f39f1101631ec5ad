import Gost.Lib.Bytes
import Gost.Lib.Reader

/-!
# The head of a message

`ReadResponse` reads line by line and stops behind the first empty line. Lines end with a line feed
and may have a carriage return before it, so the head ends with two line feeds that have nothing or
one carriage return between them.
-/

namespace Http

open List

/-- The text ends with an empty line. -/
def endsHead (s : Bytes) : Bool := [10, 10].isSuffixOf s || [10, 13, 10].isSuffixOf s

/-- Reads on behind `front` until it ends with an empty line. -/
def splitFrom (front : Bytes) : Bytes → Option (Bytes × Bytes)
  | [] => if endsHead front then some (front, []) else none
  | c :: s => if endsHead front then some (front, c :: s) else splitFrom (front ++ [c]) s

/-- The head of a message, and what follows it; `none` while it is not complete. -/
def splitHead (s : Bytes) : Option (Bytes × Bytes) := splitFrom [] s

variable {front s head extra : Bytes}

theorem splitFrom_sound (h : splitFrom front s = some (head, extra)) :
    front ++ s = head ++ extra := by
  induction s generalizing front with
  | nil =>
    rw [splitFrom] at h
    split_ifs at h
    cases h
    rfl
  | cons c s ih =>
    rw [splitFrom] at h
    split_ifs at h
    · cases h
      rfl
    · rw [← ih h, append_assoc, singleton_append]

theorem splitFrom_stable (more : Bytes) (h : splitFrom front s = some (head, extra)) :
    splitFrom front (s ++ more) = some (head, extra ++ more) := by
  induction s generalizing front with
  | nil =>
    rw [splitFrom] at h
    split_ifs at h with hend
    cases h
    cases more with
    | nil => exact if_pos hend
    | cons c more => exact if_pos hend
  | cons c s ih =>
    rw [splitFrom] at h
    rw [cons_append, splitFrom]
    split_ifs at h ⊢
    · cases h
      rfl
    · exact ih h

theorem splitFrom_exact (h : splitFrom front s = some (head, extra)) :
    ∃ more, head = front ++ more ∧ splitFrom front more = some (head, []) := by
  induction s generalizing front with
  | nil =>
    rw [splitFrom] at h
    split_ifs at h with hend
    cases h
    exact ⟨[], (append_nil _).symm, if_pos hend⟩
  | cons c s ih =>
    rw [splitFrom] at h
    split_ifs at h with hend
    · cases h
      exact ⟨[], (append_nil _).symm, if_pos hend⟩
    · obtain ⟨more, rfl, hmore⟩ := ih h
      refine ⟨c :: more, by simp, ?_⟩
      rw [splitFrom, if_neg hend]
      exact hmore

theorem delimits_splitHead : Reader.Delimits splitHead where
  sound _ _ _ h := by
    have := splitFrom_sound h
    rwa [nil_append] at this
  exact _ _ _ h := by
    obtain ⟨more, rfl, hmore⟩ := splitFrom_exact h
    exact hmore
  stable _ _ _ more h := splitFrom_stable more h

example : splitHead (bytes "HTTP/1.1 101 X\r\nA: b\r\n\r\nrest") =
    some (bytes "HTTP/1.1 101 X\r\nA: b\r\n\r\n", bytes "rest") := by decide

end Http

import Mathlib.Data.List.Basic

/-!
# Machines that tag their input

A machine reads a word symbol by symbol and gives each symbol a tag; it may also fail. `Reads` says
that the machine reads a tagged word: it does not fail and gives the tags of the word. A cut of the
word is a cut of the run.
-/

namespace Transducer

variable {σ α τ ε : Type*}

/-- From `s` the machine reads the tagged word and is in `s'` then. -/
def Reads (feed : σ → α → Except ε (σ × τ)) : σ → List (α × τ) → σ → Prop
  | s, [], s' => s = s'
  | s, (a, t) :: word, s' => ∃ s₁, feed s a = .ok (s₁, t) ∧ Reads feed s₁ word s'

variable {feed : σ → α → Except ε (σ × τ)} {s s' : σ}

theorem reads_append {xs ys : List (α × τ)} :
    Reads feed s (xs ++ ys) s' ↔ ∃ s₁, Reads feed s xs s₁ ∧ Reads feed s₁ ys s' := by
  induction xs generalizing s with
  | nil => simp [Reads]
  | cons x xs ih =>
    constructor
    · rintro ⟨s₁, hfeed, hrest⟩
      obtain ⟨s₂, hxs, hys⟩ := ih.mp hrest
      exact ⟨s₂, ⟨s₁, hfeed, hxs⟩, hys⟩
    · rintro ⟨s₂, ⟨s₁, hfeed, hxs⟩, hys⟩
      exact ⟨s₁, hfeed, ih.mpr ⟨s₂, hxs, hys⟩⟩

end Transducer

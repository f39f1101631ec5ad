import Mathlib.Data.List.Infix

/-!
# Readers

An `io.Reader` as the list of what its `Read` calls return; behind the last result it stays at the
end. `bufferUntil` reads through a private buffer until a self-delimiting text is complete. The last
read may bring more than the text; `bufferUntil_extra` says when it does.
-/

/-- The error of a `Read` call. -/
inductive ReadError
  | eof
  | other
deriving DecidableEq, Repr

/-- The result of a `Read` call. Data may come together with an error. -/
structure ReadResult (α : Type*) where
  data : List α
  err : Option ReadError := none
deriving DecidableEq, Repr

namespace Reader

open List

variable {α : Type*}

/-- All data of the results. -/
def received (reads : List (ReadResult α)) : List α := reads.flatMap (·.data)

@[simp]
theorem received_nil : received ([] : List (ReadResult α)) = [] := rfl

@[simp]
theorem received_cons (r : ReadResult α) (reads : List (ReadResult α)) :
    received (r :: reads) = r.data ++ received reads := flatMap_cons

@[simp]
theorem received_append (reads reads' : List (ReadResult α)) :
    received (reads ++ reads') = received reads ++ received reads' := flatMap_append

/-- The results up to and including the first error. -/
def untilError : List (ReadResult α) → List (ReadResult α)
  | [] => []
  | r :: reads => if r.err = none then r :: untilError reads else [r]

/-- The results cut `s` into reads, with the end of the file behind the last one or together with
it. -/
structure Delivers (reads : List (ReadResult α)) (s : List α) : Prop where
  received_eq : received reads = s
  ends : ∃ init last, reads = init ++ [last] ∧ last.err = some .eof ∧
    ∀ r ∈ init, r.err = none ∧ r.data ≠ []

/-- No read fails, and only the last one may come with the end of the file. -/
structure Clean (reads : List (ReadResult α)) : Prop where
  init : ∀ r ∈ reads.dropLast, r.err = none
  ne_other : ∀ r ∈ reads, r.err ≠ some .other

instance (reads : List (ReadResult α)) : Decidable (Clean reads) :=
  decidable_of_iff ((∀ r ∈ reads.dropLast, r.err = none) ∧ ∀ r ∈ reads, r.err ≠ some .other)
    ⟨fun h => ⟨h.1, h.2⟩, fun h => ⟨h.1, h.2⟩⟩

theorem Clean.of_append {taken rest : List (ReadResult α)} (h : Clean (taken ++ rest)) :
    Clean rest := by
  refine ⟨fun r hr => h.init r ?_, fun r hr => h.ne_other r (mem_append_right taken hr)⟩
  rw [dropLast_append_of_ne_nil (ne_nil_of_mem (mem_of_mem_dropLast hr))]
  exact mem_append_right taken hr

/-! ## Reading through a private buffer -/

/-- Reads until `split` finds a text at the front of the buffer: the text, what is left in the
buffer, and the reads that were not made. -/
def bufferUntil (split : List α → Option (List α × List α)) :
    List (ReadResult α) → List α → Option (List α × List α × List (ReadResult α))
  | [], buf => (split buf).map fun p => (p.1, p.2, [])
  | r :: reads, buf =>
    match split buf with
    | some (text, extra) => some (text, extra, r :: reads)
    | none =>
      if r.err = none then bufferUntil split reads (buf ++ r.data)
      else (split (buf ++ r.data)).map fun p => (p.1, p.2, reads)

/-- `split` recognises a text by its own bytes, whatever follows. -/
structure Delimits (split : List α → Option (List α × List α)) : Prop where
  sound : ∀ s text extra, split s = some (text, extra) → s = text ++ extra
  exact : ∀ s text extra, split s = some (text, extra) → split text = some (text, [])
  stable : ∀ s text extra more, split s = some (text, extra) →
    split (s ++ more) = some (text, extra ++ more)

section Buffer

variable {split : List α → Option (List α × List α)} (hsplit : Delimits split) {text : List α}
include hsplit

theorem Delimits.split_append (htext : split text = some (text, [])) (extra : List α) :
    split (text ++ extra) = some (text, extra) :=
  hsplit.stable _ _ _ _ htext

variable {reads : List (ReadResult α)} {tail : List α}

/-- The text is taken from the front of the reads, and no read is made once it is complete. -/
theorem bufferUntil_spec (htext : split text = some (text, []))
    (hreads : ∀ r ∈ reads.dropLast, r.err = none) {buf : List α}
    (hdata : buf ++ received reads = text ++ tail) :
    ∃ taken rest extra, reads = taken ++ rest ∧
      bufferUntil split reads buf = some (text, extra, rest) ∧
      buf ++ received taken = text ++ extra ∧
      ∀ k < taken.length, split (buf ++ received (taken.take k)) = none := by
  have hall := hsplit.split_append htext tail
  rw [← hdata] at hall
  induction reads generalizing buf with
  | nil =>
    rw [received_nil, append_nil] at hall hdata
    refine ⟨[], [], tail, rfl, ?_, ?_, fun k hk => absurd hk (Nat.not_lt_zero k)⟩
    · rw [bufferUntil, hall]
      rfl
    · rw [received_nil, append_nil, hdata]
  | cons r reads ih =>
    cases hbuf : split buf with
    | some p =>
      obtain ⟨text', extra⟩ := p
      have hsame := hsplit.stable _ _ _ (received (r :: reads)) hbuf
      rw [hall, Option.some.injEq, Prod.mk.injEq] at hsame
      obtain ⟨rfl, -⟩ := hsame
      refine ⟨[], r :: reads, extra, rfl, ?_, ?_, fun k hk => absurd hk (Nat.not_lt_zero k)⟩
      · rw [bufferUntil, hbuf]
      · rw [received_nil, append_nil]
        exact hsplit.sound _ _ _ hbuf
    | none =>
      rw [received_cons, ← append_assoc] at hall hdata
      by_cases herr : r.err = none
      · have hrest : ∀ x ∈ reads.dropLast, x.err = none := by
          intro x hx
          cases reads with
          | nil => cases hx
          | cons y reads => exact hreads x (mem_cons_of_mem r hx)
        obtain ⟨taken, rest, extra, rfl, hrun, htaken, hbefore⟩ := ih hrest hdata hall
        refine ⟨r :: taken, rest, extra, rfl, ?_, ?_, fun k hk => ?_⟩
        · rw [bufferUntil, hbuf]
          exact (if_pos herr).trans hrun
        · rw [received_cons, ← append_assoc, htaken]
        · cases k with
          | zero =>
            rw [take_zero, received_nil, append_nil, hbuf]
          | succ k =>
            rw [take_succ_cons, received_cons, ← append_assoc]
            exact hbefore k (Nat.lt_of_succ_lt_succ hk)
      · -- only the last read comes with an error
        have hnil : reads = [] := by
          by_contra hne
          obtain ⟨y, ys, rfl⟩ := exists_cons_of_ne_nil hne
          exact herr (hreads r mem_cons_self)
        subst hnil
        rw [received_nil, append_nil] at hall hdata
        refine ⟨[r], [], tail, rfl, ?_, ?_, fun k hk => ?_⟩
        · rw [bufferUntil, hbuf]
          refine (if_neg herr).trans ?_
          rw [hall]
          rfl
        · rw [received_cons, received_nil, append_nil, hdata]
        · rw [Nat.lt_one_iff.mp hk, take_zero, received_nil, append_nil, hbuf]

/-- What is left in the buffer is lost for a reader that goes on with the reads. Nothing is left
exactly if some read ends where the text ends. -/
theorem bufferUntil_extra (htext : split text = some (text, []))
    (hreads : ∀ r ∈ reads.dropLast, r.err = none) (hdata : received reads = text ++ tail) :
    ∃ rest extra, bufferUntil split reads [] = some (text, extra, rest) ∧ rest <:+ reads ∧
      extra ++ received rest = tail ∧ (extra = [] ↔ ∃ k, received (reads.take k) = text) := by
  rw [← nil_append (received reads)] at hdata
  obtain ⟨taken, rest, extra, rfl, hrun, htaken, hbefore⟩ :=
    bufferUntil_spec hsplit htext hreads hdata
  rw [nil_append] at htaken
  refine ⟨rest, extra, hrun, suffix_append _ _, ?_, fun hnil => ?_, ?_⟩
  · rw [nil_append, received_append, htaken, append_assoc] at hdata
    exact append_cancel_left hdata
  · refine ⟨taken.length, ?_⟩
    rw [take_left, htaken, hnil, append_nil]
  · rintro ⟨k, hk⟩
    rcases lt_or_ge k taken.length with hlt | hge
    · -- the text was complete before the last read was made
      have hnone := hbefore k hlt
      rw [take_append_of_le_length hlt.le] at hk
      rw [nil_append, hk, htext] at hnone
      cases hnone
    · have hlen := congrArg List.length hk
      rw [take_append, take_of_length_le hge, received_append, htaken] at hlen
      simp only [length_append] at hlen
      exact eq_nil_of_length_eq_zero (by omega)

end Buffer

end Reader

import Gost.Lib.Http.Cookie

/-!
# The lines of a message head

How `Header.WriteSubset` writes the fields of a header, and how a reader that takes line after line
up to a given one goes over the text. `scan_append_of_inl` and `scan_append_of_inr` say that the
reader need not see the text in one piece, and `scan_writeHead` that it stops right behind a head
that was written.
-/

namespace Http

open List

/-! ## Writing -/

/-- A value as it is sent: line breaks become spaces, and spaces around it are dropped. -/
def writeValue (value : Bytes) : Bytes :=
  trim (value.map fun c => if c = 10 ∨ c = 13 then 32 else c)

/-- The line of a field. Fields whose name is not a token are left out. -/
def writeField (field : Bytes × Bytes) : Bytes :=
  if IsToken field.1 then field.1 ++ [58, 32] ++ writeValue field.2 ++ [13, 10] else []

/-- `Header.WriteSubset`. -/
def Header.writeSubset (h : Header) (exclude : List Bytes) : Bytes :=
  (h.filter (!exclude.contains ·.1)).flatMap writeField

/-- A first line, the fields, and the empty line. -/
def writeHead (first : Bytes) (h : Header) (exclude : List Bytes) : Bytes :=
  first ++ [13, 10] ++ h.writeSubset exclude ++ [13, 10]

/-! ## Reading lines -/

/-- Goes on in a line of which `line` was read: what is behind the line `stop`, or, if that line
does not come, what was read of the last line. -/
def scan (stop line : Bytes) : Bytes → Bytes ⊕ Bytes
  | [] => .inr line
  | c :: s =>
    if c = 10 then if line ++ [c] = stop then .inl s else scan stop [] s
    else scan stop (line ++ [c]) s

section Scan

variable {stop line s : Bytes}

theorem scan_append_of_inl {rest : Bytes} (h : scan stop line s = .inl rest) (t : Bytes) :
    scan stop line (s ++ t) = .inl (rest ++ t) := by
  induction s generalizing line with
  | nil => cases h
  | cons c s ih =>
    rw [scan] at h
    rw [cons_append, scan]
    split_ifs at h ⊢
    · rw [Sum.inl.inj h]
    · exact ih h
    · exact ih h

theorem scan_append_of_inr {line' : Bytes} (h : scan stop line s = .inr line') (t : Bytes) :
    scan stop line (s ++ t) = scan stop line' t := by
  induction s generalizing line with
  | nil =>
    rw [nil_append, Sum.inr.inj h]
  | cons c s ih =>
    rw [scan] at h
    rw [cons_append, scan]
    split_ifs at h ⊢
    · exact ih h
    · exact ih h

/-- The text goes on to the end of its line. -/
theorem scan_text {text : Bytes} (h : 10 ∉ text) (s : Bytes) :
    scan stop line (text ++ 10 :: s) =
      if line ++ text ++ [10] = stop then .inl s else scan stop [] s := by
  induction text generalizing line with
  | nil =>
    rw [nil_append, append_nil, scan, if_pos rfl]
  | cons c text ih =>
    obtain ⟨hc, htext⟩ := ne_and_not_mem_of_not_mem_cons h
    rw [cons_append, scan, if_neg hc.symm, ih htext, append_assoc line, singleton_append]

/-- While the text is a part of a head whose last line is `stop`, that line has not come. -/
theorem length_lt_of_scan {head taken rest tail : Bytes} (hhead : scan stop [] head = .inl [])
    (htaken : scan stop [] taken = .inr line) (hsplit : taken ++ rest = head ++ tail) :
    taken.length < head.length := by
  refine Nat.lt_of_not_le fun hle => ?_
  obtain ⟨more, rfl⟩ : head <+: taken :=
    prefix_of_prefix_length_le (hsplit ▸ prefix_append head tail)
      (prefix_append taken rest) hle
  rw [scan_append_of_inl hhead] at htaken
  cases htaken

/-- Once the line has come, what was taken is the head and what is behind it. -/
theorem eq_append_of_scan {head taken rest tail extra : Bytes}
    (hhead : scan stop [] head = .inl []) (htaken : scan stop [] taken = .inl extra)
    (hsplit : taken ++ rest = head ++ tail) : taken = head ++ extra := by
  have hwhole : scan stop [] (head ++ tail) = .inl tail := scan_append_of_inl hhead tail
  rw [← hsplit, scan_append_of_inl htaken] at hwhole
  rw [← Sum.inl.inj hwhole, ← append_assoc] at hsplit
  exact append_cancel_right hsplit

end Scan

/-! ## A head that was written -/

theorem notMem_writeValue (value : Bytes) : 10 ∉ writeValue value := by
  intro h
  have hmap : (10 : UInt8) ∈ value.map fun c => if c = 10 ∨ c = 13 then 32 else c :=
    (dropWhile_suffix _).subset (( rdropWhile_prefix _ _).subset h)
  obtain ⟨c, -, hc⟩ := mem_map.mp hmap
  split_ifs at hc with hbreak
  · exact absurd hc (by decide)
  · exact hbreak (.inl hc)

theorem IsToken.notMem_lf {name : Bytes} (h : IsToken name) : 10 ∉ name :=
  fun hmem => absurd (h.2 10 hmem) (by decide)

/-- The line of a field is not the empty one. -/
theorem scan_writeField (field : Bytes × Bytes) (s : Bytes) :
    scan [13, 10] [] (writeField field ++ s) = scan [13, 10] [] s := by
  unfold writeField
  split_ifs with htoken
  · have htext : 10 ∉ field.1 ++ [58, 32] ++ writeValue field.2 ++ [13] := by
      simp [htoken.notMem_lf, notMem_writeValue]
    have hline : field.1 ++ [58, 32] ++ writeValue field.2 ++ [13, 10] ++ s =
        field.1 ++ [58, 32] ++ writeValue field.2 ++ [13] ++ 10 :: s := by simp
    rw [hline, scan_text htext, if_neg]
    intro heq
    have hlen := congrArg List.length heq
    simp only [length_append, length_cons, length_nil] at hlen
    omega
  · rfl

theorem scan_fields (h : Header) (s : Bytes) :
    scan [13, 10] [] (h.flatMap writeField ++ s) = scan [13, 10] [] s := by
  induction h with
  | nil => rfl
  | cons field h ih => rw [flatMap_cons, append_assoc, scan_writeField, ih]

/-- A reader that takes lines up to the empty one takes the head. -/
theorem scan_writeHead {first : Bytes} (hfirst : 10 ∉ first) (hne : first ≠ []) (h : Header)
    (exclude : List Bytes) : scan [13, 10] [] (writeHead first h exclude) = .inl [] := by
  have htext : 10 ∉ first ++ [13] := by simp [hfirst]
  have hhead : writeHead first h exclude =
      first ++ [13] ++ 10 :: (h.writeSubset exclude ++ [13, 10]) := by simp [writeHead]
  rw [hhead, scan_text htext, if_neg]
  · rw [Header.writeSubset, scan_fields]
    decide
  · intro heq
    have hlen := congrArg List.length heq
    have hpos : 0 < first.length := length_pos_of_ne_nil hne
    simp only [length_append, length_cons, length_nil] at hlen
    omega

end Http

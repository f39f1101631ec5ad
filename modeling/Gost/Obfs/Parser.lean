import Gost.Lib.Bytes
import Gost.Lib.Transducer

/-!
# The obfs-tls parser of the dialer

`x/dialer/obfs/tls/conn.go`: `obfsTLSParser.Parse` takes the records out of a chunk of the server's
stream. It moves the payload to the front of the buffer and returns how many bytes are to be read
there. The parser keeps its place between two chunks, so a chunk may end anywhere.

`Parser.feed` is the parser one byte at a time. `parse_spec` says what `Parse` makes of a chunk: it
gets to the same place, and the buffer begins with the payload of the chunk, followed by the bytes
behind the last one of it; but if there are such bytes, then it is their number that is returned.
-/

namespace Obfs

open Bytes List Transducer

/-! ## The parser -/

def tlsRecordTypes : List UInt8 := [0x16, 0x14, 0x16, 0x17]

def tlsVersionMinors : List UInt8 := [0x01, 0x03, 0x03, 0x03]

def maxTLSDataLen : ℕ := 16384

inductive ParseError
  | badType
  | badMajorVersion
  | badMinorVersion
  | maxDataLen
  -- a runtime error: there is no fifth kind of record
  | indexOutOfRange
deriving DecidableEq, Repr

inductive RecordState
  | type
  | version0
  | version1
  | length0
  | length1
  | data
deriving DecidableEq, Repr

/-- `obfsTLSParser`. -/
structure Parser where
  step : ℕ := 0
  state : RecordState := .type
  length : ℕ := 0
deriving DecidableEq, Repr

namespace Parser

/-- A byte in one of the states before the data. An error comes with what it leaves behind. -/
def header (p : Parser) (ch : UInt8) : Except (ParseError × Parser) Parser :=
  match p.state with
  | .type =>
    match tlsRecordTypes[p.step]? with
    | none => .error (.indexOutOfRange, p)
    | some type => if type ≠ ch then .error (.badType, p) else .ok { p with state := .version0 }
  | .version0 =>
    if ch ≠ 0x03 then .error (.badMajorVersion, p) else .ok { p with state := .version1 }
  | .version1 =>
    match tlsVersionMinors[p.step]? with
    | none => .error (.indexOutOfRange, p)
    | some minor =>
      if ch ≠ minor then .error (.badMinorVersion, p) else .ok { p with state := .length0 }
  | .length0 => .ok { p with length := ch.toNat <<< 8, state := .length1 }
  | .length1 =>
    -- the lengths of the first two records are fixed
    let length := if p.step = 0 then 91 else if p.step = 1 then 1 else p.length ||| ch.toNat
    if 2 ≤ p.step ∧ maxTLSDataLen < length then .error (.maxDataLen, { p with length })
    else if 0 < length then .ok { p with length, state := .data }
    else .ok { step := p.step + 1, state := .type, length }
  | .data => .ok p

/-- `left` bytes of the data of a record. -/
def skip (p : Parser) (left : ℕ) : Parser :=
  if p.length - left = 0 then
    { step := if p.step < 3 then p.step + 1 else p.step, state := .type, length := 0 }
  else { p with length := p.length - left }

/-- What is returned at the end of the loop. -/
def returned (last length : ℕ) : ℕ :=
  if last = 0 then 0 else if last < length then length - last else length

/-- `copy(b[last:], b[i:length])`. -/
def moved (b : Bytes) (i last length : ℕ) : Bytes :=
  b.take last ++ (b.drop i).take (length - i) ++ b.drop (last + (length - i))

/-- The loop of `Parse`, with the number of rounds bounded: the parser, the buffer and the result
behind it. Without the bound a chunk of 65536 bytes could keep it going for ever, as `left` is a
`uint16`. -/
def loop (rounds : ℕ) (p : Parser) (b : Bytes) (i last length : ℕ) :
    Option (Parser × Bytes × Except ParseError ℕ) :=
  if length ≤ i then some (p, b, .ok (returned last length))
  else
    match rounds with
    | 0 => none
    | rounds + 1 =>
      if p.state = .data then
        let left := min ((length - i) % 2 ^ 16) p.length
        if 2 ≤ p.step then
          loop rounds (p.skip left) (moved b i last length) (last + left) (last + left)
            (length - (i - last))
        else loop rounds (p.skip left) b (i + left) last length
      else
        match p.header (b.getD i 0) with
        | .error (e, p) => some (p, b, .error e)
        | .ok p => loop rounds p b (i + 1) last length

/-- `Parse`. -/
def parse (p : Parser) (b : Bytes) : Option (Parser × Bytes × Except ParseError ℕ) :=
  loop b.length p b 0 0 b.length

/-! ## One byte at a time -/

/-- The parser after one more byte, and whether that byte is payload. -/
def feed (p : Parser) (ch : UInt8) : Except (ParseError × Parser) (Parser × Bool) :=
  if p.state = .data then .ok (p.skip 1, decide (2 ≤ p.step))
  else (p.header ch).map fun p => (p, false)

/-- In the data of a record there is data left. -/
def Valid (p : Parser) : Prop := p.state = .data → 0 < p.length

theorem valid_init : Valid {} := fun h => RecordState.noConfusion h

end Parser

/-! ## The tagged stream -/

/-- A part of the stream, each byte with whether it is payload. -/
abbrev Tagged := List (UInt8 × Bool)

def Tagged.bytes (ts : Tagged) : Bytes := ts.map (·.1)

/-- The bytes of payload. -/
def payload (ts : Tagged) : Bytes := (ts.filter (·.2)).map (·.1)

/-- What stands behind the last byte of payload, with `gap` before it. -/
def trailingFrom (gap : Bytes) : Tagged → Bytes
  | [] => gap
  | (_, true) :: ts => trailingFrom [] ts
  | (ch, false) :: ts => trailingFrom (gap ++ [ch]) ts

/-- What stands behind the last byte of payload. -/
def trailing (ts : Tagged) : Bytes := trailingFrom [] ts

section Tagged

variable {ts : Tagged}

@[simp]
theorem length_bytes (ts : Tagged) : (Tagged.bytes ts).length = ts.length := length_map _

theorem bytes_take_append_drop (ts : Tagged) (k : ℕ) :
    Tagged.bytes ts = Tagged.bytes (ts.take k) ++ Tagged.bytes (ts.drop k) := by
  simp only [Tagged.bytes, ← map_append, take_append_drop]

theorem payload_append (xs ys : Tagged) : payload (xs ++ ys) = payload xs ++ payload ys := by
  rw [payload, filter_append, map_append]
  rfl

theorem trailingFrom_append (gap : Bytes) (xs ys : Tagged) :
    trailingFrom gap (xs ++ ys) = trailingFrom (trailingFrom gap xs) ys := by
  induction xs generalizing gap with
  | nil => rfl
  | cons x xs ih =>
    obtain ⟨ch, tag⟩ := x
    cases tag <;> exact ih _

theorem payload_of_forall_true (h : ∀ t ∈ ts, t.2 = true) : payload ts = Tagged.bytes ts := by
  rw [payload, filter_eq_self.mpr h]
  rfl

theorem payload_of_forall_false (h : ∀ t ∈ ts, t.2 = false) : payload ts = [] := by
  rw [payload, filter_eq_nil_iff.mpr fun t ht => by rw [h t ht]; nofun]
  rfl

theorem trailingFrom_of_forall_true (gap : Bytes) (hne : ts ≠ []) (h : ∀ t ∈ ts, t.2 = true) :
    trailingFrom gap ts = [] := by
  induction ts generalizing gap with
  | nil => exact absurd rfl hne
  | cons t ts ih =>
    obtain ⟨ch, tag⟩ := t
    obtain ⟨rfl, hts⟩ := forall_mem_cons.mp h
    by_cases hnil : ts = []
    · rw [hnil]
      rfl
    · exact ih [] hnil hts

theorem trailingFrom_of_forall_false (gap : Bytes) (h : ∀ t ∈ ts, t.2 = false) :
    trailingFrom gap ts = gap ++ Tagged.bytes ts := by
  induction ts generalizing gap with
  | nil => exact (append_nil gap).symm
  | cons t ts ih =>
    obtain ⟨ch, tag⟩ := t
    obtain ⟨rfl, hts⟩ := forall_mem_cons.mp h
    change trailingFrom (gap ++ [ch]) ts = _
    rw [ih _ hts, append_assoc]
    rfl

end Tagged

namespace Parser

variable {p p' : Parser} {ts : Tagged}

/-! ## The steps -/

variable {ch : UInt8} {tag : Bool} {k rounds i last length : ℕ} {b : Bytes}

theorem header_of_feed (hstate : p.state ≠ .data) (h : p.feed ch = .ok (p', tag)) :
    p.header ch = .ok p' ∧ tag = false := by
  rw [feed, if_neg hstate] at h
  cases hheader : p.header ch with
  | error e =>
    rw [hheader] at h
    cases h
  | ok p₁ =>
    rw [hheader] at h
    cases h
    exact ⟨rfl, rfl⟩

theorem valid_of_header (h : p.header ch = .ok p') (hdata : p.state ≠ .data) : p'.Valid := by
  intro hdata'
  unfold header at h
  -- only the second byte of a length leads to the data, and then it is not zero
  split at h
  case h_5 =>
    dsimp only at h
    split_ifs at h <;> cases h
    all_goals first | assumption | cases hdata'
  case h_6 hstate => exact absurd hstate hdata
  all_goals
    repeat' split at h
    all_goals cases h
    all_goals cases hdata'

theorem valid_skip (p : Parser) (left : ℕ) : (p.skip left).Valid := by
  unfold skip
  split
  · exact nofun
  next hleft => exact fun _ => Nat.pos_of_ne_zero hleft

theorem skip_skip (hk : 1 < p.length) : (p.skip 1).skip k = p.skip (1 + k) := by
  have hone : p.skip 1 = { p with length := p.length - 1 } := if_neg (by omega)
  rw [hone]
  simp only [skip, Nat.sub_sub]

/-- The bytes of a record's data have one tag, and come with no other effect than their number. -/
theorem reads_data (hstate : p.state = .data) (hpos : 0 < k) (hts : k ≤ ts.length)
    (hlen : k ≤ p.length) (h : Reads feed p ts p') :
    (∀ t ∈ ts.take k, t.2 = decide (2 ≤ p.step)) ∧ Reads feed (p.skip k) (ts.drop k) p' := by
  induction k generalizing p ts with
  | zero => cases hpos
  | succ k ih =>
    match ts, hts with
    | (ch, tag) :: ts, hts =>
      obtain ⟨p₁, hfeed, hrest⟩ := h
      rw [feed, if_pos hstate, Except.ok.injEq, Prod.mk.injEq] at hfeed
      obtain ⟨rfl, rfl⟩ := hfeed
      by_cases hk : k = 0
      · subst hk
        exact ⟨by simp, hrest⟩
      · have hone : p.skip 1 = { p with length := p.length - 1 } := if_neg (by omega)
        rw [length_cons] at hts
        have hstep : (p.skip 1).step = p.step := by rw [hone]
        obtain ⟨htags, hreads⟩ := ih (by rw [hone]; exact hstate) (Nat.pos_of_ne_zero hk)
          (by omega) (by rw [hone]; exact Nat.le_sub_of_add_le hlen) hrest
        rw [hstep] at htags
        rw [skip_skip (by omega), Nat.add_comm] at hreads
        exact ⟨forall_mem_cons.mpr ⟨rfl, htags⟩, hreads⟩

theorem moved_eq (out gap rest junk : Bytes) :
    ∃ junk', moved (out ++ gap ++ rest ++ junk) (out.length + gap.length) out.length
      (out.length + gap.length + rest.length) = out ++ rest ++ junk' := by
  refine ⟨(out ++ gap ++ rest ++ junk).drop (out.length + rest.length), ?_⟩
  have htake : (out ++ gap ++ rest ++ junk).take out.length = out := by
    simp only [append_assoc, take_left]
  have hdrop : (out ++ gap ++ rest ++ junk).drop (out.length + gap.length) = rest ++ junk := by
    rw [← length_append, append_assoc (out ++ gap), drop_left]
  rw [moved, htake, hdrop, Nat.add_sub_cancel_left, take_left]

/-! ## The loop -/

theorem loop_done (hreads : Reads feed p [] p') {out gap junk : Bytes} :
    loop rounds p (out ++ gap ++ Tagged.bytes [] ++ junk) (out.length + gap.length) out.length
        (out.length + gap.length + 0) =
      some (p', out ++ payload [] ++ trailingFrom gap [] ++ junk,
        .ok (returned (out ++ payload []).length
          (out ++ payload [] ++ trailingFrom gap []).length)) := by
  obtain rfl : p = p' := hreads
  rw [Nat.add_zero, loop.eq_def, if_pos (le_refl _)]
  simp [Tagged.bytes, payload, trailingFrom]

/-- A byte before the data of a record. -/
theorem loop_header {p₁ : Parser} (hi : i < length) (hstate : p.state ≠ .data)
    (hheader : p.header (b.getD i 0) = .ok p₁) :
    loop (rounds + 1) p b i last length = loop rounds p₁ b (i + 1) last length := by
  rw [loop, if_neg (Nat.not_le.mpr hi), if_neg hstate, hheader]

/-- A block of the data of a record that is skipped. -/
theorem loop_skipped (hi : i < length) (hlen : length - i < 2 ^ 16) (hstate : p.state = .data)
    (hstep : ¬ 2 ≤ p.step) :
    loop (rounds + 1) p b i last length =
      loop rounds (p.skip (min (length - i) p.length)) b (i + min (length - i) p.length) last
        length := by
  rw [loop, if_neg (Nat.not_le.mpr hi), if_pos hstate, Nat.mod_eq_of_lt hlen, if_neg hstep]

/-- A block of payload. -/
theorem loop_payload (hi : i < length) (hlen : length - i < 2 ^ 16) (hstate : p.state = .data)
    (hstep : 2 ≤ p.step) :
    loop (rounds + 1) p b i last length =
      loop rounds (p.skip (min (length - i) p.length)) (moved b i last length)
        (last + min (length - i) p.length) (last + min (length - i) p.length)
        (length - (i - last)) := by
  rw [loop, if_neg (Nat.not_le.mpr hi), if_pos hstate, Nat.mod_eq_of_lt hlen, if_pos hstep]

/-- A block of payload in front of a chunk. -/
theorem block_of_forall_true (gap : Bytes) (hne : ts.take k ≠ [])
    (h : ∀ t ∈ ts.take k, t.2 = true) :
    payload ts = Tagged.bytes (ts.take k) ++ payload (ts.drop k) ∧
      trailingFrom gap ts = trailingFrom [] (ts.drop k) := by
  constructor
  · rw [← payload_of_forall_true h, ← payload_append, take_append_drop]
  · rw [← trailingFrom_of_forall_true gap hne h, ← trailingFrom_append, take_append_drop]

/-- A block without payload in front of a chunk. -/
theorem block_of_forall_false (gap : Bytes) (h : ∀ t ∈ ts.take k, t.2 = false) :
    payload ts = payload (ts.drop k) ∧
      trailingFrom gap ts = trailingFrom (gap ++ Tagged.bytes (ts.take k)) (ts.drop k) := by
  constructor
  · rw [← nil_append (payload (ts.drop k)), ← payload_of_forall_false h, ← payload_append,
      take_append_drop]
  · rw [← trailingFrom_of_forall_false gap h, ← trailingFrom_append, take_append_drop]

/-- The loop with the payload so far in front, then what was skipped since, then the rest of the
chunk. -/
theorem loop_spec (hvalid : p.Valid) (hreads : Reads feed p ts p') (hrounds : ts.length ≤ rounds)
    (hlen : ts.length < 2 ^ 16) (out gap junk : Bytes) :
    ∃ junk', loop rounds p (out ++ gap ++ Tagged.bytes ts ++ junk) (out.length + gap.length)
        out.length (out.length + gap.length + ts.length) =
      some (p', out ++ payload ts ++ trailingFrom gap ts ++ junk',
        .ok (returned (out ++ payload ts).length
          (out ++ payload ts ++ trailingFrom gap ts).length)) := by
  induction rounds generalizing p ts out gap junk with
  | zero =>
    have hnil : ts = [] := eq_nil_of_length_eq_zero (Nat.le_zero.mp hrounds)
    subst hnil
    exact ⟨junk, loop_done hreads⟩
  | succ rounds ih =>
    by_cases hnil : ts = []
    · subst hnil
      exact ⟨junk, loop_done hreads⟩
    have hpos : 0 < ts.length := length_pos_of_ne_nil hnil
    by_cases hstate : p.state = .data
    · obtain ⟨k, hk⟩ : ∃ k, k = min ts.length p.length := ⟨_, rfl⟩
      have hkpos : 0 < k := by
        rw [hk]
        exact Nat.lt_min.mpr ⟨hpos, hvalid hstate⟩
      have hklen : k ≤ ts.length := hk ▸ Nat.min_le_left ..
      obtain ⟨htags, hrest⟩ := reads_data hstate hkpos hklen (hk ▸ Nat.min_le_right ..) hreads
      have htake : ts.take k ≠ [] := by
        rw [Ne, take_eq_nil_iff, not_or]
        exact ⟨hkpos.ne', hnil⟩
      have hdrop : (ts.drop k).length = ts.length - k := length_drop
      have hleft : out.length + gap.length + ts.length - (out.length + gap.length) = ts.length :=
        Nat.add_sub_cancel_left ..
      by_cases hstep : 2 ≤ p.step
      · -- the block is moved behind the payload so far
        have htrue : ∀ t ∈ ts.take k, t.2 = true := fun t ht => by
          rw [htags t ht, decide_eq_true hstep]
        obtain ⟨junk₁, hmoved⟩ := moved_eq out gap (Tagged.bytes ts) junk
        obtain ⟨junk', hloop⟩ := ih (valid_skip p k) hrest (by omega) (by omega)
          (out ++ Tagged.bytes (ts.take k)) [] junk₁
        obtain ⟨hpayload, htrailing⟩ := block_of_forall_true gap htake htrue
        have hlast : (out ++ Tagged.bytes (ts.take k)).length = out.length + k := by
          rw [length_append, length_bytes, length_take_of_le hklen]
        have hend : out.length + gap.length + ts.length - (out.length + gap.length - out.length) =
            out.length + k + (ts.drop k).length := by omega
        refine ⟨junk', ?_⟩
        rw [loop_payload (by omega) (by omega) hstate hstep, hleft, ← hk, hend, ← hlast,
          ← length_bytes ts, hmoved, hpayload, htrailing, bytes_take_append_drop ts k]
        simpa using hloop
      · -- the block stays where it is, and the gap grows by it
        have hfalse : ∀ t ∈ ts.take k, t.2 = false := fun t ht => by
          rw [htags t ht, decide_eq_false hstep]
        obtain ⟨junk', hloop⟩ := ih (valid_skip p k) hrest (by omega) (by omega)
          out (gap ++ Tagged.bytes (ts.take k)) junk
        obtain ⟨hpayload, htrailing⟩ := block_of_forall_false gap hfalse
        have hi : (gap ++ Tagged.bytes (ts.take k)).length = gap.length + k := by
          rw [length_append, length_bytes, length_take_of_le hklen]
        have hend : out.length + gap.length + ts.length =
            out.length + (gap.length + k) + (ts.drop k).length := by omega
        refine ⟨junk', ?_⟩
        rw [loop_skipped (by omega) (by omega) hstate hstep, hleft, ← hk, hend, Nat.add_assoc,
          ← hi, hpayload, htrailing, bytes_take_append_drop ts k]
        simpa using hloop
    · -- one byte of a header, which goes to the gap as well
      obtain ⟨⟨ch, tag⟩, rest, rfl⟩ := exists_cons_of_ne_nil hnil
      obtain ⟨p₁, hfeed, hrest⟩ := hreads
      obtain ⟨hheader, rfl⟩ := header_of_feed hstate hfeed
      obtain ⟨junk', hloop⟩ := ih (valid_of_header hheader hstate) hrest
        (Nat.le_of_succ_le_succ hrounds) (Nat.lt_of_succ_lt hlen) out (gap ++ [ch]) junk
      have hget : (out ++ gap ++ Tagged.bytes ((ch, false) :: rest) ++ junk).getD
          (out.length + gap.length) 0 = ch := by
        simp [Tagged.bytes]
      have hend : out.length + gap.length + ((ch, false) :: rest).length =
          out.length + (gap ++ [ch]).length + rest.length := by
        rw [length_cons, length_append, length_singleton]
        omega
      refine ⟨junk', ?_⟩
      rw [loop_header (by omega) hstate (by rw [hget]; exact hheader), hend, Nat.add_assoc]
      simpa [Tagged.bytes, payload, trailingFrom] using hloop

/-- `Parse` gets to the same place as the parser one byte at a time. It leaves the payload of the
chunk in front of the buffer, and behind it the bytes that stand behind the last one of it. -/
theorem parse_spec (hvalid : p.Valid) (hreads : Reads feed p ts p') (hlen : ts.length < 2 ^ 16) :
    ∃ junk, parse p (Tagged.bytes ts) =
      some (p', payload ts ++ trailing ts ++ junk,
        .ok (returned (payload ts).length (payload ts ++ trailing ts).length)) := by
  have h := loop_spec hvalid hreads (le_refl _) hlen [] [] []
  simpa [parse, trailing] using h

theorem valid_of_feed (h : p.feed ch = .ok (p', tag)) : p'.Valid := by
  by_cases hstate : p.state = .data
  · rw [feed, if_pos hstate, Except.ok.injEq, Prod.mk.injEq] at h
    rw [← h.1]
    exact valid_skip p 1
  · exact valid_of_header (header_of_feed hstate h).1 hstate

theorem valid_of_reads (hvalid : p.Valid) (hreads : Reads feed p ts p') : p'.Valid := by
  induction ts generalizing p with
  | nil =>
    obtain rfl : p = p' := hreads
    exact hvalid
  | cons t ts ih =>
    obtain ⟨p₁, hfeed, hrest⟩ := hreads
    exact ih (valid_of_feed hfeed) hrest

end Parser

end Obfs

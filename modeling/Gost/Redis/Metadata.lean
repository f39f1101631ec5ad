import Gost.Lib.Resp

/-!
# The metadata of a Redis command

`ParseRedisMetadata` of `x/internal/util/sniffing/sniffer_redis.go` for every stream that a client
may send. The state has the bytes that are not yet read, the sizes that were passed to `make`, and
`ro.Redis`, which an error does not take back.

A size is taken from the stream as it is, before the bytes are there: `make` panics for a size above
`maxAlloc`. `parse_safe_iff` says for which streams the parser does what it promises.
-/

namespace Redis

open Bytes List Option

/-- `RedisRecorderObject`. -/
structure RecorderObject where
  command : Bytes
  key : Bytes
deriving DecidableEq, Repr

inductive ParseError
  | eof
  | unknownType (b : UInt8)
  | bulkLength (text : Bytes)
  | arrayLength (text : Bytes)
  | expectedBulk (b : UInt8)
deriving DecidableEq, Repr

/-- Why a function does not return a value. -/
inductive Stop
  | failed (e : ParseError)
  | panicked
deriving DecidableEq, Repr

structure State where
  rest : Bytes
  /-- the sizes of the buffers, each with the number of bytes that were not yet read -/
  allocs : List (ℕ × ℕ)
  /-- `ro.Redis` -/
  redis : Option RecorderObject
deriving DecidableEq, Repr

abbrev Outcome (α : Type) := Except Stop α × State

/-- The rest of a function, behind `if err != nil { return err }`. -/
def Outcome.andThen {α β : Type} (o : Outcome α) (f : α → State → Outcome β) : Outcome β :=
  match o with
  | (.ok a, s) => f a s
  | (.error e, s) => (.error e, s)

variable {β : Type} {rest : Bytes} {n : ℤ} {o : Outcome Unit} {c : UInt8}

@[simp]
theorem Outcome.andThen_ok {α : Type} (a : α) (s : State) (f : α → State → Outcome β) :
    Outcome.andThen (.ok a, s) f = f a s := rfl

@[simp]
theorem Outcome.andThen_error {α : Type} (e : Stop) (s : State) (f : α → State → Outcome β) :
    Outcome.andThen (.error e, s) f = (.error e, s) := rfl

/-! ## The parser -/

/-- `ReadByte`. -/
def readByte (s : State) : Outcome UInt8 :=
  match s.rest with
  | [] => (.error (.failed .eof), s)
  | b :: rest => (.ok b, { s with rest })

/-- `readRESPLine`. -/
def readRESPLine (s : State) : Outcome Bytes :=
  if 10 ∈ s.rest then
    (.ok ((cut 10 s.rest).1.rdropWhile (fun c => c = 13 || c = 10)),
      { s with rest := (cut 10 s.rest).2 })
  else (.error (.failed .eof), { s with rest := [] })

/-- `make([]byte, n)` for a size that is not negative. -/
def make (maxAlloc n : ℕ) (s : State) : Outcome Unit :=
  (if maxAlloc < n then .error .panicked else .ok (),
    { s with allocs := s.allocs ++ [(n, s.rest.length)] })

/-- `io.ReadFull` with a buffer of `n` bytes. -/
def readFull (n : ℕ) (s : State) : Outcome Bytes :=
  if n ≤ s.rest.length then (.ok (s.rest.take n), { s with rest := s.rest.drop n })
  else (.error (.failed .eof), { s with rest := [] })

/-- `Discard`. -/
def discard (n : ℕ) (s : State) : Outcome Unit :=
  if n ≤ s.rest.length then (.ok (), { s with rest := s.rest.drop n })
  else (.error (.failed .eof), { s with rest := [] })

/-- `readBulkStringPayload`. -/
def readBulkStringPayload (maxAlloc : ℕ) (s : State) : Outcome Bytes :=
  (readRESPLine s).andThen fun line s =>
    match Resp.atoi line with
    | none => (.error (.failed (.bulkLength line)), s)
    | some n =>
      if n < 0 then (.ok [], s)
      else
        (make maxAlloc n.toNat s).andThen fun _ s =>
          (readFull n.toNat s).andThen fun buf s =>
            (discard 2 s).andThen fun _ s => (.ok buf, s)

variable (toUpper : Bytes → Bytes) (maxAlloc : ℕ)

/-- What the loop of `parseRESPArray` does with an element. -/
def record (i : ℕ) (value : Bytes) (s : State) : State :=
  match i with
  | 0 => { s with redis := some ⟨toUpper value, []⟩ }
  | 1 => { s with redis := s.redis.map fun r => { r with key := value } }
  | _ => s

/-- The loop of `parseRESPArray` from `i`, with `k` elements to go. -/
def parseElements : (k i : ℕ) → State → Outcome Unit
  | 0, _, s => (.ok (), s)
  | k + 1, i, s =>
    (readByte s).andThen fun b s =>
      if b ≠ 36 then (.error (.failed (.expectedBulk b)), s)
      else
        (readBulkStringPayload maxAlloc s).andThen fun value s =>
          parseElements k (i + 1) (record toUpper i value s)

/-- `parseRESPArray`. -/
def parseRESPArray (s : State) : Outcome Unit :=
  (readRESPLine s).andThen fun line s =>
    match Resp.atoi line with
    | none => (.error (.failed (.arrayLength line)), s)
    | some n =>
      if n < 0 then (.ok (), s)
      else
        (parseElements toUpper maxAlloc n.toNat 0 s).andThen fun _ s =>
          (.ok (), if s.redis = none then { s with redis := some ⟨[], []⟩ } else s)

/-- `ro.Redis` is set to a command without a key. -/
def setCommand (command : Bytes) (s : State) : Outcome Unit :=
  (.ok (), { s with redis := some ⟨command, []⟩ })

/-- `ParseRedisMetadata`, with nothing in `ro.Redis` yet. -/
def parseRedisMetadata (stream : Bytes) : Outcome Unit :=
  (readByte ⟨stream, [], none⟩).andThen fun b s =>
    if b = 42 then parseRESPArray toUpper maxAlloc s
    else if b = 36 then
      (readBulkStringPayload maxAlloc s).andThen fun value s => setCommand (toUpper value) s
    else if b = 43 ∨ b = 45 then
      (readRESPLine s).andThen fun line s => setCommand (toUpper line) s
    else if b = 58 then (readRESPLine s).andThen fun line s => setCommand line s
    else (.error (.failed (.unknownType b)), s)

/-! ## Bulk strings -/

variable {maxAlloc} {s : State}

/-- A line with a number, as both lengths are read. -/
theorem readNumber_spec (s : State) (bad : Bytes → ParseError) (f : ℤ → State → Outcome β) :
    match Resp.number s.rest with
    | some (n, rest) => (readRESPLine s).andThen (fun line s =>
        match Resp.atoi line with
        | none => (.error (.failed (bad line)), s)
        | some n => f n s) = f n { s with rest }
    | none => ∃ e rest, (readRESPLine s).andThen (fun line s =>
        match Resp.atoi line with
        | none => (.error (.failed (bad line)), s)
        | some n => f n s) = (.error (.failed e), { s with rest }) := by
  unfold readRESPLine Resp.number Resp.line
  by_cases hmem : 10 ∈ s.rest
  · rw [if_pos hmem, if_pos hmem, bind_some]
    simp only [Outcome.andThen_ok]
    cases Resp.atoi ((cut 10 s.rest).1.rdropWhile fun c => c = 13 || c = 10) with
    | none => exact ⟨_, _, rfl⟩
    | some n => rfl
  · rw [if_neg hmem, if_neg hmem]
    exact ⟨.eof, [], rfl⟩

/-- What becomes of a bulk string: a panic for a size above `maxAlloc`, otherwise its value if it is
complete, and an error if it is not. -/
inductive BulkSpec (maxAlloc : ℕ) (s : Bytes) : Except Stop Bytes → Bytes → Prop
  | panicked (rest : Bytes) (h : ∃ a ∈ Resp.announced s, maxAlloc < a.1) :
    BulkSpec maxAlloc s (.error .panicked) rest
  | ok {value rest : Bytes} (hle : ∀ a ∈ Resp.announced s, a.1 ≤ maxAlloc)
    (h : Resp.bulk s = some (value, rest)) : BulkSpec maxAlloc s (.ok value) rest
  | failed (e : ParseError) (rest : Bytes) (hle : ∀ a ∈ Resp.announced s, a.1 ≤ maxAlloc)
    (h : Resp.bulk s = none) : BulkSpec maxAlloc s (.error (.failed e)) rest

theorem bulkSpec_of_number_eq_none (maxAlloc : ℕ) (h : Resp.number s.rest = none) (e : ParseError)
    (rest : Bytes) :
    Resp.announced s.rest = [] ∧ BulkSpec maxAlloc s.rest (.error (.failed e)) rest := by
  have hnil : Resp.announced s.rest = [] := by rw [Resp.announced, h]
  refine ⟨hnil, .failed e rest ?_ ?_⟩
  · rw [hnil]
    nofun
  · rw [Resp.bulk, h, bind_none]

/-- The bytes of a bulk string, behind the line with its size. -/
theorem payload_spec (n : ℕ) (allocs : List (ℕ × ℕ)) (redis : Option RecorderObject)
    (rest : Bytes) :
    ∃ out rest', (readFull n ⟨rest, allocs, redis⟩).andThen (fun buf s =>
        (discard 2 s).andThen fun _ s => (.ok buf, s)) = (out, ⟨rest', allocs, redis⟩) ∧
      (if n + 2 ≤ rest.length then out = .ok (rest.take n) ∧ rest' = rest.drop (n + 2)
        else out = .error (.failed .eof)) := by
  unfold readFull discard
  by_cases hn : n ≤ rest.length
  · by_cases htail : n + 2 ≤ rest.length
    · refine ⟨.ok (rest.take n), rest.drop (n + 2), ?_, ?_⟩
      · have hdrop : 2 ≤ (rest.drop n).length := by
          rw [length_drop]
          omega
        simp only [hn, hdrop, if_true, Outcome.andThen, drop_drop]
      · rw [if_pos htail]
        exact ⟨rfl, rfl⟩
    · -- the bytes are there, but not the end of the line behind them
      refine ⟨.error (.failed .eof), [], ?_, ?_⟩
      · have hdrop : ¬2 ≤ (rest.drop n).length := by
          rw [length_drop]
          omega
        simp only [hn, hdrop, if_true, if_false, Outcome.andThen]
      · rw [if_neg htail]
  · refine ⟨.error (.failed .eof), [], ?_, ?_⟩
    · simp only [hn, if_false, Outcome.andThen]
    · rw [if_neg (by omega)]

/-- A bulk string of a size that is not negative, behind the line with its size. -/
theorem bulkSpec_of_size (maxAlloc : ℕ) {stream : Bytes}
    (hnumber : Resp.number stream = some (n, rest)) (hneg : ¬n < 0) (allocs : List (ℕ × ℕ))
    (redis : Option RecorderObject) :
    ∃ out rest', ((make maxAlloc n.toNat ⟨rest, allocs, redis⟩).andThen fun _ s =>
        (readFull n.toNat s).andThen fun buf s => (discard 2 s).andThen fun _ s => (.ok buf, s)) =
        (out, ⟨rest', allocs ++ Resp.announced stream, redis⟩) ∧
      BulkSpec maxAlloc stream out rest' := by
  have hone : Resp.announced stream = [(n.toNat, rest.length)] := by
    rw [Resp.announced, hnumber]
    exact if_neg hneg
  have hbulk : Resp.bulk stream = if n.toNat + 2 ≤ rest.length then
      some (rest.take n.toNat, rest.drop (n.toNat + 2)) else none := by
    rw [Resp.bulk, hnumber, bind_some]
    exact if_neg hneg
  by_cases hmax : maxAlloc < n.toNat
  · refine ⟨.error .panicked, rest, ?_, .panicked rest ?_⟩
    · rw [make, if_pos hmax, hone]
      rfl
    · rw [hone]
      exact ⟨_, mem_singleton_self _, hmax⟩
  · have hle : ∀ a ∈ Resp.announced stream, a.1 ≤ maxAlloc := by
      rw [hone]
      intro a ha
      rw [mem_singleton.mp ha]
      exact Nat.not_lt.mp hmax
    obtain ⟨out, rest', hpayload, hout⟩ := payload_spec n.toNat
      (allocs ++ [(n.toNat, rest.length)]) redis rest
    refine ⟨out, rest', ?_, ?_⟩
    · rw [make, if_neg hmax, hone]
      exact hpayload
    · split_ifs at hout with hfits
      · obtain ⟨rfl, rfl⟩ := hout
        exact .ok hle (by rw [hbulk, if_pos hfits])
      · rw [hout]
        exact .failed _ _ hle (by rw [hbulk, if_neg hfits])

theorem readBulkStringPayload_spec (maxAlloc : ℕ) (s : State) :
    ∃ out rest, readBulkStringPayload maxAlloc s =
        (out, ⟨rest, s.allocs ++ Resp.announced s.rest, s.redis⟩) ∧
      BulkSpec maxAlloc s.rest out rest := by
  have hread := readNumber_spec s .bulkLength fun n s =>
    if n < 0 then (.ok [], s)
    else
      (make maxAlloc n.toNat s).andThen fun _ s =>
        (readFull n.toNat s).andThen fun buf s =>
          (discard 2 s).andThen fun _ s => (.ok buf, s)
  cases hnumber : Resp.number s.rest with
  | none =>
    rw [hnumber] at hread
    obtain ⟨e, rest, hread⟩ := hread
    obtain ⟨hnil, hspec⟩ := bulkSpec_of_number_eq_none maxAlloc hnumber e rest
    refine ⟨_, _, ?_, hspec⟩
    rw [hnil, append_nil]
    exact hread
  | some p =>
    obtain ⟨n, rest⟩ := p
    rw [hnumber] at hread
    by_cases hneg : n < 0
    · -- null: an empty value, and nothing is allocated
      have hnil : Resp.announced s.rest = [] := by
        rw [Resp.announced, hnumber]
        exact if_pos hneg
      refine ⟨.ok [], rest, ?_, .ok ?_ ?_⟩
      · rw [hnil, append_nil]
        exact hread.trans (if_pos hneg)
      · rw [hnil]
        nofun
      · rw [Resp.bulk, hnumber, bind_some]
        exact if_pos hneg
    · obtain ⟨out, rest', hsize, hspec⟩ := bulkSpec_of_size maxAlloc hnumber hneg s.allocs s.redis
      exact ⟨out, rest', (hread.trans (if_neg hneg)).trans hsize, hspec⟩

/-! ## Arrays -/

theorem record_spec (i : ℕ) (value : Bytes) (s : State) :
    (record toUpper i value s).rest = s.rest ∧ (record toUpper i value s).allocs = s.allocs ∧
      ((record toUpper i value s).redis.isSome = true ↔ i = 0 ∨ s.redis.isSome = true) := by
  match i with
  | 0 => exact ⟨rfl, rfl, iff_of_true rfl (.inl rfl)⟩
  | 1 =>
    refine ⟨rfl, rfl, ?_⟩
    show (s.redis.map _).isSome = true ↔ _
    rw [isSome_map]
    exact (or_iff_right Nat.one_ne_zero).symm
  | i + 2 => exact ⟨rfl, rfl, (or_iff_right (Nat.succ_ne_zero _)).symm⟩

/-- What the loop over `k` elements does if it does not panic: all sizes have been requested, and
`ro.Redis` is there as soon as the first element is complete, also if a later one is not. -/
structure Returned (maxAlloc k i : ℕ) (s : State) (o : Outcome Unit) : Prop where
  le : ∀ a ∈ Resp.lengths k s.rest, a.1 ≤ maxAlloc
  allocs : o.2.allocs = s.allocs ++ Resp.lengths k s.rest
  redis : o.2.redis.isSome = true ↔
    s.redis.isSome = true ∨ i = 0 ∧ 0 < k ∧ (Resp.element s.rest).isSome = true
  outcome : o.1 = .ok () ∧ (Resp.elements k s.rest).isSome = true ∨
    (∃ e, o.1 = .error (.failed e)) ∧ Resp.elements k s.rest = none

/-- The loop stops at something that is not a complete element. -/
theorem Returned.of_failed {k i : ℕ} {e : ParseError}
    (hle : ∀ a ∈ Resp.lengths (k + 1) s.rest, a.1 ≤ maxAlloc)
    (hallocs : o.2.allocs = s.allocs ++ Resp.lengths (k + 1) s.rest) (hredis : o.2.redis = s.redis)
    (hout : o.1 = .error (.failed e)) (helement : Resp.element s.rest = none) :
    Returned maxAlloc (k + 1) i s o where
  le := hle
  allocs := hallocs
  redis := by
    rw [hredis, helement]
    exact (or_iff_left fun h => Bool.false_ne_true h.2.2).symm
  outcome := .inr ⟨⟨e, hout⟩, by rw [Resp.elements, helement, bind_none]⟩

/-- The loop goes on behind a complete element. -/
theorem Returned.of_element {k i : ℕ} {value rest' : Bytes} {allocs : List (ℕ × ℕ)}
    {redis : Option RecorderObject} (hle : ∀ a ∈ Resp.announced rest, a.1 ≤ maxAlloc)
    (h : Resp.bulk rest = some (value, rest'))
    (ho : Returned maxAlloc k (i + 1) (record toUpper i value ⟨rest', allocs ++ Resp.announced rest,
      redis⟩) o) : Returned maxAlloc (k + 1) i ⟨36 :: rest, allocs, redis⟩ o := by
  have hlengths := Resp.lengths_of_bulk_eq_some k h
  have helement : Resp.element (36 :: rest) = some (value, rest') := h
  obtain ⟨hrest, hallocs, hredis⟩ := record_spec toUpper i value
    ⟨rest', allocs ++ Resp.announced rest, redis⟩
  have hlater := ho.le
  have houtcome := ho.outcome
  rw [hrest] at hlater houtcome
  refine ⟨?_, ?_, ?_, ?_⟩
  · rw [hlengths]
    intro a ha
    exact (mem_append.mp ha).elim (hle a) (hlater a)
  · rw [ho.allocs, hallocs, hrest, hlengths, append_assoc]
  · rw [ho.redis, hredis, helement]
    simp [or_comm]
  · rw [Resp.elements, helement, bind_some]
    exact houtcome

theorem parseElements_spec (maxAlloc k i : ℕ) (s : State) :
    ((parseElements toUpper maxAlloc k i s).1 = .error .panicked ∧
        ∃ a ∈ Resp.lengths k s.rest, maxAlloc < a.1) ∨
      Returned maxAlloc k i s (parseElements toUpper maxAlloc k i s) := by
  induction k generalizing i s with
  | zero =>
    refine .inr ⟨nofun, (append_nil _).symm, ?_, .inl ⟨rfl, rfl⟩⟩
    exact (or_iff_left fun h => Nat.lt_irrefl 0 h.2.1).symm
  | succ k ih =>
    obtain ⟨stream, allocs, redis⟩ := s
    match stream with
    | [] => exact .inr (.of_failed nofun (append_nil _).symm rfl rfl rfl)
    | c :: rest =>
      by_cases hc : c = 36
      · subst hc
        obtain ⟨out, rest', hread, hspec⟩ :=
          readBulkStringPayload_spec maxAlloc ⟨rest, allocs, redis⟩
        have hloop : parseElements toUpper maxAlloc (k + 1) i ⟨36 :: rest, allocs, redis⟩ =
            (readBulkStringPayload maxAlloc ⟨rest, allocs, redis⟩).andThen fun value s =>
              parseElements toUpper maxAlloc k (i + 1) (record toUpper i value s) := rfl
        rw [hloop, hread]
        cases hspec with
        | panicked _ h =>
          obtain ⟨a, ha, hlt⟩ := h
          exact .inl ⟨rfl, a, mem_append_left _ ha, hlt⟩
        | failed e _ hle h =>
          have hlengths := Resp.lengths_of_bulk_eq_none k h
          refine .inr (.of_failed (e := e) ?_ ?_ rfl rfl h)
          · rw [hlengths]
            exact hle
          · rw [hlengths]
            rfl
        | @ok value _ hle h =>
          rcases ih (i + 1) (record toUpper i value ⟨rest', allocs ++ Resp.announced rest, redis⟩)
            with ⟨hout, a, ha, hlt⟩ | hreturned
          · rw [(record_spec toUpper i value _).1] at ha
            refine .inl ⟨hout, a, ?_, hlt⟩
            rw [Resp.lengths_of_bulk_eq_some k h]
            exact mem_append_right _ ha
          · exact .inr (hreturned.of_element toUpper hle h)
      · have hloop : parseElements toUpper maxAlloc (k + 1) i ⟨c :: rest, allocs, redis⟩ =
            (.error (.failed (.expectedBulk c)), ⟨rest, allocs, redis⟩) := if_pos hc
        rw [hloop]
        have hnil := Resp.lengths_of_ne k rest hc
        refine .inr (.of_failed (e := .expectedBulk c) ?_ ?_ rfl rfl (Resp.element_of_ne rest hc))
        · rw [hnil]
          nofun
        · rw [hnil, append_nil]

/-! ## The whole parser -/

/-- The sizes that the bulk strings of a stream announce, each with the number of bytes behind
it. -/
def sizes : Bytes → List (ℕ × ℕ)
  | 42 :: s =>
    match Resp.number s with
    | some (n, rest) => Resp.lengths n.toNat rest
    | none => []
  | 36 :: s => Resp.announced s
  | _ => []

/-- The stream begins with an array of negative length. -/
def NullArray (stream : Bytes) : Prop :=
  ∃ s n rest, stream = 42 :: s ∧ Resp.number s = some (n, rest) ∧ n < 0

/-- The stream begins with an array whose first element is complete, but a later one is not. -/
def BrokenArray (stream : Bytes) : Prop :=
  ∃ s n rest, stream = 42 :: s ∧ Resp.number s = some (n, rest) ∧
    (Resp.element rest).isSome = true ∧ Resp.elements n.toNat rest = none

/-- The parser does not panic, requests no more than `C` bytes above what it has read, and returns
no error exactly if `ro.Redis` is there. -/
structure Safe (toUpper : Bytes → Bytes) (maxAlloc C : ℕ) (stream : Bytes) : Prop where
  no_panic : (parseRedisMetadata toUpper maxAlloc stream).1 ≠ .error .panicked
  alloc_le : ∀ a ∈ (parseRedisMetadata toUpper maxAlloc stream).2.allocs,
    a.1 ≤ stream.length - a.2 + C
  ok_iff : (parseRedisMetadata toUpper maxAlloc stream).1 = .ok () ↔
    (parseRedisMetadata toUpper maxAlloc stream).2.redis.isSome = true

variable {toUpper} {stream : Bytes}

/-- What becomes of a stream: a panic at a size above `maxAlloc`, or all sizes are requested and the
error fits `ro.Redis` unless the array is null or broken. -/
inductive ParseSpec (maxAlloc : ℕ) (stream : Bytes) (o : Outcome Unit) : Prop
  | panicked (hout : o.1 = .error .panicked) (h : ∃ a ∈ sizes stream, maxAlloc < a.1)
  | returned (hout : o.1 ≠ .error .panicked) (hallocs : o.2.allocs = sizes stream)
    (hle : ∀ a ∈ sizes stream, a.1 ≤ maxAlloc)
    (hok : (o.1 = .ok () ↔ o.2.redis.isSome = true) ↔ ¬NullArray stream ∧ ¬BrokenArray stream)

/-- A run that does not panic where no size is announced. -/
theorem ParseSpec.of_no_size (hsizes : sizes stream = []) (hout : o.1 ≠ .error .panicked)
    (hallocs : o.2.allocs = [])
    (hok : (o.1 = .ok () ↔ o.2.redis.isSome = true) ↔ ¬NullArray stream ∧ ¬BrokenArray stream) :
    ParseSpec maxAlloc stream o := by
  refine .returned hout (hallocs.trans hsizes.symm) ?_ hok
  rw [hsizes]
  nofun

/-- A stream that does not begin with the length of an array. -/
theorem not_array (h : ∀ s, stream = 42 :: s → Resp.number s = none) :
    ¬NullArray stream ∧ ¬BrokenArray stream := by
  have hnumber (s : Bytes) (n : ℤ) (rest : Bytes) (heq : stream = 42 :: s) :
      Resp.number s ≠ some (n, rest) := fun hsome =>
    some_ne_none _ (hsome.symm.trans (h s heq))
  constructor
  · rintro ⟨s, n, rest, heq, hsome, -⟩
    exact hnumber s n rest heq hsome
  · rintro ⟨s, n, rest, heq, hsome, -⟩
    exact hnumber s n rest heq hsome

theorem not_array_of_ne (s : Bytes) (h : c ≠ 42) : ¬NullArray (c :: s) ∧ ¬BrokenArray (c :: s) :=
  not_array fun _ heq => absurd (List.cons.inj heq).1 h

theorem array_iff {s : Bytes} (h : Resp.number s = some (n, rest)) :
    (NullArray (42 :: s) ↔ n < 0) ∧ (BrokenArray (42 :: s) ↔
      (Resp.element rest).isSome = true ∧ Resp.elements n.toNat rest = none) := by
  constructor
  · constructor
    · rintro ⟨s', n', rest', heq, hnumber, hneg⟩
      obtain rfl := (List.cons.inj heq).2
      obtain ⟨rfl, rfl⟩ := Prod.mk.inj (some.inj (h.symm.trans hnumber))
      exact hneg
    · exact fun hneg => ⟨s, n, rest, rfl, h, hneg⟩
  · constructor
    · rintro ⟨s', n', rest', heq, hnumber, hbroken⟩
      obtain rfl := (List.cons.inj heq).2
      obtain ⟨rfl, rfl⟩ := Prod.mk.inj (some.inj (h.symm.trans hnumber))
      exact hbroken
    · exact fun hbroken => ⟨s, n, rest, rfl, h, hbroken⟩

/-- An array behind the line with its length. -/
theorem elements_spec {s : Bytes} (hnumber : Resp.number s = some (n, rest)) (hneg : ¬n < 0) :
    ParseSpec maxAlloc (42 :: s)
      ((parseElements toUpper maxAlloc n.toNat 0 ⟨rest, [], none⟩).andThen fun _ s =>
        (.ok (), if s.redis = none then { s with redis := some ⟨[], []⟩ } else s)) := by
  have hsizes : sizes (42 :: s) = Resp.lengths n.toNat rest := by rw [sizes, hnumber]
  obtain ⟨hnull, hbroken⟩ := array_iff hnumber
  have hspec := parseElements_spec toUpper maxAlloc n.toNat 0 ⟨rest, [], none⟩
  generalize parseElements toUpper maxAlloc n.toNat 0 ⟨rest, [], none⟩ = o at hspec ⊢
  obtain ⟨out, s'⟩ := o
  rcases hspec with ⟨hout, hsize⟩ | hreturned
  · obtain rfl : out = .error .panicked := hout
    exact .panicked rfl (hsizes ▸ hsize)
  · have hle : ∀ a ∈ sizes (42 :: s), a.1 ≤ maxAlloc := hsizes ▸ hreturned.le
    have hallocs : s'.allocs = sizes (42 :: s) := hreturned.allocs.trans hsizes.symm
    rcases hreturned.outcome with ⟨hout, hsome⟩ | ⟨⟨e, hout⟩, hnone⟩
    · obtain rfl : out = .ok () := hout
      have hcomplete : ¬NullArray (42 :: s) ∧ ¬BrokenArray (42 :: s) := by
        refine ⟨hneg ∘ hnull.mp, fun h => ?_⟩
        have hboth := (hbroken.mp h).2 ▸ hsome
        exact Bool.false_ne_true hboth
      refine .returned nofun ?_ hle (iff_of_true (iff_of_true rfl ?_) hcomplete)
      · rw [← hallocs, Outcome.andThen_ok]
        split_ifs <;> rfl
      · rw [Outcome.andThen_ok]
        split_ifs with hredis
        · rfl
        · exact isSome_iff_ne_none.mpr hredis
    · obtain rfl : out = .error (.failed e) := hout
      have hpos : 0 < n.toNat := by
        rw [Nat.pos_iff_ne_zero]
        intro hzero
        rw [hzero] at hnone
        exact some_ne_none _ hnone
      have hredis : s'.redis.isSome = true ↔ (Resp.element rest).isSome = true := by
        refine hreturned.redis.trans ⟨?_, fun h => .inr ⟨rfl, hpos, h⟩⟩
        rintro (h | h)
        · exact absurd h Bool.false_ne_true
        · exact h.2.2
      refine .returned nofun hallocs hle ?_
      rw [hnull, hbroken, Outcome.andThen_error, hredis]
      constructor
      · exact fun h => ⟨hneg, fun hb => nomatch h.mpr hb.1⟩
      · exact fun h => iff_of_false nofun fun helement => h.2 ⟨helement, hnone⟩

theorem parseRESPArray_spec (s : Bytes) :
    ParseSpec maxAlloc (42 :: s) (parseRESPArray toUpper maxAlloc ⟨s, [], none⟩) := by
  have hread := readNumber_spec ⟨s, [], none⟩ .arrayLength fun n s =>
    if n < 0 then (.ok (), s)
    else
      (parseElements toUpper maxAlloc n.toNat 0 s).andThen fun _ s =>
        (.ok (), if s.redis = none then { s with redis := some ⟨[], []⟩ } else s)
  unfold parseRESPArray
  cases hnumber : Resp.number s with
  | none =>
    simp only [hnumber] at hread
    obtain ⟨e, rest, hread⟩ := hread
    rw [hread]
    refine .of_no_size (by rw [sizes, hnumber]) nofun rfl
      (iff_of_true (iff_of_false nofun nofun) ?_)
    exact not_array fun s' heq => (List.cons.inj heq).2 ▸ hnumber
  | some p =>
    obtain ⟨n, rest⟩ := p
    simp only [hnumber] at hread
    rw [hread]
    by_cases hneg : n < 0
    · rw [if_pos hneg]
      refine .of_no_size ?_ nofun rfl ?_
      · simp only [sizes, hnumber, Int.toNat_of_nonpos hneg.le]
        rfl
      · exact iff_of_false (fun h => Bool.false_ne_true (h.mp rfl))
          fun h => h.1 ((array_iff hnumber).1.mpr hneg)
    · rw [if_neg hneg]
      exact elements_spec hnumber hneg

theorem bulk_spec (s : Bytes) :
    ParseSpec maxAlloc (36 :: s) ((readBulkStringPayload maxAlloc ⟨s, [], none⟩).andThen
      fun value s => setCommand (toUpper value) s) := by
  obtain ⟨out, rest, hread, hspec⟩ := readBulkStringPayload_spec maxAlloc ⟨s, [], none⟩
  have harray := not_array_of_ne s (by decide : (36 : UInt8) ≠ 42)
  rw [hread]
  cases hspec with
  | panicked _ h => exact .panicked rfl h
  | failed e _ hle h =>
    exact .returned nofun rfl hle (iff_of_true (iff_of_false nofun nofun) harray)
  | ok hle h => exact .returned nofun rfl hle (iff_of_true (iff_of_true rfl rfl) harray)

/-- What becomes of a line that is taken for a command. -/
theorem readCommand_spec (f : Bytes → Bytes) (s : Bytes) :
    let o := (readRESPLine ⟨s, [], none⟩).andThen fun line s => setCommand (f line) s
    o.1 ≠ .error .panicked ∧ o.2.allocs = [] ∧ (o.1 = .ok () ↔ o.2.redis.isSome = true) := by
  unfold readRESPLine
  by_cases hmem : 10 ∈ s
  · rw [if_pos hmem]
    exact ⟨nofun, rfl, iff_of_true rfl rfl⟩
  · rw [if_neg hmem]
    exact ⟨nofun, rfl, iff_of_false nofun Bool.false_ne_true⟩

theorem sizes_of_ne (s : Bytes) (harray : c ≠ 42) (hbulk : c ≠ 36) : sizes (c :: s) = [] := by
  unfold sizes
  split
  · next heq => exact absurd (List.cons.inj heq).1 harray
  · next heq => exact absurd (List.cons.inj heq).1 hbulk
  · rfl

theorem parseRedisMetadata_spec (toUpper : Bytes → Bytes) (maxAlloc : ℕ) (stream : Bytes) :
    ParseSpec maxAlloc stream (parseRedisMetadata toUpper maxAlloc stream) := by
  match stream with
  | [] =>
    refine .of_no_size rfl nofun rfl (iff_of_true (iff_of_false nofun nofun) ?_)
    exact not_array fun s heq => absurd heq.symm (cons_ne_nil _ _)
  | c :: s =>
    rw [parseRedisMetadata, readByte, Outcome.andThen_ok]
    by_cases harray : c = 42
    · rw [if_pos harray, harray]
      exact parseRESPArray_spec s
    · rw [if_neg harray]
      by_cases hbulk : c = 36
      · rw [if_pos hbulk, hbulk]
        exact bulk_spec s
      · -- messages that are one line, and those of another type
        rw [if_neg hbulk]
        have hsizes := sizes_of_ne s harray hbulk
        have harray' := not_array_of_ne s harray
        split_ifs
        · obtain ⟨hout, hallocs, hok⟩ := readCommand_spec toUpper s
          exact .of_no_size hsizes hout hallocs (iff_of_true hok harray')
        · obtain ⟨hout, hallocs, hok⟩ := readCommand_spec id s
          exact .of_no_size hsizes hout hallocs (iff_of_true hok harray')
        · exact .of_no_size hsizes nofun rfl (iff_of_true (iff_of_false nofun nofun) harray')

/-- For every stream and constant: the parser is safe if and only if every size that the stream
announces is within the constant of the bytes before it and one that `make` accepts, and the stream
is neither a null array nor an array that is broken off behind its first element. -/
theorem parse_safe_iff (toUpper : Bytes → Bytes) (maxAlloc C : ℕ) (stream : Bytes) :
    Safe toUpper maxAlloc C stream ↔
      (∀ a ∈ sizes stream, a.1 ≤ stream.length - a.2 + C ∧ a.1 ≤ maxAlloc) ∧
        ¬NullArray stream ∧ ¬BrokenArray stream := by
  cases parseRedisMetadata_spec toUpper maxAlloc stream with
  | panicked hout h =>
    obtain ⟨a, ha, hlt⟩ := h
    exact iff_of_false (fun h => h.no_panic hout)
      fun h => absurd (h.1 a ha).2 (Nat.not_le.mpr hlt)
  | returned hout hallocs hle hok =>
    constructor
    · intro h
      have hsizes := h.alloc_le
      rw [hallocs] at hsizes
      exact ⟨fun a ha => ⟨hsizes a ha, hle a ha⟩, hok.mp h.ok_iff⟩
    · rintro ⟨hsizes, harray⟩
      refine ⟨hout, ?_, hok.mpr harray⟩
      rw [hallocs]
      exact fun a ha => (hsizes a ha).1

/-- `strings.ToUpper` for ASCII text. -/
def upperASCII (s : Bytes) : Bytes := s.map fun c => if 97 ≤ c ∧ c ≤ 122 then c - 32 else c

/-- The length above the range of `make`, a gigabyte that is requested after
thirteen bytes, a null array, and an array without its second element. -/
theorem hostile_streams :
    (parseRedisMetadata upperASCII (2 ^ 48) (bytes "$9223372036854775807\r\n")).1 =
        .error .panicked ∧
      (parseRedisMetadata upperASCII (2 ^ 48) (bytes "$1000000000\r\n")).2.allocs =
        [(1000000000, 0)] ∧
      parseRedisMetadata upperASCII (2 ^ 48) (bytes "*-1\r\n") = (.ok (), ⟨[], [], none⟩) ∧
      parseRedisMetadata upperASCII (2 ^ 48) (bytes "*2\r\n$3\r\nget\r\n") =
        (.error (.failed .eof), ⟨[], [(3, 5)], some ⟨bytes "GET", []⟩⟩) := by
  decide

end Redis

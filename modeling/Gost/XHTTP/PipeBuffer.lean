import Gost.Lib.Bytes

/-!
# The batching buffer of the packet-up path

`Buffer` of `xhttp/internal/pipebuffer/pipebuffer.go`: a bounded byte buffer whose writers block
while it is full and whose reader blocks while it is empty. Each operation below is the body of one
critical section of the source; `blocked` stands for a wait on the condition variable.

That the buffer holds at most `limit` bytes and that `limit` is positive are fields of `Buffer`, so
no operation can leave them.
-/

namespace XHTTP.PipeBuffer

/-- The errors of the buffer: `io.ErrClosedPipe` and `io.EOF`. -/
inductive BufferError
  | closedPipe
  | eof
deriving DecidableEq, Repr

/-- A bounded, blocking byte buffer. -/
structure Buffer where
  data : Bytes := []
  limit : ℕ
  closed : Bool := false
  err : Option BufferError := none
  limit_pos : 0 < limit
  fits : data.length ≤ limit
deriving DecidableEq

/-- `New(limit)`. A limit below one is raised to one. -/
def new (limit : ℤ) : Buffer where
  limit := if limit < 1 then 1 else limit.toNat
  limit_pos := by split_ifs <;> omega
  fits := Nat.zero_le _

/-- What one pass through the loop of `Write` comes to. -/
inductive WriteOutcome
  -- waiting for room
  | blocked
  -- the buffer is closed
  | closed
  -- `n` bytes were appended
  | wrote (b : Buffer) (n : ℕ)

/-- What a call of `ReadChunk` comes to. -/
inductive ReadOutcome
  -- waiting for data
  | blocked
  | failed (e : BufferError)
  | chunk (out : Bytes) (b : Buffer)

namespace Buffer

/-- One pass through the loop of `Write`, for the bytes `p` that are left to write. -/
def write (b : Buffer) (p : Bytes) : WriteOutcome :=
  if b.limit ≤ b.data.length ∧ b.closed = false then .blocked
  else if b.closed then .closed
  else
    let space := min (b.limit - b.data.length) p.length
    .wrote { b with
      data := b.data ++ p.take space
      fits := by
        have := b.fits
        rw [List.length_append, List.length_take]
        omega } space

/-- The number of bytes `ReadChunk(max)` takes from a buffer that is not empty. -/
def chunkSize (b : Buffer) (max : ℕ) : ℕ :=
  if 0 < max ∧ max < b.data.length then max else b.data.length

/-- `ReadChunk(max)`. -/
def readChunk (b : Buffer) (max : ℕ) : ReadOutcome :=
  if b.data = [] ∧ b.closed = false then .blocked
  else if b.data = [] then .failed (b.err.getD .eof)
  else
    .chunk (b.data.take (b.chunkSize max)) { b with
      data := b.data.drop (b.chunkSize max)
      fits := by
        have := b.fits
        rw [List.length_drop]
        omega }

/-- `Close()`: no more writes, buffered data is still delivered. -/
def close (b : Buffer) : Buffer := { b with closed := true }

/-- `Interrupt()`: pending data is dropped and readers observe `io.ErrClosedPipe`. -/
def interrupt (b : Buffer) : Buffer where
  data := []
  limit := b.limit
  closed := true
  err := some (b.err.getD .closedPipe)
  limit_pos := b.limit_pos
  fits := Nat.zero_le _

/-! ## Specifications -/

/-- A pass of `Write` that appends takes a non-empty initial piece of what is left, on an open
buffer. -/
theorem write_wrote {b b' : Buffer} {p : Bytes} {n : ℕ} (hp : p ≠ [])
    (h : b.write p = .wrote b' n) :
    b'.data = b.data ++ p.take n ∧ b'.closed = false ∧ b.closed = false ∧ 0 < n := by
  unfold write at h
  split_ifs at h with hfull hclosed
  obtain ⟨rfl, rfl⟩ := h
  have hopen : b.closed = false := by simpa using hclosed
  have hroom : b.data.length < b.limit := not_le.mp fun hle => hfull ⟨hle, hopen⟩
  have hlen : 0 < p.length := List.length_pos_iff.mpr hp
  exact ⟨rfl, hopen, hopen, by omega⟩

/-- `ReadChunk` splits the buffered data, and never returns an empty chunk. -/
theorem readChunk_chunk {b b' : Buffer} {max : ℕ} {out : Bytes}
    (h : b.readChunk max = .chunk out b') :
    b.data = out ++ b'.data ∧ out ≠ [] ∧ b'.closed = b.closed := by
  unfold readChunk at h
  split_ifs at h with hwait hnil
  obtain ⟨rfl, rfl⟩ := h
  refine ⟨(List.take_append_drop _ _).symm, ?_, rfl⟩
  have hlen : 0 < b.data.length := List.length_pos_iff.mpr hnil
  apply List.ne_nil_of_length_pos
  rw [List.length_take, chunkSize]
  split_ifs <;> omega

/-- `ReadChunk` fails on a closed, drained buffer only. -/
theorem readChunk_failed {b : Buffer} {max : ℕ} {e : BufferError}
    (h : b.readChunk max = .failed e) : b.data = [] ∧ b.closed = true := by
  unfold readChunk at h
  split_ifs at h with hwait hnil
  refine ⟨hnil, ?_⟩
  by_contra hopen
  exact hwait ⟨hnil, by simpa using hopen⟩

end Buffer

end XHTTP.PipeBuffer

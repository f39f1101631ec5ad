import Gost.Lib.TransitionSystem
import Gost.XHTTP.PipeBuffer

/-!
# The packet-up client

The upload side of a packet-up connection as `DialContext` of `xhttp/dialer/dialer.go` sets it up:
the application's `Write` calls on the batching buffer, `uploadLoop`, which cuts the buffered bytes
into POSTs numbered `0, 1, 2, …`, and `Close` of `xhttp/internal/splitconn/splitconn.go`, which
runs the `onClose` callback (`release`, then `Interrupt` of the buffer) before it closes the
writer.

The three run concurrently and meet in the buffer's critical sections, which are the steps here.
`PostPacket` is a call of the `DialerClient`: a step records its payload, another one its outcome.
The pauses between posts and the choice of the HTTP client have no influence on the payloads.
-/

namespace XHTTP.PacketUp

open PipeBuffer

/-- One `Write` call. -/
structure WriteCall where
  -- the part of the argument that is left to write
  rest : Bytes
  -- the part that was appended to the buffer
  written : Bytes := []
  -- `(written, err)` once the call has returned
  result : Option (ℕ × Option BufferError) := none
deriving DecidableEq, Repr

/-- The call has returned without an error. -/
def WriteCall.Succeeded (w : WriteCall) : Prop := ∃ n, w.result = some (n, none)

instance : DecidablePred WriteCall.Succeeded := fun w =>
  match h : w.result with
  | some (n, none) => .isTrue ⟨n, h⟩
  | some (_, some _) => .isFalse (by simp [WriteCall.Succeeded, h])
  | none => .isFalse (by simp [WriteCall.Succeeded, h])

/-- What a `Write` returns that finds the buffer closed. -/
def WriteCall.closedResult (w : WriteCall) : ℕ × Option BufferError :=
  if 0 < w.written.length then (w.written.length, none) else (0, some .closedPipe)

/-- Where `uploadLoop` is. -/
inductive UploadPc
  -- at `ReadChunk`
  | reading
  -- in the inner loop, with bytes left to post
  | sending (remainder : Bytes)
  -- inside `PostPacket`
  | posting (remainder : Bytes)
  -- returned
  | done
deriving DecidableEq, Repr

/-- Bytes taken from the buffer and not yet passed to `PostPacket`. -/
def UploadPc.remainder : UploadPc → Bytes
  | .sending r | .posting r => r
  | _ => []

/-- The head of the inner loop. -/
def UploadPc.resume (remainder : Bytes) : UploadPc :=
  if remainder = [] then .reading else .sending remainder

@[simp]
theorem UploadPc.remainder_resume (r : Bytes) : (UploadPc.resume r).remainder = r := by
  unfold UploadPc.resume
  split_ifs with hr
  · exact hr.symm
  · rfl

/-- Where the one `Close` of the connection is. -/
inductive ClosePc
  | notCalled
  -- `onClose` is running
  | called
  -- `onClose` has run, `writer.Close()` is next
  | interrupted
  | closed
deriving DecidableEq, Repr

/-- The client and its threads. -/
structure State where
  buf : Buffer
  maxUploadSize : ℕ
  -- all `Write` calls so far; the index is the identity of the call
  writes : List WriteCall := []
  -- the pieces appended to the buffer, each with the call it belongs to
  log : List (ℕ × Bytes) := []
  pc : UploadPc := .reading
  -- the payloads passed to `PostPacket`; the index is the sequence number
  posted : List Bytes := []
  -- the bytes that `Interrupt` and a failed post threw away
  dropped : Bytes := []
  closePc : ClosePc := .notCalled
  -- the `Write` calls that had succeeded when `Close` was called
  reported : List ℕ := []
deriving DecidableEq

/-- The client of a connection with the given `maxUploadSize`. -/
def init (maxUploadSize : ℕ) : State where
  buf := PipeBuffer.new (max 1 ((maxUploadSize : ℤ) - 2048))
  maxUploadSize := maxUploadSize

/-- The atomic actions. -/
inductive Act
  -- `Write(p)` is called
  | writeCall (p : Bytes)
  -- the `i`-th `Write` call goes through its loop once, or returns
  | write (i : ℕ)
  -- `uploadLoop` calls `ReadChunk`
  | readChunk
  -- `uploadLoop` calls `PostPacket`
  | postCall
  -- `PostPacket` returns, `ok` if without an error
  | postReturn (ok : Bool)
  -- `Close()` is called
  | closeCall
  -- the `onClose` callback interrupts the buffer
  | closeInterrupt
  -- `writer.Close()`
  | closeWriter
deriving DecidableEq, Repr

namespace State

/-- The bytes accepted by `Write`, in the order they entered the buffer. -/
def accepted (s : State) : Bytes := s.log.flatMap (·.2)

/-- The bytes for which `Write` had reported success when `Close` was called. -/
def reportedBytes (s : State) : Bytes := (s.log.filter (·.1 ∈ s.reported)).flatMap (·.2)

/-- Interrupting the buffer drops its data. -/
def interrupt (s : State) : State :=
  { s with buf := s.buf.interrupt, dropped := s.dropped ++ s.buf.data }

/-- One pass of the `i`-th `Write` call through its loop. -/
def write (s : State) (i : ℕ) : Option State :=
  match s.writes[i]? with
  | none => none
  | some w =>
    if w.result ≠ none then none
    else if w.rest = [] then
      some { s with writes := s.writes.set i { w with result := some (w.written.length, none) } }
    else
      match s.buf.write w.rest with
      | .blocked => none
      | .closed =>
        some { s with writes := s.writes.set i { w with result := some w.closedResult } }
      | .wrote b n =>
        some { s with
          buf := b
          writes := s.writes.set i
            { w with rest := w.rest.drop n, written := w.written ++ w.rest.take n }
          log := s.log ++ [(i, w.rest.take n)] }

/-- `uploadLoop` at `ReadChunk`; an error ends the loop. -/
def readChunk (s : State) : Option State :=
  match s.pc with
  | .reading =>
    match s.buf.readChunk s.maxUploadSize with
    | .blocked => none
    | .failed _ => some { s with pc := .done }
    | .chunk out b => some { s with buf := b, pc := .sending out }
  | _ => none

/-- `uploadLoop` passes the next chunk to `PostPacket`. -/
def postCall (s : State) : Option State :=
  match s.pc with
  | .sending remainder =>
    let n := min remainder.length s.maxUploadSize
    some { s with pc := .posting (remainder.drop n), posted := s.posted ++ [remainder.take n] }
  | _ => none

/-- `PostPacket` returns. An error interrupts the buffer and ends the loop. -/
def postReturn (s : State) (ok : Bool) : Option State :=
  match s.pc with
  | .posting remainder =>
    if ok then some { s with pc := .resume remainder }
    else some { s with pc := .done, dropped := remainder ++ s.dropped }.interrupt
  | _ => none

/-- `Close` is called. -/
def closeCall (s : State) : Option State :=
  if s.closePc = .notCalled then
    some { s with
      closePc := .called
      reported := (List.range s.writes.length).filter fun i =>
        ∃ w, s.writes[i]? = some w ∧ w.Succeeded }
  else none

/-- The `onClose` callback. -/
def closeInterrupt (s : State) : Option State :=
  if s.closePc = .called then some { s with closePc := .interrupted }.interrupt else none

/-- `Close` closes the writer. -/
def closeWriter (s : State) : Option State :=
  if s.closePc = .interrupted then some { s with closePc := .closed, buf := s.buf.close } else none

end State

/-- One step of the client. -/
def step (s : State) : Act → Option State
  | .writeCall p => some { s with writes := s.writes ++ [{ rest := p }] }
  | .write i => s.write i
  | .readChunk => s.readChunk
  | .postCall => s.postCall
  | .postReturn ok => s.postReturn ok
  | .closeCall => s.closeCall
  | .closeInterrupt => s.closeInterrupt
  | .closeWriter => s.closeWriter

end XHTTP.PacketUp

import Gost.Lib.BinaryHeap
import Gost.Lib.Bytes
import Gost.Lib.TransitionSystem

/-!
# The upload queue

`uploadQueue` of `xhttp/listener/upload_queue.go`: a bounded channel of pushed packets, a heap
that reorders them by sequence number, and the mutex that serialises `Push` and `Close`. The
queue is modelled with the threads that use it, as a transition system whose steps are the
atomic actions of the source:

* any number of `Push` calls, each waiting for the mutex (`pushing`) or holding it at the
  channel send (`Mutex.push`);
* any number of `Close` calls, waiting (`closing`) or in the drain loop (`Mutex.close`);
* one `Read` at a time, at the program point `pc`. The loop body and the two channel receives
  are separate steps, so pushes and closes interleave with a `Read` in progress.

A send on a full channel, a receive on an empty open one and a lock of a held mutex are steps
that are not enabled. `reads`, `calls`, `sent` and `rejected` record what the calls returned.

Sequence numbers are natural numbers: `nextSeq` is a `uint64` that advances by one for each
packet consumed, so it never gets near its bound.
-/

namespace XHTTP

/-- One element of the upload queue: a stream reader (stream-up) or a sequenced chunk of payload
(packet-up). A reader is an `io.ReadCloser` and stands here for its identity. -/
structure Packet where
  -- `Reader`, `none` for `nil`.
  reader : Option ℕ := none
  payload : Bytes := []
  seq : ℕ := 0
deriving DecidableEq, Repr

namespace UploadQueue

/-- The errors of `Read`: `io.EOF`, "packet queue is too large", and those of a stream reader. -/
inductive ReadError
  | eof
  | tooLarge
  | stream
deriving DecidableEq, Repr

/-- The errors of `Push`: "packet queue closed" and "reader already exists". -/
inductive PushError
  | closed
  | readerExists
deriving DecidableEq, Repr

/-- The result of one `Read` call with a buffer of `size` bytes. -/
structure ReadResult where
  size : ℕ
  data : Bytes
  err : Option ReadError
deriving DecidableEq, Repr

/-- The holder of `writeCloseMutex`. -/
inductive Mutex
  | free
  -- A `Push` at `q.pushedPackets <- p`.
  | push (p : Packet)
  -- A `Close` in its drain loop.
  | close
deriving DecidableEq, Repr

/-- Where the reader is; `n` is the length of the buffer of the `Read` in progress. -/
inductive ReaderPc
  | idle
  -- `q.reader.Load()` was nil, `q.closed.Load()` is next.
  | opened (n : ℕ)
  -- At the receive that fills the empty heap.
  | recvFirst (n : ℕ)
  -- At the head of the loop over the heap.
  | loop (n : ℕ)
  -- At the receive after a misordered packet was put back.
  | recvNext (n : ℕ)
  -- Inside the `Read` of the stream reader.
  | stream (n : ℕ)
deriving DecidableEq, Repr

/-- The queue and the threads using it. -/
structure State where
  reader : Option ℕ := none
  nomore : Bool := false
  -- The contents of the channel `pushedPackets`, oldest first.
  pushedPackets : List Packet := []
  -- Whether `close(q.pushedPackets)` has run.
  chanClosed : Bool := false
  -- `writeCloseMutex`.
  mutex : Mutex := .free
  heap : List Packet := []
  nextSeq : ℕ := 0
  closed : Bool := false
  -- `maxPackets`, also the capacity of the channel.
  maxPackets : ℕ
  -- `Push` calls that wait for the mutex.
  pushing : List Packet := []
  -- Number of `Close` calls that wait for the mutex.
  closing : ℕ := 0
  -- The program point of the reader.
  pc : ReaderPc := .idle
  -- Arguments of all `Push` calls so far.
  calls : List Packet := []
  -- Packets whose `Push` returned nil.
  sent : List Packet := []
  -- Packets whose `Push` returned an error.
  rejected : List (Packet × PushError) := []
  -- Results of the `Read` calls that have returned.
  reads : List ReadResult := []
deriving DecidableEq, Repr

/-- `newUploadQueue(maxPackets)`. -/
def newUploadQueue (maxPackets : ℕ) : State := { maxPackets }

/-- The atomic actions of the threads. -/
inductive Act
  -- `Push(p)` is called.
  | pushCall (p : Packet)
  -- The `i`-th waiting `Push` takes the mutex and makes its checks.
  | pushLock (i : ℕ)
  -- The `Push` that holds the mutex sends its packet and returns.
  | pushSend
  -- `Close()` is called.
  | closeCall
  -- A waiting `Close` takes the mutex and swaps `closed`.
  | closeLock
  -- The drain loop of `Close` receives one packet.
  | closeDrain
  -- The drain loop of `Close` finds the channel empty; the channel is closed and `Close`
  -- returns.
  | closeFinish
  -- `Read(b)` is called with `len(b) = n` and loads `reader`.
  | readCall (n : ℕ)
  -- The `Read` in progress takes its next step.
  | readStep
  -- The stream reader returns `data` to the `Read` in progress.
  | streamReturn (data : Bytes) (failed : Bool)
deriving DecidableEq, Repr

/-- The actions of the reader thread. -/
def Act.isRead : Act → Bool
  | .readCall _ | .readStep | .streamReturn _ _ => true
  | _ => false

namespace State

/-- The `Read` in progress returns. -/
def finishRead (s : State) (n : ℕ) (data : Bytes) (err : Option ReadError) : State :=
  { s with pc := .idle, reads := s.reads ++ [⟨n, data, err⟩] }

/-- The bytes returned by all `Read` calls so far, in order. -/
def returned (s : State) : Bytes := s.reads.flatMap (·.data)

/-- Packets that are not yet in the channel: arguments of `Push` calls in progress. -/
def inPush (s : State) : List Packet :=
  match s.mutex with
  | .push p => p :: s.pushing
  | _ => s.pushing

/-- The receive that fills the empty heap. -/
def recvFirst (s : State) (n : ℕ) : Option State :=
  match s.pushedPackets with
  | [] => if s.chanClosed then some (s.finishRead n [] (some .eof)) else none
  | p :: rest =>
    match p.reader with
    | some r => some { s with reader := some r, pushedPackets := rest, pc := .stream n }
    | none =>
      some { s with
        pushedPackets := rest, heap := BinaryHeap.push Packet.seq s.heap p, pc := .loop n }

/-- One iteration of the loop over the heap. -/
def loopBody (s : State) (n : ℕ) : State :=
  match BinaryHeap.pop Packet.seq s.heap with
  | none => s.finishRead n [] none
  | some (packet, heap) =>
    if packet.seq = s.nextSeq then
      let data := packet.payload.take n
      if data.length < packet.payload.length then
        -- partial read
        let rest := { packet with payload := packet.payload.drop n }
        { s with heap := BinaryHeap.push Packet.seq heap rest }.finishRead n data none
      else
        { s with heap := heap, nextSeq := packet.seq + 1 }.finishRead n data none
    else if packet.seq > s.nextSeq then
      -- misordered packet
      if heap.length > s.maxPackets then
        { s with heap := heap }.finishRead n [] (some .tooLarge)
      else
        { s with heap := BinaryHeap.push Packet.seq heap packet, pc := .recvNext n }
    else
      -- stale packet: dropped, next iteration
      { s with heap := heap }

/-- The receive after a misordered packet. -/
def recvNext (s : State) (n : ℕ) : Option State :=
  match s.pushedPackets with
  | [] => if s.chanClosed then some (s.finishRead n [] (some .eof)) else none
  | p :: rest =>
    some { s with
      pushedPackets := rest, heap := BinaryHeap.push Packet.seq s.heap p, pc := .loop n }

/-- The next step of the `Read` in progress. -/
def readStep (s : State) : Option State :=
  match s.pc with
  | .idle | .stream _ => none
  | .opened n =>
    if s.closed then some (s.finishRead n [] (some .eof))
    else if s.heap = [] then some { s with pc := .recvFirst n }
    else some { s with pc := .loop n }
  | .recvFirst n => s.recvFirst n
  | .loop n => some (s.loopBody n)
  | .recvNext n => s.recvNext n

/-- A waiting `Push` takes the mutex: it returns an error on a closed queue or after a stream
reader, else it goes on to the send. -/
def pushLock (s : State) (i : ℕ) : Option State :=
  match s.mutex, s.pushing[i]? with
  | .free, some p =>
    let s := { s with pushing := s.pushing.eraseIdx i }
    if s.closed then some { s with rejected := s.rejected ++ [(p, .closed)] }
    else if s.nomore then some { s with rejected := s.rejected ++ [(p, .readerExists)] }
    else some { s with nomore := p.reader.isSome, mutex := .push p }
  | _, _ => none

/-- The send at the end of `Push`. -/
def pushSend (s : State) : Option State :=
  match s.mutex with
  | .push p =>
    if s.pushedPackets.length < s.maxPackets then
      some { s with
        pushedPackets := s.pushedPackets ++ [p], mutex := .free, sent := s.sent ++ [p] }
    else none
  | _ => none

/-- A waiting `Close` takes the mutex. If the queue was closed before, it returns at once. -/
def closeLock (s : State) : Option State :=
  if s.mutex = .free ∧ 0 < s.closing then
    if s.closed then some { s with closing := s.closing - 1 }
    else some { s with closing := s.closing - 1, closed := true, mutex := .close }
  else none

/-- One packet received by the drain loop of `Close`. -/
def closeDrain (s : State) : Option State :=
  match s.mutex, s.pushedPackets with
  | .close, p :: rest => some { s with reader := p.reader.or s.reader, pushedPackets := rest }
  | _, _ => none

/-- The end of the drain loop. -/
def closeFinish (s : State) : Option State :=
  match s.mutex, s.pushedPackets with
  | .close, [] => some { s with chanClosed := true, mutex := .free }
  | _, _ => none

end State

/-- One step of the queue and its threads. -/
def step (s : State) : Act → Option State
  | .pushCall p => some { s with pushing := s.pushing ++ [p], calls := s.calls ++ [p] }
  | .pushLock i => s.pushLock i
  | .pushSend => s.pushSend
  | .closeCall => some { s with closing := s.closing + 1 }
  | .closeLock => s.closeLock
  | .closeDrain => s.closeDrain
  | .closeFinish => s.closeFinish
  | .readCall n =>
    match s.pc, s.reader with
    | .idle, none => some { s with pc := .opened n }
    | .idle, some _ => some { s with pc := .stream n }
    | _, _ => none
  | .readStep => s.readStep
  | .streamReturn data failed =>
    match s.pc with
    | .stream n =>
      if data.length ≤ n then
        some (s.finishRead n data (if failed then some .stream else none))
      else none
    | _ => none

end UploadQueue

end XHTTP

import Gost.Lib.Bytes

/-!
# The plain HTTP tunnel

`x/internal/util/pht`: the server keeps one `net.Pipe` for each token, whose other end the
application gets from `Accept`. The client pushes data with POST requests and pulls data with a GET
request whose response is one line for each read of the pipe. The model is about one token; of the
requests with other tokens only the room in the queue is left.

Every request is handled by a goroutine of its own, whose steps are interleaved with all others:
the lookup in `conns`, the creation of a pipe, each transfer, and what is done at the end. Data is
on the wire in Base64, which is left out, and so is what `Write` returns.
-/

namespace Pht

/-! ## The server -/

/-- The ends of a `net.Pipe`: that of the application and that in `conns`. -/
structure Pipe where
  appClosed : Bool := false
  serverClosed : Bool := false
deriving DecidableEq, Repr

def Pipe.isOpen (pipe : Pipe) : Bool := !pipe.appClosed && !pipe.serverClosed

inductive Request
  | pull
  /-- a push with data, or the empty one of `Close` -/
  | push (data : Bytes)
deriving DecidableEq, Repr

/-- What a handler does at its end. -/
inductive Action
  /-- `s.conns.Delete(cid)` -/
  | delete
  /-- `conn.Close()`, for the end in `conns` -/
  | close
  /-- `c.Close()`, for the end of the application -/
  | closeApp
deriving DecidableEq, Repr

inductive Stage
  /-- before `s.conns.Load` -/
  | load
  /-- in `createPipe`, before `s.conns.LoadOrStore` -/
  | store
  /-- in `createPipe`, before the connection goes to `s.cqueue` -/
  | enqueue (pipe : ℕ)
  /-- with a pipe to read from or to write to -/
  | serve (pipe : ℕ)
  /-- with what is left to do -/
  | cleanup (pipe : ℕ) (actions : List Action)
deriving DecidableEq, Repr

/-- A goroutine of `handlePush` or `handlePull`. -/
structure Handler where
  request : Request
  stage : Stage := .load
  /-- whether the status is 200 -/
  ok : Bool := true
  /-- the lines of the response; a heartbeat is an empty one -/
  lines : List Bytes := []
deriving DecidableEq, Repr

/-- Whether a handler has answered with 200 and returned. -/
def Handler.finished (x : Handler) : Bool :=
  match x.stage with
  | .cleanup _ [] => x.ok
  | _ => false

/-! ## The client -/

/-- `readLoop`. -/
inductive Loop
  /-- at the top of the loop -/
  | idle
  /-- in a pull, with the number of lines scanned -/
  | pulling (handler scanned : ℕ)
  /-- returned, with `rxc` closed -/
  | stopped
deriving DecidableEq, Repr

/-- `clientConn`. -/
structure Client where
  loop : Loop := .idle
  rxc : List Bytes := []
  buf : Bytes := []
  closed : Bool := false
  canceled : Bool := false
deriving DecidableEq, Repr

inductive ReadResult
  | data (b : Bytes)
  | eof
  | closedPipe
deriving DecidableEq, Repr

/-- `Read` into a buffer of the given size, or `none` while it blocks. With both ready, `select` may
take either channel. -/
def Client.read (c : Client) (size : ℕ) (preferClosed : Bool) : Option (ReadResult × Client) :=
  if c.buf = [] then
    if c.closed && preferClosed then some (.closedPipe, c)
    else
      match c.rxc with
      -- a closed channel still delivers what it holds
      | b :: rxc => some (.data (b.take size), { c with rxc, buf := b.drop size })
      | [] => if c.loop = .stopped then some (.eof, c) else none
  else some (.data (c.buf.take size), { c with buf := c.buf.drop size })

/-! ## The system -/

structure State where
  /-- the pipe that `conns` has for the token -/
  entry : Option ℕ
  pipes : List Pipe
  /-- the connections that `Accept` got or will get for the token -/
  queued : List ℕ
  handlers : List Handler
  client : Client
deriving DecidableEq, Repr

namespace State

/-- `handleAuthorize`, with room in the queue. -/
def authorized : State := ⟨some 0, [{}], [0], [], {}⟩

def setHandler (s : State) (h : ℕ) (x : Handler) : State :=
  { s with handlers := s.handlers.set h x }

def isOpen (s : State) (p : ℕ) : Bool := (s.pipes[p]?).any Pipe.isOpen

/-- `getOrCreateConn`, up to the lookup. -/
def load (s : State) (h : ℕ) (x : Handler) : Option State :=
  if x.stage = .load then
    some (s.setHandler h
      { x with stage := match s.entry with | some p => .serve p | none => .store })
  else none

/-- `createPipe`, up to `LoadOrStore`. -/
def store (s : State) (h : ℕ) (x : Handler) : Option State :=
  if x.stage = .store then
    match s.entry with
    | some p => some (s.setHandler h { x with stage := .serve p })
    | none =>
      let p := s.pipes.length
      some { s.setHandler h { x with stage := .enqueue p } with
        entry := some p
        pipes := s.pipes ++ [{}] }
  else none

/-- The `select` of `createPipe`. -/
def enqueue (s : State) (h : ℕ) (x : Handler) (full : Bool) : Option State :=
  match x.stage with
  | .enqueue p =>
    if full then
      -- the entry that is deleted may be that of another handler by now
      some (s.setHandler h
        { x with ok := false, stage := .cleanup p [.delete, .closeApp, .close] })
    else some { s.setHandler h { x with stage := .serve p } with queued := s.queued ++ [p] }
  | _ => none

/-- How reading or writing at the pipe ends. -/
inductive Transfer
  /-- the application has read all of a push -/
  | written
  /-- the body of a push ends without a newline -/
  | bodyFailed
  /-- `conn.Write` fails, or its deadline is exceeded -/
  | writeFailed
  /-- the application has written data -/
  | data (b : Bytes)
  /-- the read deadline is exceeded -/
  | heartbeat
  /-- the pipe is closed -/
  | eof
  /-- the response cannot be written, as the client has left -/
  | gone
deriving DecidableEq, Repr

/-- `handlePush` with its pipe. An empty body has no newline. -/
def servePush (s : State) (h : ℕ) (x : Handler) (p : ℕ) (data : Bytes) :
    Transfer → Option State
  | .written =>
    if data ≠ [] ∧ s.isOpen p then some (s.setHandler h { x with stage := .cleanup p [] })
    else none
  | .bodyFailed => some (s.setHandler h { x with stage := .cleanup p [.close, .delete] })
  | .writeFailed =>
    if data ≠ [] then some (s.setHandler h { x with stage := .cleanup p [.delete, .close] })
    else none
  | _ => none

/-- Whether the client scans the response of a handler. -/
def scans (s : State) (h : ℕ) : Bool :=
  match s.client.loop with
  | .pulling h' _ => h' = h
  | _ => false

/-- One round of the loop of `handlePull`. -/
def servePull (s : State) (h : ℕ) (x : Handler) (p : ℕ) : Transfer → Option State
  | .data b =>
    if b ≠ [] ∧ s.isOpen p then some (s.setHandler h { x with lines := x.lines ++ [b] }) else none
  | .heartbeat =>
    if s.isOpen p then some (s.setHandler h { x with lines := x.lines ++ [[]] }) else none
  | .eof =>
    if s.isOpen p then none
    else some (s.setHandler h { x with stage := .cleanup p [.delete, .close] })
  | .gone =>
    if s.scans h then none
    else some (s.setHandler h { x with stage := .cleanup p [.delete, .close] })
  | _ => none

def serve (s : State) (h : ℕ) (x : Handler) (t : Transfer) : Option State :=
  match x.stage with
  | .serve p =>
    match x.request with
    | .push data => s.servePush h x p data t
    | .pull => s.servePull h x p t
  | _ => none

def act (s : State) (p : ℕ) : Action → State
  | .delete => { s with entry := none }
  | .close => { s with pipes := s.pipes.modify p fun pipe => { pipe with serverClosed := true } }
  | .closeApp => { s with pipes := s.pipes.modify p fun pipe => { pipe with appClosed := true } }

def cleanup (s : State) (h : ℕ) (x : Handler) : Option State :=
  match x.stage with
  | .cleanup p (a :: actions) =>
    some ((s.act p a).setHandler h { x with stage := .cleanup p actions })
  | _ => none

/-- A step of a handler. -/
inductive HandlerStep
  | load
  | store
  | enqueue (full : Bool)
  | serve (t : Transfer)
  | cleanup
deriving DecidableEq, Repr

def handle (s : State) (h : ℕ) (x : Handler) : HandlerStep → Option State
  | .load => s.load h x
  | .store => s.store h x
  | .enqueue full => s.enqueue h x full
  | .serve t => s.serve h x t
  | .cleanup => s.cleanup h x

/-! ## Steps of the client -/

/-- The client sends a request. -/
def request (s : State) (r : Request) : State :=
  { s with handlers := s.handlers ++ [{ request := r }] }

/-- The top of the loop of `readLoop`. -/
def pull (s : State) : Option State :=
  if s.client.loop = .idle then
    if s.client.closed then some { s with client.loop := .stopped }
    else some { s.request .pull with client.loop := .pulling s.handlers.length 0 }
  else none

/-- `Write`. -/
def write (s : State) (b : Bytes) : Option State :=
  if b ≠ [] ∧ !s.client.canceled then some (s.request (.push b)) else none

/-- `Close`, up to its request. -/
def close (s : State) : Option State :=
  if s.client.closed then none else some { s.request (.push []) with client.closed := true }

/-- `c.cancel()`, at the end of `Close`. -/
def cancel (s : State) : Option State :=
  if s.client.closed then some { s with client.canceled := true } else none

/-- `scanner.Scan` finds a line. The channel has room for 128. -/
def scan (s : State) : Option State :=
  match s.client.loop with
  | .pulling h n =>
    ((s.handlers[h]?).bind fun x => x.lines[n]?).bind fun line =>
      -- a heartbeat is skipped, but counts for `done`
      if line = [] then some { s with client.loop := .pulling h (n + 1) }
      else if s.client.rxc.length < 128 then
        some { s with client.loop := .pulling h (n + 1), client.rxc := s.client.rxc ++ [line] }
      else none
  | _ => none

/-- The response ends: `done` is set if there was no line in it. -/
def scanEnd (s : State) : Option State :=
  match s.client.loop with
  | .pulling h n =>
    (s.handlers[h]?).bind fun x =>
      if x.finished ∧ n = x.lines.length then
        some { s with client.loop := if n = 0 then .stopped else .idle }
      else none
  | _ => none

/-- A pull fails: an error of the transport, a status other than 200, a canceled context or a closed
connection. -/
def fail (s : State) : Option State :=
  match s.client.loop with
  | .pulling _ _ => some { s with client.loop := .stopped }
  | _ => none

def read (s : State) (size : ℕ) (preferClosed : Bool) : Option State :=
  (s.client.read size preferClosed).map fun r => { s with client := r.2 }

/-- The application closes a connection that it has accepted. -/
def appClose (s : State) (p : ℕ) : Option State :=
  if p ∈ s.queued then some (s.act p .closeApp) else none

inductive Event
  | pull
  | write (b : Bytes)
  | close
  | cancel
  | scan
  | scanEnd
  | fail
  | read (size : ℕ) (preferClosed : Bool)
  | handler (h : ℕ) (e : HandlerStep)
  | appClose (p : ℕ)
deriving DecidableEq, Repr

def step (s : State) : Event → Option State
  | .pull => s.pull
  | .write b => s.write b
  | .close => s.close
  | .cancel => s.cancel
  | .scan => s.scan
  | .scanEnd => s.scanEnd
  | .fail => s.fail
  | .read size preferClosed => s.read size preferClosed
  | .handler h e => (s.handlers[h]?).bind fun x => s.handle h x e
  | .appClose p => s.appClose p

end State

end Pht

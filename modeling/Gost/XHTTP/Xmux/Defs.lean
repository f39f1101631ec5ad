import Gost.Lib.TransitionSystem
import Gost.XHTTP.Config.Range

/-!
# The client multiplexer

`XmuxManager` of `xhttp/dialer/xmux.go` with its users: `DialContext` and `uploadLoop` of
`xhttp/dialer/dialer.go`, and the connections returned by `DialContext`. The manager selects a
client under its lock (`getXmuxClient`); the usage counters of the client are changed afterwards,
by the dials and upload loops, one atomic operation at a time. These operations are the steps
here, so dials, loops and closes interleave between them.

A `DialerClient` is an interface: whether `OpenStream` fails and whether a client reports to be
closed is decided by the step taken. The counters are 32 bit integers in the source and integers
here: each is changed by one for a call that is made, which keeps them away from their bounds.
-/

namespace XHTTP.Xmux

/-- `XmuxClient`. -/
structure Client where
  -- `XmuxConn.IsClosed()`
  isClosed : Bool := false
  openUsage : ℤ := 0
  leftUsage : ℤ := -1
  leftRequests : ℤ
  -- `UnreusableAt`, `none` for the zero time
  unreusableAt : Option ℕ := none
  -- the positive `HMaxRequestTimes` value drawn for this client, if it was positive
  maxRequests : Option ℤ := none
  -- number of HTTP requests issued over this client
  issued : ℕ := 0
deriving DecidableEq, Repr

/-- The values drawn for a new client. -/
structure Draw where
  cMaxReuseTimes : ℤ
  hMaxRequestTimes : ℤ
  hMaxReusableSecs : ℤ
deriving DecidableEq, Repr

/-- The draw of a client without limits of its own. -/
def unlimited : Draw := ⟨0, 0, 0⟩

inductive Mode
  | streamOne
  | streamUp
  | packetUp
deriving DecidableEq, Repr

/-- Where a `DialContext` call is. -/
inductive DialPc
  -- `GetXmuxClient` has returned
  | selected
  -- `OpenUsage.Add(1)` is done
  | counted
  -- `LeftRequests.Add(-1)` is done
  | charged
  -- inside `OpenStream` for the downlink, or the only stream of stream-one
  | opening
  -- that call has succeeded and the mode is not stream-one
  | opened
  -- stream-up: `LeftRequests.Add(-1)` for the uplink is done
  | chargedUp
  -- stream-up: inside `OpenStream` for the uplink
  | openingUp
  -- returned a connection
  | returned
  -- returned an error
  | failed
deriving DecidableEq, Repr

/-- The call has not returned yet. -/
def DialPc.InProgress : DialPc → Prop
  | .returned | .failed => False
  | _ => True

instance : DecidablePred DialPc.InProgress := fun pc => by
  cases pc <;> unfold DialPc.InProgress <;> infer_instance

/-- A `DialContext` call and the connection it returned. -/
structure Dial where
  mode : Mode
  -- index of the selected client
  client : ℕ
  pc : DialPc := .selected
  -- number of `Close` calls on the connection
  closes : ℕ := 0
deriving DecidableEq, Repr

/-- Where an upload loop is. -/
inductive LoopPc
  | idle
  -- the client is exhausted or expired, `getHTTPClient` is next
  | hopping
  -- `PostPacket` is next
  | ready
  | done
deriving DecidableEq, Repr

structure UploadLoop where
  client : ℕ
  pc : LoopPc := .idle
deriving DecidableEq, Repr

/-- The manager and its users. -/
structure State where
  xmuxConfig : XmuxConfig
  -- normalised
  scMaxEachPostBytes : Range
  concurrency : ℤ
  connections : ℤ
  -- all clients created so far; the index is the identity of the client
  clients : List Client := []
  -- `xmuxClients`, the clients that are offered to new sessions
  xmuxClients : List ℕ := []
  -- `time.Now()` in nanoseconds
  now : ℕ := 0
  dials : List Dial := []
  loops : List UploadLoop := []
deriving DecidableEq, Repr

/-- `NewXmuxManager`, for the drawn values of the two limits. -/
def newXmuxManager (xmuxConfig : XmuxConfig) (scMaxEachPostBytes : Range)
    (concurrency connections : ℤ) : State :=
  { xmuxConfig, scMaxEachPostBytes, concurrency, connections }

namespace State

/-- Changes one client. -/
def modifyClient (s : State) (i : ℕ) (f : Client → Client) : State :=
  { s with clients := s.clients.modify i f }

/-- The draw is a possible outcome for the configured ranges. -/
def Draws (s : State) (draw : Draw) : Prop :=
  s.xmuxConfig.getNormalizedCMaxReuseTimes.Draws draw.cMaxReuseTimes ∧
  s.xmuxConfig.getNormalizedHMaxRequestTimes.Draws draw.hMaxRequestTimes ∧
  s.xmuxConfig.getNormalizedHMaxReusableSecs.Draws draw.hMaxReusableSecs

instance (s : State) (draw : Draw) : Decidable (s.Draws draw) :=
  inferInstanceAs (Decidable (_ ∧ _ ∧ _))

/-- The client that `newXmuxClient` builds. -/
def freshClient (s : State) (draw : Draw) : Client where
  leftUsage := if 0 < draw.cMaxReuseTimes then draw.cMaxReuseTimes - 1 else -1
  leftRequests := if 0 < draw.hMaxRequestTimes then draw.hMaxRequestTimes else 2 ^ 31 - 1
  unreusableAt :=
    if 0 < draw.hMaxReusableSecs then some (s.now + draw.hMaxReusableSecs.toNat * 10 ^ 9) else none
  maxRequests := if 0 < draw.hMaxRequestTimes then some draw.hMaxRequestTimes else none

/-- `newXmuxClient`; returns the index of the new client. -/
def newXmuxClient (s : State) (draw : Draw) : Option (State × ℕ) :=
  if s.Draws draw then
    some ({ s with
      clients := s.clients ++ [s.freshClient draw]
      xmuxClients := s.xmuxClients ++ [s.clients.length] }, s.clients.length)
  else none

/-- `UnreusableAt` is set and has passed. -/
def Expired (s : State) (c : Client) : Prop := ∃ t ∈ c.unreusableAt, t < s.now

instance (s : State) (c : Client) : Decidable (s.Expired c) :=
  inferInstanceAs (Decidable (∃ t ∈ c.unreusableAt, t < s.now))

/-- The client stays in the pool. -/
def Reusable (s : State) (i : ℕ) : Prop :=
  ∃ c ∈ s.clients[i]?, c.isClosed = false ∧ c.leftUsage ≠ 0 ∧ 0 < c.leftRequests ∧ ¬s.Expired c

instance (s : State) (i : ℕ) : Decidable (s.Reusable i) :=
  inferInstanceAs (Decidable (∃ c ∈ s.clients[i]?, _ ∧ _ ∧ _ ∧ _))

/-- The client has a free slot. -/
def HasSlot (s : State) (i : ℕ) : Prop := ∃ c ∈ s.clients[i]?, c.openUsage < s.concurrency

instance (s : State) (i : ℕ) : Decidable (s.HasSlot i) :=
  inferInstanceAs (Decidable (∃ c ∈ s.clients[i]?, _))

/-- The clients left in the pool after `GetXmuxClient` has removed those that cannot be reused. -/
def reusable (s : State) : List ℕ := s.xmuxClients.filter fun i => s.Reusable i

/-- The clients that `GetXmuxClient` chooses from if it creates none. -/
def offered (s : State) : List ℕ :=
  if 0 < s.concurrency then s.reusable.filter fun i => s.HasSlot i else s.reusable

/-- The removal loop of `GetXmuxClient`. -/
def removeUnusable (s : State) : State := { s with xmuxClients := s.reusable }

/-- `GetXmuxClient`. `pick` is the random choice among the offered clients, `draw` has the values
for a new client. -/
def getXmuxClient (s : State) (pick : ℕ) (draw : Draw) : Option (State × ℕ) :=
  if s.reusable = [] then s.removeUnusable.newXmuxClient draw
  else if 0 < s.connections ∧ (s.reusable.length : ℤ) < s.connections then
    s.removeUnusable.newXmuxClient draw
  else if s.offered = [] then s.removeUnusable.newXmuxClient draw
  else
    match s.offered[pick]? with
    | none => none
    | some i =>
      some (s.removeUnusable.modifyClient i fun c =>
        { c with leftUsage := if 0 < c.leftUsage then c.leftUsage - 1 else c.leftUsage }, i)

/-- A dial that has selected the client `i`. -/
def addDial (s : State) (mode : Mode) (i : ℕ) : State :=
  { s with dials := s.dials ++ [{ mode := mode, client := i }] }

/-- Moves a dial on. -/
def setDial (s : State) (d : ℕ) (dial : Dial) : State := { s with dials := s.dials.set d dial }

/-- Moves an upload loop on. -/
def setLoop (s : State) (l : ℕ) (loop : UploadLoop) : State :=
  { s with loops := s.loops.set l loop }

/-- `LeftRequests.Add(-1)`. -/
def charge (s : State) (i : ℕ) : State :=
  s.modifyClient i fun c => { c with leftRequests := c.leftRequests - 1 }

/-- A request is issued over the client. -/
def issue (s : State) (i : ℕ) : State := s.modifyClient i fun c => { c with issued := c.issued + 1 }

/-- `OpenUsage.Add(n)`. -/
def addUsage (s : State) (i : ℕ) (n : ℤ) : State :=
  s.modifyClient i fun c => { c with openUsage := c.openUsage + n }

end State

/-- `LeftRequests.Add(-1)` in `DialContext`: before the downlink, and before the uplink of
stream-up. -/
def DialPc.charge : DialPc → Mode → Option DialPc
  | .counted, _ => some .charged
  | .opened, .streamUp => some .chargedUp
  | _, _ => none

/-- `OpenStream` is called. -/
def DialPc.call : DialPc → Option DialPc
  | .charged => some .opening
  | .chargedUp => some .openingUp
  | _ => none

/-- `OpenStream` returns. -/
def DialPc.answer : DialPc → Mode → Bool → Option DialPc
  | .opening, .streamOne, true => some .returned
  | .opening, _, true => some .opened
  | .openingUp, _, true => some .returned
  | .opening, _, false | .openingUp, _, false => some .failed
  | _, _, _ => none

/-- The atomic actions. -/
inductive Act
  -- time passes
  | tick (ns : ℕ)
  -- a client hits a fatal error
  | connFails (i : ℕ)
  -- `DialContext` is called and gets a client
  | dialSelect (mode : Mode) (pick : ℕ) (draw : Draw)
  -- `OpenUsage.Add(1)`
  | dialCount (d : ℕ)
  -- `LeftRequests.Add(-1)`
  | dialCharge (d : ℕ)
  -- `OpenStream` is called
  | dialOpen (d : ℕ)
  -- `OpenStream` returns, `ok` if without an error
  | dialOpened (d : ℕ) (ok : Bool)
  -- a packet-up dial checks `ScMaxEachPostBytes` and returns
  | dialFinish (d : ℕ)
  -- `Close` is called on the connection of a dial
  | close (d : ℕ)
  -- an upload loop has a chunk and makes its `LeftRequests.Add(-1)`
  | loopCharge (l : ℕ)
  -- an upload loop gets another client
  | loopHop (l : ℕ) (pick : ℕ) (draw : Draw)
  -- an upload loop calls `PostPacket`, which returns, `ok` if without an error
  | loopPost (l : ℕ) (ok : Bool)
  -- `ReadChunk` of an upload loop returns an error
  | loopEnd (l : ℕ)
deriving DecidableEq, Repr

namespace State

/-- The connection of the dial is closed: `release` acts on the first call only. -/
def close (s : State) (d : ℕ) (x : Dial) : State :=
  let s := s.setDial d { x with closes := x.closes + 1 }
  if x.closes = 0 then s.addUsage x.client (-1) else s

/-- The end of a packet-up dial. -/
def finish (s : State) (d : ℕ) (x : Dial) : State :=
  if s.scMaxEachPostBytes.lo ≤ 0 then s.setDial d { x with pc := .failed }
  else
    { s.setDial d { x with pc := .returned } with loops := s.loops ++ [{ client := x.client }] }

/-- The test that makes an upload loop change its client, on the client before the decrement. -/
def Exhausted (s : State) (i : ℕ) : Prop :=
  ∃ c ∈ s.clients[i]?, c.leftRequests - 1 ≤ 0 ∨ s.Expired c

instance (s : State) (i : ℕ) : Decidable (s.Exhausted i) :=
  inferInstanceAs (Decidable (∃ c ∈ s.clients[i]?, _ ∨ _))

end State

/-- One step of the manager and its users. -/
def step (s : State) : Act → Option State
  | .tick ns => some { s with now := s.now + ns }
  | .connFails i => some (s.modifyClient i fun c => { c with isClosed := true })
  | .dialSelect mode pick draw => do
    let (s, i) ← s.getXmuxClient pick draw
    some (s.addDial mode i)
  | .dialCount d => do
    let x ← s.dials[d]?
    if x.pc = .selected then
      some ((s.addUsage x.client 1).setDial d { x with pc := .counted })
    else none
  | .dialCharge d => do
    let x ← s.dials[d]?
    let pc ← x.pc.charge x.mode
    some ((s.charge x.client).setDial d { x with pc := pc })
  | .dialOpen d => do
    let x ← s.dials[d]?
    let pc ← x.pc.call
    some ((s.issue x.client).setDial d { x with pc := pc })
  | .dialOpened d ok => do
    let x ← s.dials[d]?
    let pc ← x.pc.answer x.mode ok
    some (s.setDial d { x with pc := pc })
  | .dialFinish d => do
    let x ← s.dials[d]?
    if x.pc = .opened ∧ x.mode = .packetUp then some (s.finish d x) else none
  | .close d => do
    let x ← s.dials[d]?
    if x.pc = .returned then some (s.close d x) else none
  | .loopCharge l => do
    let y ← s.loops[l]?
    if y.pc = .idle then
      let pc := if s.Exhausted y.client then .hopping else .ready
      some ((s.charge y.client).setLoop l { y with pc := pc })
    else none
  | .loopHop l pick draw => do
    let y ← s.loops[l]?
    if y.pc = .hopping then
      let (s, i) ← s.getXmuxClient pick draw
      some (s.setLoop l { client := i, pc := .ready })
    else none
  | .loopPost l ok => do
    let y ← s.loops[l]?
    if y.pc = .ready then
      some ((s.issue y.client).setLoop l { y with pc := if ok then .idle else .done })
    else none
  | .loopEnd l => do
    let y ← s.loops[l]?
    if y.pc = .idle then some (s.setLoop l { y with pc := .done }) else none

end XHTTP.Xmux

import Gost.Lib.Http.Lines
import Gost.Lib.Reader
import Gost.Lib.TransitionSystem

/-!
# Reading behind the response header of obfs-http

The two ends of an obfs-http connection after the upgrade (`x/dialer/obfs/http/conn.go` and
`x/listener/obfs/http/conn.go`): the server writes, the dialer's side reads. The server's response
header comes first on the wire, sent by `handshake` or kept in `wbuf` for the first `Write`. The
first `Read` of the dialer's side takes lines through a `bufio.Reader` of its own up to the empty
one, and keeps what that reader has buffered beyond it.

Between two underlying reads the reader takes all lines that are complete, so a line is kept here as
the text since its start; a line longer than the buffer leaves it in full buffers. The handshake of
the dialer's side concerns the other direction, and only its error is seen by `Read`.

`payload_only_iff`: only what the server wrote is returned, in order, if and only if no underlying
read fails while the header is drained, or nothing is returned at all.
-/

namespace Obfs.HttpConn

open Http List TransitionSystem

/-! ## The response header -/

/-- The fields that `Response.Write` does not take from the header. -/
def respExcludeHeader : List Bytes :=
  [bytes "Content-Length", bytes "Transfer-Encoding", bytes "Trailer"]

def statusLine : Bytes := bytes "HTTP/1.1 101 Switching Protocols"

/-- The response of the server's `handshake`, for the configured header. -/
def response (header : Header) (date accept : Bytes) : Bytes :=
  let header := header.set (bytes "Date") date
  let header := header.set (bytes "Connection") (bytes "Upgrade")
  let header := header.set (bytes "Upgrade") (bytes "websocket")
  writeHead statusLine (header.set (bytes "Sec-WebSocket-Accept") accept) respExcludeHeader

/-! ## The two ends -/

/-- What a `Read` returns, and how far behind the start of the server's stream its data begins. -/
structure Result where
  offset : ℕ
  data : Bytes
  err : Option ReadError := none
deriving DecidableEq, Repr

/-- Where the dialer's side is in `Read`. -/
inductive Pc
  | idle
  -- in `drainHeader`: what was read of the line, and how many reads in a row brought nothing
  | draining (size : ℕ) (line : Bytes) (empty : ℕ)
  -- in `c.Conn.Read`
  | reading (size : ℕ)
deriving DecidableEq, Repr

structure State where
  -- the server: what its `Write` calls reported as written
  wrote : Bytes := []
  wbuf : Bytes := []
  -- on the way, and taken off the wire so far
  wire : Bytes := []
  taken : Bytes := []
  -- the dialer's side: the request can be written, so that its `handshake` succeeds
  shakes : Bool
  headerDrained : Bool := false
  rbuf : Bytes := []
  pc : Pc := .idle
  results : List Result := []
deriving DecidableEq, Repr

/-- The end of the server's `handshake`: the response is cached if the request brought data. -/
def start (shakes : Bool) (rbuf response : Bytes) : State :=
  if rbuf ≠ [] then { shakes, wbuf := response } else { shakes, wire := response }

/-- `Write` of the server, where the connection takes `m` bytes. -/
def write (s : State) (b : Bytes) (m : ℕ) : State :=
  if s.wbuf ≠ [] then
    { s with
      wrote := s.wrote ++ b
      wire := s.wire ++ (s.wbuf ++ b).take m
      wbuf := (s.wbuf ++ b).drop m }
  else { s with wrote := s.wrote ++ b.take m, wire := s.wire ++ b.take m }

/-- An underlying read that brings `n` bytes at most. -/
def receive (s : State) (n : ℕ) : State :=
  { s with taken := s.taken ++ s.wire.take n, wire := s.wire.drop n }

def State.giveBack (s : State) (result : Result) : State :=
  { s with pc := .idle, results := s.results ++ [result] }

/-- What the `bufio.Reader` holds behind the header. -/
def State.cacheExtra (s : State) (extra : Bytes) : State := { s with rbuf := s.rbuf ++ extra }

/-- The end of `Read`, behind `drainHeader`. -/
def readRest (s : State) (size : ℕ) : State :=
  if s.rbuf ≠ [] then
    { s with rbuf := s.rbuf.drop size }.giveBack
      ⟨s.taken.length - s.rbuf.length, s.rbuf.take size, none⟩
  else { s with pc := .reading size }

def defaultBufSize : ℕ := 4096

def maxConsecutiveEmptyReads : ℕ := 100

/-- The room in the buffer, which holds what was read of the line since it was full. -/
def room (line : Bytes) : ℕ := defaultBufSize - line.length % defaultBufSize

/-- A read that ends `drainHeader` if the empty line is not in its data. -/
def Fails (data : Bytes) (empty : ℕ) (err : Option ReadError) : Prop :=
  err ≠ none ∨ data = [] ∧ empty + 1 = maxConsecutiveEmptyReads

instance (data : Bytes) (empty : ℕ) (err : Option ReadError) : Decidable (Fails data empty err) :=
  inferInstanceAs (Decidable (_ ∨ _))

/-- `drainHeader` goes on with the data of an underlying read. -/
def drainHeader (s : State) (size : ℕ) (line : Bytes) (empty n : ℕ) (err : Option ReadError) :
    State :=
  let data := s.wire.take (min n (room line))
  let s := receive s (min n (room line))
  match scan [13, 10] line data with
  | .inl extra => readRest (s.cacheExtra extra) size
  | .inr line =>
    if Fails data empty err then s.giveBack ⟨s.taken.length, [], some (err.getD .other)⟩
    else { s with pc := .draining size line (if data = [] then empty + 1 else 0) }

inductive Op
  -- the server calls `Write`
  | write (b : Bytes) (m : ℕ)
  -- the dialer's side calls `Read` with a buffer of this size
  | read (size : ℕ)
  -- the underlying read returns
  | arrive (n : ℕ) (err : Option ReadError)
deriving DecidableEq, Repr

def step (s : State) : Op → Option State
  | .write b m => some (write s b m)
  | .read size =>
    if s.pc = .idle then
      if !s.shakes then some (s.giveBack ⟨s.taken.length, [], some .other⟩)
      else if s.headerDrained then some (readRest s size)
      else some { s with headerDrained := true, pc := .draining size [] 0 }
    else none
  | .arrive n err =>
    match s.pc with
    | .idle => none
    | .reading size =>
      some ((receive s (min n size)).giveBack
        ⟨s.taken.length, s.wire.take (min n size), err⟩)
    | .draining size line empty => some (drainHeader s size line empty n err)

/-- An underlying read of `wire` does not end `drainHeader` with an error. -/
def Pc.Undisturbed (wire : Bytes) (n : ℕ) (err : Option ReadError) : Pc → Prop
  | .draining _ line empty =>
    (scan [13, 10] line (wire.take (min n (room line)))).isLeft ∨
      ¬Fails (wire.take (min n (room line))) empty err
  | .idle | .reading _ => True

instance (wire : Bytes) (n : ℕ) (err : Option ReadError) (pc : Pc) :
    Decidable (pc.Undisturbed wire n err) :=
  match pc with
  | .draining _ _ _ => inferInstanceAs (Decidable (_ ∨ _))
  | .idle | .reading _ => .isTrue trivial

/-- No underlying read fails while the empty line is awaited. -/
def Undisturbed (s : State) : Op → Prop
  | .arrive n err => s.pc.Undisturbed s.wire n err
  | .write _ _ | .read _ => True

instance (s : State) (op : Op) : Decidable (Undisturbed s op) :=
  match op with
  | .arrive n err => inferInstanceAs (Decidable (s.pc.Undisturbed s.wire n err))
  | .write _ _ | .read _ => .isTrue trivial

namespace State

/-- All bytes that were returned. -/
def returned (s : State) : Bytes := s.results.flatMap (·.data)

/-- No byte was returned. -/
def Silent (s : State) : Prop := ∀ r ∈ s.results, r.data = []

/-- No byte was returned that is less than `k` bytes behind the start of the stream. -/
def Behind (s : State) (k : ℕ) : Prop := ∀ r ∈ s.results, r.data ≠ [] → k ≤ r.offset

end State

/-! ## Steps -/

/-- The data of an underlying read while the header is drained. -/
def State.chunk (s : State) (line : Bytes) (n : ℕ) : Bytes := s.wire.take (min n (room line))

/-- What a step can do. -/
inductive StepCase (s : State) : Op → State → Prop
  | write (b : Bytes) (m : ℕ) : StepCase s (.write b m) (write s b m)
  | refused (size : ℕ) (hpc : s.pc = .idle) :
    StepCase s (.read size) (s.giveBack ⟨s.taken.length, [], some .other⟩)
  | again (size : ℕ) (hpc : s.pc = .idle) (hdrained : s.headerDrained = true) :
    StepCase s (.read size) (readRest s size)
  | first (size : ℕ) (hpc : s.pc = .idle) (hdrained : s.headerDrained = false) :
    StepCase s (.read size) { s with headerDrained := true, pc := .draining size [] 0 }
  | data (size n : ℕ) (err : Option ReadError) (hpc : s.pc = .reading size) :
    StepCase s (.arrive n err)
      ((receive s (min n size)).giveBack ⟨s.taken.length, s.wire.take (min n size), err⟩)
  | found (size : ℕ) (line : Bytes) (empty n : ℕ) (err : Option ReadError) (extra : Bytes)
    (hpc : s.pc = .draining size line empty)
    (hscan : scan [13, 10] line (s.chunk line n) = .inl extra) :
    StepCase s (.arrive n err)
      (readRest ((receive s (min n (room line))).cacheExtra extra) size)
  | failed (size : ℕ) (line : Bytes) (empty n : ℕ) (err : Option ReadError) (line' : Bytes)
    (result : Result) (hpc : s.pc = .draining size line empty)
    (hscan : scan [13, 10] line (s.chunk line n) = .inr line')
    (hfails : Fails (s.chunk line n) empty err) (hdata : result.data = []) :
    StepCase s (.arrive n err) ((receive s (min n (room line))).giveBack result)
  | goesOn (size : ℕ) (line : Bytes) (empty n : ℕ) (err : Option ReadError) (line' : Bytes)
    (empty' : ℕ) (hpc : s.pc = .draining size line empty)
    (hscan : scan [13, 10] line (s.chunk line n) = .inr line')
    (hfails : ¬Fails (s.chunk line n) empty err) :
    StepCase s (.arrive n err)
      { receive s (min n (room line)) with pc := .draining size line' empty' }

variable {s s' : State} {op : Op}

theorem step_cases (h : step s op = some s') : StepCase s op s' := by
  cases op with
  | write b m =>
    cases h
    exact .write b m
  | read size =>
    obtain ⟨hpc, hs'⟩ := Option.ite_none_right_eq_some.mp h
    split_ifs at hs' with hshakes hdrained
    · cases hs'
      exact .refused size hpc
    · cases hs'
      exact .again size hpc hdrained
    · cases hs'
      exact .first size hpc (Bool.eq_false_iff.mpr hdrained)
  | arrive n err =>
    dsimp only [step] at h
    split at h
    · cases h
    · rename_i size hpc
      cases h
      exact .data size n err hpc
    · rename_i size line empty hpc
      dsimp only [drainHeader] at h
      split at h
      · rename_i extra hscan
        cases h
        exact .found size line empty n err extra hpc hscan
      · rename_i line' hscan
        by_cases hfails : Fails (s.chunk line n) empty err
        · obtain rfl := Option.some.inj ((congrArg some (if_pos hfails)).symm.trans h)
          exact .failed size line empty n err line' _ hpc hscan hfails rfl
        · obtain rfl := Option.some.inj ((congrArg some (if_neg hfails)).symm.trans h)
          exact .goesOn size line empty n err line' _ hpc hscan hfails

/-! ## The stream -/

/-- What was taken, what is on the way and what is cached is the header and what was written. -/
def Streams (head : Bytes) (s : State) : Prop :=
  s.taken ++ s.wire ++ s.wbuf = head ++ s.wrote

section Streams

variable {head : Bytes} {s : State}

theorem streams_start (shakes : Bool) (rbuf : Bytes) : Streams head (start shakes rbuf head) := by
  unfold start
  split_ifs
  · exact (append_nil head).symm
  · show [] ++ head ++ [] = head ++ []
    rw [nil_append]

theorem Streams.write (h : Streams head s) (b : Bytes) (m : ℕ) :
    Streams head (HttpConn.write s b m) := by
  unfold Streams at h
  unfold HttpConn.write
  split_ifs with hwbuf
  · show s.taken ++ (s.wire ++ (s.wbuf ++ b).take m) ++ (s.wbuf ++ b).drop m =
      head ++ (s.wrote ++ b)
    rw [append_assoc, append_assoc, take_append_drop, ← append_assoc head, ← h]
    simp only [append_assoc]
  · have hnil : s.wbuf = [] := not_not.mp hwbuf
    show s.taken ++ (s.wire ++ b.take m) ++ s.wbuf = head ++ (s.wrote ++ b.take m)
    rw [hnil, append_nil] at h ⊢
    rw [← append_assoc, h, append_assoc]

theorem Streams.receive (h : Streams head s) (n : ℕ) : Streams head (HttpConn.receive s n) := by
  show s.taken ++ s.wire.take n ++ s.wire.drop n ++ s.wbuf = head ++ s.wrote
  rw [append_assoc s.taken, take_append_drop]
  exact h

theorem Streams.readRest (h : Streams head s) (size : ℕ) :
    Streams head (HttpConn.readRest s size) := by
  unfold HttpConn.readRest
  split_ifs
  · exact h
  · exact h

theorem Streams.next (h : Streams head s) (hstep : step s op = some s') : Streams head s' := by
  cases step_cases hstep with
  | write b m => exact h.write b m
  | refused => exact h
  | again size => exact h.readRest size
  | first => exact h
  | data => exact h.receive _
  | found size line _ n _ extra =>
    have hcached : Streams head ((HttpConn.receive s (min n (room line))).cacheExtra extra) :=
      h.receive _
    exact hcached.readRest size
  | failed => exact h.receive _
  | goesOn => exact h.receive _

end Streams

/-! ## An undisturbed reader -/

/-- How far the dialer's side is, as long as no read failed while the header was drained. -/
inductive Intact (head : Bytes) (s : State) : Prop
  | fresh (hdrained : s.headerDrained = false) (hpc : s.pc = .idle) (htaken : s.taken = [])
    (hrbuf : s.rbuf = []) (hsilent : s.Silent)
  | draining (size : ℕ) (line : Bytes) (empty : ℕ) (hdrained : s.headerDrained = true)
    (hpc : s.pc = .draining size line empty) (hscan : scan [13, 10] [] s.taken = .inr line)
    (hrbuf : s.rbuf = []) (hsilent : s.Silent)
  | drained (hdrained : s.headerDrained = true)
    (hpc : s.pc = .idle ∨ s.rbuf = [] ∧ ∃ size, s.pc = .reading size)
    (htaken : s.taken = head ++ s.returned ++ s.rbuf) (hbehind : s.Behind head.length)

/-- A read failed while the header was drained: from here on the bytes of the header that are left
are returned as data. -/
structure Disturbed (head : Bytes) (s : State) : Prop where
  headerDrained : s.headerDrained = true
  pc : s.pc = .idle ∨ ∃ size, s.pc = .reading size
  rbuf : s.rbuf = []
  results : s.Silent ∧ s.taken.length < head.length ∨ ¬s.Behind head.length

section Results

variable {s : State} {result : Result}

theorem mem_results_giveBack {r : Result} :
    r ∈ (s.giveBack result).results ↔ r ∈ s.results ∨ r = result := by
  show r ∈ s.results ++ [result] ↔ _
  rw [mem_append, mem_singleton]

theorem returned_giveBack : (s.giveBack result).returned = s.returned ++ result.data := by
  show (s.results ++ [result]).flatMap _ = _
  rw [flatMap_append, flatMap_singleton]
  rfl

theorem silent_giveBack (hs : s.Silent) (hdata : result.data = []) :
    (s.giveBack result).Silent := by
  intro r hr
  rcases mem_results_giveBack.mp hr with hr | rfl
  · exact hs r hr
  · exact hdata

theorem behind_giveBack {k : ℕ} (hs : s.Behind k) (hoffset : result.data ≠ [] → k ≤ result.offset) :
    (s.giveBack result).Behind k := by
  intro r hr
  rcases mem_results_giveBack.mp hr with hr | rfl
  · exact hs r hr
  · exact hoffset

theorem not_behind_giveBack {k : ℕ} (hs : ¬s.Behind k) : ¬(s.giveBack result).Behind k :=
  fun h => hs fun r hr => h r (mem_results_giveBack.mpr (.inl hr))

theorem returned_eq_nil (hs : s.Silent) : s.returned = [] := flatMap_eq_nil_iff.mpr hs

theorem behind_of_silent (hs : s.Silent) (k : ℕ) : s.Behind k :=
  fun r hr hne => absurd (hs r hr) hne

end Results

/-- Behind the header, `Read` returns what is left in `rbuf` or goes on to the connection. -/
theorem intact_readRest {head : Bytes} (hdrained : s.headerDrained = true)
    (htaken : s.taken = head ++ s.returned ++ s.rbuf) (hbehind : s.Behind head.length) (size : ℕ) :
    Intact head (readRest s size) := by
  unfold readRest
  split_ifs with hrbuf
  · refine .drained hdrained (.inl rfl) ?_ (behind_giveBack hbehind fun _ => ?_)
    · rw [returned_giveBack]
      show s.taken = head ++ (s.returned ++ s.rbuf.take size) ++ s.rbuf.drop size
      rw [htaken, append_assoc, append_assoc, append_assoc, take_append_drop]
    · show head.length ≤ s.taken.length - s.rbuf.length
      rw [htaken, length_append, length_append]
      omega
  · exact .drained hdrained (.inr ⟨not_not.mp hrbuf, size, rfl⟩) htaken hbehind

section Reader

variable {head : Bytes} {s s' : State}

/-- The server's side changes nothing for the reader. -/
theorem write_eq (s : State) (b : Bytes) (m : ℕ) :
    ∃ wrote wire wbuf, write s b m = { s with wrote, wire, wbuf } := by
  unfold write
  split_ifs
  · exact ⟨_, _, _, rfl⟩
  · exact ⟨_, _, _, rfl⟩

theorem Intact.write (hs : Intact head s) (b : Bytes) (m : ℕ) :
    Intact head (HttpConn.write s b m) := by
  obtain ⟨wrote, wire, wbuf, hwrite⟩ := write_eq s b m
  rw [hwrite]
  cases hs with
  | fresh hdrained hpc htaken hrbuf hsilent => exact .fresh hdrained hpc htaken hrbuf hsilent
  | draining size line empty hdrained hpc hscan hrbuf hsilent =>
    exact .draining size line empty hdrained hpc hscan hrbuf hsilent
  | drained hdrained hpc htaken hbehind => exact .drained hdrained hpc htaken hbehind

variable {line : Bytes}

theorem Intact.of_draining (hs : Intact head s) {size empty : ℕ}
    (hpc : s.pc = .draining size line empty) : s.headerDrained = true ∧
      scan [13, 10] [] s.taken = .inr line ∧ s.rbuf = [] ∧ s.Silent := by
  cases hs with
  | fresh _ hpc' => cases hpc.symm.trans hpc'
  | draining size' line' empty' hdrained hpc' hscan hrbuf hsilent =>
    cases hpc.symm.trans hpc'
    exact ⟨hdrained, hscan, hrbuf, hsilent⟩
  | drained _ hpc' => rcases hpc' with hpc' | ⟨-, size', hpc'⟩ <;> cases hpc.symm.trans hpc'

theorem scan_taken_receive {n : ℕ} (hscan : scan [13, 10] [] s.taken = .inr line) :
    scan [13, 10] [] (receive s (min n (room line))).taken = scan [13, 10] line (s.chunk line n) :=
  scan_append_of_inr hscan _

/-- A step of an undisturbed reader, and the bytes that it returns. -/
theorem Intact.next (hhead : scan [13, 10] [] head = .inl []) (hs : Intact head s)
    (hstreams : Streams head s) (hguard : Undisturbed s op) (hstep : step s op = some s') :
    Intact head s' := by
  cases step_cases hstep with
  | write b m => exact hs.write b m
  | refused size hpc =>
    cases hs with
    | fresh hdrained _ htaken hrbuf hsilent =>
      exact .fresh hdrained rfl htaken hrbuf (silent_giveBack hsilent rfl)
    | draining _ _ _ _ hpc' => exact absurd (hpc.symm.trans hpc') nofun
    | drained hdrained _ htaken hbehind =>
      refine .drained hdrained (.inl rfl) ?_ (behind_giveBack hbehind fun hne => absurd rfl hne)
      rw [returned_giveBack, append_nil]
      exact htaken
  | again size hpc hdrained =>
    cases hs with
    | fresh hdrained' => exact absurd (hdrained.symm.trans hdrained') nofun
    | draining _ _ _ _ hpc' => exact absurd (hpc.symm.trans hpc') nofun
    | drained _ _ htaken hbehind => exact intact_readRest hdrained htaken hbehind size
  | first size hpc hdrained =>
    cases hs with
    | fresh _ _ htaken hrbuf hsilent =>
      refine .draining size [] 0 rfl rfl ?_ hrbuf hsilent
      rw [htaken]
      rfl
    | draining _ _ _ hdrained' | drained hdrained' =>
      exact absurd (hdrained.symm.trans hdrained') nofun
  | data size n err hpc =>
    cases hs with
    | fresh _ hpc' | draining _ _ _ _ hpc' => exact absurd (hpc.symm.trans hpc') nofun
    | drained hdrained hpc' htaken hbehind =>
      have hrbuf : s.rbuf = [] := (hpc'.resolve_left fun hidle => nomatch hpc.symm.trans hidle).1
      rw [hrbuf, append_nil] at htaken
      refine .drained hdrained (.inl rfl) ?_ (behind_giveBack hbehind fun _ => ?_)
      · rw [returned_giveBack]
        show s.taken ++ _ = head ++ (s.returned ++ _) ++ s.rbuf
        rw [hrbuf, append_nil, htaken, append_assoc]
      · rw [htaken, length_append]
        exact Nat.le_add_right _ _
  | found size line empty n err extra hpc hscan =>
    obtain ⟨hdrained, htaken, hrbuf, hsilent⟩ := hs.of_draining hpc
    rw [← scan_taken_receive htaken] at hscan
    have hstream := hstreams.receive (min n (room line))
    rw [Streams, append_assoc] at hstream
    refine intact_readRest (s := (receive s _).cacheExtra extra) hdrained ?_
      (behind_of_silent hsilent _) size
    show (receive s (min n (room line))).taken = head ++ s.returned ++ (s.rbuf ++ extra)
    rw [eq_append_of_scan hhead hscan hstream, returned_eq_nil hsilent, hrbuf, append_nil,
      nil_append]
  | failed size line empty n err line' result hpc hscan hfails =>
    rw [Undisturbed, hpc] at hguard
    rcases hguard with hleft | hok
    · rw [show scan [13, 10] line (s.wire.take (min n (room line))) = _ from hscan] at hleft
      cases hleft
    · exact absurd hfails hok
  | goesOn size line empty n err line' empty' hpc hscan =>
    obtain ⟨hdrained, htaken, hrbuf, hsilent⟩ := hs.of_draining hpc
    exact .draining size line' empty' hdrained rfl ((scan_taken_receive htaken).trans hscan) hrbuf
      hsilent

/-- A read that fails before the empty line has come: not all of the header is taken, and nothing
of it was kept. -/
theorem Intact.disturbed (hhead : scan [13, 10] [] head = .inl []) (hs : Intact head s)
    (hstreams : Streams head s) (hguard : ¬Undisturbed s op) (hstep : step s op = some s') :
    Disturbed head s' := by
  cases step_cases hstep with
  | write | refused | again | first => exact absurd trivial hguard
  | data size n err hpc =>
    rw [Undisturbed, hpc] at hguard
    exact absurd trivial hguard
  | found size line empty n err extra hpc hscan =>
    rw [Undisturbed, hpc] at hguard
    refine absurd (.inl ?_) hguard
    rw [show scan [13, 10] line (s.wire.take (min n (room line))) = _ from hscan]
    rfl
  | failed size line empty n err line' result hpc hscan hfails hdata =>
    obtain ⟨hdrained, htaken, hrbuf, hsilent⟩ := hs.of_draining hpc
    rw [← scan_taken_receive htaken] at hscan
    have hstream := hstreams.receive (min n (room line))
    rw [Streams, append_assoc] at hstream
    exact ⟨hdrained, .inl rfl, hrbuf,
      .inl ⟨silent_giveBack hsilent hdata, length_lt_of_scan hhead hscan hstream⟩⟩
  | goesOn size line empty n err line' empty' hpc hscan hfails =>
    rw [Undisturbed, hpc] at hguard
    exact absurd (.inr hfails) hguard

/-- The rest of the header is what the next read brings. -/
theorem Disturbed.next (hs : Disturbed head s) (hstep : step s op = some s') :
    Disturbed head s' := by
  obtain ⟨hdrained, hpc', hrbuf, hresults⟩ := hs
  have hnotDraining : ∀ size line empty, s.pc ≠ .draining size line empty := by
    rintro size line empty hpc
    rcases hpc' with hpc' | ⟨size', hpc'⟩ <;> cases hpc.symm.trans hpc'
  cases step_cases hstep with
  | write b m =>
    obtain ⟨wrote, wire, wbuf, hwrite⟩ := write_eq s b m
    rw [hwrite]
    exact ⟨hdrained, hpc', hrbuf, hresults⟩
  | refused =>
    exact ⟨hdrained, .inl rfl, hrbuf,
      hresults.imp (fun h => ⟨silent_giveBack h.1 rfl, h.2⟩) not_behind_giveBack⟩
  | again size =>
    rw [readRest, if_neg (not_not.mpr hrbuf)]
    exact ⟨hdrained, .inr ⟨size, rfl⟩, hrbuf, hresults⟩
  | first _ _ hfresh => exact absurd (hdrained.symm.trans hfresh) nofun
  | data size n err =>
    refine ⟨hdrained, .inl rfl, hrbuf, ?_⟩
    rcases hresults with ⟨hsilent, hlt⟩ | hexposed
    · by_cases hdata : s.wire.take (min n size) = []
      · refine .inl ⟨silent_giveBack hsilent hdata, ?_⟩
        show (s.taken ++ s.wire.take (min n size)).length < head.length
        rwa [hdata, append_nil]
      · -- the first byte of the data is one of the header
        refine .inr fun hbehind => ?_
        have hle := hbehind _ (mem_results_giveBack.mpr (.inr rfl)) hdata
        exact absurd hlt (Nat.not_lt_of_le hle)
    · exact .inr (not_behind_giveBack hexposed)
  | found size line empty _ _ _ hpc | failed size line empty _ _ _ _ hpc
  | goesOn size line empty _ _ _ _ hpc =>
    exact absurd hpc (hnotDraining size line empty)

theorem intact_start (shakes : Bool) (rbuf : Bytes) : Intact head (start shakes rbuf head) := by
  unfold start
  split_ifs
  · exact .fresh rfl rfl rfl rfl nofun
  · exact .fresh rfl rfl rfl rfl nofun

/-- What was returned is the start of what was written. -/
theorem Intact.returned_isPrefix (hs : Intact head s) (hstreams : Streams head s) :
    s.returned <+: s.wrote ∧ s.Behind head.length := by
  cases hs with
  | fresh _ _ _ _ hsilent | draining _ _ _ _ _ _ _ hsilent =>
    rw [returned_eq_nil hsilent]
    exact ⟨ nil_prefix, behind_of_silent hsilent _⟩
  | drained _ _ htaken hbehind =>
    refine ⟨⟨s.rbuf ++ s.wire ++ s.wbuf, ?_⟩, hbehind⟩
    rw [Streams, htaken] at hstreams
    simp only [append_assoc] at hstreams ⊢
    exact append_cancel_left hstreams

end Reader

/-! ## Payload only -/

theorem scan_response (header : Header) (date accept : Bytes) :
    scan [13, 10] [] (response header date accept) = .inl [] :=
  scan_writeHead (by decide) (by decide) _ _

/-- Whatever the server writes after the upgrade, however the connection cuts it, and whichever
underlying reads fail: the bytes that `Read` returned are the start of what the server wrote, and
none is of the response header, if and only if no underlying read failed while the header was
drained, or no byte was returned. -/
theorem payload_only_iff (header : Header) (date accept : Bytes) (shakes : Bool) (rbuf : Bytes)
    (ops : List Op) (s : State)
    (hrun : run step (start shakes rbuf (response header date accept)) ops = some s) :
    s.returned <+: s.wrote ∧ s.Behind (response header date accept).length ↔
      Along step Undisturbed (start shakes rbuf (response header date accept)) ops ∨ s.Silent := by
  have hhead := scan_response header date accept
  generalize response header date accept = head at hhead hrun ⊢
  have hgood : ∀ s op s', Streams head s ∧ Intact head s → Undisturbed s op →
      step s op = some s' → Streams head s' ∧ Intact head s' :=
    fun _ _ _ hI hG h => ⟨hI.1.next h, hI.2.next hhead hI.1 hG h⟩
  constructor
  · rintro ⟨-, hbehind⟩
    have halong := along_or_trapped (D := Disturbed head) hgood
      (fun _ _ _ hI hG h => hI.2.disturbed hhead hI.1 hG h) (fun _ _ _ hD h => hD.next h)
      ⟨streams_start shakes rbuf, intact_start shakes rbuf⟩ hrun
    refine halong.imp id fun hD => ?_
    exact (hD.results.resolve_right (not_not.mpr hbehind)).1
  · rintro (halong | hsilent)
    · have hend := run_induction_along hgood
        ⟨streams_start shakes rbuf, intact_start shakes rbuf⟩ halong hrun
      exact hend.2.returned_isPrefix hend.1
    · rw [returned_eq_nil hsilent]
      exact ⟨ nil_prefix, behind_of_silent hsilent _⟩

/-- A timeout between two payload bytes, when the header is drained, does no harm. -/
def lateTimeout : List Op :=
  [.write [1, 2] 2, .read 1, .arrive 4096 none, .read 1, .read 1, .arrive 0 (some .other),
    .write [3] 1, .read 1, .arrive 1 none]

theorem payload_only_late_timeout :
    (run step (start true [] (response [] [] [])) lateTimeout).isSome ∧
      ∀ s, run step (start true [] (response [] [] [])) lateTimeout = some s →
        s.returned <+: s.wrote ∧ s.Behind (response [] [] []).length :=
  ⟨by decide +kernel, fun s hrun =>
    (payload_only_iff [] [] [] true [] _ s hrun).mpr (.inl (by decide +kernel))⟩

/-- A timeout when five bytes of the header have come. -/
def earlyTimeout : List Op :=
  [.write [1] 1, .read 4, .arrive 5 (some .other), .read 4, .arrive 4 none]

/-- The five bytes are lost, and the next `Read` returns the header from its sixth byte on. -/
theorem header_returned_after_timeout :
    ∃ s, run step (start true [] (response [] [] [])) earlyTimeout = some s ∧ s.wrote = [1] ∧
      s.results = [⟨5, [], some .other⟩, ⟨5, bytes "1.1 ", none⟩] ∧ ¬s.returned <+: s.wrote := by
  have hend : (run step (start true [] (response [] [] [])) earlyTimeout).map
      (fun s => (s.wrote, s.results)) =
      some ([1], [⟨5, [], some .other⟩, ⟨5, bytes "1.1 ", none⟩]) := by decide +kernel
  obtain ⟨s, hrun, hs⟩ := Option.map_eq_some_iff.mp hend
  obtain ⟨hwrote, hresults⟩ := Prod.mk.inj hs
  refine ⟨s, hrun, hwrote, hresults, ?_⟩
  rw [State.returned, hresults, hwrote]
  decide

end Obfs.HttpConn

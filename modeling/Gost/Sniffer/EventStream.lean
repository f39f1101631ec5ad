import Gost.Lib.Bytes
import Gost.Lib.Delimiters
import Gost.Lib.Scanner

/-!
# Rewriting a stream of events

`rewriteBody` of `x/internal/util/forwarder/sniffer_sse.go` for a body of type `text/event-stream`.
A `bufio.Scanner` cuts the body into events, the chain of rewrites is applied to each of them, and
`Read` returns the rewritten events with a delimiter behind each. At the end of the body the chain
is applied once more, to no event.

- `drains_iff`: the bytes that the calls of `Read` return are those of `RewriteBody.stream`.
- `independent_of_chunks`: which bodies are rewritten the same way however they are cut into
  reads. `scanSSEEvents` looks for one delimiter after another in what has come so far, so an event
  may end at another place when more of the body is in view.

The chain is any function of the event and its metadata, of which the session, the direction and the
address do not change within a body.
-/

namespace Sniffer.EventStream

open Delimiters List Scanner

/-! ## Events -/

/-- The delimiter that is written. -/
def lfLf : Bytes := [10, 10]

/-- The delimiters that `scanSSEEvents` looks for, in this order. -/
def delims : List Bytes := [lfLf, [13, 10, 13, 10], [13, 13]]

def scanSSEEvents (data : Bytes) (atEOF : Bool) : Split UInt8 :=
  match findFirst delims data with
  | some (tok, rest) => .token tok rest
  | none => if atEOF ∧ data ≠ [] then .final data else .more

/-- The size of the scanner's buffer at first. -/
def bufferSize : ℕ := 64 * 1024

def maxTokenSize : ℕ := 64 * 1024 * 1024

/-! ## The body -/

/-- `sse_phase`. -/
inductive Phase
  | start
  | event
  | ending
deriving DecidableEq, Repr

/-- The metadata of a call of the chain. -/
structure Meta where
  phase : Phase
  eventIndex : ℕ
  streamError : Option Scanner.Err := none
deriving DecidableEq, Repr

/-- `apply`: the rewritten body, and whether there was no error. -/
abbrev Chain := Meta → Bytes → Bytes × Bool

structure RewriteBody where
  -- what the calls of `Scan` are going to return
  scanner : Scanned UInt8
  eventIndex : ℕ := 0
  ended : Bool := false
  scannerErr : Option Scanner.Err := none
  buf : Bytes := []
deriving DecidableEq, Repr

/-- The error of `Read`. -/
inductive Error
  | eof
  | scanner (err : Scanner.Err)
  | rewrite
deriving DecidableEq, Repr

/-- A body that ends with `last` and comes in the reads that `cuts` marks. -/
def newRewriteBody (body : Bytes) (cuts : List Bool) (last : ReadError) : RewriteBody where
  scanner := scanAll scanSSEEvents bufferSize maxTokenSize last (body.zip cuts)

/-- `writeSSEStreamDelim`: what is written behind a rewritten event. -/
def writeSSEStreamDelim (data : Bytes) : Bytes :=
  if lfLf.isSuffixOf data then [] else lfLf

/-- What is written for a rewritten event. -/
def written (rewritten : Bytes) : Bytes :=
  if rewritten ≠ [] then rewritten ++ writeSSEStreamDelim rewritten else []

/-- The metadata of an event. -/
def eventMeta (eventIndex : ℕ) : Meta where
  phase := if eventIndex = 0 then .start else .event
  eventIndex := eventIndex

namespace RewriteBody

/-- `b.buf.Read(p)`. -/
def readBuf (b : RewriteBody) (size : ℕ) : (Bytes × Option Error) × RewriteBody :=
  ((b.buf.take size, if b.buf = [] ∧ 0 < size then some .eof else none),
    { b with buf := b.buf.drop size })

/-- A rewritten event and its delimiter are written to the buffer. -/
def write (b : RewriteBody) (rewritten : Bytes) : RewriteBody :=
  { b with buf := b.buf ++ written rewritten }

/-- `Scan` has returned a token. -/
def nextEvent (b : RewriteBody) (tokens : List Bytes) : RewriteBody :=
  { b with scanner := { b.scanner with tokens }, eventIndex := b.eventIndex + 1 }

/-- `Scan` has returned false: a later call returns what the scanner still holds. -/
def stopScan (b : RewriteBody) : RewriteBody :=
  { b with scanner := { b.scanner with tokens := b.scanner.late, late := [] } }

def setEnded (b : RewriteBody) (scannerErr : Option Scanner.Err) : RewriteBody :=
  { b with ended := true, scannerErr }

/-- The body has ended: the chain may add an event. -/
def readEOF (apply : Chain) (size : ℕ) (b : RewriteBody) :
    (Bytes × Option Error) × RewriteBody :=
  if b.ended then (([], some ((b.scannerErr.map .scanner).getD .eof)), b)
  else
    let (rewritten, ok) := apply { phase := .ending, eventIndex := b.eventIndex } []
    let b := b.setEnded b.scannerErr
    if ok then (b.write rewritten).readBuf size else (([], some .rewrite), b)

/-- The scanner has failed: the chain may add an event, and its own error is not looked at. -/
def readFailed (apply : Chain) (size : ℕ) (err : Scanner.Err) (b : RewriteBody) :
    (Bytes × Option Error) × RewriteBody :=
  if b.ended then (([], some (.scanner err)), b)
  else
    let (rewritten, _) := apply
      { phase := .ending, eventIndex := b.eventIndex, streamError := some err } []
    let b := b.setEnded (some err)
    if rewritten ≠ [] then (b.write rewritten).readBuf size else (([], some (.scanner err)), b)

/-- The branch of `Read` for `Scan` returning false. -/
def readEnd (apply : Chain) (size : ℕ) (b : RewriteBody) :
    (Bytes × Option Error) × RewriteBody :=
  if b.scanner.err = .read .eof then b.stopScan.readEOF apply size
  else b.stopScan.readFailed apply size b.scanner.err

/-- The loop of `Read` over the tokens, with an empty buffer. -/
def readEvents (apply : Chain) (size : ℕ) (b : RewriteBody) :
    List Bytes → (Bytes × Option Error) × RewriteBody
  | [] => b.readEnd apply size
  | event :: tokens =>
    let (rewritten, ok) := apply (eventMeta b.eventIndex) event
    let b := b.nextEvent tokens
    if ok then
      if rewritten ≠ [] then (b.write rewritten).readBuf size
      else readEvents apply size b tokens
    else (([], some .rewrite), b)

def read (apply : Chain) (size : ℕ) (b : RewriteBody) : (Bytes × Option Error) × RewriteBody :=
  if b.buf ≠ [] then b.readBuf size else b.readEvents apply size b.scanner.tokens

end RewriteBody

/-- Calls of `Read` with buffers that are not empty, until one returns an error, return `out`. -/
inductive Drains (apply : Chain) : RewriteBody → Bytes → Prop
  | done {b b' : RewriteBody} {size : ℕ} {data : Bytes} {err : Error} (hsize : 0 < size)
    (hread : b.read apply size = ((data, some err), b')) : Drains apply b data
  | more {b b' : RewriteBody} {size : ℕ} {data out : Bytes} (hsize : 0 < size)
    (hread : b.read apply size = ((data, none), b')) (hrest : Drains apply b' out) :
    Drains apply b (data ++ out)

/-! ## The bytes that are returned -/

/-- What is returned for the tokens and then, unless the chain fails, for the end. -/
def streamEvents (apply : Chain) (ending : ℕ → Bytes) : ℕ → List Bytes → Bytes
  | i, [] => ending i
  | i, event :: tokens =>
    let (rewritten, ok) := apply (eventMeta i) event
    if ok then written rewritten ++ streamEvents apply ending (i + 1) tokens else []

/-- The rewritten end of the body: nothing if the chain fails there, unless the scanner had failed
before. -/
def rewrittenEnd (apply : Chain) (err : Scanner.Err) (i : ℕ) : Bytes :=
  if err = .read .eof then
    let (rewritten, ok) := apply { phase := .ending, eventIndex := i } []
    if ok then rewritten else []
  else (apply { phase := .ending, eventIndex := i, streamError := some err } []).1

/-- What is returned once `Scan` has returned false for the first time. -/
def streamEnd (apply : Chain) (scanned : Scanned UInt8) (i : ℕ) : Bytes :=
  if rewrittenEnd apply scanned.err i ≠ [] then
    written (rewrittenEnd apply scanned.err i) ++
      streamEvents apply (fun _ => []) i scanned.late
  else []

/-- All bytes that a body is going to return. -/
def RewriteBody.stream (apply : Chain) (b : RewriteBody) : Bytes :=
  b.buf ++ streamEvents apply (if b.ended then fun _ => [] else streamEnd apply b.scanner)
    b.eventIndex b.scanner.tokens

/-- A call of `Read` returns the next bytes, or an error if there are none. -/
def Returns (apply : Chain) (b : RewriteBody) (result : (Bytes × Option Error) × RewriteBody) :
    Prop :=
  match result.1.2 with
  | none => result.1.1 ≠ [] ∧ b.stream apply = result.1.1 ++ result.2.stream apply
  | some _ => result.1.1 = [] ∧ b.stream apply = []

section Read

variable {apply : Chain} {size : ℕ} {b b' : RewriteBody} {rewritten : Bytes}

theorem written_ne_nil (h : rewritten ≠ []) : written rewritten ≠ [] := by
  rw [written, if_pos h]
  exact append_ne_nil_of_left_ne_nil h _

theorem returns_readBuf (hsize : 0 < size) (hbuf : b.buf ≠ []) :
    Returns apply b (b.readBuf size) := by
  unfold RewriteBody.readBuf Returns
  rw [if_neg fun h => hbuf h.1]
  refine ⟨fun hnil => ?_, ?_⟩
  · rcases take_eq_nil_iff.mp hnil with hzero | hempty
    · exact Nat.ne_of_gt hsize hzero
    · exact hbuf hempty
  · show b.buf ++ _ = b.buf.take size ++ (b.buf.drop size ++ _)
    rw [← append_assoc, take_append_drop]

/-- The buffer is filled with what comes next. -/
theorem Returns.of_stream_eq {result : (Bytes × Option Error) × RewriteBody}
    (h : Returns apply b' result) (hstream : b.stream apply = b'.stream apply) :
    Returns apply b result := by
  unfold Returns at h ⊢
  rw [hstream]
  exact h

/-- A rewritten event is read from the buffer. -/
theorem returns_write (hsize : 0 < size) (b' : RewriteBody) (hbuf : b'.buf = [])
    (hne : rewritten ≠ []) (hstream : b.stream apply = written rewritten ++ b'.stream apply) :
    Returns apply b ((b'.write rewritten).readBuf size) := by
  have hwrite : (b'.write rewritten).buf = written rewritten := by
    rw [RewriteBody.write, hbuf, nil_append]
  refine (returns_readBuf hsize ?_).of_stream_eq ?_
  · rw [hwrite]
    exact written_ne_nil hne
  · rw [hstream, RewriteBody.stream, RewriteBody.stream, hwrite, hbuf, nil_append]
    rfl

theorem stream_eq (hbuf : b.buf = []) :
    b.stream apply =
      streamEvents apply (if b.ended then fun _ => [] else streamEnd apply b.scanner) b.eventIndex
        b.scanner.tokens := by
  rw [RewriteBody.stream, hbuf, nil_append]

theorem returns_readBuf_nil (hsize : 0 < size) (hbuf : b'.buf = [])
    (hstream : b.stream apply = []) :
    Returns apply b (b'.readBuf size) := by
  rw [RewriteBody.readBuf, if_pos ⟨hbuf, hsize⟩]
  refine ⟨?_, hstream⟩
  rw [hbuf, take_nil]

theorem stream_setEnded (hbuf : b.buf = []) (err : Option Scanner.Err) :
    (b.stopScan.setEnded err).stream apply =
      streamEvents apply (fun _ => []) b.eventIndex b.scanner.late :=
  stream_eq hbuf

/-- The rewritten end of the body is read, or there is nothing left. -/
theorem returns_end (hsize : 0 < size) (hbuf : b.buf = []) (err : Option Scanner.Err)
    (hstream : b.stream apply = if rewritten ≠ [] then
      written rewritten ++ streamEvents apply (fun _ => []) b.eventIndex b.scanner.late else []) :
    Returns apply b (((b.stopScan.setEnded err).write rewritten).readBuf size) := by
  by_cases hne : rewritten ≠ []
  · rw [if_pos hne, ← stream_setEnded hbuf err] at hstream
    exact returns_write hsize (b.stopScan.setEnded err) hbuf hne hstream
  · rw [if_neg hne] at hstream
    refine returns_readBuf_nil hsize ?_ hstream
    rw [RewriteBody.write, written, if_neg hne, append_nil]
    exact hbuf

theorem returns_readEOF (hsize : 0 < size) (hbuf : b.buf = []) (heof : b.scanner.err = .read .eof)
    (hstream : b.stream apply = if b.ended then [] else streamEnd apply b.scanner b.eventIndex) :
    Returns apply b (b.stopScan.readEOF apply size) := by
  by_cases hended : b.ended = true
  · rw [if_pos hended] at hstream
    rw [RewriteBody.readEOF, if_pos (show b.stopScan.ended = true from hended)]
    exact ⟨rfl, hstream⟩
  · rw [if_neg hended, streamEnd, rewrittenEnd, if_pos heof] at hstream
    rw [RewriteBody.readEOF, if_neg (show ¬b.stopScan.ended = true from hended)]
    rw [show b.stopScan.eventIndex = b.eventIndex from rfl]
    rcases happly : apply { phase := .ending, eventIndex := b.eventIndex } [] with ⟨rewritten, ok⟩
    rw [happly] at hstream
    cases ok with
    | true => exact returns_end hsize hbuf _ hstream
    | false => exact ⟨rfl, hstream⟩

theorem returns_readFailed (hsize : 0 < size) (hbuf : b.buf = [])
    (heof : b.scanner.err ≠ .read .eof)
    (hstream : b.stream apply = if b.ended then [] else streamEnd apply b.scanner b.eventIndex) :
    Returns apply b (b.stopScan.readFailed apply size b.scanner.err) := by
  by_cases hended : b.ended = true
  · rw [if_pos hended] at hstream
    rw [RewriteBody.readFailed, if_pos (show b.stopScan.ended = true from hended)]
    exact ⟨rfl, hstream⟩
  · rw [if_neg hended, streamEnd, rewrittenEnd, if_neg heof] at hstream
    rw [RewriteBody.readFailed, if_neg (show ¬b.stopScan.ended = true from hended)]
    show Returns apply b (if (apply (Meta.mk .ending b.eventIndex (some b.scanner.err)) []).1 ≠ []
      then _ else _)
    by_cases hne : (apply (Meta.mk .ending b.eventIndex (some b.scanner.err)) []).1 ≠ []
    · rw [if_pos hne]
      exact returns_end hsize hbuf _ hstream
    · rw [if_neg hne] at hstream ⊢
      exact ⟨rfl, hstream⟩

theorem returns_readEvents (hsize : 0 < size) (hbuf : b.buf = []) {tokens : List Bytes}
    (htokens : b.scanner.tokens = tokens) : Returns apply b (b.readEvents apply size tokens) := by
  have hstream : b.stream apply = _ := stream_eq hbuf
  induction tokens generalizing b with
  | nil =>
    have hend : b.stream apply =
        if b.ended then [] else streamEnd apply b.scanner b.eventIndex := by
      rw [hstream, htokens, streamEvents]
      split_ifs
      · rfl
      · rfl
    rw [RewriteBody.readEvents, RewriteBody.readEnd]
    by_cases heof : b.scanner.err = .read .eof
    · rw [if_pos heof]
      exact returns_readEOF hsize hbuf heof hend
    · rw [if_neg heof]
      exact returns_readFailed hsize hbuf heof hend
  | cons event tokens ih =>
    have hnext : (b.nextEvent tokens).stream apply = _ := stream_eq hbuf
    rw [htokens, streamEvents] at hstream
    rw [RewriteBody.readEvents]
    rcases happly : apply (eventMeta b.eventIndex) event with ⟨rewritten, ok⟩
    rw [happly] at hstream
    cases ok with
    | false => exact ⟨rfl, hstream⟩
    | true =>
      show Returns apply b (if rewritten ≠ [] then _ else _)
      by_cases hne : rewritten ≠ []
      · rw [if_pos hne]
        refine returns_write hsize (b.nextEvent tokens) hbuf hne ?_
        rw [hstream, hnext]
        rfl
      · -- an event that is rewritten to nothing: the loop goes on
        rw [if_neg hne]
        refine (ih (b := b.nextEvent tokens) hbuf rfl hnext).of_stream_eq ?_
        rw [hstream, hnext]
        show written rewritten ++ _ = _
        rw [written, if_neg hne]
        rfl

theorem returns_read (apply : Chain) (hsize : 0 < size) (b : RewriteBody) :
    Returns apply b (b.read apply size) := by
  unfold RewriteBody.read
  split_ifs with hbuf
  · exact returns_readBuf hsize hbuf
  · exact returns_readEvents hsize (not_not.mp hbuf) rfl

/-- Whatever buffers the calls of `Read` have, they return the bytes of the stream, and they come to
an end. -/
theorem drains_iff {out : Bytes} : Drains apply b out ↔ out = b.stream apply := by
  constructor
  · intro h
    induction h with
    | @done b _ _ _ _ hsize hread =>
      have hreturns := returns_read apply hsize b
      rw [hread] at hreturns
      exact hreturns.1.trans hreturns.2.symm
    | @more b _ _ _ _ hsize hread _ ih =>
      have hreturns := returns_read apply hsize b
      rw [hread] at hreturns
      rw [ih]
      exact hreturns.2.symm
  · intro hout
    subst hout
    -- every call without an error makes what is left shorter
    generalize hn : (b.stream apply).length = n
    induction n using Nat.strong_induction_on generalizing b with
    | _ n ih =>
      have hreturns := returns_read apply Nat.one_pos b
      rcases hread : b.read apply 1 with ⟨⟨data, err⟩, b'⟩
      rw [hread] at hreturns
      cases err with
      | none =>
        obtain ⟨hdata, hstream⟩ : data ≠ [] ∧ b.stream apply = data ++ b'.stream apply := hreturns
        have hshorter : (b'.stream apply).length < n := by
          have hpos : 0 < data.length := length_pos_of_ne_nil hdata
          rw [← hn, hstream, length_append]
          omega
        rw [hstream]
        exact .more Nat.one_pos hread (ih _ hshorter rfl)
      | some err =>
        obtain ⟨hdata, hstream⟩ := hreturns
        rw [hstream, ← show data = [] from hdata]
        exact .done Nat.one_pos hread

end Read

/-! ## Events that do not depend on the reads -/

/-- At the start of every event, the delimiter that is preferred with the whole rest of the body in
view is also the first one that is complete. What is left of the body behind the last delimiter does
not have the size of a full buffer, which is too long or not depending on when the end comes. -/
inductive Uniform : Bytes → Prop
  | last {r : Bytes} (hnone : findFirst delims r = none) (hlen : r.length ≠ maxTokenSize) :
    Uniform r
  | event {r tok rest : Bytes} (hfind : findFirst delims r = some (tok, rest))
    (hfirst : ∀ p, p <+: r → p.length < r.length - rest.length → findFirst delims p = none)
    (hrest : Uniform rest) : Uniform r

/-- However the body is cut into reads, and whatever the chain is, the calls of `Read` return the
same bytes. -/
def Independent (body : Bytes) (last : ReadError) : Prop :=
  ∀ apply : Chain, ∃ out, ∀ cuts, cuts.length = body.length →
    ∀ out', Drains apply (newRewriteBody body cuts last) out' ↔ out' = out

theorem delims_ne_nil : ∀ delim ∈ delims, delim ≠ [] := by decide

/-- No delimiter is the start of another one. -/
theorem delims_prefixFree : ∀ d ∈ delims, ∀ d' ∈ delims, d <+: d' → d = d' := by decide

variable {r body : Bytes} {last : ReadError} {cuts : List Bool}

section Scan

variable {data tok rest : Bytes} {eof : Bool}

theorem scanSSEEvents_of_some (h : findFirst delims data = some (tok, rest)) :
    scanSSEEvents data eof = .token tok rest := by
  rw [scanSSEEvents, h]

theorem scanSSEEvents_of_none (h : findFirst delims data = none) :
    scanSSEEvents data false = .more := by
  rw [scanSSEEvents, h]
  exact if_neg fun hand => Bool.false_ne_true hand.1

theorem scanSSEEvents_end (h : findFirst delims data = none) (hne : data ≠ []) :
    scanSSEEvents data true = .final data := by
  rw [scanSSEEvents, h]
  exact if_pos ⟨rfl, hne⟩

theorem advances_scanSSEEvents : Advances scanSSEEvents := by
  intro s eof tok rest h
  unfold scanSSEEvents at h
  cases hfind : findFirst delims s with
  | none =>
    rw [hfind] at h
    split_ifs at h
  | some p =>
    rw [hfind] at h
    cases h
    exact length_lt_of_findFirst delims_ne_nil hfind

/-- Without a delimiter in it, the rest of the body is the last event or too long. -/
theorem settles_last (hnone : findFirst delims r = none) (hlen : r.length ≠ maxTokenSize)
    (last : ReadError) : ∃ scanned, Settles scanSSEEvents maxTokenSize last r scanned := by
  have hmore : ∀ p, p <+: r → scanSSEEvents p false = .more := fun p hp =>
    scanSSEEvents_of_none (findFirst_eq_none_of_isPrefix delims_ne_nil hnone hp)
  by_cases hnil : r = []
  · subst hnil
    exact ⟨_, .nil rfl rfl⟩
  · rcases Nat.lt_or_ge r.length maxTokenSize with hlt | hge
    · exact ⟨_, .last hlt hmore (scanSSEEvents_end hnone hnil)⟩
    · exact ⟨_, .tooLong (Nat.lt_of_le_of_ne hge hlen.symm) fun p hp _ => hmore p hp⟩

variable {scanned : Scanned UInt8}

/-- The first event, if its delimiter is the first that is complete and fits the buffer. -/
theorem settles_token (hfind : findFirst delims r = some (tok, rest))
    (hfirst : ∀ p, p <+: r → p.length < r.length - rest.length → findFirst delims p = none)
    (hfit : r.length - rest.length ≤ maxTokenSize)
    (hrest : Settles scanSSEEvents maxTokenSize last rest scanned) :
    Settles scanSSEEvents maxTokenSize last r (scanned.after [tok]) := by
  have hdrop : r.drop (r.length - rest.length) = rest := by
    have hself := findFirst_of_isPrefix delims_ne_nil hfind (prefix_refl r) (Nat.sub_le _ _)
    rw [hfind, Option.some.injEq, Prod.mk.injEq] at hself
    exact hself.2.symm
  refine .token hfit (Nat.sub_le _ _)
    (fun p hp hshort => scanSSEEvents_of_none (hfirst p hp hshort))
    (fun p eof hp hle => ?_) (hdrop.symm ▸ hrest)
  exact scanSSEEvents_of_some (findFirst_of_isPrefix delims_ne_nil hfind hp hle)

theorem Uniform.settles (h : Uniform body) (last : ReadError) :
    ∃ scanned, Settles scanSSEEvents maxTokenSize last body scanned := by
  induction h with
  | last hnone hlen => exact settles_last hnone hlen last
  | @event r tok rest hfind hfirst _ ih =>
    obtain ⟨scanned, hrest⟩ := ih
    rcases Nat.lt_or_ge maxTokenSize (r.length - rest.length) with hlong | hfit
    · -- the buffer is full before the delimiter is complete
      exact ⟨_, .tooLong (by omega) fun p hp hle =>
        scanSSEEvents_of_none (hfirst p hp (Nat.lt_of_le_of_lt hle hlong))⟩
    · exact ⟨_, settles_token hfind hfirst hfit hrest⟩

/-- The scanner returns the same for all reads. -/
theorem newRewriteBody_scanner (h : Settles scanSSEEvents maxTokenSize last body scanned)
    (hcuts : cuts.length = body.length) :
    newRewriteBody body cuts last = { scanner := scanned } := by
  have hbody : (body.zip cuts).map Prod.fst = body := map_fst_zip (Nat.le_of_eq hcuts.symm)
  rw [newRewriteBody, scanAll_eq_of_settles advances_scanSSEEvents (by decide) (by decide)
    (hbody.symm ▸ h)]

theorem Uniform.independent (h : Uniform body) (last : ReadError) : Independent body last := by
  obtain ⟨scanned, hsettles⟩ := h.settles last
  intro apply
  refine ⟨RewriteBody.stream apply { scanner := scanned }, fun cuts hcuts out' => ?_⟩
  rw [newRewriteBody_scanner hsettles hcuts]
  exact drains_iff

end Scan

/-! ## Events that depend on the reads -/

/-- A chain that keeps one event and drops all others. -/
def select (i : ℕ) (event : Bytes) : Chain := fun md body =>
  (if md.phase ≠ .ending ∧ md.eventIndex = i ∧ body = event then [49] else [], true)

section Select

variable {i : ℕ} {event : Bytes}

theorem select_event (n : ℕ) (body : Bytes) :
    select i event (eventMeta n) body = (if n = i ∧ body = event then [49] else [], true) := by
  have hphase : (eventMeta n).phase ≠ .ending := by
    unfold eventMeta
    split_ifs <;> exact nofun
  unfold select
  congr 1
  exact if_congr (and_iff_right hphase) rfl rfl

theorem streamEvents_select {ending : ℕ → Bytes} (hending : ∀ n, ending n = []) (n : ℕ)
    (tokens : List Bytes) :
    streamEvents (select i event) ending n tokens =
      if n ≤ i ∧ tokens[i - n]? = some event then [49, 10, 10] else [] := by
  induction tokens generalizing n with
  | nil =>
    rw [streamEvents, hending, getElem?_nil, if_neg (fun h => nomatch h.2)]
  | cons body tokens ih =>
    rw [streamEvents, select_event]
    dsimp only
    rw [if_pos rfl, ih]
    rcases Nat.lt_trichotomy n i with hlt | heq | hgt
    · have hsub : i - n = i - (n + 1) + 1 := by omega
      rw [if_neg (fun h => Nat.ne_of_lt hlt h.1), hsub, getElem?_cons_succ]
      exact if_congr (and_congr_left' (by omega)) rfl rfl
    · subst heq
      have hlater : ¬(n + 1 ≤ n ∧ tokens[n - (n + 1)]? = some event) :=
        fun h => Nat.not_succ_le_self n h.1
      rw [Nat.sub_self, getElem?_cons_zero, if_neg hlater, append_nil]
      by_cases hbody : body = event
      · rw [if_pos ⟨rfl, hbody⟩, if_pos ⟨Nat.le_refl n, congrArg some hbody⟩]
        rfl
      · rw [if_neg (fun h => hbody h.2), if_neg (fun h => hbody (Option.some.inj h.2))]
        rfl
    · rw [if_neg (fun h => Nat.ne_of_gt hgt h.1), if_neg (fun h => by omega),
        if_neg (fun h => by omega)]
      rfl

theorem stream_select (scanned : Scanned UInt8) :
    RewriteBody.stream (select i event) { scanner := scanned } =
      if scanned.tokens[i]? = some event then [49, 10, 10] else [] := by
  have hending : ∀ n, streamEnd (select i event) scanned n = [] := by
    intro n
    have hnone : rewrittenEnd (select i event) scanned.err n = [] := by
      unfold rewrittenEnd select
      split_ifs with _ hphase hphase
      · exact absurd rfl hphase.1
      · rfl
      · exact absurd rfl hphase.1
      · rfl
    rw [streamEnd, if_neg (not_not.mpr hnone)]
  show streamEvents (select i event) (streamEnd _ scanned) 0 scanned.tokens = _
  rw [streamEvents_select hending, Nat.sub_zero]
  exact if_congr (and_iff_right (Nat.zero_le i)) rfl rfl

end Select

/-- A body that is rewritten the same way for two ways of cutting has the same events. -/
theorem Independent.tokens_eq (h : Independent body last) {cuts' : List Bool}
    (hcuts : cuts.length = body.length) (hcuts' : cuts'.length = body.length) :
    (newRewriteBody body cuts last).scanner.tokens =
      (newRewriteBody body cuts' last).scanner.tokens := by
  apply ext_getElem?
  intro i
  apply Option.ext
  intro event
  obtain ⟨out, hout⟩ := h (select i event)
  have hone := (hout cuts hcuts _).mp (drains_iff.mpr rfl)
  have htwo := (hout cuts' hcuts' _).mp (drains_iff.mpr rfl)
  have hsame := hone.trans htwo.symm
  unfold newRewriteBody at hsame ⊢
  rw [stream_select, stream_select] at hsame
  constructor
  · intro hmem
    by_contra hnot
    rw [if_pos hmem, if_neg hnot] at hsame
    cases hsame
  · intro hmem
    by_contra hnot
    rw [if_neg hnot, if_pos hmem] at hsame
    cases hsame

section Short

variable {last : ReadError}

theorem zip_map_const (body : Bytes) (cut : Bool) :
    body.zip (body.map fun _ => cut) = body.map (·, cut) := by
  induction body with
  | nil => rfl
  | cons c body ih => rw [map_cons, zip_cons_cons, ih, map_cons]

/-- Reads of one byte give the events with the first delimiters that are complete, and one read
gives those that are preferred. -/
theorem uniform_of_tokens_eq {b : Buffer UInt8} (hnone : findFirst delims b.content = none)
    (hsize : b.start + b.content.length + body.length < b.size) (hmax : b.size ≤ maxTokenSize)
    (h : (scanFrom scanSSEEvents maxTokenSize last b (body.map (·, true))).tokens =
      (drain scanSSEEvents true (b.content ++ body)).1) : Uniform (b.content ++ body) := by
  induction body generalizing b with
  | nil =>
    rw [append_nil]
    exact .last hnone (by omega)
  | cons c body ih =>
    rw [length_cons] at hsize
    obtain ⟨start, hstart, hscan⟩ := scanFrom_cut_cons advances_scanSSEEvents maxTokenSize last c
      (body.map (·, true)) (b := b) (by omega)
    rw [map_cons, hscan] at h
    have hsplit : b.content ++ c :: body = b.content ++ [c] ++ body := by
      rw [append_assoc, singleton_append]
    cases hfind : findFirst delims (b.content ++ [c]) with
    | none =>
      -- no delimiter is complete yet: the byte joins the buffer
      rw [drain_of_more (scanSSEEvents_of_none hfind)] at h hstart
      rw [hsplit] at h ⊢
      exact ih (b := { start, content := b.content ++ [c], size := b.size }) hfind
        (by dsimp only at hstart ⊢; omega) hmax h
    | some p =>
      obtain ⟨tok, rest⟩ := p
      obtain rfl : rest = [] := findFirst_concat delims_ne_nil hnone hfind
      have hdrain : drain scanSSEEvents false (b.content ++ [c]) = ([tok], []) := by
        rw [drain_of_token advances_scanSSEEvents (scanSSEEvents_of_some hfind), drain_of_more rfl]
      rw [hdrain] at h hstart
      -- with all of the body in view there is a delimiter as well
      cases hall : findFirst delims (b.content ++ c :: body) with
      | none =>
        have hprefix : b.content ++ [c] <+: b.content ++ c :: body :=
          hsplit ▸ prefix_append _ body
        rw [findFirst_eq_none_of_isPrefix delims_ne_nil hall hprefix] at hfind
        cases hfind
      | some p =>
        obtain ⟨tok', rest'⟩ := p
        rw [drain_of_token advances_scanSSEEvents (scanSSEEvents_of_some hall)] at h
        obtain ⟨rfl, htokens⟩ := List.cons.inj h
        obtain ⟨d, hd, hone⟩ := findFirst_sound hfind
        obtain ⟨d', hd', htwo⟩ := findFirst_sound hall
        rw [append_nil] at hone
        -- both have the same text before them, so they are the same delimiter
        obtain rfl : body = rest' := by
          rw [hsplit, hone] at htwo
          exact behind_eq_of_prefixFree delims_prefixFree hd hd' htwo
        refine .event hall (fun p hp hlen => ?_) ?_
        · refine findFirst_eq_none_of_isPrefix delims_ne_nil hnone ?_
          refine prefix_of_prefix_length_le hp (prefix_append _ _) ?_
          rw [length_append, length_cons] at hlen
          omega
        · exact ih (b := { start, content := [], size := b.size }) rfl
            (by dsimp only [length_nil] at hstart ⊢; omega) hmax htokens

/-- A body that fits the buffer and is rewritten the same way for all reads. -/
theorem Independent.uniform (hshort : body.length < bufferSize) (h : Independent body last) :
    Uniform body := by
  have hcuts : ∀ cut : Bool, (body.map fun _ => cut).length = body.length :=
    fun _ => length_map _
  have htokens := h.tokens_eq (hcuts true) (hcuts false)
  unfold newRewriteBody scanAll at htokens
  rw [zip_map_const, zip_map_const, scanFrom_uncut] at htokens
  · exact uniform_of_tokens_eq (b := { size := bufferSize }) rfl
      (by dsimp only [length_nil]; omega) (by decide) htokens
  · dsimp only [length_nil]
    omega

end Short

/-- A body whose delimiters are the same in every view is rewritten the same way however it is cut
into reads, for every chain of rewrites. The converse holds for bodies that fit the scanner's
buffer: others are never in view as a whole. -/
theorem independent_of_chunks (body : Bytes) :
    (Uniform body → ∀ last, Independent body last) ∧
      (body.length < bufferSize → (∀ last, Independent body last) → Uniform body) :=
  ⟨fun h last => h.independent last, fun hshort h => (h .eof).uniform hshort⟩

/-- The first delimiter that is complete is the preferred one, checked on the text before its last
byte. -/
theorem Uniform.of_take {tok rest : Bytes} (hfind : findFirst delims r = some (tok, rest))
    (hfirst : findFirst delims (r.take (r.length - rest.length - 1)) = none)
    (hrest : Uniform rest) :
    Uniform r := by
  refine .event hfind (fun p hp hlen => ?_) hrest
  refine findFirst_eq_none_of_isPrefix delims_ne_nil hfirst ?_
  refine prefix_of_prefix_length_le hp ( take_prefix _ r) ?_
  rw [length_take]
  omega

theorem independent_of_chunks_plain :
    Uniform (bytes "a\n\nb") ∧ ∀ last, Independent (bytes "a\n\nb") last := by
  have huniform : Uniform (bytes "a\n\nb") :=
    .of_take (show findFirst delims (bytes "a\n\nb") = some ([97], [98]) by decide) (by decide)
      (.last (by decide) (by decide))
  exact ⟨huniform, (independent_of_chunks _).1 huniform⟩

/-- Two events with different delimiters. -/
def mixed : Bytes := bytes "a\r\n\r\nb\n\n"

/-- In one read, the second delimiter is preferred and the body is one event; with a read that ends
behind the first delimiter it is two. The chain changes nothing. -/
theorem chunks_change_events :
    Drains (fun _ body => (body, true)) (newRewriteBody mixed (mixed.map fun _ => false) .eof)
        (bytes "a\r\n\r\nb\n\n") ∧
      Drains (fun _ body => (body, true))
        (newRewriteBody mixed [false, false, false, false, true, false, false, false] .eof)
        (bytes "a\n\nb\n\n") :=
  ⟨drains_iff.mpr (by decide +kernel), drains_iff.mpr (by decide +kernel)⟩

end Sniffer.EventStream

import Gost.Lib.Bytes
import Gost.Lib.TransitionSystem

/-!
# Rate-limited reads

`limitConn.Read` and `readWriter.Read` of `x/limiter/traffic/wrapper` have the same body. It asks
the traffic limiter on every call, parks the bytes over the allowance in `rbuf`, and takes the next
bytes from there. Without a limit it goes straight to the wrapped connection, whatever is parked.

The underlying stream, the sizes of the buffers, how much each read of the wrapped connection
delivers and the limiters are arbitrary. `read_prefix_iff`: the bytes returned are a prefix of every
stream exactly if no call without a limit receives bytes while some are parked.
-/

namespace Traffic

open List Option TransitionSystem

variable {α β ε : Type}

/-- `traffic.Limiter`, as far as reads use it. -/
structure Limiter where
  limit : ℤ
  wait : ℕ → ℕ
  wait_le : ∀ n, wait n ≤ n

/-- The wrapper. -/
structure LimitConn (α : Type) where
  -- what the wrapped connection has not delivered yet
  conn : List α
  rbuf : List α := []

/-- A `Read` call and what it meets. -/
structure ReadCall (ε : Type) where
  -- `len(b)`
  size : ℕ
  -- the answer of `In`
  limiter : Option Limiter
  -- the bytes and the error of the wrapped connection's `Read`, if it is called
  ready : ℕ
  err : Option ε := none

/-- The limiter of a call with a limit. -/
def ReadCall.limited (call : ReadCall ε) : Option Limiter :=
  call.limiter.filter fun limiter => 0 < limiter.limit

namespace LimitConn

/-- `Conn.Read(b)`: the bytes read. -/
def received (c : LimitConn α) (call : ReadCall ε) : List α :=
  c.conn.take (min call.ready call.size)

/-- `Conn.Read(b)`: the connection afterwards. -/
def receive (c : LimitConn α) (call : ReadCall ε) : LimitConn α :=
  { c with conn := c.conn.drop (min call.ready call.size) }

/-- The common body of `limitConn.Read` and `readWriter.Read`: the wrapper afterwards, `b[:n]` and
`err`. -/
def readWith (c : LimitConn α) (call : ReadCall ε) : LimitConn α × List α × Option ε :=
  match call.limited with
  | none => (c.receive call, c.received call, call.err)
  | some limiter =>
    if 0 < c.rbuf.length then
      let burst := if c.rbuf.length < call.size then c.rbuf.length else call.size
      let lim := limiter.wait burst
      ({ c with rbuf := c.rbuf.drop lim }, c.rbuf.take lim, none)
    else
      match call.err with
      | some err => (c.receive call, c.received call, some err)
      | none =>
        let b := c.received call
        let n := limiter.wait b.length
        ({ c.receive call with rbuf := c.rbuf ++ b.drop n }, b.take n, none)

/-- The same connection with other bytes. -/
def map (f : α → β) (c : LimitConn α) : LimitConn β where
  conn := c.conn.map f
  rbuf := c.rbuf.map f

end LimitConn

/-- The two wrappers. -/
inductive Wrapper
  | limitConn
  | readWriter
deriving DecidableEq, Repr

/-- `Read`. -/
def Wrapper.read : Wrapper → LimitConn α → ReadCall ε → LimitConn α × List α × Option ε
  | .limitConn => LimitConn.readWith
  | .readWriter => LimitConn.readWith

theorem Wrapper.read_eq (w : Wrapper) (c : LimitConn α) (call : ReadCall ε) :
    w.read c call = c.readWith call := by
  cases w <;> rfl

/-- A wrapper and the bytes it has returned. -/
structure Reads (α : Type) where
  conn : LimitConn α
  out : List α := []

namespace Reads

/-- Nothing is read yet. -/
def start (stream : List α) : Reads α := { conn := { conn := stream } }

def step (w : Wrapper) (s : Reads α) (call : ReadCall ε) : Option (Reads α) :=
  let (conn, b, _) := w.read s.conn call
  some { conn, out := s.out ++ b }

/-- The bytes returned by a sequence of calls. -/
def readAll (w : Wrapper) (stream : List α) (calls : List (ReadCall ε)) : List α :=
  ((run (step w) (start stream) calls).map (·.out)).getD []

/-- A call without a limit receives nothing while bytes are parked. -/
def Drained (s : Reads α) (call : ReadCall ε) : Prop :=
  call.limited = none → s.conn.rbuf ≠ [] → s.conn.received call = []

end Reads

/-! ## One call -/

/-- What a call does: it passes bytes through, hands out parked bytes, or parks some. -/
inductive ReadCase (s : Reads α) (call : ReadCall ε) : Reads α → Prop
  | through (h : call.limited = none ∨ s.conn.rbuf = []) :
    ReadCase s call ⟨s.conn.receive call, s.out ++ s.conn.received call⟩
  | parked (n : ℕ) (hlimited : call.limited ≠ none) :
    ReadCase s call ⟨{ s.conn with rbuf := s.conn.rbuf.drop n }, s.out ++ s.conn.rbuf.take n⟩
  | split (n : ℕ) (hlimited : call.limited ≠ none) (hrbuf : s.conn.rbuf = []) :
    ReadCase s call
      ⟨{ s.conn.receive call with rbuf := (s.conn.received call).drop n },
        s.out ++ (s.conn.received call).take n⟩

theorem Reads.step_cases {w : Wrapper} {s s' : Reads α} {call : ReadCall ε}
    (h : Reads.step w s call = some s') : ReadCase s call s' := by
  unfold Reads.step at h
  rw [w.read_eq, LimitConn.readWith] at h
  cases hlimited : call.limited with
  | none =>
    rw [hlimited] at h
    exact some.inj h ▸ .through (.inl hlimited)
  | some limiter =>
    rw [hlimited] at h
    dsimp only at h
    have hsome : call.limited ≠ none := by simp [hlimited]
    by_cases hrbuf : 0 < s.conn.rbuf.length
    · rw [if_pos hrbuf] at h
      exact some.inj h ▸ .parked _ hsome
    · rw [if_neg hrbuf] at h
      have hnil : s.conn.rbuf = [] := eq_nil_of_length_eq_zero (by omega)
      cases herr : call.err with
      | some err =>
        rw [herr] at h
        exact some.inj h ▸ .through (.inr hnil)
      | none =>
        rw [herr, hnil] at h
        exact some.inj h ▸ .split _ hsome hnil

namespace Reads

variable {w : Wrapper} {s s' : Reads α} {call : ReadCall ε} {stream : List α}

/-- The bytes returned, those parked and those to come make up the stream. -/
def InOrder (stream : List α) (s : Reads α) : Prop := s.out ++ s.conn.rbuf ++ s.conn.conn = stream

theorem inOrder_start (stream : List α) : (start stream).InOrder stream := rfl

theorem InOrder.isPrefix (h : s.InOrder stream) : s.out <+: stream :=
  ⟨s.conn.rbuf ++ s.conn.conn, by rw [← append_assoc, h]⟩

theorem received_append_receive (c : LimitConn α) (call : ReadCall ε) :
    c.received call ++ (c.receive call).conn = c.conn :=
  take_append_drop _ _

theorem InOrder.step (hs : s.InOrder stream) (hguard : Drained s call)
    (h : Reads.step w s call = some s') : s'.InOrder stream := by
  cases step_cases h with
  | through hthrough =>
    by_cases hrbuf : s.conn.rbuf = []
    · show s.out ++ s.conn.received call ++ s.conn.rbuf ++ (s.conn.receive call).conn = stream
      rw [← hs, hrbuf, append_nil, append_nil, append_assoc, received_append_receive]
    · -- nothing was received, so the connection is as it was
      have hnone := hguard (hthrough.resolve_right hrbuf) hrbuf
      have hconn := received_append_receive s.conn call
      rw [hnone, nil_append] at hconn
      show s.out ++ s.conn.received call ++ s.conn.rbuf ++ (s.conn.receive call).conn = stream
      rw [hnone, append_nil, hconn, hs]
  | parked n =>
    show s.out ++ s.conn.rbuf.take n ++ s.conn.rbuf.drop n ++ s.conn.conn = stream
    rw [append_assoc s.out, take_append_drop, hs]
  | split n _ hrbuf =>
    show s.out ++ (s.conn.received call).take n ++ (s.conn.received call).drop n ++
      (s.conn.receive call).conn = stream
    rw [append_assoc s.out, take_append_drop, append_assoc,
      received_append_receive, ← hs, hrbuf, append_nil]

theorem out_isPrefix (h : Reads.step w s call = some s') : s.out <+: s'.out := by
  cases step_cases h with
  | through _ | parked n _ | split n _ _ => exact prefix_append _ _

/-! ## Positions in the stream

Reads do not look at the bytes, so a run over the positions `0, 1, 2, …` says what a run over a
stream does.
-/

/-- The same state with other bytes. -/
def map (f : α → β) (s : Reads α) : Reads β where
  conn := s.conn.map f
  out := s.out.map f

theorem receive_map (f : α → β) (c : LimitConn α) (call : ReadCall ε) :
    (c.map f).receive call = (c.receive call).map f := by
  simp only [LimitConn.map, LimitConn.receive, map_drop]

theorem received_map (f : α → β) (c : LimitConn α) (call : ReadCall ε) :
    (c.map f).received call = (c.received call).map f :=
  map_take.symm

theorem readWith_map (f : α → β) (c : LimitConn α) (call : ReadCall ε) :
    (c.map f).readWith call =
      ((c.readWith call).1.map f, (c.readWith call).2.1.map f, (c.readWith call).2.2) := by
  have hlen : (c.map f).rbuf.length = c.rbuf.length := length_map _
  unfold LimitConn.readWith
  cases call.limited with
  | none => simp only [receive_map, received_map]
  | some limiter =>
    simp only [receive_map, received_map, hlen]
    by_cases hrbuf : 0 < c.rbuf.length
    · rw [if_pos hrbuf, if_pos hrbuf]
      simp only [LimitConn.map, map_drop, map_take]
    · rw [if_neg hrbuf, if_neg hrbuf]
      cases call.err with
      | some err => rfl
      | none =>
        simp only [LimitConn.map, length_map, map_append, map_drop, map_take]

theorem step_map (f : α → β) (w : Wrapper) (s : Reads α) (call : ReadCall ε) :
    step w (s.map f) call = (step w s call).map (map f) := by
  simp only [step, Wrapper.read_eq, map, readWith_map, map_some, map_append]

theorem run_map (f : α → β) (w : Wrapper) (s : Reads α) (calls : List (ReadCall ε)) :
    run (step w) (s.map f) calls = (run (step w) s calls).map (map f) := by
  induction calls generalizing s with
  | nil => rfl
  | cons call calls ih =>
    show (step w (s.map f) call).bind _ = ((step w s call).bind _).map _
    rw [step_map, bind_map, map_bind]
    exact congrArg _ (funext fun s' => ih s')

/-- Reads always return. -/
theorem exists_run (w : Wrapper) (s : Reads α) (calls : List (ReadCall ε)) :
    ∃ s', run (step w) s calls = some s' := by
  induction calls generalizing s with
  | nil => exact ⟨s, rfl⟩
  | cons call calls ih => exact ih _

theorem readAll_map (f : α → β) (w : Wrapper) (stream : List α) (calls : List (ReadCall ε)) :
    readAll w (stream.map f) calls = (readAll w stream calls).map f := by
  have hrun := run_map f w (start stream) calls
  unfold readAll
  rw [show start (stream.map f) = (start stream).map f from rfl, hrun]
  cases run (step w) (start stream) calls with
  | none => rfl
  | some s => rfl

/-- A position out of order shows in some stream of two different bytes. -/
theorem isPrefix_of_forall_map {l : List ℕ} {n : ℕ}
    (h : ∀ f : ℕ → UInt8, l.map f <+: (List.range n).map f) : l <+: List.range n := by
  have hlen : l.length ≤ n := by simpa using (h fun _ => 0).length_le
  have hl : l = (List.range n).take l.length := by
    refine ext_getElem (by simpa using hlen) fun k hk _ => ?_
    rw [getElem_take, getElem_range]
    -- the stream that is 1 at the `k`-th position of `l` only
    have hget := (h fun p => if p = l[k] then 1 else 0).getElem (by simpa using hk)
    by_contra hne
    simp [Ne.symm hne] at hget
  rw [hl]
  exact take_prefix _ _

theorem eq_length_of_range_eq {n x : ℕ} {front rest : List ℕ}
    (h : List.range n = front ++ x :: rest) : x = front.length := by
  have hget : (List.range n)[front.length]? = some x := by
    rw [h, getElem?_append_right le_rfl, Nat.sub_self]
    rfl
  rw [getElem?_eq_some_iff] at hget
  obtain ⟨_, hget⟩ := hget
  rw [← hget, getElem_range]

/-- A call without a limit that receives bytes while some are parked returns them too early. -/
theorem InOrder.not_isPrefix {n : ℕ} {s s' : Reads ℕ} (hs : s.InOrder (List.range n))
    (hguard : ¬Drained s call) (h : Reads.step w s call = some s') :
    ¬s'.out <+: List.range n := by
  simp only [Drained, Classical.not_imp] at hguard
  obtain ⟨hunlimited, hrbuf, hreceived⟩ := hguard
  cases step_cases h with
  | parked _ hlimited | split _ hlimited _ => exact absurd hunlimited hlimited
  | through _ =>
    rintro ⟨rest, hout⟩
    obtain ⟨x, b, hb⟩ := exists_cons_of_ne_nil hreceived
    have hconn : s.conn.conn = x :: (b ++ (s.conn.receive call).conn) := by
      rw [← received_append_receive s.conn call, hb]
      rfl
    -- by what was returned, `x` is the next position; by the stream it comes after the parked ones
    have hreturned : List.range n = s.out ++ x :: (b ++ rest) := by
      rw [← hout]
      rw [hb, append_assoc, cons_append]
    have hstream : List.range n = s.out ++ s.conn.rbuf ++ x :: (b ++ (s.conn.receive call).conn) :=
      hs.symm.trans (congrArg _ hconn)
    have hlater := eq_length_of_range_eq hstream
    rw [length_append, eq_length_of_range_eq hreturned] at hlater
    exact hrbuf (eq_nil_of_length_eq_zero (by omega))

end Reads

open Reads in
/-- The bytes that a sequence of calls returns are a prefix of the stream, for every stream of
length `n`, exactly if no call without a limit receives bytes while some are parked. -/
theorem read_prefix_iff (w : Wrapper) (n : ℕ) (calls : List (ReadCall ε)) :
    (∀ stream : Bytes, stream.length = n → readAll w stream calls <+: stream) ↔
      Along (step w) Drained (start (List.range n)) calls := by
  obtain ⟨s, hrun⟩ := exists_run w (start (List.range n)) calls
  have hall : readAll w (List.range n) calls = s.out := by
    rw [readAll, hrun]
    rfl
  constructor
  · intro h
    have hprefix : s.out <+: List.range n := by
      refine isPrefix_of_forall_map fun f => ?_
      rw [← hall, ← readAll_map]
      exact h _ (by simp)
    refine (along_or_trapped (fun _ _ _ hs hguard => hs.step hguard)
      (fun _ _ _ hs hguard => hs.not_isPrefix hguard) ?_ (inOrder_start _) hrun).resolve_right
      (not_not.mpr hprefix)
    exact fun s _ s' hs hstep hs' => hs ((out_isPrefix hstep).trans hs')
  · rintro halong stream rfl
    have hs : s.InOrder (List.range stream.length) :=
      run_induction_along (fun _ _ _ hs hguard => hs.step hguard) (inOrder_start _) halong hrun
    have hstream : (List.range stream.length).map (fun i => stream.getD i 0) = stream := by
      refine ext_getElem (by simp) fun i hi _ => ?_
      rw [getElem_map, getElem_range, getD_eq_getElem?_getD, getElem?_eq_getElem, getD_some]
    have hout : readAll w stream calls = s.out.map fun i => stream.getD i 0 := by
      conv_lhs => rw [← hstream]
      rw [readAll_map, hall]
    rw [hout]
    conv_rhs => rw [← hstream]
    exact hs.isPrefix.map _

/-- An allowance of one byte, at a limit. -/
def oneByte : Limiter where
  limit := 100
  wait n := min n 1
  wait_le n := Nat.min_le_left n 1

/-- Three bytes arrive at a limit of which one is allowed, then the limit is taken away. -/
def liftedLimit : List (ReadCall Unit) :=
  [{ size := 4, limiter := some oneByte, ready := 3 }, { size := 4, limiter := none, ready := 3 }]

/-- The bytes 2 and 3 are parked when the limit goes away, and are skipped. -/
theorem read_skips_parked :
    Reads.readAll .limitConn [1, 2, 3, 4, 5] liftedLimit = ([1, 4, 5] : Bytes) ∧
      Reads.readAll .readWriter [1, 2, 3, 4, 5] liftedLimit = ([1, 4, 5] : Bytes) ∧
        ¬([1, 4, 5] : Bytes) <+: [1, 2, 3, 4, 5] := by
  decide

end Traffic

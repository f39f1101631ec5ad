import Gost.Lib.LengthPrefix
import Gost.Lib.TransitionSystem
import Mathlib.Data.List.Perm.Basic

/-!
# Concurrent datagrams over a stream

`Write` of the three `udpConn`s writes the length and the packet in two writes to the stream, unless
there is a header in `wbuf`, which goes out with the first packet in one write. Only the one of the
relay connector holds a lock meanwhile. A step is one write to the stream.
-/

namespace Framing

open Bytes LengthPrefix List Option TransitionSystem

inductive Writer
  | tunnelConnector
  | relayConnector
  | relayHandler
deriving DecidableEq, Repr

/-- The stream, and the calls of `Write` on one connection. -/
structure Calls where
  wbuf : Bytes
  stream : Bytes
  -- the packets of the calls that have not begun
  todo : List Bytes
  -- the packets whose length is written
  half : List Bytes
  -- the packets that are written or half written, in the order of their lengths
  order : List Bytes
deriving DecidableEq, Repr

inductive Writes
  | begin (k : ℕ)
  | finish (k : ℕ)

namespace Writer

/-- The connection at first; the tunnel has no header. -/
def init (w : Writer) (header : Bytes) (calls : List Bytes) : Calls :=
  ⟨if w = .tunnelConnector then [] else header, [], calls, [], []⟩

/-- The next write of a call. With the lock held, no other call begins. -/
def step (w : Writer) (s : Calls) : Writes → Option Calls
  | .begin k =>
    if w = .relayConnector ∧ s.half ≠ [] then none
    else s.todo[k]?.map fun b =>
      let todo := s.todo.eraseIdx k
      if 65535 < b.length then { s with todo }
      else if s.wbuf ≠ [] then
        { s with
          todo
          wbuf := []
          stream := s.stream ++ (s.wbuf ++ frame 2 b)
          order := s.order ++ [b] }
      else
        { s with
          todo
          stream := s.stream ++ putBigEndian 2 b.length
          half := b :: s.half
          order := s.order ++ [b] }
  | .finish k => s.half[k]?.map fun b =>
      { s with stream := s.stream ++ b, half := s.half.eraseIdx k }

end Writer

/-- No call begins while another one is between its writes. -/
def Apart (s : Calls) : Writes → Prop
  | .begin _ => s.half = []
  | .finish _ => True

/-- The packets that are not refused. -/
def accepted (l : List Bytes) : List Bytes := l.filter (·.length ≤ 65535)

/-- The stream with what is still to come of a packet consists of frames. -/
structure Intact (header : Bytes) (calls : List Bytes) (s : Calls) : Prop where
  perm : (s.order ++ accepted s.todo).Perm (accepted calls)
  stream_eq : s.stream ++ s.wbuf ++ s.half.flatten = header ++ s.order.flatMap (frame 2)
  length_le : s.half.length ≤ 1
  cached : s.wbuf ≠ [] → s.order = [] ∧ s.half = []

theorem accepted_perm {l : List Bytes} {k : ℕ} {b : Bytes} (h : l[k]? = some b) :
    (accepted l).Perm (accepted [b] ++ accepted (l.eraseIdx k)) := by
  obtain ⟨hk, rfl⟩ := List.getElem?_eq_some_iff.mp h
  rw [accepted, accepted, accepted, ← filter_append]
  exact (getElem_cons_eraseIdx_perm hk).symm.filter _

variable {w : Writer} {header : Bytes} {calls : List Bytes} {s s' : Calls} {op : Writes}

theorem Intact.step (h : Intact header calls s) (hapart : w = .relayConnector ∨ Apart s op)
    (hstep : w.step s op = some s') : Intact header calls s' := by
  cases op with
  | begin k =>
    obtain ⟨hlock, hmap⟩ := ite_none_left_eq_some.mp hstep
    have hhalf : s.half = [] := by
      rcases hapart with hw | hapart
      · exact not_not.mp fun hne => hlock ⟨hw, hne⟩
      · exact hapart
    obtain ⟨b, hb, rfl⟩ := map_eq_some_iff.mp hmap
    have hperm := ((accepted_perm hb).append_left s.order).symm.trans h.perm
    have hstream := h.stream_eq
    rw [hhalf, flatten_nil, append_nil] at hstream
    split_ifs with hlong hwbuf
    · have hnil : accepted [b] = [] := by simp [accepted, hlong]
      rw [hnil, nil_append] at hperm
      exact { h with perm := hperm }
    all_goals
      have hone : accepted [b] = [b] := by simp [accepted, not_lt.mp hlong]
      rw [hone, ← append_assoc] at hperm
    · rw [(h.cached hwbuf).1, flatMap_nil, append_nil] at hstream
      refine ⟨hperm, ?_, h.length_le, fun hne => absurd rfl hne⟩
      simp [(h.cached hwbuf).1, hhalf, ← hstream]
    · rw [not_not.mp hwbuf, append_nil] at hstream
      refine ⟨hperm, ?_, by simp [hhalf], fun hne => absurd hne hwbuf⟩
      simp [hhalf, not_not.mp hwbuf, hstream, frame]
  | finish k =>
    obtain ⟨b, hb, rfl⟩ := map_eq_some_iff.mp hstep
    obtain ⟨c, hc⟩ : ∃ c, s.half = [c] := by
      refine length_eq_one_iff.mp (le_antisymm h.length_le ?_)
      exact (Nat.zero_le k).trans_lt (List.getElem?_eq_some_iff.mp hb).1
    have hwbuf : s.wbuf = [] := not_not.mp fun hne => by simp [(h.cached hne).2] at hc
    obtain ⟨rfl, rfl⟩ : k = 0 ∧ c = b := by
      rw [hc] at hb
      cases k with
      | zero => exact ⟨rfl, some.inj hb⟩
      | succ k => simp at hb
    have hstream := h.stream_eq
    refine ⟨h.perm, ?_, by simp [hc], fun hne => absurd hwbuf hne⟩
    simpa [hc, hwbuf] using hstream

/-- However the calls are interleaved, the stream consists of whole frames behind the header, one
for each call that is not refused, if the lock is held or no call begins between two writes of
another. -/
theorem frames_intact (w : Writer) (header : Bytes) (calls : List Bytes) (ops : List Writes)
    (hapart : w = .relayConnector ∨ Along w.step Apart (w.init header calls) ops)
    (hrun : run w.step (w.init header calls) ops = some s) (htodo : s.todo = [])
    (hhalf : s.half = []) :
    s.order.Perm (accepted calls) ∧
      s.stream ++ s.wbuf = (w.init header calls).wbuf ++ s.order.flatMap (frame 2) := by
  have hinit : Intact (w.init header calls).wbuf calls (w.init header calls) :=
    ⟨.refl _, by simp [Writer.init], Nat.zero_le 1, fun _ => ⟨rfl, rfl⟩⟩
  have hend : Intact (w.init header calls).wbuf calls s := by
    rcases hapart with hw | hapart
    · exact run_induction (fun s op s' h hs => h.step (.inl hw) hs) hinit hrun
    · exact run_induction_along (fun s op s' h hG hs => h.step (.inr hG) hs) hinit hapart hrun
  have hperm := hend.perm
  have hstream := hend.stream_eq
  rw [htodo, accepted, filter_nil, append_nil] at hperm
  rw [hhalf, flatten_nil, append_nil] at hstream
  exact ⟨hperm, hstream⟩

theorem frames_intact_two : [[7], [8, 9]].Perm (accepted [[7], [8, 9]]) :=
  (frames_intact (s := ⟨[], [0, 1, 7, 0, 2, 8, 9], [], [], [[7], [8, 9]]⟩) .tunnelConnector []
    [[7], [8, 9]] [.begin 0, .finish 0, .begin 0, .finish 0]
    (.inr (by simp [Along, Apart, Writer.step, Writer.init])) (by decide) rfl rfl).1

/-- Two lengths in a row, and the packets behind them. -/
theorem frames_mixed :
    ∃ s, run (Writer.step .tunnelConnector) (Writer.init .tunnelConnector [] [[7], [8, 9]])
        [.begin 0, .begin 0, .finish 0, .finish 0] = some s ∧
      s.todo = [] ∧ s.half = [] ∧ s.stream = [0, 1, 0, 2, 8, 9, 7] ∧
        ∀ order ∈ [[[7], [8, 9]], [[8, 9], [7]]], s.stream ≠ order.flatMap (frame 2) :=
  ⟨⟨[], [0, 1, 0, 2, 8, 9, 7], [], [], [[7], [8, 9]]⟩, by decide, rfl, rfl, rfl, by decide⟩

end Framing

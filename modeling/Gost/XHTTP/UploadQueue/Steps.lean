import Mathlib.Data.List.Perm.Basic
import Mathlib.Data.List.Perm.Subperm
import Gost.XHTTP.UploadQueue.Defs

/-!
# What a step of the upload queue can do

Inversion of `step`, once for all invariants of the queue. `LoopStep` lists the outcomes of one
iteration of the loop in `Read`, `ReadStep` those of one step of a `Read` in progress, `PushClose`
says what the steps of `Push` and `Close` leave alone and how they move packets, and `step_cases`
puts them together.
-/

namespace XHTTP.UploadQueue

open BinaryHeap List Option

/-! ## One iteration of the loop -/

/-- What one iteration of the loop over the heap does, guards included. -/
inductive LoopStep (s : State) (n : ℕ) : State → Prop
  -- the heap is empty
  | empty : s.heap = [] → LoopStep s n (s.finishRead n [] none)
  -- a part of the expected packet fills the buffer
  | part (p : Packet) (heap : List Packet) :
      pop Packet.seq s.heap = some (p, heap) → p.seq = s.nextSeq → n < p.payload.length →
      LoopStep s n ({ s with
        heap := push Packet.seq heap { p with payload := p.payload.drop n }
      }.finishRead n (p.payload.take n) none)
  -- the expected packet fits into the buffer
  | whole (p : Packet) (heap : List Packet) :
      pop Packet.seq s.heap = some (p, heap) → p.seq = s.nextSeq → p.payload.length ≤ n →
      LoopStep s n ({ s with heap := heap, nextSeq := s.nextSeq + 1 }.finishRead n p.payload none)
  | overflow (p : Packet) (heap : List Packet) :
      pop Packet.seq s.heap = some (p, heap) → s.nextSeq < p.seq → s.maxPackets < heap.length →
      LoopStep s n ({ s with heap := heap }.finishRead n [] (some .tooLarge))
  | wait (p : Packet) (heap : List Packet) :
      pop Packet.seq s.heap = some (p, heap) → s.nextSeq < p.seq → heap.length ≤ s.maxPackets →
      LoopStep s n { s with heap := push Packet.seq heap p, pc := .recvNext n }
  | stale (p : Packet) (heap : List Packet) :
      pop Packet.seq s.heap = some (p, heap) → p.seq < s.nextSeq →
      LoopStep s n { s with heap := heap }

theorem loopStep_loopBody (s : State) (n : ℕ) : LoopStep s n (s.loopBody n) := by
  unfold State.loopBody
  cases hpop : pop Packet.seq s.heap with
  | none => exact .empty (pop_eq_none.mp hpop)
  | some r =>
    obtain ⟨p, heap⟩ := r
    dsimp only
    split_ifs with heq hlen hgt hbig
    · rw [length_take] at hlen
      exact .part p heap hpop heq (by omega)
    · have hn : p.payload.length ≤ n := by
        rw [length_take] at hlen
        omega
      rw [take_of_length_le hn, heq]
      exact .whole p heap hpop heq hn
    · exact .overflow p heap hpop hgt hbig
    · exact .wait p heap hpop hgt (not_lt.mp hbig)
    · exact .stale p heap hpop (by omega)

/-! ## A step of the `Read` in progress -/

/-- What one step of a `Read` in progress does, guards included. -/
inductive ReadStep (s : State) : State → Prop
  | eof (n : ℕ) : s.closed = true ∨ s.chanClosed = true →
      ReadStep s (s.finishRead n [] (some .eof))
  | toRecv (n : ℕ) : s.pc = .opened n → s.heap = [] → ReadStep s { s with pc := .recvFirst n }
  | toLoop (n : ℕ) : s.pc = .opened n → s.heap ≠ [] → ReadStep s { s with pc := .loop n }
  | toStream (n r : ℕ) (p : Packet) (rest : List Packet) :
      s.pc = .recvFirst n → s.pushedPackets = p :: rest → p.reader = some r →
      ReadStep s { s with reader := some r, pushedPackets := rest, pc := .stream n }
  | receive (n : ℕ) (p : Packet) (rest : List Packet) :
      s.pc = .recvFirst n ∨ s.pc = .recvNext n → s.pushedPackets = p :: rest →
      ReadStep s { s with
        pushedPackets := rest, heap := push Packet.seq s.heap p, pc := .loop n }
  | loop (n : ℕ) (s' : State) : s.pc = .loop n → LoopStep s n s' → ReadStep s s'

variable {s s' : State} {a : Act}

theorem readStep_cases (hs : s.readStep = some s') : ReadStep s s' := by
  unfold State.readStep at hs
  split at hs
  · cases hs
  · cases hs
  next n hpc =>
    split_ifs at hs with hclosed hnil
    all_goals cases hs
    · exact .eof n (.inl hclosed)
    · exact .toRecv n hpc hnil
    · exact .toLoop n hpc hnil
  next n hpc =>
    unfold State.recvFirst at hs
    split at hs
    · split_ifs at hs with hclosed
      cases hs
      exact .eof n (.inr hclosed)
    next p rest hchan =>
      split at hs
      all_goals cases hs
      next r hr => exact .toStream n r p rest hpc hchan hr
      next => exact .receive n p rest (.inl hpc) hchan
  next n hpc =>
    rw [some.injEq] at hs
    exact .loop n s' hpc (hs ▸ loopStep_loopBody s n)
  next n hpc =>
    unfold State.recvNext at hs
    split at hs
    · split_ifs at hs with hclosed
      cases hs
      exact .eof n (.inr hclosed)
    next p rest hchan =>
      cases hs
      exact .receive n p rest (.inr hpc) hchan

/-! ## Steps of `Push` and `Close` -/

/-- How a step of `Push` or `Close` changes the channel: not at all, by a send, or by the drain
loop. -/
inductive ChanMove (s s' : State) : Prop
  | none : s'.sent = s.sent → s'.pushedPackets = s.pushedPackets → s'.reader = s.reader →
      ChanMove s s'
  | send (p : Packet) : s.mutex = .push p → s'.sent = s.sent ++ [p] →
      s'.pushedPackets = s.pushedPackets ++ [p] → s'.reader = s.reader → ChanMove s s'
  | drain (p : Packet) : s.mutex = .close → s'.sent = s.sent →
      s.pushedPackets = p :: s'.pushedPackets → s'.reader = p.reader.or s.reader → ChanMove s s'

/-- A step of a `Push` or `Close` call in progress leaves the reader's side alone, moves packets
from the calls to the channel, and may drop some. -/
structure PushClose (s s' : State) : Prop where
  heap : s'.heap = s.heap
  nextSeq : s'.nextSeq = s.nextSeq
  reads : s'.reads = s.reads
  pc : s'.pc = s.pc
  calls : s'.calls = s.calls
  maxPackets : s'.maxPackets = s.maxPackets
  waiting : (s'.inPush ++ s'.pushedPackets).Subperm (s.inPush ++ s.pushedPackets)
  chan : ChanMove s s'
  closed : s.closed = true → s'.closed = true
  draining : s'.mutex = .close → s.mutex = .close ∨ s'.closed = true
  chanClosed : s'.chanClosed = true → s.chanClosed = true ∨ s.mutex = .close

theorem inPush_pushCall (s : State) (p : Packet) :
    { s with pushing := s.pushing ++ [p], calls := s.calls ++ [p] }.inPush = s.inPush ++ [p] := by
  unfold State.inPush
  cases s.mutex <;> rfl

theorem pushLock_spec {i : ℕ} (hs : s.pushLock i = some s') : PushClose s s' := by
  unfold State.pushLock at hs
  split at hs
  next p hm hp =>
    have hin : s.inPush = s.pushing := by simp [State.inPush, hm]
    have hle : (s.pushing.eraseIdx i ++ s.pushedPackets).Subperm (s.pushing ++ s.pushedPackets) :=
      ((eraseIdx_sublist _ _).append_right _).subperm
    have htake : (p :: s.pushing.eraseIdx i).Perm s.pushing := by
      obtain ⟨hi, rfl⟩ := List.getElem?_eq_some_iff.mp hp
      exact getElem_cons_eraseIdx_perm hi
    dsimp only at hs
    split_ifs at hs
    all_goals
      cases hs
      refine ⟨rfl, rfl, rfl, rfl, rfl, rfl, ?_, .none rfl rfl rfl, id, by simp [hm], .inl⟩
      rw [hin]
    · simpa [State.inPush, hm] using hle
    · simpa [State.inPush, hm] using hle
    · simpa [State.inPush] using (htake.append_right s.pushedPackets).subperm
  next => cases hs

theorem pushSend_spec (hs : s.pushSend = some s') : PushClose s s' := by
  unfold State.pushSend at hs
  split at hs
  next p hm =>
    split_ifs at hs
    cases hs
    refine ⟨rfl, rfl, rfl, rfl, rfl, rfl, ?_, .send p hm rfl rfl rfl, id, by simp, .inl⟩
    simp only [State.inPush, hm]
    rw [← append_assoc]
    exact (perm_append_singleton p _).subperm
  next => cases hs

theorem closeLock_spec (hs : s.closeLock = some s') : PushClose s s' := by
  unfold State.closeLock at hs
  split_ifs at hs with hfree
  all_goals
    cases hs
    refine ⟨rfl, rfl, rfl, rfl, rfl, rfl, ?_, .none rfl rfl rfl, by simp, by simp [hfree.1], .inl⟩
    simpa [State.inPush, hfree.1] using List.Subperm.refl _

theorem closeDrain_spec (hs : s.closeDrain = some s') : PushClose s s' := by
  unfold State.closeDrain at hs
  split at hs
  next p rest hm hchan =>
    cases hs
    refine ⟨rfl, rfl, rfl, rfl, rfl, rfl, ?_, .drain p hm rfl hchan rfl, id, .inl, .inl⟩
    simp only [State.inPush, hm, hchan]
    exact ((sublist_cons_self p rest).append_left _).subperm
  next => cases hs

theorem closeFinish_spec (hs : s.closeFinish = some s') : PushClose s s' := by
  unfold State.closeFinish at hs
  split at hs
  next hm hchan =>
    cases hs
    refine ⟨rfl, rfl, rfl, rfl, rfl, rfl, ?_, .none rfl rfl rfl, id, by simp, fun _ => .inr hm⟩
    simpa [State.inPush, hm] using List.Subperm.refl _
  next => cases hs

/-! ## Steps of the reader -/

/-- A step of the reader leaves the calls of `Push` and `Close` alone and only takes from the
channel. -/
structure ReaderFrame (s s' : State) : Prop where
  mutex : s'.mutex = s.mutex
  closed : s'.closed = s.closed
  maxPackets : s'.maxPackets = s.maxPackets
  calls : s'.calls = s.calls
  chan : s'.pushedPackets <:+ s.pushedPackets

theorem ReadStep.frame (hs : ReadStep s s') : ReaderFrame s s' := by
  cases hs with
  | eof | toRecv | toLoop => exact ⟨rfl, rfl, rfl, rfl, suffix_rfl⟩
  | toStream _ _ _ _ _ hchan => exact ⟨rfl, rfl, rfl, rfl, hchan ▸ suffix_cons _ _⟩
  | receive _ _ _ _ hchan => exact ⟨rfl, rfl, rfl, rfl, hchan ▸ suffix_cons _ _⟩
  | loop n s' _ hs => cases hs <;> exact ⟨rfl, rfl, rfl, rfl, suffix_rfl⟩

/-! ## All steps -/

/-- What a step does, by the action taken. -/
inductive StepCase (s : State) : Act → State → Prop
  | pushCall (p : Packet) :
      StepCase s (.pushCall p) { s with pushing := s.pushing ++ [p], calls := s.calls ++ [p] }
  | pushClose (a : Act) (s' : State) : a.isRead = false → PushClose s s' → StepCase s a s'
  | readCall (n : ℕ) : s.pc = .idle → s.reader = none →
      StepCase s (.readCall n) { s with pc := .opened n }
  | callStream (n r : ℕ) : s.pc = .idle → s.reader = some r →
      StepCase s (.readCall n) { s with pc := .stream n }
  | readStep (s' : State) : ReadStep s s' → StepCase s .readStep s'
  | streamReturn (n : ℕ) (data : Bytes) (failed : Bool) : s.pc = .stream n →
      StepCase s (.streamReturn data failed)
        (s.finishRead n data (if failed then some .stream else none))

theorem step_cases (hs : step s a = some s') : StepCase s a s' := by
  cases a with
  | pushCall p =>
    cases hs
    exact .pushCall p
  | pushLock i => exact .pushClose _ s' rfl (pushLock_spec hs)
  | pushSend => exact .pushClose _ s' rfl (pushSend_spec hs)
  | closeCall =>
    cases hs
    exact .pushClose _ _ rfl
      ⟨rfl, rfl, rfl, rfl, rfl, rfl, List.Subperm.refl _, .none rfl rfl rfl, id, .inl, .inl⟩
  | closeLock => exact .pushClose _ s' rfl (closeLock_spec hs)
  | closeDrain => exact .pushClose _ s' rfl (closeDrain_spec hs)
  | closeFinish => exact .pushClose _ s' rfl (closeFinish_spec hs)
  | readCall n =>
    simp only [step] at hs
    split at hs
    next hpc hreader =>
      cases hs
      exact .readCall n hpc hreader
    next r hpc hreader =>
      cases hs
      exact .callStream n r hpc hreader
    next => cases hs
  | readStep => exact .readStep s' (readStep_cases hs)
  | streamReturn data failed =>
    simp only [step] at hs
    split at hs
    next n hpc =>
      by_cases hlen : data.length ≤ n
      · rw [if_pos hlen, some.injEq] at hs
        exact hs ▸ .streamReturn n data failed hpc
      · rw [if_neg hlen] at hs
        cases hs
    next => cases hs

theorem reader_frame (ha : a.isRead = true) (hs : step s a = some s') : ReaderFrame s s' := by
  cases step_cases hs with
  | pushCall => cases ha
  | pushClose _ _ hread => exact absurd (hread.symm.trans ha) Bool.false_ne_true
  | readCall | callStream | streamReturn => exact ⟨rfl, rfl, rfl, rfl, suffix_rfl⟩
  | readStep _ hs => exact hs.frame

end XHTTP.UploadQueue

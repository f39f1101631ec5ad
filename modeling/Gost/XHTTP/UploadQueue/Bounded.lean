import Gost.XHTTP.UploadQueue.Steps

/-!
# The size of the heap

`Read` tests the size of the heap after it has popped a misordered packet, then puts the packet back
and receives one more. Between the two pushes the heap may thus hold `maxPackets + 1` packets, after
them one more, and this is the most it ever holds: a `Read` that finds such a heap either consumes
or drops a packet, or fails. It fails only when all of the heap is ahead of `nextSeq`, because the
packet it popped has the least number.
-/

namespace XHTTP.UploadQueue

open BinaryHeap TransitionSystem

/-- The heap is ordered and within its bound, with room for one packet at a receive. -/
structure Bounded (s : State) : Prop where
  ordered : IsHeap Packet.seq s.heap
  size : s.heap.length ≤ s.maxPackets + 2
  recvFirst : ∀ n, s.pc = .recvFirst n → s.heap = []
  recvNext : ∀ n, s.pc = .recvNext n → s.heap.length ≤ s.maxPackets + 1

theorem bounded_init (m : ℕ) : Bounded (newUploadQueue m) where
  ordered := IsHeap.nil
  size := Nat.zero_le _
  recvFirst := by simp [newUploadQueue]
  recvNext := by simp [newUploadQueue]

/-- The packets of the heap that are ahead of `nextSeq`. -/
def State.ahead (s : State) : List Packet := s.heap.filter (s.nextSeq < ·.seq)

/-- The step from `s` to `s'` ends a `Read` with "packet queue is too large". -/
def FailsTooLarge (s s' : State) : Prop :=
  ∃ r : ReadResult, s'.reads = s.reads ++ [r] ∧ r.err = some .tooLarge

variable {heap : List Packet} {next n : ℕ} {data : Bytes} {err : Option ReadError} {a : Act}
  {s s' : State}

namespace Bounded

variable {s s' : State}

/-- The heap is replaced by one that is not larger, and the reader is not at a receive. -/
theorem shrink (h : Bounded s) (hord : IsHeap Packet.seq s'.heap)
    (hlen : s'.heap.length ≤ s.heap.length) (hmax : s'.maxPackets = s.maxPackets)
    (hfirst : ∀ n, s'.pc ≠ .recvFirst n) (hnext : ∀ n, s'.pc ≠ .recvNext n) : Bounded s' where
  ordered := hord
  size := hmax ▸ hlen.trans h.size
  recvFirst n hn := absurd hn (hfirst n)
  recvNext n hn := absurd hn (hnext n)

/-- The `Read` in progress returns and leaves a heap that is not larger. -/
theorem finish (h : Bounded s) (hord : IsHeap Packet.seq heap)
    (hlen : heap.length ≤ s.heap.length) :
    Bounded ({ s with heap := heap, nextSeq := next }.finishRead n data err) :=
  h.shrink hord hlen rfl (by simp [State.finishRead]) (by simp [State.finishRead])

theorem loop (h : Bounded s) (hpc : s.pc = .loop n) (hs : LoopStep s n s') : Bounded s' := by
  -- the packet popped and the others make up the old heap
  have hlength {p : Packet} {heap : List Packet} (hpop : pop Packet.seq s.heap = some (p, heap)) :
      s.heap.length = heap.length + 1 := (pop_perm hpop).length_eq
  have hpush (heap : List Packet) (p : Packet) :
      (push Packet.seq heap p).length = heap.length + 1 := (push_perm heap p).length_eq
  cases hs with
  | empty hnil => exact h.finish h.ordered le_rfl
  | part p heap hpop hseq hn =>
    apply h.finish ((h.ordered.pop hpop).push _)
    rw [hlength hpop, hpush]
  | whole p heap hpop _ _ | overflow p heap hpop _ _ =>
    apply h.finish (h.ordered.pop hpop)
    rw [hlength hpop]
    exact Nat.le_succ _
  | wait p heap hpop hlt hlen =>
    have hsize : (push Packet.seq heap p).length ≤ s.maxPackets + 1 := by
      rw [hpush]
      exact Nat.succ_le_succ hlen
    exact ⟨(h.ordered.pop hpop).push p, hsize.trans (Nat.le_succ _), by simp, fun _ _ => hsize⟩
  | stale p heap hpop hlt =>
    refine h.shrink (h.ordered.pop hpop) ?_ rfl (by simp [hpc]) (by simp [hpc])
    rw [hlength hpop]
    exact Nat.le_succ _

theorem readStep (h : Bounded s) (hs : ReadStep s s') : Bounded s' := by
  cases hs with
  | eof n _ => exact h.finish h.ordered le_rfl
  | toRecv n _ hnil => exact ⟨h.ordered, h.size, fun _ _ => hnil, by simp⟩
  | toLoop | toStream => exact h.shrink h.ordered le_rfl rfl (by simp) (by simp)
  | receive n p rest hpc _ =>
    -- both receives leave room for the packet
    have hroom : s.heap.length ≤ s.maxPackets + 1 := by
      rcases hpc with hpc | hpc
      · simp [h.recvFirst n hpc]
      · exact h.recvNext n hpc
    refine ⟨h.ordered.push p, ?_, by simp, by simp⟩
    rw [(push_perm s.heap p).length_eq]
    exact Nat.succ_le_succ hroom
  | loop n s' hpc hs => exact h.loop hpc hs

theorem step (h : Bounded s) (hs : UploadQueue.step s a = some s') : Bounded s' := by
  cases step_cases hs with
  | pushCall => exact { h with }
  | pushClose _ _ _ hs =>
    refine ⟨hs.heap ▸ h.ordered, ?_, ?_, ?_⟩
    all_goals rw [hs.heap]
    · rw [hs.maxPackets]
      exact h.size
    · rw [hs.pc]
      exact h.recvFirst
    · rw [hs.pc, hs.maxPackets]
      exact h.recvNext
  | readCall | callStream => exact h.shrink h.ordered le_rfl rfl (by simp) (by simp)
  | readStep _ hs => exact h.readStep hs
  | streamReturn => exact h.finish h.ordered le_rfl

end Bounded

/-! ## When `Read` fails -/

section Failure

variable {s s' : State}

theorem err_of_failsTooLarge_finishRead
    (h : FailsTooLarge s ({ s with heap := heap, nextSeq := next }.finishRead n data err)) :
    err = some .tooLarge := by
  obtain ⟨r, hreads, herr⟩ := h
  have hr : (⟨n, data, err⟩ : ReadResult) = r := by simpa [State.finishRead] using hreads
  rw [← herr, ← hr]

theorem not_failsTooLarge_of_reads_eq (h : s'.reads = s.reads) : ¬FailsTooLarge s s' := by
  rintro ⟨r, hreads, -⟩
  simp [h] at hreads

/-- All of an ordered heap is ahead if its root is. -/
theorem ahead_eq_heap {p : Packet} {rest : List Packet} (hord : IsHeap Packet.seq s.heap)
    (hheap : s.heap = p :: rest) (hlt : s.nextSeq < p.seq) : s.ahead = s.heap := by
  rw [State.ahead, List.filter_eq_self]
  intro q hq
  rw [hheap] at hord hq
  exact decide_eq_true (lt_of_lt_of_le hlt (hord.root_key_le q hq))

theorem ReadStep.ahead_of_fails (hord : IsHeap Packet.seq s.heap) (hs : ReadStep s s')
    (hfail : FailsTooLarge s s') : s.maxPackets + 2 ≤ s.ahead.length := by
  cases hs with
  | eof => cases err_of_failsTooLarge_finishRead hfail
  | toRecv | toLoop | toStream | receive =>
    exact absurd hfail (not_failsTooLarge_of_reads_eq rfl)
  | loop n s' hpc hs =>
    cases hs with
    | empty | part | whole => cases err_of_failsTooLarge_finishRead hfail
    | wait | stale => exact absurd hfail (not_failsTooLarge_of_reads_eq rfl)
    | overflow p heap hpop hlt hbig =>
      obtain ⟨rest, hheap, -⟩ := exists_cons_of_pop hpop
      rw [ahead_eq_heap hord hheap hlt, (pop_perm hpop).length_eq]
      exact Nat.succ_le_succ hbig

theorem ahead_of_fails (hord : IsHeap Packet.seq s.heap) (hs : UploadQueue.step s a = some s')
    (hfail : FailsTooLarge s s') : s.maxPackets + 2 ≤ s.ahead.length := by
  cases step_cases hs with
  | pushCall | readCall | callStream => exact absurd hfail (not_failsTooLarge_of_reads_eq rfl)
  | pushClose _ _ _ hs => exact absurd hfail (not_failsTooLarge_of_reads_eq hs.reads)
  | readStep _ hs => exact hs.ahead_of_fails hord hfail
  | streamReturn n data failed _ =>
    have herr := err_of_failsTooLarge_finishRead hfail
    split_ifs at herr
    cases herr

end Failure

/-- The bound that a queue was created with does not change. -/
theorem maxPackets_step (hs : step s a = some s') : s'.maxPackets = s.maxPackets := by
  cases step_cases hs with
  | pushCall | readCall | callStream | streamReturn => rfl
  | pushClose _ _ _ hs => exact hs.maxPackets
  | readStep _ hs => exact hs.frame.maxPackets

/-! ## Channels without a buffer -/

/-- The steps of the queue, and the one that a channel of capacity 0 allows in addition: the send of
the `Push` that holds the mutex meets the receive of the `Read` in progress. -/
inductive ChanAct
  | act (a : Act)
  | rendezvous
deriving DecidableEq, Repr

/-- A send and a receive at once. -/
def State.rendezvous (s : State) : Option State :=
  match s.maxPackets, s.mutex, s.pc with
  | 0, .push p, .recvFirst _ | 0, .push p, .recvNext _ =>
    { s with
      pushedPackets := s.pushedPackets ++ [p], mutex := .free, sent := s.sent ++ [p] }.readStep
  | _, _, _ => none

/-- One step of a queue whose channel may have no buffer. -/
def chanStep (s : State) : ChanAct → Option State
  | .act a => step s a
  | .rendezvous => s.rendezvous

/-- A rendezvous is a step of `Read` after the packet was sent. -/
theorem rendezvous_cases (hs : s.rendezvous = some s') :
    ∃ p, { s with
      pushedPackets := s.pushedPackets ++ [p], mutex := .free, sent := s.sent ++ [p] }.readStep =
        some s' := by
  unfold State.rendezvous at hs
  split at hs
  · exact ⟨_, hs⟩
  · exact ⟨_, hs⟩
  · cases hs

theorem Bounded.chanStep {a : ChanAct} (h : Bounded s) (hs : UploadQueue.chanStep s a = some s') :
    Bounded s' ∧ s'.maxPackets = s.maxPackets ∧
      (FailsTooLarge s s' → s.maxPackets + 2 ≤ s.ahead.length) := by
  cases a with
  | act a => exact ⟨h.step hs, maxPackets_step hs, ahead_of_fails h.ordered hs⟩
  | rendezvous =>
    obtain ⟨p, hs⟩ := rendezvous_cases hs
    have hsent : Bounded { s with
        pushedPackets := s.pushedPackets ++ [p], mutex := .free, sent := s.sent ++ [p] } :=
      { h with }
    have hread := readStep_cases hs
    refine ⟨hsent.readStep hread, hread.frame.maxPackets, fun hfail => ?_⟩
    -- the send leaves the heap, the expected number and the reads alone
    have hahead := hread.ahead_of_fails hsent.ordered hfail
    exact hahead

/-- After every run of pushes, reads and closes, of any packets, the heap of a queue created with
`m` holds at most `m + 2` packets, and the next step ends a `Read` with "packet queue is too large"
only if at least `m + 2` packets of the heap are ahead of `nextSeq`. -/
theorem heap_bounded (m : ℕ) {acts : List ChanAct} {s : State}
    (hrun : run chanStep (newUploadQueue m) acts = some s) :
    s.heap.length ≤ m + 2 ∧
      ∀ a s', chanStep s a = some s' → FailsTooLarge s s' → m + 2 ≤ s.ahead.length := by
  have hinv : Bounded s ∧ s.maxPackets = m := by
    refine run_induction (I := fun s => Bounded s ∧ s.maxPackets = m) ?_ ⟨bounded_init m, rfl⟩ hrun
    rintro s a s' ⟨hs, hmax⟩ hstep
    obtain ⟨hs', hmax', -⟩ := hs.chanStep hstep
    exact ⟨hs', hmax'.trans hmax⟩
  obtain ⟨hbounded, rfl⟩ := hinv
  exact ⟨hbounded.size, fun a s' hstep => (hbounded.chanStep hstep).2.2⟩

/-- A packet of a given number is pushed while a `Read` waits for it. -/
def pushWhileReading (seq : ℕ) : List ChanAct :=
  [.act (.pushCall { seq }), .act (.pushLock 0), .act .pushSend, .act .readStep]

/-- The packets 5, 6 and 7 arrive at a queue of one packet. -/
def misordered : List ChanAct :=
  [ChanAct.act (.readCall 1), .act .readStep] ++ pushWhileReading 5 ++
    [ChanAct.act .readStep] ++ pushWhileReading 6 ++ [ChanAct.act .readStep] ++ pushWhileReading 7

def misorderedState : State := (run chanStep (newUploadQueue 1) misordered).get (by decide)

/-- With one packet allowed, three are buffered, and the `Read` in progress fails. -/
theorem heap_bounded_misordered :
    misorderedState.heap.length = 1 + 2 ∧
      ∃ s', chanStep misorderedState (.act .readStep) = some s' ∧
        FailsTooLarge misorderedState s' ∧ 1 + 2 ≤ misorderedState.ahead.length := by
  have hrun : run chanStep (newUploadQueue 1) misordered = some misorderedState :=
    (Option.some_get _).symm
  have hfails : FailsTooLarge misorderedState (misorderedState.loopBody 1) :=
    ⟨⟨1, [], some .tooLarge⟩, by decide, rfl⟩
  have hstep : chanStep misorderedState (.act .readStep) = some (misorderedState.loopBody 1) := by
    decide
  exact ⟨by decide, _, hstep, hfails, (heap_bounded 1 hrun).2 _ _ hstep hfails⟩

end XHTTP.UploadQueue

import Mathlib.Data.Nat.Find
import Mathlib.Data.Fintype.EquivFin
import Gost.XHTTP.UploadQueue.Reassembly

/-!
# Delivery of the pushed packets

`Reassembly` says that what has been returned is right; this module says that what was pushed
comes out. `Accounted` relates the packets sent to the channel to those still held by the queue:
nothing is lost unless the queue overflows or is closed, and every `Read` that returns without an
error has moved at least one byte or disposed of a packet. Two results follow.

* `returned_prefix_deliverable`: at most the payloads up to the first missing one are returned;
  `returned_eq_deliverable`: all of them are once the reader has to wait for a packet.
* `read_returns`: a `Read` in progress returns by its own steps as long as one of the sent packets
  is still to be delivered.
-/

namespace XHTTP.UploadQueue

open BinaryHeap List TransitionSystem

/-! ## What a set of packets makes deliverable -/

theorem exists_notMem_seqs (ps : List Packet) : ∃ k, k ∉ ps.map Packet.seq := by
  obtain ⟨k, hk⟩ := Infinite.exists_notMem_finset (ps.map Packet.seq).toFinset
  exact ⟨k, by simpa using hk⟩

/-- The first sequence number that is missing from `ps`. -/
def firstMissing (ps : List Packet) : ℕ := Nat.find (exists_notMem_seqs ps)

/-- What packets of payload `f` allow `Read` to return: each payload once, in order, up to the
first one that is missing. -/
def deliverable (f : ℕ → Bytes) (ps : List Packet) : Bytes := stream f (firstMissing ps)

theorem le_firstMissing {ps : List Packet} {k : ℕ} :
    k ≤ firstMissing ps ↔ ∀ j < k, j ∈ ps.map Packet.seq := by
  simp [firstMissing, Nat.le_find_iff]

theorem firstMissing_congr {ps qs : List Packet}
    (h : ∀ k, k ∈ ps.map Packet.seq ↔ k ∈ qs.map Packet.seq) :
    firstMissing ps = firstMissing qs := by
  refine le_antisymm (le_firstMissing.mpr fun j hj => ?_) (le_firstMissing.mpr fun j hj => ?_)
  · exact (h j).mp (le_firstMissing.mp le_rfl j hj)
  · exact (h j).mpr (le_firstMissing.mp le_rfl j hj)

/-! ## Accounting -/

namespace State

/-- The packets sent and not yet consumed. -/
def unread (s : State) : List Packet := s.pushedPackets ++ s.heap

/-- The number of `Read` calls that had room for a byte and returned no error. -/
def goodReads (s : State) : ℕ := s.reads.countP fun r => 0 < r.size && r.err.isNone

/-- At the head of the loop with an empty heap: a stale packet has just been dropped, and `Read`
is about to return nothing for it. -/
def idling (s : State) : ℕ :=
  match s.pc, s.heap with
  | .loop _, [] => 1
  | _, _ => 0

theorem goodReads_finishRead (s : State) (n : ℕ) (data : Bytes) (err : Option ReadError) :
    (s.finishRead n data err).goodReads =
      s.goodReads + if 0 < n ∧ err = none then 1 else 0 := by
  simp only [goodReads, finishRead, countP_append, countP_singleton]
  cases err <;> simp

end State

/-- No packet is lost or made up. -/
structure Accounted (s : State) : Prop where
  draining : s.mutex = .close → s.closed = true
  chanClosed : s.chanClosed = true → s.closed = true
  eof : ∀ r ∈ s.reads, r.err = some .eof → s.closed = true
  consumed : ∀ k < s.nextSeq, k ∈ s.sent.map Packet.seq
  sent : s.unread.map Packet.seq ⊆ s.sent.map Packet.seq
  retained : s.closed = false → (∀ r ∈ s.reads, r.err ≠ some .tooLarge) →
    ∀ k ∈ s.sent.map Packet.seq, s.nextSeq ≤ k → k ∈ s.unread.map Packet.seq
  counted : s.goodReads + s.idling + s.unread.length ≤ s.returned.length + s.sent.length

theorem accounted_init (m : ℕ) : Accounted (newUploadQueue m) := by
  constructor <;> simp [newUploadQueue, State.unread, State.goodReads, State.idling]

/-- A step of `Push` or `Close` sends some packets and drops others from the channel, which only
a `Close` does. -/
theorem PushClose.exists_added_dropped {s s' : State} (hs : PushClose s s') :
    ∃ added dropped, s'.sent = s.sent ++ added ∧
      (s'.unread ++ dropped).Perm (s.unread ++ added) ∧ (dropped ≠ [] → s.mutex = .close) := by
  unfold State.unread
  rw [hs.heap]
  cases hs.chan with
  | none hsent hchan =>
    refine ⟨[], [], ?_, ?_, absurd rfl⟩
    · rw [hsent, append_nil]
    · rw [hchan]
  | send p _ hsent hchan =>
    refine ⟨[p], [], hsent, ?_, absurd rfl⟩
    rw [hchan, append_nil, append_assoc, append_assoc]
    exact perm_append_comm.append_left _
  | drain p hm hsent hchan =>
    refine ⟨[], [p], ?_, ?_, fun _ => hm⟩
    · rw [hsent, append_nil]
    · rw [hchan, append_nil, cons_append]
      exact perm_append_singleton _ _

namespace Accounted

variable {s s' : State}

/-- The reader moves packets from the channel to the heap, or drops stale ones. -/
theorem move (h : Accounted s) {chan heap : List Packet} {pc : ReaderPc}
    (hsub : (chan ++ heap).map Packet.seq ⊆ s.unread.map Packet.seq)
    (hkeep : ∀ k ∈ s.unread.map Packet.seq, s.nextSeq ≤ k → k ∈ (chan ++ heap).map Packet.seq)
    (hcount : { s with pushedPackets := chan, heap := heap, pc := pc }.idling +
      (chan ++ heap).length ≤ s.idling + s.unread.length) :
    Accounted { s with pushedPackets := chan, heap := heap, pc := pc } := by
  refine { h with
    sent := List.Subset.trans hsub h.sent
    retained := fun hclosed hok k hk hnext => ?_
    counted := ?_ }
  · exact hkeep k (h.retained hclosed hok k hk hnext) hnext
  · have hc := h.counted
    change s.goodReads + _ + (chan ++ heap).length ≤ s.returned.length + s.sent.length
    omega

/-- The `Read` in progress returns, with the heap `heap` and the number `next` left behind. -/
theorem finish (h : Accounted s) {heap : List Packet} {next n : ℕ} {data : Bytes}
    {err : Option ReadError} (hsub : heap.map Packet.seq ⊆ s.heap.map Packet.seq)
    (hmono : s.nextSeq ≤ next) (hdone : ∀ k < next, k < s.nextSeq ∨ k ∈ s.heap.map Packet.seq)
    (heof : err = some .eof → s.closed = true)
    (hkeep : err ≠ some .tooLarge →
      ∀ k ∈ s.heap.map Packet.seq, next ≤ k → k ∈ heap.map Packet.seq)
    (hcount : (if 0 < n ∧ err = none then 1 else 0) + heap.length ≤
      data.length + s.heap.length + s.idling) :
    Accounted ({ s with heap := heap, nextSeq := next }.finishRead n data err) where
  draining := h.draining
  chanClosed := h.chanClosed
  eof r hr hrerr := by
    rcases mem_append.mp hr with hr | hr
    · exact h.eof r hr hrerr
    · rw [mem_singleton.mp hr] at hrerr
      exact heof hrerr
  consumed k hk := by
    rcases hdone k hk with hk | hk
    · exact h.consumed k hk
    · exact h.sent (by simp [State.unread, mem_map.mp hk])
  sent k hk := by
    refine h.sent ?_
    rw [State.unread, map_append, mem_append] at hk ⊢
    exact hk.imp id (@hsub k)
  retained hclosed hok k hk hnext := by
    have hold := h.retained hclosed (fun r hr => hok r (mem_append_left _ hr)) k hk
      (hmono.trans hnext)
    have herr : err ≠ some .tooLarge := hok ⟨n, data, err⟩ (by simp [State.finishRead])
    rw [State.unread, map_append, mem_append] at hold ⊢
    exact hold.imp id fun hheap => hkeep herr k hheap hnext
  counted := by
    have hc := h.counted
    rw [State.goodReads_finishRead, returned_finishRead, length_append]
    simp only [State.unread, length_append] at hc ⊢
    change s.goodReads + _ + 0 + (s.pushedPackets.length + heap.length) ≤
      s.returned.length + data.length + s.sent.length
    omega

theorem loop (h : Accounted s) {n : ℕ} (hpc : s.pc = .loop n) (hs : LoopStep s n s') :
    Accounted s' := by
  cases hs with
  | empty hnil =>
    refine h.finish (List.Subset.refl _) le_rfl (fun k hk => .inl hk) (by simp)
      (fun _ k hk _ => hk) ?_
    have : s.idling = 1 := by simp [State.idling, hpc, hnil]
    split_ifs <;> omega
  | part p heap hpop hseq hn =>
    have hperm : ((push Packet.seq heap { p with payload := p.payload.drop n }).map
        Packet.seq).Perm (s.heap.map Packet.seq) :=
      ((push_perm heap _).map _).trans ((pop_perm hpop).map Packet.seq).symm
    refine h.finish hperm.subset le_rfl (fun k hk => .inl hk) (by simp)
      (fun _ k hk _ => hperm.mem_iff.mpr hk) ?_
    have hlen : (push Packet.seq heap { p with payload := p.payload.drop n }).length =
        s.heap.length := by
      simpa using hperm.length_eq
    rw [hlen, length_take]
    split_ifs <;> omega
  | whole p heap hpop hseq hn =>
    have hmem : ∀ k, k ∈ s.heap.map Packet.seq ↔ k = s.nextSeq ∨ k ∈ heap.map Packet.seq := by
      intro k
      rw [((pop_perm hpop).map _).mem_iff, map_cons, mem_cons, hseq]
    refine h.finish (fun k hk => (hmem k).mpr (.inr hk)) (by omega) (fun k hk => ?_) (by simp)
      (fun _ k hk hnext => ?_) ?_
    · rcases Nat.lt_succ_iff_lt_or_eq.mp hk with hk | hk
      · exact .inl hk
      · exact .inr ((hmem k).mpr (.inl hk))
    · rcases (hmem k).mp hk with hk | hk
      · omega
      · exact hk
    · rw [(pop_perm hpop).length_eq, length_cons]
      split_ifs <;> omega
  | overflow p heap hpop hlt hbig =>
    refine h.finish ?_ le_rfl (fun k hk => .inl hk) (by simp) (fun hne => absurd rfl hne) ?_
    · exact List.Subset.trans (subset_cons_self _ _) ((pop_perm hpop).map Packet.seq).symm.subset
    · rw [(pop_perm hpop).length_eq, length_cons]
      simp
      omega
  | wait p heap hpop hlt hlen =>
    have hback : (push Packet.seq heap p).Perm s.heap :=
      (push_perm heap p).trans (pop_perm hpop).symm
    have hun := hback.append_left s.pushedPackets
    refine h.move (hun.map _).subset (fun k hk _ => (hun.map _).mem_iff.mpr hk) ?_
    rw [hun.length_eq]
    simp [State.idling, State.unread]
  | stale p heap hpop hlt =>
    have hun : s.unread.Perm (p :: (s.pushedPackets ++ heap)) :=
      ((pop_perm hpop).append_left _).trans perm_middle
    refine h.move ?_ (fun k hk hnext => ?_) ?_
    · exact List.Subset.trans (subset_cons_self _ _) (hun.map Packet.seq).symm.subset
    · rcases mem_cons.mp ((hun.map _).mem_iff.mp hk) with hk | hk
      · omega
      · exact hk
    · have : { s with pushedPackets := s.pushedPackets, heap := heap, pc := s.pc }.idling ≤ 1 := by
        unfold State.idling
        split <;> simp
      rw [hun.length_eq, length_cons]
      omega

theorem readStep (h : Accounted s) (hgen : ∀ p ∈ s.pushedPackets, p.reader = none)
    (hs : ReadStep s s') : Accounted s' := by
  cases hs with
  | eof n hclosed =>
    refine h.finish (List.Subset.refl _) le_rfl (fun k hk => .inl hk) (fun _ => ?_)
      (fun _ k hk _ => hk) (by simp)
    exact hclosed.elim id h.chanClosed
  | toRecv n hpc hnil =>
    refine h.move (List.Subset.refl _) (fun k hk _ => hk) ?_
    simp [State.idling, State.unread]
  | toLoop n hpc hheap =>
    refine h.move (List.Subset.refl _) (fun k hk _ => hk) ?_
    simp [State.idling, State.unread, hheap]
  | toStream n r p rest hpc hchan hr => simp [hgen p (by simp [hchan])] at hr
  | receive n p rest hpc hchan =>
    have hun : (rest ++ push Packet.seq s.heap p).Perm s.unread := by
      rw [State.unread, hchan, cons_append]
      exact ((push_perm s.heap p).append_left rest).trans perm_middle
    refine h.move (hun.map _).subset (fun k hk _ => (hun.map _).mem_iff.mpr hk) ?_
    have hlen : (push Packet.seq s.heap p).length = s.heap.length + 1 :=
      (push_perm s.heap p).length_eq
    obtain ⟨q, l, hheap⟩ := exists_cons_of_length_eq_add_one hlen
    rw [hun.length_eq, hheap]
    simp [State.idling]
  | loop n s' hpc hs => exact h.loop hpc hs

theorem pushClose (h : Accounted s) (hs : PushClose s s') : Accounted s' := by
  have hreads := hs.reads
  have hidle : s'.idling = s.idling := by simp only [State.idling, hs.pc, hs.heap]
  have hgood : s'.goodReads = s.goodReads := by simp only [State.goodReads, hreads]
  have hret : s'.returned = s.returned := by simp only [State.returned, hreads]
  obtain ⟨added, dropped, hsent, hunread, hdrain⟩ := hs.exists_added_dropped
  have hmem : ∀ k, k ∈ s'.unread.map Packet.seq ∨ k ∈ dropped.map Packet.seq ↔
      k ∈ s.unread.map Packet.seq ∨ k ∈ added.map Packet.seq := by
    intro k
    rw [← mem_append, ← map_append, (hunread.map Packet.seq).mem_iff, map_append, mem_append]
  have hmemSent : ∀ k, k ∈ s'.sent.map Packet.seq ↔
      k ∈ s.sent.map Packet.seq ∨ k ∈ added.map Packet.seq := by
    intro k
    rw [hsent, map_append, mem_append]
  refine ⟨fun hm => ?_, fun hc => ?_, fun r hr herr => ?_, fun k hk => ?_, fun k hk => ?_, ?_, ?_⟩
  · exact (hs.draining hm).elim (fun hm => hs.closed (h.draining hm)) id
  · exact hs.closed ((hs.chanClosed hc).elim h.chanClosed h.draining)
  · exact hs.closed (h.eof r (hreads ▸ hr) herr)
  · exact (hmemSent k).mpr (.inl (h.consumed k (hs.nextSeq ▸ hk)))
  · exact (hmemSent k).mpr (((hmem k).mp (.inl hk)).imp (@h.sent k) id)
  · intro hclosed hok k hk hnext
    -- only a `Close` drains the channel, and an open queue was open before
    have hopen : s.closed = false := Bool.eq_false_iff.mpr fun hc => by
      rw [hs.closed hc] at hclosed
      cases hclosed
    have hnone : dropped = [] := by
      by_contra hne
      rw [h.draining (hdrain hne)] at hopen
      cases hopen
    have hold : k ∈ s.unread.map Packet.seq ∨ k ∈ added.map Packet.seq :=
      ((hmemSent k).mp hk).imp
        (fun hk => h.retained hopen (hreads ▸ hok) k hk (hs.nextSeq ▸ hnext)) id
    refine ((hmem k).mpr hold).resolve_right ?_
    rw [hnone]
    exact not_mem_nil
  · have hc := h.counted
    have hlength := hunread.length_eq
    rw [length_append, length_append] at hlength
    rw [hidle, hgood, hret, hsent, length_append]
    omega

end Accounted

/-- Every step of a queue of packets keeps the accounting invariant. -/
theorem accounted_step {f : ℕ → Bytes} {s s' : State} {c : Bytes} {a : Act} (h : Accounted s)
    (hr : Reassembly f s c) (hs : step s a = some s') : Accounted s' := by
  cases step_cases hs with
  | pushCall p => exact { h with }
  | pushClose _ _ _ hs => exact h.pushClose hs
  | readCall n hpc hreader =>
    refine h.move (List.Subset.refl _) (fun k hk _ => hk) ?_
    simp [State.idling, State.unread]
  | callStream n r hpc hreader => simp [hr.reader] at hreader
  | readStep _ hs =>
    exact h.readStep (fun p hp => (hr.genuine p (mem_append_right _ hp)).1) hs
  | streamReturn n data failed hpc => exact absurd hpc (hr.noStream n)

/-! ## What has been returned -/

section Returned

variable {f : ℕ → Bytes} {s s' : State} {c : Bytes}

/-- At most the deliverable bytes have been returned. -/
theorem returned_prefix_deliverable (hr : Reassembly f s c) (h : Accounted s) :
    s.returned <+: deliverable f s.sent := by
  have hnext : s.nextSeq ≤ firstMissing s.sent := le_firstMissing.mpr h.consumed
  rw [hr.returned, deliverable]
  by_cases hc : c = []
  · rw [hc, append_nil]
    exact stream_mono f hnext
  · -- a part of packet `nextSeq` has been returned, so the heap holds the rest of it
    have hheld : ∃ q ∈ s.heap, q.seq = s.nextSeq := by
      by_contra hnone
      push Not at hnone
      exact hc (hr.held.not_started hnone)
    obtain ⟨q, hq, hseq⟩ := hheld
    have hsent : s.nextSeq ∈ s.sent.map Packet.seq :=
      h.sent (mem_map.mpr ⟨q, mem_append_right _ hq, hseq⟩)
    have hlt : s.nextSeq + 1 ≤ firstMissing s.sent := by
      refine le_firstMissing.mpr fun j hj => ?_
      rcases Nat.lt_succ_iff_lt_or_eq.mp hj with hj | rfl
      · exact h.consumed j hj
      · exact hsent
    refine List.IsPrefix.trans ?_ (stream_mono f hlt)
    rw [stream_succ, prefix_append_right_inj]
    exact hr.held.consumed

/-! ## Progress -/

/-- A bound on the number of steps to the end of the `Read` in progress. -/
def State.remaining (s : State) : ℕ :=
  3 * s.pushedPackets.length + s.heap.length +
    match s.pc with
    | .opened _ => 2
    | .recvFirst _ | .loop _ => 1
    | _ => 0

/-- With an undelivered packet sent, the `Read` in progress can take a step. -/
theorem readStep_enabled (hr : Reassembly f s c) (h : Accounted s) (hclosed : s.closed = false)
    (hok : ∀ r ∈ s.reads, r.err ≠ some .tooLarge) (hsent : s.nextSeq ∈ s.sent.map Packet.seq)
    (hpc : s.pc ≠ .idle) : ∃ s', s.readStep = some s' := by
  obtain ⟨p, hp, hseq⟩ := mem_map.mp (h.retained hclosed hok _ hsent le_rfl)
  rw [State.unread, mem_append] at hp
  unfold State.readStep
  cases hcase : s.pc with
  | idle => exact absurd hcase hpc
  | opened n => split_ifs <;> simp
  | loop n => simp
  | stream n => exact absurd hcase (hr.noStream n)
  | recvFirst n =>
    rw [hr.recvFirst n hcase] at hp
    obtain ⟨q, rest, hchan⟩ := exists_cons_of_ne_nil (ne_nil_of_mem (by simpa using hp))
    have hq : q.reader = none := (hr.genuine q (by simp [hchan])).1
    simp [State.recvFirst, hchan, hq]
  | recvNext n =>
    have hp : p ∈ s.pushedPackets := hp.resolve_right fun hp => by
      have := hr.recvNext n hcase p hp
      omega
    obtain ⟨q, rest, hchan⟩ := exists_cons_of_ne_nil (ne_nil_of_mem hp)
    simp [State.recvNext, hchan]

/-- The `Read` in progress waits for a packet. -/
def State.Waiting (s : State) : Prop := s.pc ≠ .idle ∧ s.readStep = none

instance : DecidablePred State.Waiting := fun _ => inferInstanceAs (Decidable (_ ∧ _))

/-- If the expected packet was not sent, all that can be delivered has been. -/
theorem returned_eq_deliverable (hr : Reassembly f s c) (h : Accounted s)
    (hdone : s.nextSeq ∉ s.sent.map Packet.seq) : s.returned = deliverable f s.sent := by
  have hfirst : firstMissing s.sent = s.nextSeq :=
    le_antisymm (Nat.find_min' _ hdone) (le_firstMissing.mpr h.consumed)
  have hc : c = [] := hr.held.not_started fun q hq hseq =>
    hdone (h.sent (mem_map.mpr ⟨q, mem_append_right _ hq, hseq⟩))
  rw [hr.returned, hc, append_nil, deliverable, hfirst]

/-- An open queue whose reader waits for a packet has delivered all it can. -/
theorem returned_eq_of_waiting (hr : Reassembly f s c) (h : Accounted s)
    (hclosed : s.closed = false) (hok : ∀ r ∈ s.reads, r.err ≠ some .tooLarge)
    (hwait : s.Waiting) : s.returned = deliverable f s.sent := by
  refine returned_eq_deliverable hr h fun hsent => ?_
  obtain ⟨s', hs'⟩ := readStep_enabled hr h hclosed hok hsent hwait.1
  rw [hwait.2] at hs'
  cases hs'

/-- A step of `Read` that does not return gets closer to the end, and keeps `nextSeq`. -/
theorem ReadStep.remaining_lt (hs : ReadStep s s') (hbusy : s'.pc ≠ .idle)
    (hgen : ∀ p ∈ s.pushedPackets, p.reader = none) :
    s'.remaining < s.remaining ∧ ¬SplitsCopy s ∧ s'.nextSeq = s.nextSeq ∧ s'.sent = s.sent ∧
      s'.closed = s.closed ∧ s'.reads = s.reads := by
  cases hs with
  | eof n _ => exact absurd rfl hbusy
  | toRecv n hpc hnil | toLoop n hpc hheap => simp [State.remaining, hpc, SplitsCopy]
  | toStream n r p rest hpc hchan hr => simp [hgen p (by simp [hchan])] at hr
  | receive n p rest hpc hchan =>
    have hlen : (push Packet.seq s.heap p).length = s.heap.length + 1 :=
      (push_perm s.heap p).length_eq
    rcases hpc with hpc | hpc
    all_goals
      simp only [State.remaining, hpc, hchan, hlen, length_cons, SplitsCopy]
      simp
      omega
  | loop n s' hpc hs =>
    cases hs with
    | empty | part | whole | overflow => exact absurd rfl hbusy
    | wait p heap hpop hlt _ | stale p heap hpop hlt =>
      obtain ⟨rest, hheap, hperm⟩ := exists_cons_of_pop hpop
      simp [State.remaining, hpc, hheap, hperm.length_eq, (push_perm heap p).length_eq, SplitsCopy]
      omega

theorem read_returns_of_sent (hr : Reassembly f s c) (h : Accounted s)
    (hclosed : s.closed = false) (hok : ∀ r ∈ s.reads, r.err ≠ some .tooLarge)
    (hsent : s.nextSeq ∈ s.sent.map Packet.seq) :
    ∃ j s', run step s (List.replicate j .readStep) = some s' ∧ s'.pc = .idle := by
  induction hm : s.remaining using Nat.strong_induction_on generalizing s c with
  | _ m ih =>
    by_cases hpc : s.pc = .idle
    · exact ⟨0, s, rfl, hpc⟩
    obtain ⟨t, ht⟩ := readStep_enabled hr h hclosed hok hsent hpc
    have hstep : step s .readStep = some t := ht
    by_cases hidle : t.pc = .idle
    · exact ⟨1, t, run_cons_eq_some.mpr ⟨t, hstep, rfl⟩, hidle⟩
    have hgen : ∀ p ∈ s.pushedPackets, p.reader = none := fun p hp =>
      (hr.genuine p (mem_append_right _ hp)).1
    obtain ⟨hlt, hsplit, hnext, hst, hcl, hrd⟩ :=
      (readStep_cases ht).remaining_lt hidle hgen
    have hg : Genuine f .readStep := trivial
    obtain ⟨c', hr'⟩ := reassembly_step hr hg (fun _ => hsplit) hstep
    obtain ⟨j, s', hrun, hend⟩ := ih t.remaining (hm ▸ hlt) hr' (accounted_step h hr hstep)
      (hcl ▸ hclosed) (hrd ▸ hok) (by rwa [hnext, hst]) rfl
    refine ⟨j + 1, s', ?_, hend⟩
    rw [replicate_succ, run_cons_eq_some]
    exact ⟨t, hstep, hrun⟩

/-- As long as something is to be delivered, a `Read` in progress returns by its own steps. -/
theorem read_returns (hr : Reassembly f s c) (h : Accounted s) (hclosed : s.closed = false)
    (hok : ∀ r ∈ s.reads, r.err ≠ some .tooLarge) (hmore : s.returned ≠ deliverable f s.sent) :
    ∃ j s', run step s (List.replicate j .readStep) = some s' ∧ s'.pc = .idle := by
  refine read_returns_of_sent hr h hclosed hok ?_
  by_contra hdone
  exact hmore (returned_eq_deliverable hr h hdone)

end Returned

end XHTTP.UploadQueue

import Gost.XHTTP.UploadQueue.Delivery

/-!
# Packets that are pushed once

If every sequence number is pushed at most once and no payload is empty, the heap never holds two
packets of one number, so no step of `Read` splits a copy, and no packet is stale when it is
popped. Every `Read` that has room for a byte and returns without an error then returns at least
one byte.
-/

namespace XHTTP.UploadQueue

open BinaryHeap List TransitionSystem

/-- A `Push` call brings a packet of payload `f` that is not empty and whose number is new. -/
def FreshPush (f : ℕ → Bytes) (s : State) (a : Act) : Prop :=
  Genuine f a ∧ ∀ p, a = .pushCall p → p.payload ≠ [] ∧ p.seq ∉ s.calls.map Packet.seq

/-- The packets that were pushed and not yet consumed. -/
def State.outstanding (s : State) : List Packet := s.inPush ++ s.unread

/-- The outstanding packets have different numbers, none of them below `nextSeq`, and every
successful `Read` with room for a byte has returned one. -/
structure Distinct (s : State) : Prop where
  nodup : (s.outstanding.map Packet.seq).Nodup
  called : s.outstanding.map Packet.seq ⊆ s.calls.map Packet.seq
  fresh : ∀ k ∈ s.outstanding.map Packet.seq, s.nextSeq ≤ k
  consumed : ∀ k < s.nextSeq, k ∈ s.calls.map Packet.seq
  nonempty : ∀ p ∈ s.outstanding, p.payload ≠ []
  busy : ∀ n, s.pc = .loop n → s.heap ≠ []
  reads : s.goodReads ≤ s.returned.length

theorem distinct_init (m : ℕ) : Distinct (newUploadQueue m) := by
  constructor <;>
    simp [newUploadQueue, State.outstanding, State.inPush, State.unread, State.goodReads]

namespace Distinct

variable {s s' : State}

/-- The invariant after a step that adds no packet: the expected number stays, or it was
outstanding and no longer is. -/
theorem update (h : Distinct s) (hcalls : s'.calls = s.calls)
    (hseq : (s'.outstanding.map Packet.seq).Subperm (s.outstanding.map Packet.seq))
    (hnext : s'.nextSeq = s.nextSeq ∨ s'.nextSeq = s.nextSeq + 1 ∧
      s.nextSeq ∈ s.outstanding.map Packet.seq ∧ s.nextSeq ∉ s'.outstanding.map Packet.seq)
    (hnonempty : ∀ p ∈ s'.outstanding, p.payload ≠ [])
    (hbusy : ∀ n, s'.pc = .loop n → s'.heap ≠ []) (hreads : s'.goodReads ≤ s'.returned.length) :
    Distinct s' := by
  refine ⟨?_, ?_, fun k hk => ?_, fun k hk => ?_, hnonempty, hbusy, hreads⟩
  · obtain ⟨l, hl, hsub⟩ := hseq
    exact hl.nodup_iff.mp (h.nodup.sublist hsub)
  · rw [hcalls]
    exact List.Subset.trans hseq.subset h.called
  · have hle := h.fresh k (hseq.subset hk)
    rcases hnext with hnext | ⟨hnext, -, hnot⟩
    · omega
    · have hne : k ≠ s.nextSeq := fun heq => hnot (heq ▸ hk)
      omega
  · rw [hcalls]
    rcases hnext with hnext | ⟨hnext, hmem, -⟩
    · exact h.consumed k (hnext ▸ hk)
    · rcases Nat.lt_succ_iff_lt_or_eq.mp (hnext ▸ hk) with hk | rfl
      · exact h.consumed k hk
      · exact h.called hmem

/-- Packets are moved or dropped, and no `Read` returns. -/
theorem move (h : Distinct s) (hcalls : s'.calls = s.calls)
    (hout : s'.outstanding.Subperm s.outstanding) (hnext : s'.nextSeq = s.nextSeq)
    (hreads : s'.reads = s.reads) (hbusy : ∀ n, s'.pc = .loop n → s'.heap ≠ []) :
    Distinct s' := by
  refine h.update hcalls ?_ (.inl hnext) (fun p hp => h.nonempty p (hout.subset hp)) hbusy ?_
  · obtain ⟨l, hl, hsub⟩ := hout
    exact ⟨l.map _, hl.map _, hsub.map _⟩
  · simpa only [State.goodReads, State.returned, hreads] using h.reads

/-- The reads after one more that returns a byte if it has room for one and does not fail. -/
theorem goodReads_finishRead_le (h : Distinct s) {heap : List Packet} {next n : ℕ} {data : Bytes}
    {err : Option ReadError} (hgood : 0 < n → err = none → 0 < data.length) :
    ({ s with heap := heap, nextSeq := next }.finishRead n data err).goodReads ≤
      ({ s with heap := heap, nextSeq := next }.finishRead n data err).returned.length := by
  rw [State.goodReads_finishRead, returned_finishRead, length_append]
  have hreads := h.reads
  change s.goodReads + _ ≤ s.returned.length + data.length
  split_ifs with hn
  · have := hgood hn.1 hn.2
    omega
  · omega

/-- A packet with the expected number has no copy. -/
theorem not_splitsCopy (h : Distinct s) : ¬SplitsCopy s := by
  unfold SplitsCopy
  split
  next n p rest hpc hheap =>
    rintro ⟨hp, -, -, q, hq, hqs⟩
    have hnd := h.nodup
    simp only [State.outstanding, State.unread, hheap, map_append, map_cons] at hnd
    have hheap := hnd.of_append_right.of_append_right
    rw [nodup_cons] at hheap
    exact hheap.1 (mem_map.mpr ⟨q, hq, hqs.trans hp.symm⟩)
  next => exact id

theorem loop (h : Distinct s) {n : ℕ} (hpc : s.pc = .loop n) (hs : LoopStep s n s') :
    Distinct s' := by
  -- the packets outside the heap
  have hperm {p : Packet} {heap : List Packet} (hpop : pop Packet.seq s.heap = some (p, heap)) :
      s.outstanding.Perm (p :: (s.inPush ++ (s.pushedPackets ++ heap))) := by
    rw [State.outstanding, State.unread, ← append_assoc, ← append_assoc]
    exact ((pop_perm hpop).append_left _).trans perm_middle
  cases hs with
  | empty hnil => exact absurd hnil (h.busy n hpc)
  | part p heap hpop hseq hn =>
    have hback : (push Packet.seq heap { p with payload := p.payload.drop n }).Perm
        ({ p with payload := p.payload.drop n } :: heap) := push_perm heap _
    have hout : (s.inPush ++ (s.pushedPackets ++
        push Packet.seq heap { p with payload := p.payload.drop n })).Perm
        ({ p with payload := p.payload.drop n } :: (s.inPush ++ (s.pushedPackets ++ heap))) := by
      rw [← append_assoc, ← append_assoc]
      exact (hback.append_left _).trans perm_middle
    refine h.update rfl ?_ (.inl rfl) ?_ (by simp [State.finishRead]) ?_
    · exact ((hout.map _).trans ((hperm hpop).map Packet.seq).symm).subperm
    · intro q hq
      rcases mem_cons.mp (hout.mem_iff.mp hq) with rfl | hq
      · simp [hn]
      · exact h.nonempty q ((hperm hpop).mem_iff.mpr (mem_cons_of_mem p hq))
    · exact h.goodReads_finishRead_le fun hpos _ => by simp; omega
  | whole p heap hpop hseq hn =>
    have hout := (hperm hpop).map Packet.seq
    have hne : p.payload ≠ [] := h.nonempty p ((hperm hpop).mem_iff.mpr mem_cons_self)
    have hnd := hout.nodup_iff.mp h.nodup
    rw [map_cons, nodup_cons] at hnd
    refine h.update rfl ?_ (.inr ⟨rfl, ?_, ?_⟩) ?_ (by simp [State.finishRead]) ?_
    · exact (sublist_cons_self _ _).subperm.trans hout.symm.subperm
    · exact hout.mem_iff.mpr (by simp [hseq])
    · exact hseq ▸ hnd.1
    · exact fun q hq => h.nonempty q ((hperm hpop).mem_iff.mpr (mem_cons_of_mem p hq))
    · exact h.goodReads_finishRead_le fun _ _ => length_pos_iff.mpr hne
  | overflow p heap hpop hlt hbig =>
    refine h.update rfl ?_ (.inl rfl) ?_ (by simp [State.finishRead]) ?_
    · exact ((sublist_cons_self _ _).map _).subperm.trans ((hperm hpop).map _).symm.subperm
    · exact fun q hq => h.nonempty q ((hperm hpop).mem_iff.mpr (mem_cons_of_mem p hq))
    · exact h.goodReads_finishRead_le (by simp)
  | wait p heap hpop hlt hlen =>
    have hback : (push Packet.seq heap p).Perm s.heap :=
      (push_perm heap p).trans (pop_perm hpop).symm
    refine h.move rfl ?_ rfl rfl (by simp)
    exact ((hback.append_left _).append_left _).subperm
  | stale p heap hpop hlt =>
    have hmem : p ∈ s.outstanding := (hperm hpop).mem_iff.mpr mem_cons_self
    have := h.fresh p.seq (mem_map_of_mem hmem)
    omega

theorem readStep (h : Distinct s) (hs : ReadStep s s') : Distinct s' := by
  cases hs with
  | eof n _ =>
    refine h.update rfl (List.Subperm.refl _) (.inl rfl) h.nonempty (by simp [State.finishRead]) ?_
    exact h.goodReads_finishRead_le (by simp)
  | toRecv n hpc hnil => exact h.move rfl (List.Subperm.refl _) rfl rfl (by simp)
  | toLoop n hpc hheap => exact h.move rfl (List.Subperm.refl _) rfl rfl (by simp [hheap])
  | toStream n r p rest hpc hchan hr =>
    refine h.move rfl ?_ rfl rfl (by simp)
    rw [State.outstanding, State.outstanding, State.unread, State.unread, hchan]
    exact (((sublist_cons_self p rest).append_right _).append_left _).subperm
  | receive n p rest hpc hchan =>
    have hback : (push Packet.seq s.heap p).Perm (p :: s.heap) := push_perm s.heap p
    refine h.move rfl ?_ rfl rfl fun _ _ hnil => ?_
    · have hun : (rest ++ push Packet.seq s.heap p).Perm s.unread := by
        rw [State.unread, hchan, cons_append]
        exact (hback.append_left rest).trans perm_middle
      exact (hun.append_left _).subperm
    · have hlen := hback.length_eq
      change push Packet.seq s.heap p = [] at hnil
      simp [hnil] at hlen
  | loop n s' hpc hs => exact h.loop hpc hs

theorem pushClose (h : Distinct s) (hs : PushClose s s') : Distinct s' := by
  refine h.move hs.calls ?_ hs.nextSeq hs.reads ?_
  · rw [State.outstanding, State.outstanding, State.unread, State.unread, hs.heap,
      ← append_assoc, ← append_assoc]
    obtain ⟨l, hl, hsub⟩ := hs.waiting
    exact ⟨l ++ s.heap, hl.append_right _, hsub.append_right _⟩
  · rw [hs.pc, hs.heap]
    exact h.busy

/-- A packet with a new number and a payload is pushed. -/
theorem pushCall (h : Distinct s) {p : Packet} (hne : p.payload ≠ [])
    (hnew : p.seq ∉ s.calls.map Packet.seq) :
    Distinct { s with pushing := s.pushing ++ [p], calls := s.calls ++ [p] } := by
  have hout : { s with pushing := s.pushing ++ [p], calls := s.calls ++ [p] }.outstanding.Perm
      (p :: s.outstanding) := by
    rw [State.outstanding, inPush_pushCall, append_assoc]
    exact perm_middle
  have hseq := hout.map Packet.seq
  have hge : s.nextSeq ≤ p.seq := not_lt.mp fun hlt => hnew (h.consumed _ hlt)
  refine ⟨?_, fun k hk => ?_, fun k hk => ?_, fun k hk => ?_, fun q hq => ?_, h.busy, h.reads⟩
  · rw [hseq.nodup_iff, map_cons, nodup_cons]
    exact ⟨fun hmem => hnew (h.called hmem), h.nodup⟩
  · rw [map_append, mem_append]
    rcases mem_cons.mp (hseq.mem_iff.mp hk) with rfl | hk
    · exact .inr (by simp)
    · exact .inl (h.called hk)
  · rcases mem_cons.mp (hseq.mem_iff.mp hk) with rfl | hk
    · exact hge
    · exact h.fresh k hk
  · rw [map_append, mem_append]
    exact .inl (h.consumed k hk)
  · rcases mem_cons.mp (hout.mem_iff.mp hq) with rfl | hq
    · exact hne
    · exact h.nonempty q hq

end Distinct

/-- What holds of a queue to which every packet is pushed once. -/
structure InOrder (f : ℕ → Bytes) (s : State) : Prop where
  reassembly : ∃ c, Reassembly f s c
  accounted : Accounted s
  distinct : Distinct s

theorem inOrder_step {f : ℕ → Bytes} {s s' : State} {a : Act} (h : InOrder f s)
    (ha : FreshPush f s a) (hs : step s a = some s') : InOrder f s' := by
  obtain ⟨c, hr⟩ := h.reassembly
  refine ⟨reassembly_step hr ha.1 (fun _ => h.distinct.not_splitsCopy) hs,
    accounted_step h.accounted hr hs, ?_⟩
  cases step_cases hs with
  | pushCall p => exact h.distinct.pushCall (ha.2 p rfl).1 (ha.2 p rfl).2
  | pushClose _ _ _ hs => exact h.distinct.pushClose hs
  | readCall n hpc _ => exact h.distinct.move rfl (List.Subperm.refl _) rfl rfl (by simp)
  | callStream n r hpc hreader => simp [hr.reader] at hreader
  | readStep _ hs => exact h.distinct.readStep hs
  | streamReturn n data failed hpc => exact absurd hpc (hr.noStream n)

theorem inOrder_run {f : ℕ → Bytes} {m : ℕ} {as : List Act} {s : State}
    (hfresh : Along step (FreshPush f) (newUploadQueue m) as)
    (hrun : run step (newUploadQueue m) as = some s) : InOrder f s :=
  run_induction_along (fun _ _ _ h ha hs => inOrder_step h ha hs)
    ⟨⟨[], reassembly_init f m⟩, accounted_init m, distinct_init m⟩ hfresh hrun

end XHTTP.UploadQueue

import Gost.XHTTP.UploadQueue.Delivery

/-!
# Retransmitted packets

`PostPacket` may send a packet again on another pooled connection, so the queue can be handed
several copies of it. Copies of a number below `nextSeq` are dropped by the loop in `Read`, and a
copy that arrives while its packet waits in the heap is harmless as long as the packet is returned
in one piece. Two steps of `Read` are not safe against copies: one that splits a packet with a
copy in the heap (`SplitsCopy`), and one that finds the heap too large (`Overflows`), to which
copies contribute.

`retransmission_idempotent` is the result for runs without such steps, `copies_change_stream`
shows what each of the two steps does.
-/

namespace XHTTP.UploadQueue

open BinaryHeap List TransitionSystem

/-- `ps'` is `ps` with copies of packets inserted, each after the packet it copies. -/
inductive Retransmits : List Packet → List Packet → Prop
  | refl (ps : List Packet) : Retransmits ps ps
  | insert {ps l r : List Packet} {p : Packet} :
      Retransmits ps (l ++ r) → p ∈ l → Retransmits ps (l ++ p :: r)

/-- Copies add no new packet. -/
theorem Retransmits.mem_iff {ps ps' : List Packet} (h : Retransmits ps ps') (q : Packet) :
    q ∈ ps' ↔ q ∈ ps := by
  induction h with
  | refl => exact Iff.rfl
  | @insert l r p _ hp ih =>
    rw [← ih, mem_append, mem_append, mem_cons]
    constructor
    · rintro (hq | rfl | hq)
      · exact .inl hq
      · exact .inl hp
      · exact .inr hq
    · exact Or.imp_right .inr

theorem Retransmits.deliverable_eq {ps ps' : List Packet} (h : Retransmits ps ps')
    (f : ℕ → Bytes) : deliverable f ps' = deliverable f ps := by
  refine congrArg (stream f) (firstMissing_congr fun k => ?_)
  simp only [mem_map, h.mem_iff]

/-- The step is safe against copies: packets carry the payload of their number, and the step of
`Read` neither splits a packet that has a copy in the heap nor finds the heap too large. -/
def CopySafe (f : ℕ → Bytes) (s : State) (a : Act) : Prop :=
  Genuine f a ∧ (a = .readStep → ¬SplitsCopy s ∧ ¬Overflows s)

instance (f : ℕ → Bytes) (s : State) (a : Act) : Decidable (CopySafe f s a) :=
  inferInstanceAs (Decidable (_ ∧ _))

/-- What a queue whose steps are all safe against copies satisfies. -/
structure Intact (f : ℕ → Bytes) (s : State) : Prop where
  reassembly : ∃ c, Reassembly f s c
  accounted : Accounted s
  noOverflow : ∀ r ∈ s.reads, r.err ≠ some .tooLarge

theorem intact_init (f : ℕ → Bytes) (m : ℕ) : Intact f (newUploadQueue m) where
  reassembly := ⟨[], reassembly_init f m⟩
  accounted := accounted_init m
  noOverflow := by simp [newUploadQueue]

section Step

variable {f : ℕ → Bytes} {s s' : State}

theorem noOverflow_finishRead (h : ∀ r ∈ s.reads, r.err ≠ some .tooLarge) {n : ℕ} {data : Bytes}
    {err : Option ReadError} (herr : err ≠ some .tooLarge) :
    ∀ r ∈ (s.finishRead n data err).reads, r.err ≠ some .tooLarge := by
  intro r hr
  rcases mem_append.mp hr with hr | hr
  · exact h r hr
  · rw [mem_singleton.mp hr]
    exact herr

/-- A step of `Read` on a heap that is not too large does not fail with that error. -/
theorem ReadStep.noOverflow (h : ∀ r ∈ s.reads, r.err ≠ some .tooLarge) (hbig : ¬Overflows s)
    (hs : ReadStep s s') : ∀ r ∈ s'.reads, r.err ≠ some .tooLarge := by
  cases hs with
  | eof n _ => exact noOverflow_finishRead h (by simp)
  | toRecv | toLoop | toStream | receive => exact h
  | loop n s' hpc hs =>
    cases hs with
    | empty | part | whole => exact noOverflow_finishRead h (by simp)
    | overflow p heap hpop hlt hlen =>
      obtain ⟨rest, hheap, hperm⟩ := exists_cons_of_pop hpop
      rw [Overflows, hpc, hheap] at hbig
      exact absurd ⟨hlt, hperm.length_eq ▸ hlen⟩ hbig
    | wait | stale => exact h

theorem intact_step {a : Act} (h : Intact f s) (ha : CopySafe f s a) (hs : step s a = some s') :
    Intact f s' := by
  obtain ⟨c, hr⟩ := h.reassembly
  refine ⟨reassembly_step hr ha.1 (fun hread => (ha.2 hread).1) hs,
    accounted_step h.accounted hr hs, ?_⟩
  cases step_cases hs with
  | pushCall | readCall | callStream => exact h.noOverflow
  | pushClose _ _ _ hs => exact hs.reads ▸ h.noOverflow
  | readStep _ hs => exact hs.noOverflow h.noOverflow (ha.2 rfl).2
  | streamReturn n data failed hpc => exact absurd hpc (hr.noStream n)

theorem intact_run {m : ℕ} {as : List Act} (hsafe : Along step (CopySafe f) (newUploadQueue m) as)
    (hrun : run step (newUploadQueue m) as = some s) : Intact f s :=
  run_induction_along (fun _ _ _ hi hg hs => intact_step hi hg hs) (intact_init f m) hsafe hrun

end Step

namespace Intact

variable {f : ℕ → Bytes} {s : State}

theorem returned_prefix (h : Intact f s) : s.returned <+: deliverable f s.sent := by
  obtain ⟨c, hr⟩ := h.reassembly
  exact returned_prefix_deliverable hr h.accounted

theorem returned_eq (h : Intact f s) (hclosed : s.closed = false) (hwait : s.Waiting) :
    s.returned = deliverable f s.sent := by
  obtain ⟨c, hr⟩ := h.reassembly
  exact returned_eq_of_waiting hr h.accounted hclosed h.noOverflow hwait

theorem read_returns (h : Intact f s) (hclosed : s.closed = false)
    (hmore : s.returned ≠ deliverable f s.sent) :
    ∃ j s', run step s (List.replicate j .readStep) = some s' ∧ s'.pc = .idle := by
  obtain ⟨c, hr⟩ := h.reassembly
  exact UploadQueue.read_returns hr h.accounted hclosed h.noOverflow hmore

theorem goodReads_le (h : Intact f s) : s.goodReads ≤ s.returned.length + s.sent.length := by
  have := h.accounted.counted
  omega

end Intact

/-- Retransmission is idempotent in runs that are safe against copies. Let `s'` be reached with the
packets sent in `s` and copies of them, by any interleaving and with any buffer sizes. Both runs
return bytes of one stream, which has each payload once and in order, and both have returned all
of it when their readers wait for a packet. The reader gets there: as long as bytes are missing
its `Read` returns without further packets, and at most one successful `Read` for each byte and
each packet sent can come before. -/
theorem retransmission_idempotent (f : ℕ → Bytes) (m : ℕ) (as as' : List Act) (s s' : State)
    (hrun : run step (newUploadQueue m) as = some s)
    (hrun' : run step (newUploadQueue m) as' = some s')
    (hsafe : Along step (CopySafe f) (newUploadQueue m) as)
    (hsafe' : Along step (CopySafe f) (newUploadQueue m) as')
    (hcopies : Retransmits s.sent s'.sent) :
    s.returned <+: deliverable f s.sent ∧ s'.returned <+: deliverable f s.sent ∧
    (s.closed = false → s.Waiting → s'.closed = false → s'.Waiting → s'.returned = s.returned) ∧
    (s'.closed = false → s'.Waiting → s'.returned = deliverable f s.sent) ∧
    (s'.closed = false → s'.returned ≠ deliverable f s.sent →
      ∃ j t, run step s' (List.replicate j .readStep) = some t ∧ t.pc = .idle) ∧
    s'.goodReads ≤ s'.returned.length + s'.sent.length := by
  have hi := intact_run hsafe hrun
  have hi' := intact_run hsafe' hrun'
  have hsame : deliverable f s'.sent = deliverable f s.sent := hcopies.deliverable_eq f
  refine ⟨hi.returned_prefix, hsame ▸ hi'.returned_prefix, ?_, hsame ▸ hi'.returned_eq,
    hsame ▸ hi'.read_returns, hi'.goodReads_le⟩
  intro hclosed hwait hclosed' hwait'
  rw [hi'.returned_eq hclosed' hwait', hi.returned_eq hclosed hwait, hsame]

/-! ## Runs on concrete packets -/

/-- One `Push` call from start to end, with no other call waiting. -/
def pushAll (p : Packet) : List Act := [.pushCall p, .pushLock 0, .pushSend]

/-- One `Read` call with `j` steps. -/
def readAll (n j : ℕ) : List Act := .readCall n :: List.replicate j .readStep

/-- Packet `k`, with a payload of two bytes for `k = 1`. -/
def samplePacket (k : ℕ) : Packet :=
  { payload := if k = 1 then bytes "AB" else bytes "x", seq := k }

/-- Packet 1 overtakes packet 0, and both are read with buffers of one byte. -/
def overtakeRun : List Act :=
  pushAll (samplePacket 1) ++ pushAll (samplePacket 0) ++
    readAll 1 5 ++ readAll 1 2 ++ readAll 1 2 ++ readAll 1 1

/-- The same with a copy of packet 1 and buffers of `n` bytes. -/
def overtakeCopyRun (n : ℕ) : List Act :=
  pushAll (samplePacket 1) ++ pushAll (samplePacket 1) ++ pushAll (samplePacket 0) ++
    readAll n 7 ++ readAll n 2 ++ readAll n 2

theorem retransmits_samplePacket :
    Retransmits [samplePacket 1, samplePacket 0] [samplePacket 1, samplePacket 1, samplePacket 0] :=
  @Retransmits.insert _ [samplePacket 1] [samplePacket 0] _ (.refl _) (by simp)

/-- With buffers of two bytes the copy changes nothing: the third `Read` drops it and returns
nothing, the fourth waits. -/
theorem retransmission_idempotent_overtake :
    ∃ s s', run step (newUploadQueue 4) overtakeRun = some s ∧
      run step (newUploadQueue 4) (overtakeCopyRun 2 ++ .readStep :: readAll 2 1) = some s' ∧
      s.Waiting ∧ s'.Waiting ∧ s'.returned = s.returned := by
  refine ⟨_, _, rfl, rfl, by decide, by decide, ?_⟩
  exact (retransmission_idempotent (fun k => (samplePacket k).payload) 4 overtakeRun
    (overtakeCopyRun 2 ++ .readStep :: readAll 2 1) _ _ rfl rfl (by decide) (by decide)
    retransmits_samplePacket).2.2.1 rfl (by decide) rfl (by decide)

/-- Packets 1, 2 and 0 arrive at a queue of capacity 1 while its reader waits for each of them. -/
def smallRun : List Act :=
  readAll 8 1 ++ pushAll (samplePacket 1) ++ [Act.readStep, Act.readStep] ++
    pushAll (samplePacket 2) ++ [Act.readStep, Act.readStep] ++ pushAll (samplePacket 0) ++
    [Act.readStep, Act.readStep] ++ readAll 8 2 ++ readAll 8 2

/-- The same with a copy of packet 2. -/
def smallCopyRun : List Act :=
  readAll 8 1 ++ pushAll (samplePacket 1) ++ [Act.readStep, Act.readStep] ++
    pushAll (samplePacket 2) ++ [Act.readStep, Act.readStep] ++ pushAll (samplePacket 2) ++
    [Act.readStep, Act.readStep] ++ pushAll (samplePacket 0) ++ readAll 8 4 ++ readAll 8 2

/-- Copies change the returned stream. A copy of a packet that is read in parts makes `Read` return
its first byte twice; a copy that makes the heap too large loses packet 1, which was pushed
once, and the reader waits for it. -/
theorem copies_change_stream :
    (∃ s s', run step (newUploadQueue 4) overtakeRun = some s ∧
      run step (newUploadQueue 4) (overtakeCopyRun 1) = some s' ∧
      Retransmits s.sent s'.sent ∧ s.returned = bytes "xAB" ∧ s'.returned = bytes "xAA") ∧
    (∃ s s', run step (newUploadQueue 1) smallRun = some s ∧
      run step (newUploadQueue 1) smallCopyRun = some s' ∧
      Retransmits s.sent s'.sent ∧ s.returned = bytes "xABx" ∧
      s'.returned = bytes "x" ∧ s'.Waiting ∧ 1 ∉ s'.unread.map Packet.seq) := by
  refine ⟨⟨_, _, rfl, rfl, retransmits_samplePacket, rfl, rfl⟩,
    ⟨_, _, rfl, rfl, ?_, rfl, rfl, by decide, by decide⟩⟩
  exact @Retransmits.insert _ [samplePacket 1, samplePacket 2] [samplePacket 0] _ (.refl _)
    (by simp)

end XHTTP.UploadQueue

import Gost.XHTTP.PacketUp.Transfer
import Gost.XHTTP.UploadQueue.Distinct

/-!
# The packet-up uplink

The client of `PacketUp`, a network that hands each of its POSTs to the server at most once, at
any time and in any order, and the upload queue of the session. A POST may reach the server before
or after `PostPacket` has returned, or not at all, and a failed `PostPacket` may still have
delivered its payload.

`uplink_stream`: the reader of the queue sees the bytes that the application wrote, in order and
without loss or duplication.
-/

namespace XHTTP.Uplink

open List Option TransitionSystem

/-- Both ends of the uplink. -/
structure State where
  client : PacketUp.State
  queue : UploadQueue.State
deriving DecidableEq

/-- A fresh connection. -/
def init (maxUploadSize maxPackets : ℕ) : State where
  client := PacketUp.init maxUploadSize
  queue := UploadQueue.newUploadQueue maxPackets

/-- The actions of the two ends and of the network. -/
inductive Act
  | client (a : PacketUp.Act)
  -- POST `k` arrives and its handler calls `Push`
  | deliver (k : ℕ)
  -- a `Push` in progress, a `Close` or a `Read` moves on
  | queue (a : UploadQueue.Act)

/-- The queue takes a step. -/
def queueStep (s : State) (a : UploadQueue.Act) : Option State :=
  (UploadQueue.step s.queue a).map fun q => { s with queue := q }

/-- One step of the uplink. -/
def step (s : State) : Act → Option State
  | .client a => (PacketUp.step s.client a).map fun c => { s with client := c }
  | .deliver k =>
    match s.client.posted[k]? with
    | some payload =>
      if k ∈ s.queue.calls.map Packet.seq then none
      else queueStep s (.pushCall { payload := payload, seq := k })
    | none => none
  | .queue (.pushCall _) => none
  | .queue a => queueStep s a

/-! ## The queue's part of a run -/

/-- A `Push` brings a payload that was posted under its number, and for the first time. -/
def Posted (posted : List Bytes) (q : UploadQueue.State) (a : UploadQueue.Act) : Prop :=
  ∀ p, a = .pushCall p →
    p.reader = none ∧ posted[p.seq]? = some p.payload ∧ p.seq ∉ q.calls.map Packet.seq

variable {a : UploadQueue.Act} {m : ℕ} {s s' : State}

theorem Posted.mono {posted posted' : List Bytes} (hle : posted <+: posted') {q : UploadQueue.State}
    (h : Posted posted q a) : Posted posted' q a := by
  intro p hp
  obtain ⟨hreader, hget, hnew⟩ := h p hp
  refine ⟨hreader, ?_, hnew⟩
  obtain ⟨rest, rfl⟩ := hle
  rw [List.getElem?_append_left (List.getElem?_eq_some_iff.mp hget).1, hget]

/-- The queue of the uplink has come to its state by a run of its own, in which every packet was
posted before. -/
def Projects (maxPackets : ℕ) (s : State) : Prop :=
  ∃ as, run UploadQueue.step (UploadQueue.newUploadQueue maxPackets) as = some s.queue ∧
    Along UploadQueue.step (Posted s.client.posted) (UploadQueue.newUploadQueue maxPackets) as

theorem posted_prefix_step {s s' : PacketUp.State} {a : PacketUp.Act}
    (hs : PacketUp.step s a = some s') : s.posted <+: s'.posted := by
  cases PacketUp.step_cases hs with
  | postCall r hpc => exact prefix_append _ _
  | _ => exact prefix_rfl

theorem Projects.queueStep (h : Projects m s) (ha : Posted s.client.posted s.queue a)
    (hs : queueStep s a = some s') : Projects m s' := by
  obtain ⟨as, hrun, halong⟩ := h
  obtain ⟨q, hq, rfl⟩ := map_eq_some_iff.mp hs
  exact ⟨as ++ [a], run_concat hrun hq, halong.concat hrun ha⟩

theorem projects_step {a : Act} (h : Projects m s) (hs : step s a = some s') : Projects m s' := by
  cases a with
  | client a =>
    obtain ⟨c, hc, rfl⟩ := map_eq_some_iff.mp hs
    obtain ⟨as, hrun, halong⟩ := h
    exact ⟨as, hrun, halong.mono fun _ _ => Posted.mono (posted_prefix_step hc)⟩
  | deliver k =>
    simp only [step] at hs
    split at hs
    next payload hget =>
      split_ifs at hs with hnew
      refine h.queueStep ?_ hs
      intro p hp
      rw [UploadQueue.Act.pushCall.injEq] at hp
      subst hp
      exact ⟨rfl, hget, hnew⟩
    next => cases hs
  | queue a =>
    cases a with
    | pushCall p => cases hs
    | _ => exact h.queueStep (fun p hp => by cases hp) hs

/-- The client of the uplink runs as it does alone. -/
theorem transfer_step {a : Act} (h : PacketUp.Transfer s.client) (hs : step s a = some s') :
    PacketUp.Transfer s'.client := by
  have hqueue : ∀ b, queueStep s b = some s' → s'.client = s.client := by
    intro b hb
    obtain ⟨q, -, rfl⟩ := map_eq_some_iff.mp hb
    rfl
  cases a with
  | client a =>
    obtain ⟨c, hc, rfl⟩ := map_eq_some_iff.mp hs
    exact PacketUp.transfer_step h hc
  | deliver k =>
    simp only [step] at hs
    split at hs
    · split_ifs at hs
      exact hqueue _ hs ▸ h
    · cases hs
  | queue a =>
    cases a with
    | pushCall p => cases hs
    | _ => exact hqueue _ hs ▸ h

/-! ## The stream -/

/-- The payload of packet `k`. -/
def payload (posted : List Bytes) (k : ℕ) : Bytes := posted.getD k []

theorem stream_payload (posted : List Bytes) (k : ℕ) :
    UploadQueue.stream (payload posted) k = (posted.take k).flatten := by
  induction k with
  | zero => simp
  | succ k ih =>
    rw [UploadQueue.stream_succ, ih, take_add_one, flatten_append, payload, getD_eq_getElem?_getD]
    cases posted[k]? <;> simp

theorem inOrder_of_projects (h : Projects m s) (ht : PacketUp.Transfer s.client) :
    UploadQueue.InOrder (payload s.client.posted) s.queue := by
  obtain ⟨as, hrun, halong⟩ := h
  refine UploadQueue.inOrder_run (halong.mono fun q a ha => ?_) hrun
  refine ⟨?_, fun p hp => ?_⟩
  · cases a with
    | pushCall p =>
      obtain ⟨hreader, hget, -⟩ := ha p rfl
      refine ⟨hreader, ?_⟩
      rw [payload, getD_eq_getElem?_getD, hget, getD_some]
    | _ => trivial
  · obtain ⟨-, hget, hnew⟩ := ha p hp
    exact ⟨ht.posted _ (mem_of_getElem? hget), hnew⟩

/-- The packet-up uplink is a byte stream. In every run the bytes returned by `Read` are an
initial part of the bytes accepted by `Write`. If no `Read` has failed and the packets
`0, …, k - 1` have been pushed, then the payloads of these have been returned once as many `Read`
calls with room have returned as there are bytes, or once the reader waits for a packet; they are
all that has been returned if packet `k` was not pushed; and before that, a `Read` in progress
returns by its own steps. -/
theorem uplink_stream (maxUploadSize maxPackets : ℕ) (hsize : 0 < maxUploadSize) (as : List Act)
    (s : State) (hrun : run step (init maxUploadSize maxPackets) as = some s) :
    s.queue.returned <+: s.client.accepted ∧
    ∀ k, (∀ r ∈ s.queue.reads, r.err = none) → (∀ j < k, j ∈ s.queue.sent.map Packet.seq) →
      ((s.client.posted.take k).flatten.length ≤ s.queue.goodReads ∨
          s.queue.closed = false ∧ s.queue.Waiting →
        (s.client.posted.take k).flatten <+: s.queue.returned ∧
        (k ∉ s.queue.sent.map Packet.seq →
          s.queue.returned = (s.client.posted.take k).flatten)) ∧
      (s.queue.closed = false → ¬(s.client.posted.take k).flatten <+: s.queue.returned →
        ∃ j t, run UploadQueue.step s.queue (List.replicate j .readStep) = some t ∧
          t.pc = .idle) := by
  have ht : PacketUp.Transfer s.client :=
    run_induction (fun _ _ _ h hs => transfer_step h hs) (PacketUp.transfer_init hsize) hrun
  have hproj : Projects maxPackets s :=
    run_induction (fun _ _ _ h hs => projects_step h hs) ⟨[], rfl, trivial⟩ hrun
  have hin := inOrder_of_projects hproj ht
  obtain ⟨c, hr⟩ := hin.reassembly
  have hupper := UploadQueue.returned_prefix_deliverable hr hin.accounted
  refine ⟨?_, fun k hok hsent => ?_⟩
  · refine hupper.trans (List.IsPrefix.trans ?_ ht.posted_prefix)
    rw [UploadQueue.deliverable, stream_payload]
    exact ( take_prefix _ _).flatten
  · have htoo : ∀ r ∈ s.queue.reads, r.err ≠ some .tooLarge := fun r hr => by simp [hok r hr]
    have hdeliver : (s.client.posted.take k).flatten <+:
        UploadQueue.deliverable (payload s.client.posted) s.queue.sent := by
      rw [← stream_payload]
      exact UploadQueue.stream_mono _ (UploadQueue.le_firstMissing.mpr hsent)
    refine ⟨fun henough => ?_, fun hopen hmore => ?_⟩
    · have hhead : (s.client.posted.take k).flatten <+: s.queue.returned := by
        rcases henough with hcount | ⟨hopen, hwait⟩
        · exact prefix_of_prefix_length_le hdeliver hupper
            (hcount.trans hin.distinct.reads)
        · rw [UploadQueue.returned_eq_of_waiting hr hin.accounted hopen htoo hwait]
          exact hdeliver
      refine ⟨hhead, fun hmissing => ?_⟩
      have hfirst : UploadQueue.firstMissing s.queue.sent = k :=
        le_antisymm (Nat.find_min' _ hmissing) (UploadQueue.le_firstMissing.mpr hsent)
      rw [UploadQueue.deliverable, hfirst, stream_payload] at hupper
      exact hupper.eq_of_length_le hhead.length_le
    · refine UploadQueue.read_returns hr hin.accounted hopen htoo fun heq => hmore ?_
      rw [heq]
      exact hdeliver

/-- Two bytes go out in two POSTs, the second one overtakes the first, and both are read. -/
def overtakeRun : List Act :=
  ([.client (.writeCall (bytes "AB")), .client (.write 0), .client .readChunk, .client .postCall,
    .client (.postReturn true), .client (.write 0), .client .readChunk, .client .postCall,
    .deliver 1, .queue (.pushLock 0), .queue .pushSend,
    .deliver 0, .queue (.pushLock 0), .queue .pushSend] : List Act) ++
  (.queue (.readCall 8) :: List.replicate 5 (.queue .readStep)) ++
  (.queue (.readCall 8) :: List.replicate 2 (.queue .readStep)) ++
  [.queue (.readCall 8), .queue .readStep]

theorem uplink_stream_overtake :
    ∃ s, run step (init 1 4) overtakeRun = some s ∧ s.queue.Waiting ∧
      s.queue.returned = (s.client.posted.take 2).flatten := by
  refine ⟨_, rfl, by decide, ?_⟩
  exact (((uplink_stream 1 4 (by decide) overtakeRun _ rfl).2 2 (by decide) (by decide)).1
    (.inr ⟨rfl, by decide⟩)).2 (by decide)

end XHTTP.Uplink

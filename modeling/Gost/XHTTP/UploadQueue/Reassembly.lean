import Gost.XHTTP.UploadQueue.Steps

/-!
# Reassembly of the pushed packets

What `Read` hands out, for packets `k` of payload `f k`. Copies of a packet may be pushed, in
any order and at any time.

The invariant is `Reassembly f s c`: the bytes returned so far are `f 0, …, f (nextSeq - 1)`
followed by the part `c` of `f nextSeq`, and what is left of that payload is in the heap, in
one packet. Two things can go wrong in a step of `Read`, and both are read off the state before
it:

* `SplitsCopy`: the packet at the root is handed out in part while the heap holds another copy
  of it. The copy then hides the remainder, and the bytes already returned are returned again;
* `Overflows`: a misordered packet is dropped because the heap is too large.

`reassembly_step` shows that the invariant survives every step that does not split a copy.
-/

namespace XHTTP.UploadQueue

open BinaryHeap List TransitionSystem

/-- The payloads `f 0, …, f (n - 1)` in order. -/
def stream (f : ℕ → Bytes) (n : ℕ) : Bytes := (List.range n).flatMap f

@[simp]
theorem stream_zero (f : ℕ → Bytes) : stream f 0 = [] := rfl

theorem stream_succ (f : ℕ → Bytes) (n : ℕ) : stream f (n + 1) = stream f n ++ f n := by
  simp [stream, range_succ]

variable {n : ℕ}

theorem stream_mono (f : ℕ → Bytes) {m : ℕ} (h : m ≤ n) : stream f m <+: stream f n := by
  induction n, h using Nat.le_induction with
  | base => exact prefix_rfl
  | succ n _ ih => exact ih.trans (stream_succ f n ▸ prefix_append _ _)

/-- The next step of `Read` hands out a part of the packet it pops, while the heap holds another
packet of that sequence number. -/
def SplitsCopy (s : State) : Prop :=
  match s.pc, s.heap with
  | .loop n, p :: rest =>
    p.seq = s.nextSeq ∧ 0 < n ∧ n < p.payload.length ∧ ∃ q ∈ rest, q.seq = s.nextSeq
  | _, _ => False

instance : DecidablePred SplitsCopy := fun s => by
  unfold SplitsCopy
  split <;> infer_instance

/-- The next step of `Read` fails with "packet queue is too large". -/
def Overflows (s : State) : Prop :=
  match s.pc, s.heap with
  | .loop _, p :: rest => s.nextSeq < p.seq ∧ s.maxPackets < rest.length
  | _, _ => False

instance : DecidablePred Overflows := fun s => by
  unfold Overflows
  split <;> infer_instance

/-- A `Push` call carries a packet-up packet, with the payload `f` gives its number. -/
def Genuine (f : ℕ → Bytes) : Act → Prop
  | .pushCall p => p.reader = none ∧ p.payload = f p.seq
  | _ => True

instance (f : ℕ → Bytes) : DecidablePred (Genuine f) := fun a => by
  unfold Genuine
  split <;> infer_instance

/-! ## What the packets in the heap carry -/

/-- The packets of a heap carry what is still to be returned when `next` is the expected number
and `c` is the part of that packet which has been returned already. If there is such a part, the
remainder is in one packet. -/
structure Held (f : ℕ → Bytes) (next : ℕ) (c : Bytes) (heap : List Packet) : Prop where
  whole : ∀ p ∈ heap, p.seq ≠ next → p.payload = f p.seq
  rest : ∀ p ∈ heap, p.seq = next → f next = c ++ p.payload
  single : c ≠ [] → (heap.filter (·.seq = next)).length = 1
  consumed : c <+: f next

namespace Held

variable {f : ℕ → Bytes} {next : ℕ} {c : Bytes} {p : Packet} {l l' : List Packet}

theorem nil (f : ℕ → Bytes) (next : ℕ) : Held f next [] [] := by
  constructor <;> simp

theorem perm (h : Held f next c l) (hl : l'.Perm l) : Held f next c l' where
  whole q hq := h.whole q (hl.mem_iff.mp hq)
  rest q hq := h.rest q (hl.mem_iff.mp hq)
  single hc := (hl.filter _).length_eq.trans (h.single hc)
  consumed := h.consumed

/-- Nothing of packet `next` has been returned if no packet of that number is held. -/
theorem not_started (h : Held f next c l) (hnone : ∀ q ∈ l, q.seq ≠ next) : c = [] := by
  by_contra hc
  have hone := h.single hc
  rw [filter_eq_nil_iff.mpr (by simpa using hnone)] at hone
  simp at hone

/-- The remainder of a packet that was returned in part has no copy. -/
theorem no_copy (h : Held f next c (p :: l)) (hp : p.seq = next) (hc : c ≠ []) :
    ∀ q ∈ l, q.seq ≠ next := by
  have hone := h.single hc
  rw [filter_cons_of_pos (by simpa using hp), length_cons, Nat.add_eq_right,
    length_eq_zero_iff, filter_eq_nil_iff] at hone
  simpa using hone

/-- A packet arrives while packet `next` is not held. -/
theorem receive (h : Held f next c l) (hp : p.payload = f p.seq)
    (hnone : ∀ q ∈ l, q.seq ≠ next) : Held f next c (p :: l) := by
  have hc := h.not_started hnone
  subst hc
  refine ⟨fun q hq hne => ?_, fun q hq heq => ?_, fun hne => absurd rfl hne, h.consumed⟩
  · rcases mem_cons.mp hq with rfl | hq
    · exact hp
    · exact h.whole q hq hne
  · rcases mem_cons.mp hq with rfl | hq
    · rw [nil_append, hp, heq]
    · exact h.rest q hq heq

/-- Another packet than `next` is removed. -/
theorem drop (h : Held f next c (p :: l)) (hp : p.seq ≠ next) : Held f next c l where
  whole q hq := h.whole q (mem_cons_of_mem p hq)
  rest q hq := h.rest q (mem_cons_of_mem p hq)
  single hc := by
    have hone := h.single hc
    rwa [filter_cons_of_neg (by simpa using hp)] at hone
  consumed := h.consumed

/-- Packet `next` is returned in full; its copies become stale. -/
theorem advance (h : Held f next c (p :: l)) (hp : p.seq = next) : Held f (next + 1) [] l := by
  refine ⟨fun q hq _ => ?_, fun q hq heq => ?_, fun hne => absurd rfl hne, nil_prefix⟩
  · have hq' := mem_cons_of_mem p hq
    by_cases hqn : q.seq = next
    · -- a copy is left only if nothing had been returned before
      have hc : c = [] := by
        by_contra hc
        exact h.no_copy hp hc q hq hqn
      rw [hqn, h.rest q hq' hqn, hc, nil_append]
    · exact h.whole q hq' hqn
  · rw [nil_append, ← heq]
    exact (h.whole q (mem_cons_of_mem p hq) (by omega)).symm

/-- The first `n` bytes of packet `next` are returned. A copy may be left only if `n = 0`. -/
theorem split (h : Held f next c (p :: l)) (hp : p.seq = next) (n : ℕ)
    (hcopy : 0 < n → ∀ q ∈ l, q.seq ≠ next) :
    Held f next (c ++ p.payload.take n) ({ p with payload := p.payload.drop n } :: l) := by
  have hf : f next = c ++ p.payload := h.rest p mem_cons_self hp
  have hnone : c ++ p.payload.take n ≠ [] → ∀ q ∈ l, q.seq ≠ next := by
    intro hne
    rcases Nat.eq_zero_or_pos n with rfl | hn
    · exact h.no_copy hp (by simpa using hne)
    · exact hcopy hn
  refine ⟨fun q hq hne => ?_, fun q hq heq => ?_, fun hne => ?_, ?_⟩
  · rcases mem_cons.mp hq with rfl | hq
    · exact absurd hp hne
    · exact h.whole q (mem_cons_of_mem p hq) hne
  · rcases mem_cons.mp hq with rfl | hq
    · rw [append_assoc, take_append_drop, hf]
    · have hnil : c ++ p.payload.take n = [] := by
        by_contra hne
        exact hnone hne q hq heq
      have hc := (append_eq_nil_iff.mp hnil).1
      have hrest := h.rest q (mem_cons_of_mem p hq) heq
      rw [hc] at hrest
      rw [hnil]
      exact hrest
  · rw [filter_cons_of_pos (by simpa using hp), filter_eq_nil_iff.mpr (by simpa using hnone hne)]
    rfl
  · rw [hf, prefix_append_right_inj]
    exact take_prefix n p.payload

end Held

/-! ## The reassembly invariant -/

@[simp]
theorem returned_finishRead (s : State) (n : ℕ) (data : Bytes) (err : Option ReadError) :
    (s.finishRead n data err).returned = s.returned ++ data := by
  simp [State.returned, State.finishRead]

/-- The queue holds packets of payload `f` only, the bytes returned so far are `f 0, …,
f (nextSeq - 1)` and the part `c` of `f nextSeq`, and the heap carries the rest. -/
structure Reassembly (f : ℕ → Bytes) (s : State) (c : Bytes) : Prop where
  ordered : IsHeap Packet.seq s.heap
  held : Held f s.nextSeq c s.heap
  returned : s.returned = stream f s.nextSeq ++ c
  genuine : ∀ p ∈ s.inPush ++ s.pushedPackets, p.reader = none ∧ p.payload = f p.seq
  reader : s.reader = none
  noStream : ∀ n, s.pc ≠ .stream n
  recvFirst : ∀ n, s.pc = .recvFirst n → s.heap = []
  recvNext : ∀ n, s.pc = .recvNext n → ∀ p ∈ s.heap, s.nextSeq < p.seq

theorem reassembly_init (f : ℕ → Bytes) (m : ℕ) : Reassembly f (newUploadQueue m) [] where
  ordered := IsHeap.nil
  held := .nil f 0
  returned := rfl
  genuine := by simp [newUploadQueue, State.inPush]
  reader := rfl
  noStream := by simp [newUploadQueue]
  recvFirst := by simp [newUploadQueue]
  recvNext := by simp [newUploadQueue]

namespace Reassembly

variable {f : ℕ → Bytes} {s s' : State} {c : Bytes}

/-- A step that leaves the heap, `nextSeq` and the returned bytes alone. -/
theorem frame (h : Reassembly f s c) (hheap : s'.heap = s.heap) (hnext : s'.nextSeq = s.nextSeq)
    (hreads : s'.returned = s.returned) (hreader : s'.reader = none)
    (hgenuine : ∀ p ∈ s'.inPush ++ s'.pushedPackets, p ∈ s.inPush ++ s.pushedPackets)
    (hpc : (∀ n, s'.pc ≠ .stream n) ∧ (∀ n, s'.pc = .recvFirst n → s.heap = []) ∧
      (∀ n, s'.pc = .recvNext n → s.pc = .recvNext n)) : Reassembly f s' c where
  ordered := hheap ▸ h.ordered
  held := by rw [hheap, hnext]; exact h.held
  returned := by rw [hreads, hnext, h.returned]
  genuine p hp := h.genuine p (hgenuine p hp)
  reader := hreader
  noStream := hpc.1
  recvFirst n hn := hheap ▸ hpc.2.1 n hn
  recvNext n hn := by
    rw [hheap, hnext]
    exact h.recvNext n (hpc.2.2 n hn)

variable {p : Packet} {heap : List Packet}

/-- A packet received from the channel goes to the heap. -/
theorem receive (h : Reassembly f s c) {rest : List Packet} (hchan : s.pushedPackets = p :: rest)
    (hnone : ∀ q ∈ s.heap, q.seq ≠ s.nextSeq) :
    Reassembly f { s with
      pushedPackets := rest, heap := push Packet.seq s.heap p, pc := .loop n } c := by
  have hp : p.payload = f p.seq := (h.genuine p (by simp [hchan])).2
  refine { h with
    ordered := h.ordered.push p
    held := (h.held.receive hp hnone).perm (push_perm s.heap p)
    genuine := fun q hq => h.genuine q ?_
    noStream := by simp
    recvFirst := by simp
    recvNext := by simp }
  rw [hchan, mem_append, mem_cons]
  rcases mem_append.mp hq with hq | hq
  · exact .inl hq
  · exact .inr (.inr hq)

/-- The `Read` in progress returns `data` and leaves the heap `heap` behind. -/
theorem finish (h : Reassembly f s c) {c' : Bytes} {next : ℕ} {data : Bytes}
    {err : Option ReadError} (hord : IsHeap Packet.seq heap) (hheld : Held f next c' heap)
    (hdata : stream f s.nextSeq ++ c ++ data = stream f next ++ c') :
    Reassembly f ({ s with heap := heap, nextSeq := next }.finishRead n data err) c' where
  ordered := hord
  held := hheld
  returned := by
    rw [returned_finishRead]
    change s.returned ++ data = stream f next ++ c'
    rw [h.returned, hdata]
  genuine := h.genuine
  reader := h.reader
  noStream := by simp [State.finishRead]
  recvFirst := by simp [State.finishRead]
  recvNext := by simp [State.finishRead]

theorem held_pop (h : Reassembly f s c) (hpop : pop Packet.seq s.heap = some (p, heap)) :
    Held f s.nextSeq c (p :: heap) :=
  h.held.perm (pop_perm hpop).symm

/-- One iteration of the loop that does not split a copy. -/
theorem loop (h : Reassembly f s c) (hpc : s.pc = .loop n) (hsplit : ¬SplitsCopy s)
    (hs : LoopStep s n s') : ∃ c', Reassembly f s' c' := by
  cases hs with
  | empty hnil => exact ⟨c, h.finish h.ordered h.held (append_nil _)⟩
  | part p heap hpop hseq hn =>
    obtain ⟨rest, hheap, hperm⟩ := exists_cons_of_pop hpop
    have hcopy : 0 < n → ∀ q ∈ heap, q.seq ≠ s.nextSeq := by
      intro hpos q hq hqs
      rw [SplitsCopy, hpc, hheap] at hsplit
      exact hsplit ⟨hseq, hpos, hn, q, hperm.mem_iff.mp hq, hqs⟩
    exact ⟨c ++ p.payload.take n, h.finish ((h.ordered.pop hpop).push _)
      (((h.held_pop hpop).split hseq n hcopy).perm (push_perm heap _)) (append_assoc _ _ _)⟩
  | whole p heap hpop hseq hn =>
    have hheld := h.held_pop hpop
    refine ⟨[], h.finish (h.ordered.pop hpop) (hheld.advance hseq) ?_⟩
    rw [stream_succ, hheld.rest p mem_cons_self hseq, append_nil, append_assoc]
  | overflow p heap hpop hlt hbig =>
    exact ⟨c, h.finish (h.ordered.pop hpop) ((h.held_pop hpop).drop hlt.ne') (append_nil _)⟩
  | wait p heap hpop hlt hlen =>
    have hback : (push Packet.seq heap p).Perm s.heap :=
      (push_perm heap p).trans (pop_perm hpop).symm
    refine ⟨c, { h with
      ordered := (h.ordered.pop hpop).push p
      held := h.held.perm hback
      noStream := by simp
      recvFirst := by simp
      recvNext := fun _ _ q hq => ?_ }⟩
    obtain ⟨rest, hheap, -⟩ := exists_cons_of_pop hpop
    have hord := h.ordered
    rw [hheap] at hord hback
    exact hlt.trans_le (hord.root_key_le q (hback.mem_iff.mp hq))
  | stale p heap hpop hlt =>
    exact ⟨c, { h with
      ordered := h.ordered.pop hpop
      held := (h.held_pop hpop).drop hlt.ne
      recvFirst := by simp [hpc]
      recvNext := by simp [hpc] }⟩

/-- A step of the `Read` in progress that does not split a copy. -/
theorem readStep (h : Reassembly f s c) (hsplit : ¬SplitsCopy s) (hs : ReadStep s s') :
    ∃ c', Reassembly f s' c' := by
  cases hs with
  | eof n _ => exact ⟨c, h.finish h.ordered h.held (append_nil _)⟩
  | toRecv n _ hnil => exact ⟨c, h.frame rfl rfl rfl h.reader (fun _ hp => hp) (by simp [hnil])⟩
  | toLoop n _ _ => exact ⟨c, h.frame rfl rfl rfl h.reader (fun _ hp => hp) (by simp)⟩
  | toStream n r p rest _ hchan hr =>
    have hp := (h.genuine p (by simp [hchan])).1
    simp [hp] at hr
  | receive n p rest hpc hchan =>
    refine ⟨c, h.receive hchan fun q hq => ?_⟩
    rcases hpc with hpc | hpc
    · simp [h.recvFirst n hpc] at hq
    · exact (h.recvNext n hpc q hq).ne'
  | loop n s' hpc hs => exact h.loop hpc hsplit hs

/-- A step of `Push` or `Close`: packets move towards the heap, or are dropped. -/
theorem pushClose (h : Reassembly f s c) (hs : PushClose s s') : Reassembly f s' c := by
  have hreader : s'.reader = none := by
    cases hs.chan with
    | none _ _ hr => rw [hr, h.reader]
    | send p _ _ _ hr => rw [hr, h.reader]
    | drain p _ _ hchan hr =>
      have hp := (h.genuine p (by simp [hchan])).1
      rw [hr, hp, h.reader, Option.none_or]
  refine h.frame hs.heap hs.nextSeq ?_ hreader (fun p hp => hs.waiting.subset hp) ?_
  · rw [State.returned, hs.reads, State.returned]
  · rw [hs.pc]
    exact ⟨h.noStream, h.recvFirst, fun _ hn => hn⟩

end Reassembly

/-- Every step keeps the reassembly invariant, unless it splits a copy. -/
theorem reassembly_step {f : ℕ → Bytes} {s s' : State} {c : Bytes} {a : Act}
    (h : Reassembly f s c) (hg : Genuine f a) (hsplit : a = .readStep → ¬SplitsCopy s)
    (hs : step s a = some s') : ∃ c', Reassembly f s' c' := by
  cases step_cases hs with
  | pushCall p =>
    refine ⟨c, { h with genuine := fun q hq => ?_ }⟩
    rw [inPush_pushCall, append_assoc, mem_append, mem_append, mem_singleton] at hq
    rcases hq with hq | rfl | hq
    · exact h.genuine q (mem_append_left _ hq)
    · exact hg
    · exact h.genuine q (mem_append_right _ hq)
  | pushClose _ _ _ hs => exact ⟨c, h.pushClose hs⟩
  | readCall n hpc hreader =>
    exact ⟨c, h.frame rfl rfl rfl h.reader (fun _ hq => hq) (by simp)⟩
  | callStream n r hpc hreader => simp [h.reader] at hreader
  | readStep _ hs => exact h.readStep (hsplit rfl) hs
  | streamReturn n data failed hpc => exact absurd hpc (h.noStream n)

end XHTTP.UploadQueue

import Gost.XHTTP.PacketUp.Transfer

/-!
# Closing a packet-up connection

`Buffer.Close` documents that data buffered before it is still delivered, but `Conn.Close` runs
the `onClose` callback first, which interrupts the buffer and so drops what `uploadLoop` has not
taken yet. `graceful_close` says when nothing is lost: exactly if the buffer is empty at that
moment.

The comparison is with the bytes of the `Write` calls that had succeeded when `Close` was called. A
`Write` that overlaps with `Close` may have bytes posted without having reported them, so such
runs are set apart by `NoOverlap`.
-/

namespace XHTTP.PacketUp

open List PipeBuffer TransitionSystem

/-- No `Write` overlaps with `Close`: the calls in progress at `Close` have appended nothing, and
nothing is appended after it. -/
def NoOverlap (s : State) : Act → Prop
  | .closeCall => ∀ w ∈ s.writes, w.result = none → w.written = []
  | .write i => s.closePc ≠ .notCalled →
      (∀ w ∈ s.writes[i]?, w.rest = []) ∨ s.buf.closed = true
  | _ => True

instance (s : State) (a : Act) : Decidable (NoOverlap s a) := by
  unfold NoOverlap
  split <;> infer_instance

/-- The `onClose` callback finds the buffer empty. -/
def Drained (s : State) : Act → Prop
  | .closeInterrupt => s.buf.data = []
  | _ => True

instance (s : State) (a : Act) : Decidable (Drained s a) := by
  unfold Drained
  split <;> infer_instance

/-! ## Bytes reported at `Close` -/

/-- Every logged piece belongs to a `Write` call, one that had succeeded at `Close` if `Close` has
been called. -/
structure Reported (s : State) : Prop where
  logged : ∀ e ∈ s.log, ∃ w, s.writes[e.1]? = some w ∧ w.written ≠ []
  succeeded : ∀ w ∈ s.writes, w.result ≠ none → w.written ≠ [] → w.Succeeded
  reported : s.closePc ≠ .notCalled → ∀ e ∈ s.log, e.1 ∈ s.reported

theorem reported_init (maxUploadSize : ℕ) : Reported (init maxUploadSize) := by
  constructor <;> simp [init]

/-- Replacing the call `i` keeps the calls that have written something. -/
theorem getElem?_set_written {ws : List WriteCall} {i j : ℕ} {w w' : WriteCall}
    (hw : ws[i]? = some w) (hwritten : w.written ≠ [] → w'.written ≠ [])
    (hj : ∃ v, ws[j]? = some v ∧ v.written ≠ []) :
    ∃ v, (ws.set i w')[j]? = some v ∧ v.written ≠ [] := by
  obtain ⟨v, hv, hne⟩ := hj
  by_cases hij : i = j
  · subst hij
    rw [hw, Option.some.injEq] at hv
    subst hv
    obtain ⟨hi, -⟩ := List.getElem?_eq_some_iff.mp hw
    exact ⟨w', by simp [hi], hwritten hne⟩
  · exact ⟨v, by rw [getElem?_set_ne hij, hv], hne⟩

variable {s s' : State} {a : Act}

theorem reported_step (h : Reported s) (ha : NoOverlap s a) (hs : step s a = some s') :
    Reported s' := by
  cases step_cases hs with
  | writeCall p =>
    refine ⟨fun e he => ?_, fun w hw => ?_, h.reported⟩
    · obtain ⟨w, hw, hne⟩ := h.logged e he
      exact ⟨w, by rw [List.getElem?_append_left (List.getElem?_eq_some_iff.mp hw).1, hw], hne⟩
    · rcases mem_append.mp hw with hw | hw
      · exact h.succeeded w hw
      · rw [mem_singleton.mp hw]
        exact fun hres => absurd rfl hres
  | writeReturn i w n e hw hres herr =>
    refine ⟨fun e he => ?_, fun v hv => ?_, h.reported⟩
    · exact getElem?_set_written hw id (h.logged e he)
    · rcases mem_or_eq_of_mem_set hv with hv | rfl
      · exact h.succeeded v hv
      · intro _ hne
        exact ⟨n, by rw [herr hne]⟩
  | append i w b n hw hres hrest hn hdata hopen hb =>
    have hpiece : w.rest.take n ≠ [] := by simp [hrest, hn.ne']
    have hwritten : w.written ++ w.rest.take n ≠ [] := by simp [hpiece]
    refine ⟨fun e he => ?_, fun v hv => ?_, fun hpc e he => ?_⟩
    · rcases mem_append.mp he with he | he
      · exact getElem?_set_written hw (fun _ => hwritten) (h.logged e he)
      · obtain ⟨hi, -⟩ := List.getElem?_eq_some_iff.mp hw
        rw [mem_singleton.mp he]
        exact ⟨_, getElem?_set_self hi, hwritten⟩
    · rcases mem_or_eq_of_mem_set hv with hv | rfl
      · exact h.succeeded v hv
      · exact fun hne => absurd hres hne
    · -- after `Close` nothing is appended
      rcases ha hpc with hnil | hclosed
      · exact absurd (hnil w hw) hrest
      · rw [hopen] at hclosed
        cases hclosed
  | closeCall hpc =>
    refine ⟨h.logged, h.succeeded, fun _ e he => ?_⟩
    obtain ⟨w, hw, hne⟩ := h.logged e he
    have hmem : w ∈ s.writes := mem_of_getElem? hw
    have hres : w.result ≠ none := fun hnone => hne (ha w hmem hnone)
    obtain ⟨hi, -⟩ := List.getElem?_eq_some_iff.mp hw
    simp only [mem_filter, mem_range, decide_eq_true_eq]
    exact ⟨hi, w, hw, h.succeeded w hmem hres hne⟩
  | loopEnd | chunk | postCall | postOk | postFail => exact ⟨h.logged, h.succeeded, h.reported⟩
  | closeInterrupt hpc | closeWriter hpc =>
    exact ⟨h.logged, h.succeeded, fun _ => h.reported (by simp [hpc])⟩

theorem Reported.reportedBytes_eq (h : Reported s) (hpc : s.closePc ≠ .notCalled) :
    s.reportedBytes = s.accepted := by
  unfold State.reportedBytes State.accepted
  rw [filter_eq_self.mpr fun e he => by simpa using h.reported hpc e he]

/-! ## The end of the upload loop -/

/-- With all posts successful, only `Close` closes the buffer, and `uploadLoop` ends on a closed and
empty buffer. -/
structure Orderly (s : State) : Prop where
  closed : s.buf.closed = true → s.closePc ≠ .notCalled
  done : s.pc = .done → s.buf.data = [] ∧ s.buf.closed = true

theorem orderly_step (h : Orderly s) (ha : a ≠ .postReturn false) (hs : step s a = some s') :
    Orderly s' := by
  cases step_cases hs with
  | writeCall | writeReturn => exact ⟨h.closed, h.done⟩
  | append i w b n hw hres hrest hn hdata hopen hb =>
    refine ⟨by simp [hb], fun hpc => ?_⟩
    have hclosed := (h.done hpc).2
    rw [hopen] at hclosed
    cases hclosed
  | loopEnd hpc hdata hclosed => exact ⟨h.closed, fun _ => ⟨hdata, hclosed⟩⟩
  | chunk out b hpc hdata hne hclosed => exact ⟨fun hc => h.closed (hclosed ▸ hc), by simp⟩
  | postCall r hpc => exact ⟨h.closed, by simp⟩
  | postOk r hpc =>
    refine ⟨h.closed, fun hdone => ?_⟩
    unfold UploadPc.resume at hdone
    split_ifs at hdone
  | postFail => exact absurd rfl ha
  | closeCall hpc => exact ⟨by simp, h.done⟩
  | closeInterrupt hpc => exact ⟨by simp [State.interrupt], fun _ => ⟨rfl, rfl⟩⟩
  | closeWriter hpc => exact ⟨by simp, fun hdone => ⟨(h.done hdone).1, rfl⟩⟩

/-! ## Dropped bytes -/

/-- If nothing is dropped after a step, the step did not interrupt a buffer with data. -/
theorem dropped_step (hs : step s a = some s') (h : s'.dropped = []) :
    s.dropped = [] ∧ Drained s a := by
  cases step_cases hs with
  | postFail r hpc =>
    have hnil : r ++ s.dropped ++ s.buf.data = [] := h
    simp only [append_eq_nil_iff] at hnil
    exact ⟨hnil.1.2, trivial⟩
  | closeInterrupt hpc =>
    have hnil : s.dropped ++ s.buf.data = [] := h
    exact append_eq_nil_iff.mp hnil
  | _ => exact ⟨h, trivial⟩

theorem dropped_eq_nil_step (h : s.dropped = []) (ha : a ≠ .postReturn false ∧ Drained s a)
    (hs : step s a = some s') : s'.dropped = [] := by
  cases step_cases hs with
  | postFail => exact absurd rfl ha.1
  | closeInterrupt hpc =>
    change s.dropped ++ s.buf.data = []
    rw [h, nil_append]
    exact ha.2
  | _ => exact h

/-! ## Graceful close -/

/-- Closing a packet-up connection. If no post fails, the payloads passed to `PostPacket` are, once
`uploadLoop` has returned, all the bytes that `Write` accepted exactly in those runs in which the
`onClose` callback finds the buffer empty; if no `Write` overlaps with `Close`, these are the bytes
for which `Write` had reported success when `Close` was called. -/
theorem graceful_close (maxUploadSize : ℕ) (hsize : 0 < maxUploadSize) (as : List Act) (s : State)
    (hrun : run step (init maxUploadSize) as = some s)
    (hposts : ∀ a ∈ as, a ≠ .postReturn false) (hdone : s.pc = .done) :
    (s.posted.flatten = s.accepted ↔ Along step Drained (init maxUploadSize) as) ∧
    (Along step NoOverlap (init maxUploadSize) as →
      (s.posted.flatten = s.reportedBytes ↔ Along step Drained (init maxUploadSize) as)) := by
  have hord : Orderly s := by
    refine run_induction_along (fun _ _ _ h ha hs => orderly_step h ha hs) ?_
      (along_of_forall hposts _) hrun
    exact ⟨by simp [init, PipeBuffer.new], by simp [init]⟩
  obtain ⟨hdata, hclosed⟩ := hord.done hdone
  -- at the end all accepted bytes are posted or dropped
  have hbalance : s.accepted = s.posted.flatten ++ s.dropped := by
    have hb := (transfer_run hsize hrun).balance
    rw [hdone, hdata, append_nil] at hb
    exact hb
  have hdropped : s.dropped = [] ↔ Along step Drained (init maxUploadSize) as := by
    constructor
    · exact fun h => (along_of_run (fun _ _ _ hs h => dropped_step hs h) hrun h).2
    · intro hdrained
      refine run_induction_along (I := fun s => s.dropped = [])
        (fun _ _ _ h ha hs => dropped_eq_nil_step h ha hs) rfl ?_ hrun
      exact (along_of_forall hposts _).and hdrained
  have haccepted : s.posted.flatten = s.accepted ↔ Along step Drained (init maxUploadSize) as := by
    rw [← hdropped, hbalance]
    exact self_eq_append_right
  refine ⟨haccepted, fun hwrites => ?_⟩
  have hrep : Reported s :=
    run_induction_along (fun _ _ _ h ha hs => reported_step h ha hs) (reported_init _) hwrites hrun
  rw [hrep.reportedBytes_eq (hord.closed hclosed)]
  exact haccepted

/-- The application writes one byte and closes the connection; `uploadLoop` gets to the buffer
before the `onClose` callback does. -/
def uploadFirstRun : List Act :=
  [.writeCall (bytes "A"), .write 0, .write 0, .readChunk, .closeCall, .closeInterrupt, .postCall,
    .postReturn true, .readChunk, .closeWriter]

theorem graceful_close_uploadFirst :
    ∃ s, run step (init 1) uploadFirstRun = some s ∧ s.posted.flatten = s.reportedBytes := by
  refine ⟨_, rfl, ?_⟩
  exact ((graceful_close 1 (by decide) uploadFirstRun _ rfl (by decide) rfl).2 (by decide)).mpr
    (by decide)

/-- The same with the callback first: the byte is lost, though `Write` reported it before `Close`
was called. -/
theorem close_loses_reported_byte :
    ∃ s, run step (init 1) [.writeCall (bytes "A"), .write 0, .write 0, .closeCall, .closeInterrupt,
        .readChunk, .closeWriter] = some s ∧
      s.pc = .done ∧ s.posted.flatten = [] ∧ s.reportedBytes = bytes "A" := by
  exact ⟨_, rfl, rfl, rfl, rfl⟩

end XHTTP.PacketUp

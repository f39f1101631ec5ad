import Gost.XHTTP.PacketUp.Defs

/-!
# What becomes of the bytes that `Write` accepts

Inversion of the client's step function (`step_cases`) and the invariant `Transfer`: the accepted
bytes are those passed to `PostPacket`, followed by those that `uploadLoop` still holds, those
that were dropped, and those in the buffer, in this order.
-/

namespace XHTTP.PacketUp

open List Option PipeBuffer TransitionSystem

/-- What a step of the client does, guards included. -/
inductive StepCase (s : State) : Act → State → Prop
  | writeCall (p : Bytes) :
      StepCase s (.writeCall p) { s with writes := s.writes ++ [{ rest := p }] }
  -- a `Write` returns: all is written, or the buffer is closed
  | writeReturn (i : ℕ) (w : WriteCall) (n : ℕ) (e : Option BufferError) :
      s.writes[i]? = some w → w.result = none → (w.written ≠ [] → e = none) →
      StepCase s (.write i) { s with writes := s.writes.set i { w with result := some (n, e) } }
  | append (i : ℕ) (w : WriteCall) (b : Buffer) (n : ℕ) :
      s.writes[i]? = some w → w.result = none → w.rest ≠ [] → 0 < n →
      b.data = s.buf.data ++ w.rest.take n → s.buf.closed = false → b.closed = false →
      StepCase s (.write i) { s with
        buf := b
        writes := s.writes.set i
          { w with rest := w.rest.drop n, written := w.written ++ w.rest.take n }
        log := s.log ++ [(i, w.rest.take n)] }
  | loopEnd : s.pc = .reading → s.buf.data = [] → s.buf.closed = true →
      StepCase s .readChunk { s with pc := .done }
  | chunk (out : Bytes) (b : Buffer) : s.pc = .reading → s.buf.data = out ++ b.data → out ≠ [] →
      b.closed = s.buf.closed → StepCase s .readChunk { s with buf := b, pc := .sending out }
  | postCall (r : Bytes) : s.pc = .sending r →
      StepCase s .postCall { s with
        pc := .posting (r.drop (min r.length s.maxUploadSize))
        posted := s.posted ++ [r.take (min r.length s.maxUploadSize)] }
  | postOk (r : Bytes) : s.pc = .posting r →
      StepCase s (.postReturn true) { s with pc := .resume r }
  | postFail (r : Bytes) : s.pc = .posting r →
      StepCase s (.postReturn false) { s with pc := .done, dropped := r ++ s.dropped }.interrupt
  | closeCall : s.closePc = .notCalled →
      StepCase s .closeCall { s with
        closePc := .called
        reported := (List.range s.writes.length).filter fun i =>
          ∃ w, s.writes[i]? = some w ∧ w.Succeeded }
  | closeInterrupt : s.closePc = .called →
      StepCase s .closeInterrupt { s with closePc := .interrupted }.interrupt
  | closeWriter : s.closePc = .interrupted →
      StepCase s .closeWriter { s with closePc := .closed, buf := s.buf.close }

variable {s s' : State} {a : Act} {maxUploadSize : ℕ}

theorem write_cases {i : ℕ} (hs : s.write i = some s') : StepCase s (.write i) s' := by
  unfold State.write at hs
  split at hs
  next => cases hs
  next w hw =>
    split_ifs at hs with hres hrest
    · cases hs
      exact .writeReturn i w _ none hw (not_not.mp hres) fun _ => rfl
    · split at hs
      next => cases hs
      next hclosed =>
        cases hs
        refine .writeReturn i w w.closedResult.1 w.closedResult.2 hw (not_not.mp hres) fun hne => ?_
        simp only [WriteCall.closedResult, if_pos (length_pos_iff.mpr hne)]
      next b n hwrote =>
        cases hs
        obtain ⟨hdata, hb, hopen, hn⟩ := Buffer.write_wrote hrest hwrote
        exact .append i w b n hw (not_not.mp hres) hrest hn hdata hopen hb

theorem readChunk_cases (hs : s.readChunk = some s') : StepCase s .readChunk s' := by
  unfold State.readChunk at hs
  split at hs
  next hpc =>
    split at hs
    next => cases hs
    next e hfail =>
      rw [some.injEq] at hs
      obtain ⟨hdata, hclosed⟩ := Buffer.readChunk_failed hfail
      exact hs ▸ .loopEnd hpc hdata hclosed
    next out b hchunk =>
      rw [some.injEq] at hs
      obtain ⟨hdata, hne, hclosed⟩ := Buffer.readChunk_chunk hchunk
      exact hs ▸ .chunk out b hpc hdata hne hclosed
  next => cases hs

theorem step_cases (hs : step s a = some s') : StepCase s a s' := by
  cases a with
  | writeCall p =>
    cases hs
    exact .writeCall p
  | write i => exact write_cases hs
  | readChunk => exact readChunk_cases hs
  | postCall =>
    simp only [step, State.postCall] at hs
    split at hs
    next r hpc =>
      cases hs
      exact .postCall r hpc
    next => cases hs
  | postReturn ok =>
    simp only [step, State.postReturn] at hs
    split at hs
    next r hpc =>
      cases ok with
      | true =>
        rw [if_pos rfl, some.injEq] at hs
        exact hs ▸ .postOk r hpc
      | false =>
        rw [if_neg Bool.false_ne_true, some.injEq] at hs
        exact hs ▸ .postFail r hpc
    next => cases hs
  | closeCall =>
    simp only [step, State.closeCall] at hs
    split_ifs at hs with hpc
    cases hs
    exact .closeCall hpc
  | closeInterrupt =>
    simp only [step, State.closeInterrupt] at hs
    split_ifs at hs with hpc
    cases hs
    exact .closeInterrupt hpc
  | closeWriter =>
    simp only [step, State.closeWriter] at hs
    split_ifs at hs with hpc
    cases hs
    exact .closeWriter hpc

/-! ## The invariant -/

/-- Every accepted byte is accounted for, in order, and no post is empty. -/
structure Transfer (s : State) : Prop where
  balance : s.accepted = s.posted.flatten ++ (s.pc.remainder ++ (s.dropped ++ s.buf.data))
  drained : s.dropped ≠ [] → s.buf.closed = true ∧ s.buf.data = []
  sending : ∀ r, s.pc = .sending r → r ≠ []
  posted : ∀ p ∈ s.posted, p ≠ []
  size : 0 < s.maxUploadSize

theorem transfer_init (h : 0 < maxUploadSize) : Transfer (init maxUploadSize) where
  balance := rfl
  drained hne := absurd rfl hne
  sending r hr := by simp [init] at hr
  posted := by simp [init]
  size := h

namespace Transfer

variable {s : State}

/-- Interrupting the buffer moves its data to the dropped bytes. -/
theorem interrupt (h : Transfer s) : Transfer s.interrupt where
  balance := by
    change s.accepted = s.posted.flatten ++ (s.pc.remainder ++ (s.dropped ++ s.buf.data ++ []))
    rw [append_nil]
    exact h.balance
  drained _ := ⟨rfl, rfl⟩
  sending := h.sending
  posted := h.posted
  size := h.size

/-- Bytes have been dropped only from a buffer that is now empty and stays so. -/
theorem dropped_eq_nil (h : Transfer s) (hdata : s.buf.data ≠ []) : s.dropped = [] := by
  by_contra hne
  exact hdata (h.drained hne).2

end Transfer

theorem transfer_step (h : Transfer s) (hs : step s a = some s') : Transfer s' := by
  cases step_cases hs with
  | writeCall | writeReturn | closeCall => exact { h with }
  | append i w b n hw hres hrest hn hdata hopen hb =>
    refine { h with balance := ?_, drained := fun hne => ?_ }
    · have hlog : (s.log ++ [(i, w.rest.take n)]).flatMap (·.2) = s.accepted ++ w.rest.take n := by
        simp [State.accepted]
      change (s.log ++ [(i, w.rest.take n)]).flatMap (·.2) = _ ++ (_ ++ (_ ++ b.data))
      rw [hlog, h.balance, hdata]
      simp only [append_assoc]
    · have hclosed := (h.drained hne).1
      rw [hopen] at hclosed
      cases hclosed
  | loopEnd hpc hdata hclosed =>
    refine { h with balance := ?_, sending := by simp }
    have hb := h.balance
    rwa [hpc] at hb
  | chunk out b hpc hdata hne hclosed =>
    have hdrop : s.dropped = [] := h.dropped_eq_nil (by simp [hdata, hne])
    refine { h with balance := ?_, drained := ?_, sending := ?_ }
    · have hb := h.balance
      rw [hpc, hdrop, hdata] at hb
      change s.accepted = s.posted.flatten ++ (out ++ (s.dropped ++ b.data))
      rw [hb, hdrop]
      rfl
    · exact fun hne => absurd hdrop hne
    · rintro r hr
      rw [UploadPc.sending.injEq] at hr
      exact hr ▸ hne
  | postCall r hpc =>
    have hr := h.sending r hpc
    refine { h with balance := ?_, sending := by simp, posted := ?_ }
    · have hb := h.balance
      rw [hpc] at hb
      rw [flatten_append, flatten_singleton, append_assoc]
      change s.accepted = s.posted.flatten ++ (r.take _ ++ (r.drop _ ++ _))
      rw [← append_assoc (r.take _), take_append_drop, hb]
      rfl
    · intro p hp
      rcases mem_append.mp hp with hp | hp
      · exact h.posted p hp
      · rw [mem_singleton.mp hp]
        apply ne_nil_of_length_pos
        have hlen := length_pos_iff.mpr hr
        have hsize := h.size
        rw [length_take]
        omega
  | postOk r hpc =>
    refine { h with balance := ?_, sending := ?_ }
    · have hb := h.balance
      rw [hpc] at hb
      rw [UploadPc.remainder_resume]
      exact hb
    · intro r' hr'
      unfold UploadPc.resume at hr'
      split_ifs at hr' with hr
      rw [UploadPc.sending.injEq] at hr'
      exact hr' ▸ hr
  | postFail r hpc =>
    -- what was left of the chunk is dropped first, then the buffer
    have hb := h.balance
    rw [hpc] at hb
    have hdone : s.accepted = s.posted.flatten ++ ([] ++ (r ++ s.dropped ++ s.buf.data ++ [])) := by
      rw [hb]
      simp [UploadPc.remainder]
    exact ⟨hdone, fun _ => ⟨rfl, rfl⟩, by simp [State.interrupt], h.posted, h.size⟩
  | closeInterrupt hpc =>
    have h' : Transfer { s with closePc := .interrupted } := { h with }
    exact h'.interrupt
  | closeWriter hpc => exact { h with drained := fun hne => ⟨rfl, (h.drained hne).2⟩ }

theorem transfer_run {as : List Act} (hsize : 0 < maxUploadSize)
    (hrun : run step (init maxUploadSize) as = some s) : Transfer s :=
  run_induction (fun _ _ _ h hs => transfer_step h hs) (transfer_init hsize) hrun

/-- What has been posted is an initial part of what was accepted. -/
theorem Transfer.posted_prefix (h : Transfer s) : s.posted.flatten <+: s.accepted := by
  rw [h.balance]
  exact prefix_append _ _

end XHTTP.PacketUp

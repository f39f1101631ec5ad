import Gost.XHTTP.UploadQueue.Steps

/-!
# Closing the upload queue

`Push` sends to the bounded channel while it holds `writeCloseMutex`, and `Close` needs that
mutex. If the channel is full, only a `Read` makes room, so a reader that has stopped reading
leaves the `Push` in its send and the `Close` at its lock (`Jammed`).

* `canClose_iff`: the threads in `Push` and `Close` can complete every pending `Close` on their own
  exactly when the queue is not jammed;
* `roomy_run`: it is not after a run in which each `Push` found a free slot when it took the mutex.
-/

namespace XHTTP.UploadQueue

open Option TransitionSystem

/-- A `Close` has been called and has not returned. -/
def State.ClosePending (s : State) : Prop := 0 < s.closing ∨ s.mutex = .close

/-- The threads in `Push` and `Close` can make every pending `Close` return, without `Read`. -/
def CanClose (s : State) : Prop :=
  ∃ as s', (∀ a ∈ as, a.isRead = false) ∧ run step s as = some s' ∧ ¬s'.ClosePending

/-- A `Push` holds the mutex and the channel is full. -/
def Jammed (s : State) : Prop :=
  (∃ p, s.mutex = .push p) ∧ s.maxPackets ≤ s.pushedPackets.length

/-! ## A jammed queue stays jammed -/

variable {s s' : State} {a : Act} {as : List Act} {m : ℕ}

theorem jammed_step (h : Jammed s) (hclosing : 0 < s.closing) (ha : a.isRead = false)
    (hs : step s a = some s') : Jammed s' ∧ 0 < s'.closing := by
  obtain ⟨⟨p, hm⟩, hfull⟩ := h
  cases a with
  | pushCall q =>
    cases hs
    exact ⟨⟨⟨p, hm⟩, hfull⟩, hclosing⟩
  | closeCall =>
    cases hs
    exact ⟨⟨⟨p, hm⟩, hfull⟩, Nat.succ_pos _⟩
  -- the other steps need the mutex or a free slot
  | pushLock i => simp [step, State.pushLock, hm] at hs
  | pushSend => simp [step, State.pushSend, hm, hfull.not_gt] at hs
  | closeLock => simp [step, State.closeLock, hm] at hs
  | closeDrain => simp [step, State.closeDrain, hm] at hs
  | closeFinish => simp [step, State.closeFinish, hm] at hs
  | readCall | readStep | streamReturn => cases ha

theorem jammed_run (h : Jammed s) (hclosing : 0 < s.closing) (has : ∀ a ∈ as, a.isRead = false)
    (hrun : run step s as = some s') : Jammed s' ∧ 0 < s'.closing :=
  run_induction_along (I := fun s => Jammed s ∧ 0 < s.closing)
    (fun _ _ _ h ha hs => jammed_step h.1 h.2 ha hs) ⟨h, hclosing⟩ (along_of_forall has s) hrun

/-! ## A queue that is not jammed can be closed -/

/-- The first step of a completion. -/
theorem CanClose.of_step {t : State} (ha : a.isRead = false) (hs : step s a = some t)
    (h : CanClose t) : CanClose s := by
  obtain ⟨as, s', has, hrun, hdone⟩ := h
  refine ⟨a :: as, s', ?_, run_cons_eq_some.mpr ⟨t, hs, hrun⟩, hdone⟩
  intro b hb
  rcases List.mem_cons.mp hb with rfl | hb
  · exact ha
  · exact has b hb

/-- Once the queue is closed and the mutex free, each waiting `Close` returns at once. -/
theorem canClose_of_closed (hm : s.mutex = .free) (hclosed : s.closed = true) : CanClose s := by
  induction hk : s.closing generalizing s with
  | zero => exact ⟨[], s, by simp, rfl, by simp [State.ClosePending, hk, hm]⟩
  | succ k ih =>
    have hlock : step s .closeLock = some { s with closing := k } := by
      simp [step, State.closeLock, hm, hclosed, hk]
    exact CanClose.of_step rfl hlock (ih hm hclosed rfl)

/-- The `Close` that holds the mutex drains the channel, then the others return. -/
theorem canClose_of_draining (hm : s.mutex = .close) (hclosed : s.closed = true) : CanClose s := by
  induction hchan : s.pushedPackets generalizing s with
  | nil =>
    have hfinish : step s .closeFinish = some { s with chanClosed := true, mutex := .free } := by
      simp [step, State.closeFinish, hm, hchan]
    exact CanClose.of_step rfl hfinish (canClose_of_closed rfl hclosed)
  | cons p rest ih =>
    have hdrain : step s .closeDrain =
        some { s with reader := p.reader.or s.reader, pushedPackets := rest } := by
      simp [step, State.closeDrain, hm, hchan]
    exact CanClose.of_step rfl hdrain (ih hm hclosed rfl)

theorem canClose_of_free (hm : s.mutex = .free) : CanClose s := by
  by_cases hclosed : s.closed = true
  · exact canClose_of_closed hm hclosed
  by_cases hk : 0 < s.closing
  · have hlock : step s .closeLock =
        some { s with closing := s.closing - 1, closed := true, mutex := .close } := by
      simp [step, State.closeLock, hm, hclosed, hk]
    exact CanClose.of_step rfl hlock (canClose_of_draining rfl rfl)
  · exact ⟨[], s, by simp, rfl, by simp [State.ClosePending, hk, hm]⟩

/-- The pending `Close` calls can complete without the reader exactly if no `Push` sits in its
send with the channel full. `closed` is set before the drain loop starts. -/
theorem canClose_iff (hpending : s.ClosePending) (hdrain : s.mutex = .close → s.closed = true) :
    CanClose s ↔ ¬Jammed s := by
  constructor
  · rintro ⟨as, s', has, hrun, hdone⟩ hjam
    obtain ⟨p, hm⟩ := hjam.1
    have hclosing : 0 < s.closing := hpending.resolve_right (by simp [hm])
    exact hdone (.inl (jammed_run hjam hclosing has hrun).2)
  · intro hjam
    cases hm : s.mutex with
    | free => exact canClose_of_free hm
    | close => exact canClose_of_draining hm (hdrain hm)
    | push p =>
      have hroom : s.pushedPackets.length < s.maxPackets :=
        not_le.mp fun hfull => hjam ⟨⟨p, hm⟩, hfull⟩
      have hsend : step s .pushSend = some { s with
          pushedPackets := s.pushedPackets ++ [p], mutex := .free, sent := s.sent ++ [p] } := by
        simp [step, State.pushSend, hm, hroom]
      exact CanClose.of_step rfl hsend (canClose_of_free rfl)

/-! ## Runs -/

/-- A `Push` that takes the mutex and goes on to its send finds a free slot in the channel. -/
def PushFindsRoom (s : State) : Act → Prop
  | .pushLock _ => s.closed = false → s.nomore = false → s.pushedPackets.length < s.maxPackets
  | _ => True

instance (s : State) (a : Act) : Decidable (PushFindsRoom s a) := by
  unfold PushFindsRoom
  split <;> infer_instance

/-- A step after which a `Push` holds the mutex: it held it before, or it has just found the queue
open and taken it. -/
theorem sending_step {p : Packet} (hs : step s a = some s') (hm : s'.mutex = .push p) :
    s'.maxPackets = s.maxPackets ∧ s'.pushedPackets.length ≤ s.pushedPackets.length ∧
      (s.mutex = .push p ∨ (∃ i, a = .pushLock i) ∧ s.closed = false ∧ s.nomore = false) := by
  cases a with
  | pushCall q | closeCall =>
    cases hs
    exact ⟨rfl, le_rfl, .inl hm⟩
  | pushLock i =>
    simp only [step, State.pushLock] at hs
    split at hs
    next q hfree hq =>
      split_ifs at hs with hclosed hnomore
      all_goals cases hs
      · exact ⟨rfl, le_rfl, .inl hm⟩
      · exact ⟨rfl, le_rfl, .inl hm⟩
      · exact ⟨rfl, le_rfl, .inr ⟨⟨i, rfl⟩, by simpa using hclosed, by simpa using hnomore⟩⟩
    next => cases hs
  | pushSend =>
    simp only [step, State.pushSend] at hs
    split at hs
    · split_ifs at hs
      cases hs
      cases hm
    · cases hs
  | closeLock =>
    simp only [step, State.closeLock] at hs
    split_ifs at hs with hfree
    all_goals cases hs
    · exact ⟨rfl, le_rfl, .inl hm⟩
    · cases hm
  | closeDrain =>
    simp only [step, State.closeDrain] at hs
    split at hs
    next hclose _ =>
      cases hs
      rw [hclose] at hm
      cases hm
    next => cases hs
  | closeFinish =>
    simp only [step, State.closeFinish] at hs
    split at hs
    · cases hs
      cases hm
    · cases hs
  | readCall | readStep | streamReturn =>
    have hframe := reader_frame rfl hs
    exact ⟨hframe.maxPackets, hframe.chan.length_le, .inl (hframe.mutex ▸ hm)⟩

/-- Runs in which every `Push` finds room keep a free slot for the `Push` in its send. -/
theorem roomy_run (hroom : Along step PushFindsRoom (newUploadQueue m) as)
    (hrun : run step (newUploadQueue m) as = some s) : ¬Jammed s := by
  have hinv : ∀ p, s.mutex = .push p → s.pushedPackets.length < s.maxPackets := by
    refine run_induction_along (I := fun s => ∀ p, s.mutex = .push p →
      s.pushedPackets.length < s.maxPackets) ?_ (by simp [newUploadQueue]) hroom hrun
    intro s a s' h hguard hs p hm
    obtain ⟨hmax, hlen, hpush | ⟨⟨i, rfl⟩, hclosed, hnomore⟩⟩ := sending_step hs hm
    · have := h p hpush
      omega
    · have := hguard hclosed hnomore
      omega
  rintro ⟨⟨p, hm⟩, hfull⟩
  exact absurd (hinv p hm) hfull.not_gt

theorem draining_run (hrun : run step (newUploadQueue m) as = some s) :
    s.mutex = .close → s.closed = true := by
  refine run_induction (I := fun s => s.mutex = .close → s.closed = true) ?_
    (by simp [newUploadQueue]) hrun
  intro s a s' h hs hm
  cases step_cases hs with
  | pushCall | readCall | callStream | streamReturn => exact h hm
  | pushClose _ _ _ hs => exact (hs.draining hm).elim (fun hm => hs.closed (h hm)) id
  | readStep _ hs => exact hs.frame.closed.trans (h (hs.frame.mutex ▸ hm))

/-- Closing the queue completes without the reader in runs whose pushes find room: from every state
reached by such a run in which a `Close` is pending, steps of `Push` and `Close` make all pending
`Close` calls return. In any run, a state with a pending `Close` lets it complete in this way
exactly if no `Push` sits in its send with the channel full. -/
theorem close_completes (m : ℕ) (as : List Act) (s : State)
    (hrun : run step (newUploadQueue m) as = some s) (hpending : s.ClosePending) :
    (Along step PushFindsRoom (newUploadQueue m) as → CanClose s) ∧ (CanClose s ↔ ¬Jammed s) := by
  have hiff := canClose_iff hpending (draining_run hrun)
  exact ⟨fun hroom => hiff.mpr (roomy_run hroom hrun), hiff⟩

/-- Two packets are pushed and nothing is read; the second `Push` is at its send when `Close` is
called. -/
def unreadRun : List Act :=
  [.pushCall {}, .pushLock 0, .pushSend, .pushCall { seq := 1 }, .pushLock 0, .closeCall]

/-- With room for both packets the `Close` can complete. -/
theorem close_completes_unreadRun :
    ∃ s, run step (newUploadQueue 2) unreadRun = some s ∧ s.ClosePending ∧ CanClose s := by
  refine ⟨_, rfl, .inl (by decide), ?_⟩
  exact (close_completes 2 unreadRun _ rfl (.inl (by decide))).1 (by decide)

/-- With room for one packet it cannot: the second `Push` keeps the mutex until `Read` is called. -/
theorem close_blocked_unreadRun :
    ∃ s, run step (newUploadQueue 1) unreadRun = some s ∧ s.ClosePending ∧ ¬CanClose s := by
  refine ⟨_, rfl, .inl (by decide), fun hclose => ?_⟩
  exact (canClose_iff (.inl (by decide)) (by decide)).mp hclose ⟨⟨_, rfl⟩, by decide⟩

end XHTTP.UploadQueue

import Gost.Lib.ListCount
import Gost.Quota.Limiter

/-!
# Blocking agrees with the counters

`add` decides on a value of the counter and a limit that it has read before, and then sets a flag;
`Update` stores the counter and the limit and recomputes the flag. The two are right each on its
own, and any number of `add` calls are right together, since the counter then only grows.

The proof keeps an assertion `Pc.Local` for every program point, which no step of another thread
may break. `blocked_iff`: in a state without calls in progress, the limiter is blocked if and only
if the counter has reached a positive limit, provided that the stores of an `Update` (up to the one
of the flag) overlap with no other `Update`, with no `add` that has counted and with no check of the
window by `run`, and that the counter does not wrap.
-/

namespace Quota

open List ListCount Option TransitionSystem

variable {limit : ℕ}

namespace Pc

/-- `add` has counted. -/
def Adding : Pc → Prop
  | .addDirty _ | .addLimit _ | .addBlocked => True
  | _ => False

/-- `Update` has made its first store, and not the one of `blocked`. -/
def Updating : Pc → Prop
  | .updLimit _ | .updStartsAt _ | .updExpiresAt _ | .evalEnforced | .evalStartsAt _
  | .evalExpiresAt _ _ | .evalUsed | .evalLimit _ | .evalBlocked _ => True
  | _ => False

/-- `run` checks the bounds of the window. -/
def Checking : Pc → Prop
  | .boundExpiresAt _ _ | .boundEnforced | .boundUsed | .boundLimit _ | .boundBlocked _ => True
  | _ => False

/-- The thread depends on the counter, the limit or the window. -/
def Critical (pc : Pc) : Prop := pc.Adding ∨ pc.Updating ∨ pc.Checking

instance : DecidablePred Adding := fun pc => by cases pc <;> unfold Adding <;> infer_instance

instance : DecidablePred Updating := fun pc => by cases pc <;> unfold Updating <;> infer_instance

instance : DecidablePred Checking := fun pc => by cases pc <;> unfold Checking <;> infer_instance

instance : DecidablePred Critical := fun pc =>
  inferInstanceAs (Decidable (pc.Adding ∨ pc.Updating ∨ pc.Checking))

/-- What a thread may rely on at a program point. -/
def Local (l : Limiter) : Pc → Prop
  | .addDirty used | .addLimit used => used ≤ l.used
  | .addBlocked => 0 < l.limit → l.limit ≤ l.used
  | .evalStartsAt now => 0 < l.limit ∧ inWindow l.startsAt l.expiresAt now
  | .evalExpiresAt startsAt now => 0 < l.limit ∧ inWindow startsAt l.expiresAt now
  | .evalUsed => 0 < l.limit
  | .evalLimit used => 0 < l.limit ∧ used = l.used
  | .evalBlocked shouldBlock => shouldBlock = true ↔ 0 < l.limit ∧ l.limit ≤ l.used
  | .boundExpiresAt startsAt now => inWindow startsAt l.expiresAt now
  -- not reached in an active window without `Close`
  | .boundEnforced | .boundUsed | .boundLimit _ | .boundBlocked _ | .closeClosed => False
  | _ => True

/-- The thread will set `blocked`, at this limit. -/
def WillBlock (limit : ℕ) : Pc → Prop
  | .addDirty used | .addLimit used => limit ≤ used
  | .addBlocked => True
  | _ => False

/-- The program points of `run`. -/
def OfRun : Pc → Prop
  | .done | .tickDirty | .boundStartsAt | .boundExpiresAt _ _ | .boundEnforced | .boundUsed
  | .boundLimit _ | .boundBlocked _ | .saveUsed | .saveLimit _ | .saveStartsAt _ _
  | .saveExpiresAt _ _ _ | .save _ => True
  | _ => False

variable {l l' : Limiter} {pc : Pc}

theorem OfRun.not_updating (h : pc.OfRun) : ¬pc.Updating := by
  cases pc with
  | updLimit _ | updStartsAt _ | updExpiresAt _ | evalEnforced | evalStartsAt _
  | evalExpiresAt _ _ | evalUsed | evalLimit _ | evalBlocked _ => cases h
  | _ => exact id

theorem OfRun.not_willBlock (h : pc.OfRun) : ¬pc.WillBlock limit := by
  cases pc with
  | addDirty _ | addLimit _ | addBlocked => cases h
  | _ => exact id

theorem WillBlock.adding (h : pc.WillBlock limit) : pc.Adding := by
  cases pc with
  | addDirty _ | addLimit _ | addBlocked => trivial
  | _ => cases h

theorem not_critical (ha : ¬pc.Adding) (hu : ¬pc.Updating) (hc : ¬pc.Checking) : ¬pc.Critical :=
  not_or.mpr ⟨ha, not_or.mpr ⟨hu, hc⟩⟩

/-- A thread that is not critical relies on nothing that `Update` stores. -/
theorem Local.of_not_critical (h : pc.Local l) (hpc : ¬pc.Critical) : pc.Local l' := by
  cases pc with
  | addDirty _ | addLimit _ | addBlocked => exact absurd (.inl trivial) hpc
  | evalStartsAt _ | evalExpiresAt _ _ | evalUsed | evalLimit _ | evalBlocked _ =>
    exact absurd (.inr (.inl trivial)) hpc
  | boundExpiresAt _ _ => exact absurd (.inr (.inr trivial)) hpc
  | _ => exact h

/-- Outside `Update`, the counter may grow. -/
theorem Local.mono (h : pc.Local l) (hpc : ¬pc.Updating) (hused : l.used ≤ l'.used)
    (hlimit : l'.limit = l.limit) (hexpires : l'.expiresAt = l.expiresAt) : pc.Local l' := by
  cases pc with
  | addDirty used | addLimit used =>
    exact (show used ≤ l.used from h).trans hused
  | addBlocked =>
    intro hpos
    rw [hlimit] at hpos ⊢
    exact (h hpos).trans hused
  | boundExpiresAt startsAt now =>
    show inWindow startsAt l'.expiresAt now
    rw [hexpires]
    exact h
  | evalStartsAt _ | evalExpiresAt _ _ | evalUsed | evalLimit _ | evalBlocked _ =>
    exact absurd trivial hpc
  | _ => exact h

end Pc

namespace State

/-- All threads meet their assertions, and without an `Update` on its way `blocked` is right, or
will be when the calls that have counted return. -/
structure Settled (s : State) : Prop where
  closed : s.limiter.closed = false
  wasActive : s.limiter.wasActive = true
  threads : ∀ pc ∈ s.threads, pc.Local s.limiter
  alone : ∀ (i j : ℕ) pc pc', s.threads[i]? = some pc → s.threads[j]? = some pc' →
    pc.Updating → pc'.Critical → j = i
  run : ∃ pc, s.threads[0]? = some pc ∧ pc.OfRun
  sound : (∀ pc ∈ s.threads, ¬pc.Updating) → s.limiter.blocked = true → 0 < s.limiter.limit →
    s.limiter.limit ≤ s.limiter.used
  complete : (∀ pc ∈ s.threads, ¬pc.Updating) → 0 < s.limiter.limit →
    s.limiter.limit ≤ s.limiter.used →
      s.limiter.blocked = true ∨ ∃ pc ∈ s.threads, pc.WillBlock s.limiter.limit

/-- The next step of a thread disturbs no other thread. -/
def MayStep (s : State) : Pc → Prop
  | .addUsed n => s.limiter.used + n < 2 ^ 64 ∧ ∀ pc ∈ s.threads, ¬pc.Updating
  | .updUsed _ => ∀ pc ∈ s.threads, ¬pc.Critical
  | .boundStartsAt => ∀ pc ∈ s.threads, ¬pc.Updating
  | _ => True

instance (s : State) : DecidablePred s.MayStep := fun pc => by
  cases pc <;> unfold MayStep <;> infer_instance

/-- `Update` is apart from other calls, and the counter does not wrap. -/
def Apart (s : State) : Op → Prop
  | .next i _ => ∀ pc ∈ s.threads[i]?, s.MayStep pc
  | _ => True

instance (s : State) : DecidablePred s.Apart := fun op => by
  cases op <;> unfold Apart <;> infer_instance

variable {s s' : State} {i : ℕ} {pc pc' : Pc} {l : Limiter}

theorem Settled.ne_zero (hs : s.Settled) (hpc : s.threads[i]? = some pc) (h : ¬pc.OfRun) :
    i ≠ 0 := by
  rintro rfl
  obtain ⟨q, hq, hrun⟩ := hs.run
  obtain rfl : pc = q := some.inj (hpc.symm.trans hq)
  exact h hrun

/-- `Update` begins or goes on: nobody else is critical, and `blocked` is open. -/
theorem Settled.update (hs : s.Settled) (hpc : s.threads[i]? = some pc) (hrun : ¬pc.OfRun)
    (hothers : ∀ j q, j ≠ i → s.threads[j]? = some q → ¬q.Critical) (hupd : pc'.Updating)
    (hlocal : pc'.Local l) (hclosed : l.closed = false) (hwas : l.wasActive = true) :
    Settled { s with limiter := l, threads := s.threads.set i pc' } := by
  have hmem : pc' ∈ s.threads.set i pc' := mem_set_self hpc
  have hcrit {j : ℕ} {q : Pc} (hj : (s.threads.set i pc')[j]? = some q) (h : q.Critical) :
      j = i := by
    rcases getElem?_set_cases hpc hj with ⟨rfl, -⟩ | ⟨hne, hj⟩
    · rfl
    · exact absurd h (hothers j q hne hj)
  refine ⟨hclosed, hwas, fun q hq => ?_, fun j k q q' hq hq' hqupd hq'crit => ?_, ?_,
    fun h => absurd hupd (h _ hmem), fun h => absurd hupd (h _ hmem)⟩
  · obtain ⟨j, hj⟩ := mem_iff_getElem?.mp hq
    rcases getElem?_set_cases hpc hj with ⟨-, rfl⟩ | ⟨hne, hj⟩
    · exact hlocal
    · exact (hs.threads q (mem_of_getElem? hj)).of_not_critical (hothers j q hne hj)
  · rw [hcrit hq (.inr (.inl hqupd)), hcrit hq' hq'crit]
  · obtain ⟨q, hq, hqrun⟩ := hs.run
    exact ⟨q, (getElem?_set_ne (hs.ne_zero hpc hrun)).trans hq, hqrun⟩

/-- A step outside `Update`, where the counter may grow. What it means for `blocked` is left
open. -/
theorem Settled.outside (hs : s.Settled) (hpc : s.threads[i]? = some pc) (hupd' : ¬pc'.Updating)
    (hcrit : pc'.Critical → pc.Critical ∨ ∀ q ∈ s.threads, ¬q.Updating)
    (hrun : pc.OfRun → pc'.OfRun) (hlocal : pc'.Local l)
    (hothers : ∀ j q, j ≠ i → s.threads[j]? = some q → q.Local s.limiter → q.Local l)
    (hclosed : l.closed = false) (hwas : l.wasActive = true)
    (hsound : (∀ q ∈ s.threads.set i pc', ¬q.Updating) → l.blocked = true → 0 < l.limit →
      l.limit ≤ l.used)
    (hcomplete : (∀ q ∈ s.threads.set i pc', ¬q.Updating) → 0 < l.limit → l.limit ≤ l.used →
      l.blocked = true ∨ ∃ q ∈ s.threads.set i pc', q.WillBlock l.limit) :
    Settled { s with limiter := l, threads := s.threads.set i pc' } := by
  refine ⟨hclosed, hwas, fun q hq => ?_, fun j k q q' hq hq' hqupd hq'crit => ?_, ?_, hsound,
    hcomplete⟩
  · obtain ⟨j, hj⟩ := mem_iff_getElem?.mp hq
    rcases getElem?_set_cases hpc hj with ⟨-, rfl⟩ | ⟨hne, hj⟩
    · exact hlocal
    · exact hothers j q hne hj (hs.threads q (mem_of_getElem? hj))
  · rcases getElem?_set_cases hpc hq with ⟨-, rfl⟩ | ⟨hne, hold⟩
    · exact absurd hqupd hupd'
    · rcases getElem?_set_cases hpc hq' with ⟨rfl, rfl⟩ | ⟨-, hold'⟩
      · rcases hcrit hq'crit with h | h
        · exact hs.alone j k q pc hold hpc hqupd h
        · exact absurd hqupd (h q (mem_of_getElem? hold))
      · exact hs.alone j k q q' hold hold' hqupd hq'crit
  · obtain ⟨q, hq, hqrun⟩ := hs.run
    by_cases hi : i = 0
    · subst hi
      obtain rfl : pc = q := some.inj (hpc.symm.trans hq)
      exact ⟨pc', List.getElem?_set_self (List.getElem?_eq_some_iff.mp hpc).1, hrun hqrun⟩
    · exact ⟨q, (getElem?_set_ne hi).trans hq, hqrun⟩

/-- Without an `Update` after the step, there was none before. -/
theorem not_updating_of_set (hpc : s.threads[i]? = some pc) (hupd : ¬pc.Updating)
    (h : ∀ q ∈ s.threads.set i pc', ¬q.Updating) : ∀ q ∈ s.threads, ¬q.Updating := by
  intro q hq
  obtain ⟨j, hj⟩ := mem_iff_getElem?.mp hq
  by_cases hij : j = i
  · subst hij
    obtain rfl : pc = q := some.inj (hpc.symm.trans hj)
    exact hupd
  · refine h q (mem_of_getElem? (i := j) ?_)
    rw [getElem?_set_ne (Ne.symm hij), hj]

/-- The counters, the window and the flags are the same. -/
structure SameCounters (l l' : Limiter) : Prop where
  used : l'.used = l.used
  limit : l'.limit = l.limit
  startsAt : l'.startsAt = l.startsAt
  expiresAt : l'.expiresAt = l.expiresAt
  blocked : l'.blocked = l.blocked
  closed : l'.closed = l.closed
  wasActive : l'.wasActive = l.wasActive

theorem SameCounters.refl (l : Limiter) : SameCounters l l := ⟨rfl, rfl, rfl, rfl, rfl, rfl, rfl⟩

theorem SameCounters.dirty (l : Limiter) (dirty : Bool) : SameCounters l { l with dirty } :=
  ⟨rfl, rfl, rfl, rfl, rfl, rfl, rfl⟩

theorem SameCounters.localAt {l l' : Limiter} (h : SameCounters l l') {q : Pc} (hq : q.Local l) :
    q.Local l' := by
  cases q <;> simp only [Pc.Local, h.used, h.limit, h.startsAt, h.expiresAt] at hq ⊢ <;> exact hq

/-- A step outside `Update` that changes none of the counters. -/
theorem Settled.frame (hs : s.Settled) (hpc : s.threads[i]? = some pc) (hupd : ¬pc.Updating)
    (hupd' : ¬pc'.Updating) (hcrit : pc'.Critical → pc.Critical ∨ ∀ q ∈ s.threads, ¬q.Updating)
    (hrun : pc.OfRun → pc'.OfRun)
    (hwill : 0 < s.limiter.limit → pc.WillBlock s.limiter.limit → pc'.WillBlock s.limiter.limit)
    (hl : SameCounters s.limiter l) (hlocal : pc'.Local s.limiter) :
    Settled { s with limiter := l, threads := s.threads.set i pc' } := by
  refine hs.outside hpc hupd' hcrit hrun (hl.localAt hlocal) (fun _ _ _ _ => hl.localAt)
    (hl.closed.trans hs.closed) (hl.wasActive.trans hs.wasActive) ?_ ?_
  · intro hnone
    rw [hl.blocked, hl.limit, hl.used]
    exact hs.sound (not_updating_of_set hpc hupd hnone)
  · intro hnone
    rw [hl.blocked, hl.limit, hl.used]
    intro hpos hle
    refine (hs.complete (not_updating_of_set hpc hupd hnone) hpos hle).imp id ?_
    exact exists_mem_set hpc (hwill hpos)

/-! ## The steps of a thread -/

/-- The other threads are not critical during an `Update`. -/
theorem Settled.others (hs : s.Settled) (hpc : s.threads[i]? = some pc) (hupd : pc.Updating) :
    ∀ j q, j ≠ i → s.threads[j]? = some q → ¬q.Critical :=
  fun j q hne hj hcrit => hne (hs.alone i j pc q hpc hj hupd hcrit)

/-- A step within `Update` that only reads. -/
theorem Settled.reevaluate (hs : s.Settled) (hpc : s.threads[i]? = some pc) (hrun : ¬pc.OfRun)
    (hupd : pc.Updating) (hupd' : pc'.Updating) (hlocal : pc'.Local s.limiter) :
    Settled { s with limiter := s.limiter, threads := s.threads.set i pc' } :=
  hs.update hpc hrun (hs.others hpc hupd) hupd' hlocal hs.closed hs.wasActive

/-- `used.Add`. -/
theorem Settled.addUsed {n : ℕ} (hs : s.Settled) (hpc : s.threads[i]? = some (.addUsed n))
    (hnone : ∀ q ∈ s.threads, ¬q.Updating) :
    Settled { s with
      limiter := { s.limiter with used := s.limiter.used + n }
      threads := s.threads.set i (.addDirty (s.limiter.used + n)) } := by
  have hmem : Pc.addDirty (s.limiter.used + n) ∈ s.threads.set i (.addDirty _) := mem_set_self hpc
  refine hs.outside hpc id (fun _ => .inr hnone) nofun le_rfl ?_ hs.closed hs.wasActive ?_ ?_
  · intro j q _ hj hlocal
    exact hlocal.mono (hnone q (mem_of_getElem? hj)) (Nat.le_add_right _ _) rfl rfl
  · intro _ hblocked hpos
    exact (hs.sound hnone hblocked hpos).trans (Nat.le_add_right _ _)
  · intro _ _ hle
    exact .inr ⟨_, hmem, hle⟩

/-- The store of `block`. -/
theorem Settled.addBlocked (hs : s.Settled) (hpc : s.threads[i]? = some .addBlocked) :
    Settled { s with
      limiter := { s.limiter with blocked := true }
      threads := s.threads.set i .done } := by
  have hlocal := hs.threads _ (mem_of_getElem? hpc)
  refine hs.outside hpc id (fun h => absurd h (by decide)) nofun trivial ?_ hs.closed hs.wasActive
    (fun _ _ => hlocal) (fun _ _ _ => .inl rfl)
  exact fun _ q _ _ hq => by cases q <;> exact hq

/-- The store of `reevaluate`. -/
theorem Settled.evalBlocked {b : Bool} (hs : s.Settled)
    (hpc : s.threads[i]? = some (.evalBlocked b)) :
    Settled { s with
      limiter := { s.limiter with blocked := b }
      threads := s.threads.set i .flushDirty } := by
  have hlocal : b = true ↔ _ := hs.threads _ (mem_of_getElem? hpc)
  refine hs.outside hpc id (fun h => absurd h (by decide)) nofun trivial ?_ hs.closed hs.wasActive
    (fun _ hb _ => (hlocal.mp hb).2) (fun _ hpos hle => .inl (hlocal.mpr ⟨hpos, hle⟩))
  exact fun _ q _ _ hq => by cases q <;> exact hq

/-- A step outside of all critical parts. -/
theorem Settled.plain (hs : s.Settled) (hpc : s.threads[i]? = some pc) (hrun : pc.OfRun → pc'.OfRun)
    (hl : SameCounters s.limiter l) (hlocal : pc'.Local s.limiter)
    (hcrit : ¬pc.Critical := by exact Pc.not_critical id id id)
    (hcrit' : ¬pc'.Critical := by exact Pc.not_critical id id id) :
    Settled { s with limiter := l, threads := s.threads.set i pc' } :=
  hs.frame hpc (fun h => hcrit (.inr (.inl h))) (fun h => hcrit' (.inr (.inl h)))
    (fun h => absurd h hcrit') hrun (fun _ h => absurd (.inl h.adding) hcrit) hl hlocal

/-- Every step of a thread. -/
theorem Settled.next {ok : Bool} (hs : s.Settled) (hactive : s.limiter.active = true)
    (hapart : Apart s (.next i ok)) (h : s.next i ok = some s') : s'.Settled := by
  obtain ⟨pc, hpc, hmap⟩ := bind_eq_some_iff.mp h
  obtain ⟨⟨l, pc'⟩, hnext, rfl⟩ := map_eq_some_iff.mp hmap
  have hlocal := hs.threads pc (mem_of_getElem? hpc)
  have hguard := hapart pc hpc
  have hsame := SameCounters.refl s.limiter
  cases pc with
  | done => cases hnext
  | addClosed n =>
    cases hnext
    rw [hs.closed]
    exact hs.plain hpc nofun hsame trivial
  | addStartsAt n =>
    cases hnext
    exact hs.plain hpc nofun hsame trivial
  | addExpiresAt n startsAt now =>
    cases hnext
    split_ifs <;> exact hs.plain hpc nofun hsame trivial
  | addUsed n =>
    obtain ⟨hwrap, hnone⟩ := hguard
    cases hnext
    rw [Nat.mod_eq_of_lt hwrap]
    exact hs.addUsed hpc hnone
  | addDirty used =>
    cases hnext
    exact hs.frame hpc id id (fun _ => .inl (.inl trivial)) nofun (fun _ h => h)
      (.dirty s.limiter true) hlocal
  | addLimit used =>
    cases hnext
    split_ifs with hreached
    · exact hs.frame hpc id id (fun _ => .inl (.inl trivial)) nofun (fun _ _ => trivial) hsame
        fun _ => hreached.2.trans hlocal
    · exact hs.frame hpc id id (fun _ => .inl (.inl trivial)) nofun
        (fun hpos hle => hreached ⟨hpos, hle⟩) hsame trivial
  | addBlocked =>
    cases hnext
    exact hs.addBlocked hpc
  | updUsed u =>
    cases hnext
    exact hs.update hpc id (fun j q _ hj => hguard q (mem_of_getElem? hj)) trivial trivial
      hs.closed hs.wasActive
  | updLimit u | updStartsAt u | updExpiresAt u =>
    cases hnext
    exact hs.update hpc id (hs.others hpc trivial) trivial trivial hs.closed hs.wasActive
  | evalEnforced =>
    cases hnext
    split_ifs with hpos
    · exact hs.reevaluate hpc id trivial trivial ⟨hpos, hactive⟩
    · exact hs.reevaluate hpc id trivial trivial ⟨nofun, fun h => absurd h.1 hpos⟩
  | evalStartsAt now =>
    cases hnext
    exact hs.reevaluate hpc id trivial trivial hlocal
  | evalExpiresAt startsAt now =>
    cases hnext
    rw [if_pos hlocal.2]
    exact hs.reevaluate hpc id trivial trivial hlocal.1
  | evalUsed =>
    cases hnext
    exact hs.reevaluate hpc id trivial trivial ⟨hlocal, rfl⟩
  | evalLimit used =>
    cases hnext
    obtain ⟨hpos, rfl⟩ := hlocal
    refine hs.reevaluate hpc id trivial trivial ?_
    show decide _ = true ↔ _
    rw [decide_eq_true_iff]
    exact (and_iff_right hpos).symm
  | evalBlocked b =>
    cases hnext
    exact hs.evalBlocked hpc
  | flushDirty =>
    cases hnext
    exact hs.plain hpc nofun (.dirty s.limiter _) trivial
  | saveUsed | saveLimit _ | saveStartsAt _ _ | saveExpiresAt _ _ _ =>
    cases hnext
    exact hs.plain hpc id hsame trivial
  | save rec =>
    cases hnext
    refine hs.plain hpc id ?_ trivial
    split_ifs
    · exact ⟨rfl, rfl, rfl, rfl, rfl, rfl, rfl⟩
    · exact hsame
  | tickDirty =>
    cases hnext
    split_ifs <;> exact hs.plain hpc id (.dirty s.limiter _) trivial
  | boundStartsAt =>
    cases hnext
    exact hs.frame hpc id id (fun _ => .inr hguard) id (fun _ h => h.elim) hsame hactive
  | boundExpiresAt startsAt now =>
    -- the window is found active, as it was
    have hin : inWindow startsAt s.limiter.expiresAt now = true := hlocal
    cases hnext
    rw [hin, hs.wasActive, if_pos rfl]
    refine hs.frame hpc id id (fun h => absurd h (Pc.not_critical id id id)) id
      (fun _ h => h.elim) ⟨rfl, rfl, rfl, rfl, rfl, rfl, hs.wasActive.symm⟩ trivial
  | closeClosed | boundEnforced | boundUsed | boundLimit _ | boundBlocked _ => exact hlocal.elim

/-! ## Runs -/

/-- A call begins. -/
theorem Settled.spawn (hs : s.Settled) (hlocal : pc.Local s.limiter)
    (hcrit : ¬pc.Critical := by exact Pc.not_critical id id id) : (s.spawn pc).Settled := by
  have hupd : ¬pc.Updating := fun h => hcrit (.inr (.inl h))
  have hbefore (h : ∀ q ∈ s.threads ++ [pc], ¬q.Updating) : ∀ q ∈ s.threads, ¬q.Updating :=
    fun q hq => h q (mem_append_left _ hq)
  refine ⟨hs.closed, hs.wasActive, fun q hq => ?_, fun j k q q' hq hq' hqupd hq'crit => ?_, ?_,
    fun h => hs.sound (hbefore h), fun h hpos hle => ?_⟩
  · rcases mem_append.mp hq with hq | hq
    · exact hs.threads q hq
    · exact mem_singleton.mp hq ▸ hlocal
  · rcases getElem?_concat_cases hq with hold | ⟨-, rfl⟩
    · rcases getElem?_concat_cases hq' with hold' | ⟨-, rfl⟩
      · exact hs.alone j k q q' hold hold' hqupd hq'crit
      · exact absurd hq'crit hcrit
    · exact absurd hqupd hupd
  · obtain ⟨q, hq, hqrun⟩ := hs.run
    exact ⟨q, (List.getElem?_append_left (List.getElem?_eq_some_iff.mp hq).1).trans hq, hqrun⟩
  · refine (hs.complete (hbefore h) hpos hle).imp id fun ⟨q, hq, hwill⟩ => ?_
    exact ⟨q, mem_append_left _ hq, hwill⟩

/-- A ticker fires. -/
theorem Settled.fire (hs : s.Settled) (h : s.fire pc = some s') (hrun : pc.OfRun)
    (hlocal : pc.Local s.limiter) (hcrit : ¬pc.Critical := by exact Pc.not_critical id id id) :
    s'.Settled := by
  unfold State.fire at h
  split_ifs at h with hdone
  cases h
  exact hs.plain hdone (fun _ => hrun) (.refl _) hlocal (Pc.not_critical id id id) hcrit

theorem Settled.step {op : Op} (hs : s.Settled) (hactive : s.limiter.active = true)
    (hclose : op ≠ .close) (hapart : Apart s op) (h : s.step op = some s') : s'.Settled := by
  cases op with
  | tick ns =>
    cases h
    have hsame : SameCounters s.limiter { s.limiter with now := s.limiter.now + ns } :=
      ⟨rfl, rfl, rfl, rfl, rfl, rfl, rfl⟩
    exact ⟨hs.closed, hs.wasActive, fun q hq => hsame.localAt (hs.threads q hq), hs.alone, hs.run,
      hs.sound, hs.complete⟩
  | add n dir =>
    cases h
    unfold State.add
    split_ifs <;> exact hs.spawn trivial
  | update u => exact some.inj h ▸ hs.spawn trivial
  | close => exact absurd rfl hclose
  | flushTick | boundTick => exact hs.fire h trivial trivial
  | next i ok => exact hs.next hactive hapart h

theorem settled_start {direction : Direction} {startsAt expiresAt now : ℤ} {rec : Option Record}
    (hactive : (start direction limit startsAt expiresAt rec now).limiter.active = true) :
    (start direction limit startsAt expiresAt rec now).Settled := by
  have hwindow : inWindow startsAt expiresAt now = true := hactive
  have hblocked : (newLimiter direction limit startsAt expiresAt rec now).blocked =
      (0 < limit && inWindow startsAt expiresAt now &&
        limit ≤ (newLimiter direction limit startsAt expiresAt rec now).used) := rfl
  have hdone {j : ℕ} {q : Pc} (hj : [Pc.done][j]? = some q) : q = .done :=
    mem_singleton.mp (mem_of_getElem? hj)
  refine ⟨rfl, hwindow, fun q hq => ?_, fun j k q q' hq _ hupd _ => ?_, ⟨.done, rfl, trivial⟩,
    fun _ h _ => ?_, fun _ hpos hle => .inl ?_⟩
  · rw [mem_singleton.mp hq]
    trivial
  · rw [hdone hq] at hupd
    cases hupd
  · change (newLimiter direction limit startsAt expiresAt rec now).blocked = true at h
    rw [hblocked, Bool.and_eq_true, decide_eq_true_iff] at h
    exact h.2
  · show (newLimiter direction limit startsAt expiresAt rec now).blocked = true
    rw [hblocked, Bool.and_eq_true, Bool.and_eq_true, decide_eq_true_iff, decide_eq_true_iff]
    exact ⟨⟨hpos, hwindow⟩, hle⟩

/-- Without calls in progress, what will be right is right. -/
theorem Settled.isBlocked_iff (hs : s.Settled) (hactive : s.limiter.active = true)
    (hcalls : s.NoCalls) :
    s.limiter.isBlocked = true ↔ 0 < s.limiter.limit ∧ s.limiter.limit ≤ s.limiter.used := by
  have hrun (q : Pc) (hq : q ∈ s.threads) : q.OfRun := by
    obtain ⟨q₀, hq₀, hrun₀⟩ := hs.run
    cases hthreads : s.threads with
    | nil =>
      rw [hthreads] at hq
      cases hq
    | cons q₁ rest =>
      rw [hthreads] at hq hq₀
      rcases mem_cons.mp hq with rfl | hq
      · exact some.inj hq₀ ▸ hrun₀
      · rw [hcalls q (by rw [hthreads]; exact hq)]
        trivial
  have hnone (q : Pc) (hq : q ∈ s.threads) : ¬q.Updating := (hrun q hq).not_updating
  have hblocked : s.limiter.isBlocked = true ↔ s.limiter.blocked = true ∧ 0 < s.limiter.limit := by
    unfold Limiter.isBlocked Limiter.enforcing
    rw [hs.closed, hactive]
    cases s.limiter.blocked <;> simp
  rw [hblocked]
  constructor
  · rintro ⟨hb, hpos⟩
    exact ⟨hpos, hs.sound hnone hb hpos⟩
  · rintro ⟨hpos, hle⟩
    rcases hs.complete hnone hpos hle with hb | ⟨q, hq, hwill⟩
    · exact ⟨hb, hpos⟩
    · exact absurd hwill (hrun q hq).not_willBlock

end State

/-- In a state of an active limiter without calls in progress, `Blocked` says whether the counter
has reached a positive limit: after any interleaving of calls in which `Update` is apart from the
other calls and the counter does not wrap. -/
theorem blocked_iff (direction : Direction) (limit : ℕ) (startsAt expiresAt : ℤ)
    (rec : Option Record) (now : ℤ) (ops : List Op) (s : State)
    (hrun : run State.step (start direction limit startsAt expiresAt rec now) ops = some s)
    (hclose : ∀ op ∈ ops, op ≠ .close)
    (hactive : Along State.step (fun s _ => s.limiter.active = true)
      (start direction limit startsAt expiresAt rec now) ops ∧ s.limiter.active = true)
    (hapart : Along State.step State.Apart (start direction limit startsAt expiresAt rec now) ops)
    (hcalls : s.NoCalls) :
    s.limiter.isBlocked = true ↔ 0 < s.limiter.limit ∧ s.limiter.limit ≤ s.limiter.used := by
  obtain ⟨halong, hend⟩ := hactive
  have hstart : (start direction limit startsAt expiresAt rec now).limiter.active = true := by
    cases ops with
    | nil => exact some.inj hrun ▸ hend
    | cons op ops => exact halong.1
  have hs : s.Settled := by
    refine run_induction_along (fun s op s' hs hguard hstep => ?_) (State.settled_start hstart)
      ((halong.and hapart).and (along_of_forall hclose _)) hrun
    exact hs.step hguard.1.1 hguard.2 hguard.1.2 hstep
  exact hs.isBlocked_iff hend hcalls

/-- A thread takes `n` steps; a `Save` succeeds. -/
def steps (i n : ℕ) : List Op := List.replicate n (.next i true)

/-- A limiter of ten bytes that are always counted. -/
def tenBytes : State := start .total 10 0 0 none 0

/-- Two calls that reach the limit together, and then an `Update` that raises it. -/
def reachAndRaise : List Op :=
  [Op.add 4 .dirIn, Op.add 6 .dirOut] ++ steps 1 4 ++ steps 2 7 ++ steps 1 2 ++
    [Op.update { limit := some 11 }] ++ steps 3 16

def raised : State := (run State.step tenBytes reachAndRaise).get (by decide)

theorem blocked_iff_raised :
    raised.limiter.used = 10 ∧
      (raised.limiter.isBlocked = true ↔
        0 < raised.limiter.limit ∧ raised.limiter.limit ≤ raised.limiter.used) := by
  refine ⟨by decide, blocked_iff .total 10 0 0 none 0 reachAndRaise raised ?_ ?_ ⟨?_, ?_⟩ ?_ ?_⟩
  all_goals decide

/-- A call that has found the limit reached, and an `Update` that resets the counter before the
call sets `blocked`. -/
def resetTooEarly : List Op :=
  [Op.add 10 .dirIn] ++ steps 1 6 ++ [Op.update { used := some 0 }] ++ steps 2 16 ++ steps 1 1

/-- The limiter is blocked, with no byte used and no call in progress. -/
theorem blocked_after_reset :
    (run State.step tenBytes resetTooEarly).any fun s =>
      s.NoCalls ∧ s.limiter.isBlocked ∧ s.limiter.used = 0 ∧ s.limiter.limit = 10 := by
  decide

end Quota

import Gost.Lib.ListCount
import Gost.Quota.Limiter

/-!
# Usage that is left unsaved

`dirty` is cleared before `persist` reads the counter, so a byte that is counted later marks it
again. But it is cleared before `Save` is tried, and two calls of `persist` may save what they have
read in either order.

`saved_of_clean`: when no thread is in progress and `dirty` is false, the last record has the
current counter, provided that no `Save` fails and no two calls of `persist` overlap, each from the
load of the counter to its `Save`.
-/

namespace Quota

open List ListCount Option TransitionSystem

namespace Pc

/-- The thread will mark the limiter dirty, or will read the counter to save it. -/
def Owing : Pc → Prop
  | .addDirty _ | .updLimit _ | .updStartsAt _ | .updExpiresAt _ | .evalEnforced | .evalStartsAt _
  | .evalExpiresAt _ _ | .evalUsed | .evalLimit _ | .evalBlocked _ | .flushDirty | .saveUsed => True
  | _ => False

/-- The counter that the thread has read and will save. -/
def saving : Pc → Option ℕ
  | .saveLimit used | .saveStartsAt used _ | .saveExpiresAt used _ _ => some used
  | .save rec => some rec.used
  | _ => none

theorem Owing.saving_eq_none {pc : Pc} (h : pc.Owing) : pc.saving = none := by
  cases pc with
  | saveLimit _ | saveStartsAt _ _ | saveExpiresAt _ _ _ | save _ => cases h
  | _ => rfl

end Pc

namespace State

/-- If the limiter is clean and no thread owes anything, then what is being saved, or else what was
saved last, is the counter. -/
structure Kept (s : State) : Prop where
  alone : ∀ (i j : ℕ) pc pc', s.threads[i]? = some pc → s.threads[j]? = some pc' →
    pc.saving ≠ none → pc'.saving ≠ none → i = j
  clean : s.limiter.dirty = false → (∃ pc ∈ s.threads, pc.Owing) ∨
    (∀ pc ∈ s.threads, ∀ used ∈ pc.saving, used = s.limiter.used) ∧
      (s.limiter.savedUsed = s.limiter.used ∨ ∃ pc ∈ s.threads, pc.saving ≠ none)

/-- `persist` reads the counter while no other thread is saving one, and `Save` succeeds. -/
def MaySave (s : State) (ok : Bool) : Pc → Prop
  | .saveUsed => ∀ pc ∈ s.threads, pc.saving = none
  | .save _ => ok = true
  | _ => True

instance (s : State) (ok : Bool) : DecidablePred (s.MaySave ok)
  | .saveUsed => inferInstanceAs (Decidable (∀ pc ∈ s.threads, pc.saving = none))
  | .save _ => inferInstanceAs (Decidable (ok = true))
  | .done | .addClosed _ | .addStartsAt _ | .addExpiresAt _ _ _ | .addUsed _ | .addDirty _
  | .addLimit _ | .addBlocked | .updUsed _ | .updLimit _ | .updStartsAt _ | .updExpiresAt _
  | .evalEnforced | .evalStartsAt _ | .evalExpiresAt _ _ | .evalUsed | .evalLimit _ | .evalBlocked _
  | .flushDirty | .saveLimit _ | .saveStartsAt _ _ | .saveExpiresAt _ _ _ | .closeClosed
  | .tickDirty | .boundStartsAt | .boundExpiresAt _ _ | .boundEnforced | .boundUsed | .boundLimit _
  | .boundBlocked _ => .isTrue trivial

/-- No `Save` fails, and no two calls of `persist` overlap. -/
def Steady (s : State) : Op → Prop
  | .next i ok => ∀ pc ∈ s.threads[i]?, s.MaySave ok pc
  | _ => True

instance (s : State) : DecidablePred s.Steady
  | .next i ok => inferInstanceAs (Decidable (∀ pc ∈ s.threads[i]?, s.MaySave ok pc))
  | .tick _ | .add _ _ | .update _ | .close | .flushTick | .boundTick => .isTrue trivial

variable {s s' : State} {i : ℕ} {pc pc' : Pc} {l : Limiter}

/-- A thread that moves and saves no more than before leaves at most one that saves. -/
theorem Kept.alone_set (hs : s.Kept) (hpc : s.threads[i]? = some pc)
    (h : pc'.saving ≠ none → pc.saving ≠ none ∨ ∀ q ∈ s.threads, q.saving = none) (j k : ℕ)
    (q q' : Pc) (hq : (s.threads.set i pc')[j]? = some q)
    (hq' : (s.threads.set i pc')[k]? = some q') (hsave : q.saving ≠ none)
    (hsave' : q'.saving ≠ none) : j = k := by
  have hother {j : ℕ} {q : Pc} (hj : s.threads[j]? = some q) (hsave : q.saving ≠ none)
      (hsave' : pc'.saving ≠ none) : j = i := by
    rcases h hsave' with hold | hnone
    · exact hs.alone j i q pc hj hpc hsave hold
    · exact absurd (hnone q (mem_of_getElem? hj)) hsave
  rcases getElem?_set_cases hpc hq with ⟨rfl, rfl⟩ | ⟨-, hold⟩
  · rcases getElem?_set_cases hpc hq' with ⟨rfl, -⟩ | ⟨-, hold'⟩
    · rfl
    · exact (hother hold' hsave' hsave).symm
  · rcases getElem?_set_cases hpc hq' with ⟨rfl, rfl⟩ | ⟨-, hold'⟩
    · exact hother hold hsave hsave'
    · exact hs.alone j k q q' hold hold' hsave hsave'

/-- The thread that moves owes now. -/
theorem Kept.owing (hs : s.Kept) (hpc : s.threads[i]? = some pc) (h : pc'.Owing) :
    Kept { s with limiter := l, threads := s.threads.set i pc' } where
  alone := hs.alone_set hpc fun hsave => absurd h.saving_eq_none hsave
  clean _ := .inl ⟨pc', mem_set_self hpc, h⟩

/-- A step that neither counts nor saves. -/
theorem Kept.frame (hs : s.Kept) (hpc : s.threads[i]? = some pc) (howing : ¬pc.Owing)
    (hsaving : pc'.saving = pc.saving) (hdirty : l.dirty = false → s.limiter.dirty = false)
    (hused : l.used = s.limiter.used) (hsaved : l.savedUsed = s.limiter.savedUsed) :
    Kept { s with limiter := l, threads := s.threads.set i pc' } where
  alone := hs.alone_set hpc fun h => .inl (hsaving ▸ h)
  clean hclean := by
    refine (hs.clean (hdirty hclean)).imp (exists_mem_set hpc fun h => absurd h howing) ?_
    rintro ⟨hall, hcurrent⟩
    refine ⟨fun q hq used hsave => ?_, ?_⟩
    · rw [hused]
      rcases mem_or_eq_of_mem_set hq with hq | rfl
      · exact hall q hq used hsave
      · exact hall pc (mem_of_getElem? hpc) used (hsaving ▸ hsave)
    · rw [hused, hsaved]
      exact hcurrent.imp id (exists_mem_set hpc fun h => hsaving ▸ h)

/-- `persist` reads the counter. -/
theorem Kept.saveUsed (hs : s.Kept) (hpc : s.threads[i]? = some .saveUsed)
    (hnone : ∀ q ∈ s.threads, q.saving = none) :
    Kept { s with threads := s.threads.set i (.saveLimit s.limiter.used) } where
  alone := hs.alone_set hpc fun _ => .inr hnone
  clean _ := by
    refine .inr ⟨fun q hq used hsave => ?_, .inr ⟨_, mem_set_self hpc, nofun⟩⟩
    rcases mem_or_eq_of_mem_set hq with hq | rfl
    · rw [hnone q hq] at hsave
      cases hsave
    · exact (some.inj hsave).symm

/-- `Save` succeeds. -/
theorem Kept.save {rec : Record} (hs : s.Kept) (hpc : s.threads[i]? = some (.save rec)) :
    Kept { s with
      limiter := { s.limiter with saved := some rec }
      threads := s.threads.set i .done } where
  alone := hs.alone_set hpc fun h => absurd rfl h
  clean hclean := by
    refine (hs.clean hclean).imp (exists_mem_set hpc fun h => absurd h id) fun ⟨hall, _⟩ => ?_
    refine ⟨fun q hq used hsave => ?_, .inl ?_⟩
    · rcases mem_or_eq_of_mem_set hq with hq | rfl
      · exact hall q hq used hsave
      · cases hsave
    · exact hall _ (mem_of_getElem? hpc) rec.used rfl

/-- Every step of a thread. -/
theorem Kept.next {ok : Bool} (hs : s.Kept) (hsteady : Steady s (.next i ok))
    (h : s.next i ok = some s') : s'.Kept := by
  obtain ⟨pc, hpc, hmap⟩ := bind_eq_some_iff.mp h
  obtain ⟨⟨l, pc'⟩, hnext, rfl⟩ := map_eq_some_iff.mp hmap
  have hguard := hsteady pc hpc
  cases pc with
  | done => cases hnext
  | addUsed _ | updUsed _ | updLimit _ | updStartsAt _ | updExpiresAt _ | evalStartsAt _ | evalUsed
  | evalLimit _ | evalBlocked _ | flushDirty | closeClosed | boundBlocked _ =>
    cases hnext
    exact hs.owing hpc trivial
  | evalEnforced | evalExpiresAt _ _ =>
    cases hnext
    split_ifs <;> exact hs.owing hpc trivial
  | addClosed _ | addExpiresAt _ _ _ | addLimit _ | boundEnforced | boundExpiresAt _ _ =>
    cases hnext
    split_ifs <;> exact hs.frame hpc id rfl id rfl rfl
  | addStartsAt _ | addBlocked | boundStartsAt | boundUsed | boundLimit _ | saveLimit _
  | saveStartsAt _ _ | saveExpiresAt _ _ _ =>
    cases hnext
    exact hs.frame hpc id rfl id rfl rfl
  | addDirty used =>
    cases hnext
    exact ⟨hs.alone_set hpc fun h => absurd rfl h, nofun⟩
  | tickDirty =>
    cases hnext
    split_ifs with hdirty
    · exact hs.owing hpc trivial
    · exact hs.frame hpc id rfl (fun _ => Bool.eq_false_of_not_eq_true hdirty) rfl rfl
  | saveUsed =>
    cases hnext
    exact hs.saveUsed hpc hguard
  | save rec =>
    obtain rfl : ok = true := hguard
    cases hnext
    exact hs.save hpc

/-- A call begins. -/
theorem Kept.spawn (hs : s.Kept) (hsaving : pc.saving = none) : (s.spawn pc).Kept := by
  -- a thread that saves is an old one
  have hold {j : ℕ} {q : Pc} (hj : (s.threads ++ [pc])[j]? = some q) (hsave : q.saving ≠ none) :
      s.threads[j]? = some q := by
    rcases getElem?_concat_cases hj with hj | ⟨-, rfl⟩
    · exact hj
    · exact absurd hsaving hsave
  refine ⟨fun j k q q' hq hq' hsave hsave' => ?_, fun hclean => ?_⟩
  · exact hs.alone j k q q' (hold hq hsave) (hold hq' hsave') hsave hsave'
  · refine (hs.clean hclean).imp ?_ fun ⟨hall, hcurrent⟩ => ⟨fun q hq => ?_, hcurrent.imp id ?_⟩
    · rintro ⟨q, hq, howing⟩
      exact ⟨q, mem_append_left _ hq, howing⟩
    · rcases mem_append.mp hq with hq | hq
      · exact hall q hq
      · rw [mem_singleton.mp hq, hsaving]
        exact nofun
    · rintro ⟨q, hq, hsave⟩
      exact ⟨q, mem_append_left _ hq, hsave⟩

/-- A ticker fires. -/
theorem Kept.fire (hs : s.Kept) (h : s.fire pc = some s') (hsaving : pc.saving = none) :
    s'.Kept := by
  unfold State.fire at h
  split_ifs at h with hdone
  cases h
  exact hs.frame hdone id hsaving id rfl rfl

theorem Kept.step {op : Op} (hs : s.Kept) (hsteady : Steady s op) (h : s.step op = some s') :
    s'.Kept := by
  cases op with
  | tick ns => exact some.inj h ▸ ⟨hs.alone, hs.clean⟩
  | add n dir =>
    cases h
    unfold State.add
    split_ifs <;> exact hs.spawn rfl
  | update u => exact some.inj h ▸ hs.spawn rfl
  | close =>
    change (if s.closing then _ else _) = _ at h
    split_ifs at h
    · exact some.inj h ▸ hs.spawn rfl
    · have hspawn : (s.spawn .closeClosed).Kept := hs.spawn rfl
      exact some.inj h ▸ ⟨hspawn.alone, hspawn.clean⟩
  | flushTick => exact hs.fire h rfl
  | boundTick => exact hs.fire h rfl
  | next i ok => exact hs.next hsteady h

theorem kept_start (direction : Direction) (limit : ℕ) (startsAt expiresAt : ℤ)
    (rec : Option Record) (now : ℤ) : (start direction limit startsAt expiresAt rec now).Kept := by
  have hdone (q : Pc) (hq : q ∈ [Pc.done]) : q.saving = none := by
    rw [mem_singleton.mp hq]
    rfl
  refine ⟨fun i j q q' hq _ hsave => ?_, fun _ => .inr ⟨fun q hq => ?_, .inl rfl⟩⟩
  · exact absurd (hdone q (mem_of_getElem? hq)) hsave
  · rw [hdone q hq]
    exact nofun

end State

/-- When no call and no round of `run` is in progress and the limiter is not dirty, the last record
that was saved has the current counter, after any interleaving in which no `Save` fails and no two
calls of `persist` overlap. -/
theorem saved_of_clean (direction : Direction) (limit : ℕ) (startsAt expiresAt : ℤ)
    (rec : Option Record) (now : ℤ) (ops : List Op) (s : State)
    (hrun : run State.step (start direction limit startsAt expiresAt rec now) ops = some s)
    (hsteady : Along State.step State.Steady (start direction limit startsAt expiresAt rec now) ops)
    (hidle : s.Idle) (hclean : s.limiter.dirty = false) :
    s.limiter.savedUsed = s.limiter.used := by
  have hs : s.Kept :=
    run_induction_along (fun _ _ _ hs hguard => hs.step hguard) (State.kept_start ..) hsteady hrun
  rcases hs.clean hclean with ⟨pc, hpc, howing⟩ | ⟨-, hsaved | ⟨pc, hpc, hsaving⟩⟩
  · rw [hidle pc hpc] at howing
    cases howing
  · exact hsaved
  · rw [hidle pc hpc] at hsaving
    exact absurd rfl hsaving

/-- A limiter of ten bytes that are always counted. -/
def fresh : State := start .total 10 0 0 none 0

/-- Three bytes are counted and flushed, while two more are counted; then the next flush. -/
def flushTwice : List Op :=
  [Op.add 3 .dirIn] ++ List.replicate 6 (Op.next 1 true) ++ [Op.flushTick] ++
    List.replicate 2 (Op.next 0 true) ++ [Op.add 2 .dirOut] ++ List.replicate 6 (Op.next 2 true) ++
    List.replicate 4 (Op.next 0 true) ++ [Op.flushTick] ++ List.replicate 6 (Op.next 0 true)

def flushed : State := (run State.step fresh flushTwice).get (by decide)

theorem saved_of_clean_flushed :
    flushed.limiter.used = 5 ∧ flushed.limiter.savedUsed = flushed.limiter.used := by
  refine ⟨by decide, saved_of_clean .total 10 0 0 none 0 flushTwice flushed ?_ ?_ ?_ ?_⟩
  all_goals decide

/-- Three bytes are counted, and the flush cannot save them. -/
def failedSave : List Op :=
  [Op.add 3 .dirIn] ++ List.replicate 6 (Op.next 1 true) ++ [Op.flushTick] ++
    List.replicate 6 (Op.next 0 false)

/-- Nothing was saved, and nothing is left to do. -/
theorem unsaved_after_failure :
    (run State.step fresh failedSave).any fun s =>
      s.Idle ∧ s.limiter.dirty = false ∧ s.limiter.used = 3 ∧ s.limiter.saved = none := by
  decide

end Quota

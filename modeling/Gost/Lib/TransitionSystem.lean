import Mathlib.Data.List.Basic

/-!
# Runs of a labelled transition function

A system is a partial function `step : σ → ι → Option σ`. The label resolves every choice
that the system leaves open: which thread moves, what the environment answers, which random
value is drawn. `none` says that the labelled step is not enabled, so a blocked thread is a
thread whose step is `none`.

* `run step s ls` takes the steps `ls` in order.
* `Along step G s ls` says that every step of the run meets the guard `G` in the state it is
  taken from.
* `run_induction` and `run_induction_along` are the invariant rules: what one step preserves
  holds after the whole run. `along_of_run` goes the other way, from the end of a run to the
  guards of its steps.
-/

namespace TransitionSystem

open List Option

variable {σ ι : Type*} {step : σ → ι → Option σ}

/-- The state after the steps `ls`, or `none` if one of them is not enabled. -/
def run (step : σ → ι → Option σ) (s : σ) : List ι → Option σ
  | [] => some s
  | l :: ls => (step s l).bind fun s' => run step s' ls

/-- Every step of the run `ls` from `s` is taken in a state where the guard `G` allows it. -/
def Along (step : σ → ι → Option σ) (G : σ → ι → Prop) (s : σ) : List ι → Prop
  | [] => True
  | l :: ls => G s l ∧ ∀ s', step s l = some s' → Along step G s' ls

instance decidableAlong {G : σ → ι → Prop} [∀ s l, Decidable (G s l)] :
    ∀ s ls, Decidable (Along step G s ls)
  | _, [] => .isTrue trivial
  | s, l :: ls =>
    match h : step s l with
    | none => decidable_of_iff (G s l) (by simp [Along, h])
    | some s' =>
      have : Decidable (Along step G s' ls) := decidableAlong s' ls
      decidable_of_iff (G s l ∧ Along step G s' ls) (by simp [Along, h])

/-- `s'` is reached from `s` by some run. -/
def Reachable (step : σ → ι → Option σ) (s s' : σ) : Prop :=
  ∃ ls, run step s ls = some s'

@[simp]
theorem run_nil (s : σ) : run step s [] = some s := rfl

variable {I J : σ → Prop} {G H : σ → ι → Prop} {s s' : σ} {l : ι} {ls : List ι}

/-- A run that starts with `l` takes that step and continues from the state it leads to. -/
theorem run_cons_eq_some :
    run step s (l :: ls) = some s' ↔ ∃ s₁, step s l = some s₁ ∧ run step s₁ ls = some s' := by
  simp [run, bind_eq_some_iff]

/-- Running `ls ++ ls'` is running `ls` and then `ls'`. -/
theorem run_append (s : σ) (ls ls' : List ι) :
    run step s (ls ++ ls') = (run step s ls).bind fun s' => run step s' ls' := by
  induction ls generalizing s with
  | nil => rfl
  | cons l ls ih =>
    simp only [cons_append, run, bind_assoc]
    exact congrArg _ (funext fun s' => ih s')

theorem run_append_eq_some {ls' : List ι} :
    run step s (ls ++ ls') = some s' ↔
      ∃ s₁, run step s ls = some s₁ ∧ run step s₁ ls' = some s' := by
  rw [run_append, bind_eq_some_iff]

/-- Invariant rule under a guard: a property that every guarded step preserves holds after
every run whose steps all meet the guard. -/
theorem run_induction_along (hstep : ∀ s l s', I s → G s l → step s l = some s' → I s')
    {s s' : σ} {ls : List ι} (hinit : I s) (hguard : Along step G s ls)
    (hrun : run step s ls = some s') : I s' := by
  induction ls generalizing s with
  | nil =>
    cases hrun
    exact hinit
  | cons l ls ih =>
    obtain ⟨s₁, hs₁, hrest⟩ := run_cons_eq_some.mp hrun
    exact ih (hstep s l s₁ hinit hguard.1 hs₁) (hguard.2 s₁ hs₁) hrest

/-- The guard `True` holds along every run. -/
theorem along_true (s : σ) (ls : List ι) : Along step (fun _ _ => True) s ls := by
  induction ls generalizing s with
  | nil => trivial
  | cons l ls ih => exact ⟨trivial, fun s' _ => ih s'⟩

/-- Backward rule: if a property of the state after a step gives the property before it and the
guard of the step, then a run that ends with the property meets the guard everywhere. -/
theorem along_of_run (hstep : ∀ s l s', step s l = some s' → I s' → I s ∧ G s l)
    (hrun : run step s ls = some s') (hend : I s') : I s ∧ Along step G s ls := by
  induction ls generalizing s with
  | nil =>
    rw [run_nil, some.injEq] at hrun
    exact ⟨hrun ▸ hend, trivial⟩
  | cons l ls ih =>
    obtain ⟨t, ht, hrest⟩ := run_cons_eq_some.mp hrun
    obtain ⟨hI, halong⟩ := ih hrest
    obtain ⟨hs, hG⟩ := hstep s l t ht hI
    refine ⟨hs, hG, fun t' ht' => ?_⟩
    rw [ht, some.injEq] at ht'
    exact ht' ▸ halong

/-- A guard on labels alone holds along a run of such labels. -/
theorem along_of_forall {P : ι → Prop} (h : ∀ l ∈ ls, P l) (s : σ) :
    Along step (fun _ l => P l) s ls := by
  induction ls generalizing s with
  | nil => trivial
  | cons l ls ih =>
    refine ⟨h l mem_cons_self, fun s' _ => ?_⟩
    exact ih (fun l' hl => h l' (mem_cons_of_mem l hl)) s'

/-- A run that meets a guard meets every weaker one. -/
theorem Along.mono (himp : ∀ s l, G s l → H s l) (h : Along step G s ls) : Along step H s ls := by
  induction ls generalizing s with
  | nil => trivial
  | cons l ls ih => exact ⟨himp s l h.1, fun s' hs => ih (h.2 s' hs)⟩

/-- A run that meets the guard, extended by one more step that does. -/
theorem Along.concat (h : Along step G s ls) (hrun : run step s ls = some s') (hl : G s' l) :
    Along step G s (ls ++ [l]) := by
  induction ls generalizing s with
  | nil =>
    rw [run_nil, some.injEq] at hrun
    exact ⟨hrun ▸ hl, fun _ _ => trivial⟩
  | cons l' ls ih =>
    refine ⟨h.1, fun t ht => ih (h.2 t ht) ?_⟩
    obtain ⟨t', ht', hrest⟩ := run_cons_eq_some.mp hrun
    rw [ht, some.injEq] at ht'
    exact ht' ▸ hrest

theorem run_concat {t : σ} (hrun : run step s ls = some s') (hl : step s' l = some t) :
    run step s (ls ++ [l]) = some t :=
  run_append_eq_some.mpr ⟨s', hrun, run_cons_eq_some.mpr ⟨t, hl, rfl⟩⟩

/-- A run that meets two guards meets their conjunction. -/
theorem Along.and (hG : Along step G s ls) (hH : Along step H s ls) :
    Along step (fun s l => G s l ∧ H s l) s ls := by
  induction ls generalizing s with
  | nil => trivial
  | cons l ls ih => exact ⟨⟨hG.1, hH.1⟩, fun s' hs => ih (hG.2 s' hs) (hH.2 s' hs)⟩

/-- Two guards that agree where an invariant holds hold along the same runs. -/
theorem along_iff_of_invariant (hinv : ∀ s l s', J s → step s l = some s' → J s')
    (hiff : ∀ s l, J s → (G s l ↔ H s l)) (hJ : J s) (ls : List ι) :
    Along step G s ls ↔ Along step H s ls := by
  induction ls generalizing s with
  | nil => rfl
  | cons l ls ih =>
    exact and_congr (hiff s l hJ) (forall₂_congr fun s' hs' => ih (hinv s l s' hJ hs'))

/-- Where a guarded step keeps an invariant and the two give another guard, the runs that meet the
first guard meet the second. -/
theorem Along.of_invariant (hinv : ∀ s l s', J s → G s l → step s l = some s' → J s')
    (himp : ∀ s l, J s → G s l → H s l) (hJ : J s) (h : Along step G s ls) : Along step H s ls := by
  induction ls generalizing s with
  | nil => trivial
  | cons l ls ih =>
    exact ⟨himp s l hJ h.1, fun s' hs' => ih (hinv s l s' hJ h.1 hs') (h.2 s' hs')⟩

/-- A run meets a guard everywhere, or it ends in a trap: a step against the guard leads there, and
no step leads out of it. -/
theorem along_or_trapped {D : σ → Prop} (hgood : ∀ s l s', I s → G s l → step s l = some s' → I s')
    (hbad : ∀ s l s', I s → ¬G s l → step s l = some s' → D s')
    (hkeep : ∀ s l s', D s → step s l = some s' → D s') (hinit : I s)
    (hrun : run step s ls = some s') : Along step G s ls ∨ D s' := by
  induction ls generalizing s with
  | nil => exact .inl trivial
  | cons l ls ih =>
    obtain ⟨t, ht, hrest⟩ := run_cons_eq_some.mp hrun
    by_cases hG : G s l
    · refine (ih (hgood s l t hinit hG ht) hrest).imp (fun halong => ⟨hG, fun t' ht' => ?_⟩) id
      rw [ht, some.injEq] at ht'
      exact ht' ▸ halong
    · have hD : D t := hbad s l t hinit hG ht
      exact .inr (run_induction_along (fun s l s' hs _ h => hkeep s l s' hs h) hD
        (along_true t ls) hrest)

/-- Exact guards: where a guarded step keeps the invariant `I`, which gives `S`, and a step that
leads to `S` meets the guard, a run has `S` in all its states if and only if it meets the guard
everywhere. -/
theorem forall_run_take_iff {S : σ → Prop} (hblocked : ∀ s l, I s → step s l = none → G s l)
    (hI : ∀ s, I s → S s) (hkeep : ∀ s l s', I s → G s l → step s l = some s' → I s')
    (hguard : ∀ s l s', I s → step s l = some s' → S s' → G s l) (hinit : I s) (ls : List ι) :
    (∀ k s', run step s (ls.take k) = some s' → S s') ↔ Along step G s ls := by
  induction ls generalizing s with
  | nil =>
    refine iff_of_true (fun k s' h => ?_) trivial
    rw [take_nil, run_nil, some.injEq] at h
    exact h ▸ hI s hinit
  | cons l ls ih =>
    constructor
    · intro h
      have hl : G s l := by
        cases hs : step s l with
        | none => exact hblocked s l hinit hs
        | some s₁ => exact hguard s l s₁ hinit hs (h 1 s₁ (run_cons_eq_some.mpr ⟨s₁, hs, rfl⟩))
      refine ⟨hl, fun s₁ hs₁ => ?_⟩
      refine (ih (hkeep s l s₁ hinit hl hs₁)).mp fun k s' hrun => ?_
      exact h (k + 1) s' (run_cons_eq_some.mpr ⟨s₁, hs₁, hrun⟩)
    · rintro ⟨hl, hrest⟩ k s' hrun
      cases k with
      | zero =>
        rw [take_zero, run_nil, some.injEq] at hrun
        exact hrun ▸ hI s hinit
      | succ k =>
        obtain ⟨s₁, hs₁, hrun⟩ := run_cons_eq_some.mp hrun
        exact (ih (hkeep s l s₁ hinit hl hs₁)).mpr (hrest s₁ hs₁) k s' hrun

/-- Invariant rule: a property that every step preserves holds after every run. -/
theorem run_induction (hstep : ∀ s l s', I s → step s l = some s' → I s') {s s' : σ} {ls : List ι}
    (hinit : I s) (hrun : run step s ls = some s') : I s' :=
  run_induction_along (fun s l s' hs _ h => hstep s l s' hs h) hinit (along_true s ls) hrun

/-- Termination: if every step from a state with the invariant lowers a measure, a run has at most
as many steps as the measure of its first state says. -/
theorem length_add_le_of_measure {μ : σ → ℕ} (hkeep : ∀ s l s', I s → step s l = some s' → I s')
    (hlower : ∀ s l s', I s → step s l = some s' → μ s' < μ s) (hinit : I s)
    (hrun : run step s ls = some s') : ls.length + μ s' ≤ μ s := by
  induction ls generalizing s with
  | nil =>
    cases hrun
    exact Nat.le_of_eq (Nat.zero_add _)
  | cons l ls ih =>
    obtain ⟨t, ht, hrest⟩ := run_cons_eq_some.mp hrun
    have hlt := hlower s l t hinit ht
    have hle := ih (hkeep s l t hinit ht) hrest
    rw [length_cons]
    omega

end TransitionSystem

import Mathlib.Data.List.Basic

/-!
# Published lists as snapshots

`chainHop.reload` of `x/hop/hop.go` and `localRouter.reload` of `x/router/router.go` append what the
loaders give to the configured slice and publish the result. `append` writes into the array behind
the configured slice if there is room, and slices that were published before may share that array.
-/

namespace Reload.Snapshots

open Function List

/-- A slice from the start of an array. -/
structure Slice where
  array : ℕ
  len : ℕ

/-- The arrays, of which `next` are there, and the slices of a hop or a router. -/
structure State (α : Type*) where
  cell : ℕ → ℕ → α
  cap : ℕ → ℕ
  next : ℕ
  -- `options.nodes`, `options.routes`
  configured : Slice
  -- `nodes`, `routes`
  published : Slice

namespace State

variable {α : Type*} [Inhabited α]

/-- At first the configured slice is published. -/
def new (items : ℕ → α) (len cap : ℕ) : State α :=
  ⟨fun _ => items, fun _ => cap, 1, ⟨0, len⟩, ⟨0, len⟩⟩

/-- `reload`; a new array has room for `extra` more elements. -/
def reload (s : State α) (loaded : List α) (extra : ℕ) : State α :=
  let c := s.configured
  let len := c.len + loaded.length
  let write (old : ℕ → α) (i : ℕ) : α :=
    if i < c.len then s.cell c.array i else loaded.getD (i - c.len) (old i)
  if len ≤ s.cap c.array then
    { s with
      cell := update s.cell c.array (write (s.cell c.array))
      published := ⟨c.array, len⟩ }
  else
    { s with
      cell := update s.cell s.next (write fun _ => default)
      cap := update s.cap s.next (len + extra)
      next := s.next + 1
      published := ⟨s.next, len⟩ }

def reloads (s : State α) (l : List (List α × ℕ)) : State α :=
  l.foldl (fun s r => s.reload r.1 r.2) s

/-- What is loaded is not written into the array of the slice `p`. -/
def Misses (s : State α) (p : Slice) (loaded : List α) : Prop :=
  p.array ≠ s.configured.array ∨ loaded = [] ∨
    s.cap s.configured.array < s.configured.len + loaded.length

/-- The slices are in arrays that are there. -/
def Valid (s : State α) (p : Slice) : Prop := s.configured.array < s.next ∧ p.array < s.next

variable {s : State α} {p : Slice}

theorem reload_valid (h : s.Valid p) (loaded : List α) (extra : ℕ) :
    (s.reload loaded extra).Valid p ∧
      (s.reload loaded extra).Valid (s.reload loaded extra).published ∧
      ∀ l, (s.reload loaded extra).Misses p l ↔ s.Misses p l := by
  obtain ⟨hc, hp⟩ := h
  unfold reload
  dsimp only
  split_ifs
  · exact ⟨⟨hc, hp⟩, ⟨hc, hc⟩, fun l => .rfl⟩
  · exact ⟨⟨Nat.lt_succ_of_lt hc, Nat.lt_succ_of_lt hp⟩,
      ⟨Nat.lt_succ_of_lt hc, Nat.lt_succ_self _⟩, by simp [Misses, Nat.ne_of_lt hc]⟩

theorem cell_reload (h : s.Valid p) {loaded : List α} (hmiss : s.Misses p loaded) (extra : ℕ) :
    (s.reload loaded extra).cell p.array = s.cell p.array := by
  unfold reload
  dsimp only
  split_ifs with hfits
  · rcases hmiss with hne | rfl | hlt
    · exact update_of_ne hne _ _
    · simp
    · exact absurd hfits (Nat.not_le_of_lt hlt)
  · exact update_of_ne (Nat.ne_of_lt h.2) _ _

theorem cell_reloads (h : s.Valid p) {l : List (List α × ℕ)} (hmiss : ∀ r ∈ l, s.Misses p r.1) :
    (s.reloads l).cell p.array = s.cell p.array := by
  induction l generalizing s with
  | nil => rfl
  | cons r l ih =>
    obtain ⟨hvalid, -, hmisses⟩ := reload_valid h r.1 r.2
    refine (ih hvalid fun r' hr' => ?_).trans (cell_reload h (hmiss r mem_cons_self) r.2)
    exact (hmisses r'.1).mpr (hmiss r' (mem_cons_of_mem r hr'))

theorem reloads_valid (h : s.Valid s.published) (l : List (List α × ℕ)) :
    (s.reloads l).Valid (s.reloads l).published := by
  induction l generalizing s with
  | nil => exact h
  | cons r l ih => exact ih (reload_valid h r.1 r.2).2.1

/-- A published slice keeps its elements if no later reload finds room for its items in the array
of the slice: the slice has an array of its own, or the configured one has no room. -/
theorem published_unchanged (items : ℕ → α) (len cap : ℕ) (before after : List (List α × ℕ))
    (h : ∀ r ∈ after, ((new items len cap).reloads before).Misses
      ((new items len cap).reloads before).published r.1) (i : ℕ) :
    let s := (new items len cap).reloads before
    (s.reloads after).cell s.published.array i = s.cell s.published.array i :=
  congrFun (cell_reloads (reloads_valid ⟨Nat.one_pos, Nat.one_pos⟩ before) h) i

/-- One configured element fills its array, and two reloads load one element each. -/
theorem published_unchanged_full :
    let s := (new (fun _ => 1) 1 1).reloads [([2], 3)]
    (s.reloads [([4], 0)]).cell s.published.array 1 = 2 :=
  published_unchanged (fun _ => 1) 1 1 [([2], 3)] [([4], 0)]
    (by simp [Misses, reloads, reload, new]) 1

/-- With room for one more the second reload changes what the first one published. -/
theorem published_changed :
    let s := (new (fun _ => 1) 1 2).reloads [([2], 0)]
    s.published.len = 2 ∧ s.cell s.published.array 1 = 2 ∧
      (s.reloads [([4], 0)]).cell s.published.array 1 = 4 := by
  decide

end State

end Reload.Snapshots

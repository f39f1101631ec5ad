import Mathlib.Data.List.Basic
import Mathlib.Logic.Equiv.Basic
import Mathlib.Order.WithBot
import Mathlib.Tactic.Common

/-!
# Array-backed binary min-heaps

The heap of Go's `container/heap`, over a list that stands for the slice: `push` appends and
sifts up, `pop` moves the last element to the root and sifts it down. Both compare keys
strictly, so elements of equal key keep the places the sifts leave them in; which of two equal
elements is popped first is part of the model.

The order is stated on `keyAt key l : ℕ → WithTop κ`, the key stored at an index and `⊤` past
the end, so that no bound appears in it. A swap of two places is then a composition with
`Equiv.swap`.

* `push_perm`, `pop_perm`: the operations add and remove exactly one element.
* `IsHeap.push`, `IsHeap.pop`: they keep the heap order.
* `IsHeap.pop_le`: `pop` returns an element of least key.
-/

namespace BinaryHeap

open List

/-! ## Order on indices -/

variable {c i j : ℕ}

section Order

variable {β : Type*} [LinearOrder β]

/-- The parent of an index; the root is its own parent. -/
def parent (i : ℕ) : ℕ := (i - 1) / 2

/-- Every index holds at least what its parent holds. -/
def Ordered (g : ℕ → β) : Prop :=
  ∀ c, 0 < c → g (parent c) ≤ g c

/-- Every edge is in order except the one that enters `j`, and `j`'s parent is below `j`'s
children: the state in which `up` continues at `j`. -/
structure OrderedAbove (g : ℕ → β) (j : ℕ) : Prop where
  edge : ∀ c, 0 < c → c ≠ j → g (parent c) ≤ g c
  skip : ∀ c, 0 < c → 0 < j → parent c = j → g (parent j) ≤ g c

/-- Every edge is in order except those that leave `i`, and `i`'s parent is below `i`'s
children: the state in which `down` continues at `i`. -/
structure OrderedBelow (g : ℕ → β) (i : ℕ) : Prop where
  edge : ∀ c, 0 < c → parent c ≠ i → g (parent c) ≤ g c
  skip : ∀ c, 0 < c → 0 < i → parent c = i → g (parent i) ≤ g c

theorem parent_lt (hc : 0 < c) : parent c < c := by
  unfold parent; omega

theorem child_cases (hc : 0 < c) (h : parent c = i) : c = 2 * i + 1 ∨ c = 2 * i + 2 := by
  unfold parent at h; omega

variable {g : ℕ → β}

/-- The root is least. -/
theorem Ordered.root_le (h : Ordered g) (c : ℕ) : g 0 ≤ g c := by
  induction c using Nat.strongRecOn with
  | ind c ih =>
    rcases Nat.eq_zero_or_pos c with rfl | hc
    · exact le_rfl
    · exact (ih (parent c) (parent_lt hc)).trans (h c hc)

theorem OrderedAbove.done (h : OrderedAbove g j) (hj : 0 < j → g (parent j) ≤ g j) : Ordered g := by
  intro c hc
  by_cases hcj : c = j
  · subst hcj
    exact hj hc
  · exact h.edge c hc hcj

theorem OrderedBelow.done (h : OrderedBelow g i) (hi : ∀ c, 0 < c → parent c = i → g i ≤ g c) :
    Ordered g := by
  intro c hc
  by_cases hci : parent c = i
  · rw [hci]
    exact hi c hc hci
  · exact h.edge c hc hci

/-- Swapping `j` with its larger parent moves the misplaced edge one level up. -/
theorem OrderedAbove.swap (h : OrderedAbove g j) (hj : 0 < j) (hlt : g j < g (parent j)) :
    OrderedAbove (g ∘ Equiv.swap (parent j) j) (parent j) := by
  have hp : parent j < j := parent_lt hj
  have hpj : parent j ≠ j := hp.ne
  constructor
  · intro c hc hcp
    by_cases hcj : c = j
    · subst hcj
      simpa using hlt.le
    · have hnew : (g ∘ Equiv.swap (parent j) j) c = g c := by
        simp [Equiv.swap_apply_of_ne_of_ne hcp hcj]
      rw [hnew]
      by_cases hpc : parent c = parent j
      · -- `c` is the other child of `parent j`, which now holds the smaller key
        have hedge := h.edge c hc hcj
        rw [hpc] at hedge ⊢
        simpa using (hlt.le.trans hedge)
      · by_cases hpc' : parent c = j
        · rw [hpc']
          simpa using h.skip c hc hj hpc'
        · simpa [Equiv.swap_apply_of_ne_of_ne hpc hpc'] using h.edge c hc hcj
  · intro c hc hpos hpc
    have hpp : parent (parent j) ≠ parent j := (parent_lt hpos).ne
    have hpp' : parent (parent j) ≠ j := ((parent_lt hpos).trans hp).ne
    have hup : g (parent (parent j)) ≤ g (parent j) := h.edge _ hpos hpj
    have hold : (g ∘ Equiv.swap (parent j) j) (parent (parent j)) = g (parent (parent j)) := by
      simp [Equiv.swap_apply_of_ne_of_ne hpp hpp']
    rw [hold]
    by_cases hcj : c = j
    · subst hcj
      simpa using hup
    · have hcp : c ≠ parent j := by
        rintro rfl
        exact hpp hpc
      have hedge := h.edge c hc hcj
      rw [hpc] at hedge
      simpa [Equiv.swap_apply_of_ne_of_ne hcp hcj] using hup.trans hedge

/-- Swapping `i` with its least child moves the misplaced edges one level down. -/
theorem OrderedBelow.swap (h : OrderedBelow g i) (hj : 0 < j) (hij : parent j = i) (hlt : g j < g i)
    (hmin : ∀ c, 0 < c → parent c = i → g j ≤ g c) : OrderedBelow (g ∘ Equiv.swap i j) j := by
  have hlt' : i < j := hij ▸ parent_lt hj
  have hne : i ≠ j := hlt'.ne
  constructor
  · intro c hc hpc
    by_cases hci : c = i
    · subst hci
      have hpi : parent c ≠ c := (parent_lt hc).ne
      simpa [Equiv.swap_apply_of_ne_of_ne hpi hpc] using h.skip j hj hc hij
    · by_cases hcj : c = j
      · subst hcj
        rw [hij]
        simpa using hlt.le
      · have hnew : (g ∘ Equiv.swap i j) c = g c := by
          simp [Equiv.swap_apply_of_ne_of_ne hci hcj]
        rw [hnew]
        by_cases hpci : parent c = i
        · rw [hpci]
          simpa using hmin c hc hpci
        · simpa [Equiv.swap_apply_of_ne_of_ne hpci hpc] using h.edge c hc hpci
  · intro c hc _ hpc
    have hcj : c ≠ j := by
      rintro rfl
      exact (parent_lt hj).ne hpc
    have hci : c ≠ i := by
      have := parent_lt hc
      omega
    have hedge := h.edge c hc (by rw [hpc]; exact hne.symm)
    rw [hpc] at hedge
    rw [hij]
    simpa [Equiv.swap_apply_of_ne_of_ne hci hcj] using hedge

end Order

/-! ## The heap operations -/

variable {α κ : Type*} (key : α → κ)

/-- The key at an index, `⊤` past the end. -/
def keyAt (l : List α) (i : ℕ) : WithTop κ :=
  match l[i]? with
  | some a => (key a : WithTop κ)
  | none => ⊤

/-- `Swap(i, j)`. -/
def swap (l : List α) (i j : ℕ) : List α :=
  match l[i]?, l[j]? with
  | some a, some b => (l.set i b).set j a
  | _, _ => l

theorem swap_of_lt (l : List α) (hi : i < l.length) (hj : j < l.length) :
    swap l i j = (l.set i l[j]).set j l[i] := by
  simp [swap, hi, hj]

theorem swap_perm (l : List α) (hi : i < l.length) (hj : j < l.length) : (swap l i j).Perm l := by
  rw [swap_of_lt l hi hj]
  exact set_set_perm hi hj

theorem keyAt_of_lt {l : List α} (hi : i < l.length) : keyAt key l i = (key l[i] : WithTop κ) := by
  simp [keyAt, hi]

theorem keyAt_of_le {l : List α} (hi : l.length ≤ i) : keyAt key l i = ⊤ := by
  simp [keyAt, hi]

/-- Swapping two places of the list swaps the keys there. -/
theorem keyAt_swap (l : List α) (hi : i < l.length) (hj : j < l.length) :
    keyAt key (swap l i j) = keyAt key l ∘ Equiv.swap i j := by
  funext k
  rw [swap_of_lt l hi hj]
  unfold keyAt
  simp only [Function.comp_apply, Equiv.swap_apply_def]
  by_cases hkj : k = j
  · subst hkj
    by_cases hki : k = i
    · subst hki
      simp [hi]
    · simp [hi, hj, hki]
  · by_cases hki : k = i
    · subst hki
      simp [hi, hj, Ne.symm hkj]
    · simp [hki, hkj, Ne.symm hki, Ne.symm hkj]

variable [LinearOrder κ]

/-- `Less(i, j)`: the element at `i` has the smaller key. -/
def less (l : List α) (i j : ℕ) : Bool :=
  match l[i]?, l[j]? with
  | some a, some b => decide (key a < key b)
  | _, _ => false

/-- The child of `i` that `down` compares it with: the right one if it is strictly less, else
the left one. -/
def leastChild (l : List α) (i : ℕ) : ℕ :=
  if 2 * i + 2 < l.length ∧ less key l (2 * i + 2) (2 * i + 1) then 2 * i + 2 else 2 * i + 1

/-- `up(h, j)`: move the element at `j` towards the root while it is less than its parent. The
first argument bounds the number of levels. -/
def up : ℕ → List α → ℕ → List α
  | 0, l, _ => l
  | fuel + 1, l, j =>
    let i := parent j
    if i = j ∨ ¬less key l j i then l else up fuel (swap l i j) i

/-- `down(h, i, n)` for `n` the length of the list: move the element at `i` towards the leaves
while it is greater than its least child. The first argument bounds the number of levels. -/
def down : ℕ → List α → ℕ → List α
  | 0, l, _ => l
  | fuel + 1, l, i =>
    let j := leastChild key l i
    if l.length ≤ 2 * i + 1 ∨ ¬less key l j i then l else down fuel (swap l i j) j

/-- `heap.Push(h, x)`. -/
def push (l : List α) (x : α) : List α :=
  up key (l.length + 1) (l ++ [x]) l.length

/-- `heap.Pop(h)`: the root goes to the caller, the last element takes its place and sifts
down. `none` stands for the index panic on an empty heap. -/
def pop : List α → Option (α × List α)
  | [] => none
  | a :: l =>
    match l.getLast? with
    | none => some (a, [])
    | some z => some (a, down key l.length (z :: l.dropLast) 0)

/-- The heap order. -/
def IsHeap (l : List α) : Prop := Ordered (keyAt key l)

/-! ### Sifting up -/

theorem less_iff {l : List α} (hi : i < l.length) (hj : j < l.length) :
    less key l i j = true ↔ keyAt key l i < keyAt key l j := by
  simp [less, keyAt, hi, hj]

theorem up_perm (fuel : ℕ) (l : List α) (hj : j < l.length) : (up key fuel l j).Perm l := by
  induction fuel generalizing l j with
  | zero => exact .refl l
  | succ fuel ih =>
    simp only [up]
    split
    · exact .refl l
    · have hi : parent j < l.length := by unfold parent; omega
      have hs := swap_perm l hi hj
      exact (ih (swap l (parent j) j) (hs.length_eq ▸ hi)).trans hs

theorem up_ordered (fuel : ℕ) (l : List α) (hj : j < l.length) (hfuel : j < fuel)
    (h : OrderedAbove (keyAt key l) j) : IsHeap key (up key fuel l j) := by
  induction fuel generalizing l j with
  | zero => omega
  | succ fuel ih =>
    have hi : parent j < l.length := by unfold parent; omega
    simp only [up]
    split
    next hstop =>
      refine h.done fun hpos => ?_
      rcases hstop with heq | hless
      · exact absurd heq (parent_lt hpos).ne
      · rw [less_iff key hj hi] at hless
        exact not_lt.mp hless
    next hgo =>
      rw [not_or, not_not] at hgo
      have hpos : 0 < j := by
        by_contra h0
        exact hgo.1 (by unfold parent; omega)
      have hlt := (less_iff key hj hi).mp hgo.2
      refine ih _ ?_ ?_ ?_
      · rw [(swap_perm l hi hj).length_eq]
        exact hi
      · have := parent_lt hpos
        omega
      · rw [keyAt_swap key l hi hj]
        exact h.swap hpos hlt

/-! ### Sifting down -/

theorem leastChild_spec {l : List α} (h1 : 2 * i + 1 < l.length) :
    0 < leastChild key l i ∧ leastChild key l i < l.length ∧ parent (leastChild key l i) = i := by
  unfold leastChild parent
  split <;> omega

/-- No child of `i` has a smaller key than `leastChild`. -/
theorem leastChild_le {l : List α} (h1 : 2 * i + 1 < l.length) (hc : 0 < c) (hpc : parent c = i) :
    keyAt key l (leastChild key l i) ≤ keyAt key l c := by
  unfold leastChild
  split
  next hright =>
    have hless := (less_iff key hright.1 h1).mp hright.2
    rcases child_cases hc hpc with rfl | rfl
    · exact hless.le
    · exact le_rfl
  next hleft =>
    rcases child_cases hc hpc with rfl | rfl
    · exact le_rfl
    · by_cases hlen : 2 * i + 2 < l.length
      · rw [not_and, less_iff key hlen h1] at hleft
        exact not_lt.mp (hleft hlen)
      · rw [keyAt_of_le key (not_lt.mp hlen)]
        exact le_top

theorem down_perm (fuel : ℕ) (l : List α) (hi : i < l.length) : (down key fuel l i).Perm l := by
  induction fuel generalizing l i with
  | zero => exact .refl l
  | succ fuel ih =>
    simp only [down]
    split
    · exact .refl l
    next hgo =>
      obtain ⟨-, hj, -⟩ := leastChild_spec key (not_le.mp (not_or.mp hgo).1)
      have hs := swap_perm l hi hj
      exact (ih _ (hs.length_eq ▸ hj)).trans hs

theorem down_ordered (fuel : ℕ) (l : List α) (hi : i < l.length) (hfuel : l.length ≤ fuel + i)
    (h : OrderedBelow (keyAt key l) i) : IsHeap key (down key fuel l i) := by
  induction fuel generalizing l i with
  | zero => omega
  | succ fuel ih =>
    simp only [down]
    split
    next hstop =>
      refine h.done fun c hc hpc => ?_
      by_cases h1 : 2 * i + 1 < l.length
      · -- the least child is no less than the element, so no child is
        obtain ⟨-, hj, -⟩ := leastChild_spec key h1
        have hle := hstop.resolve_left (not_le.mpr h1)
        rw [less_iff key hj hi, not_lt] at hle
        exact hle.trans (leastChild_le key h1 hc hpc)
      · rw [keyAt_of_le key (i := c) (by have := child_cases hc hpc; omega)]
        exact le_top
    next hgo =>
      rw [not_or, not_le, not_not] at hgo
      obtain ⟨hpos, hj, hpar⟩ := leastChild_spec key hgo.1
      have hlt := (less_iff key hj hi).mp hgo.2
      have hlen := (swap_perm l hi hj).length_eq
      have hij := parent_lt hpos
      refine ih _ (hlen ▸ hj) ?_ ?_
      · omega
      · rw [keyAt_swap key l hi hj]
        exact h.swap hpos hpar hlt fun c hc hpc => leastChild_le key hgo.1 hc hpc

/-! ### Push and pop -/

variable {key}

theorem IsHeap.nil : IsHeap key [] := by
  intro c _
  simp [keyAt]

/-- `push` adds exactly its argument. -/
theorem push_perm (l : List α) (x : α) : (push key l x).Perm (x :: l) := by
  refine (up_perm key _ _ (by simp)).trans ?_
  exact perm_append_singleton x l

/-- `push` keeps the heap order. -/
theorem IsHeap.push {l : List α} (h : IsHeap key l) (x : α) : IsHeap key (push key l x) := by
  have hkey : ∀ c, c < l.length → keyAt key (l ++ [x]) c = keyAt key l c := by
    intro c hc
    simp [keyAt, getElem?_append_left hc]
  have hend : ∀ c, l.length < c → keyAt key (l ++ [x]) c = ⊤ := by
    intro c hc
    exact keyAt_of_le key (by simp; omega)
  refine up_ordered key _ _ (by simp) (by omega) ⟨fun c hc hne => ?_, fun c hc _ hpc => ?_⟩
  · rcases lt_or_gt_of_ne hne with hlt | hgt
    · rw [hkey c hlt, hkey _ ((parent_lt hc).trans hlt)]
      exact h c hc
    · rw [hend c hgt]
      exact le_top
  · rw [hend c (hpc ▸ parent_lt hc)]
    exact le_top

/-- `pop` fails on the empty heap only. -/
theorem pop_eq_none {l : List α} : pop key l = none ↔ l = [] := by
  cases l with
  | nil => simp [pop]
  | cons a l =>
    simp only [pop, reduceCtorEq, iff_false]
    split <;> simp

/-- `pop` removes exactly the element it returns. -/
theorem pop_perm {l l' : List α} {a : α} (h : pop key l = some (a, l')) : l.Perm (a :: l') := by
  cases l with
  | nil => simp [pop] at h
  | cons b l =>
    simp only [pop] at h
    split at h
    next hlast =>
      rw [getLast?_eq_none_iff] at hlast
      simp only [Option.some.injEq, Prod.mk.injEq] at h
      rw [hlast, ← h.1, ← h.2]
    next z hlast =>
      simp only [Option.some.injEq, Prod.mk.injEq] at h
      obtain ⟨rfl, rfl⟩ := h
      refine List.Perm.cons b ?_
      refine .symm ((down_perm key _ _ (by simp)).trans ?_)
      have hsplit : l = l.dropLast ++ [z] := (dropLast_append_getLast? z hlast).symm
      exact (perm_append_singleton z _).symm.trans (.of_eq hsplit.symm)

/-- The popped element is the root. -/
theorem pop_root {l l' : List α} {a : α} (h : pop key l = some (a, l')) : l.head? = some a := by
  cases l with
  | nil => simp [pop] at h
  | cons b l =>
    simp only [pop] at h
    split at h <;> simp_all

/-- `pop` keeps the heap order. -/
theorem IsHeap.pop {l l' : List α} {a : α} (h : IsHeap key l) (hp : pop key l = some (a, l')) :
    IsHeap key l' := by
  cases l with
  | nil => simp [BinaryHeap.pop] at hp
  | cons b l =>
    simp only [BinaryHeap.pop] at hp
    split at hp
    next =>
      simp only [Option.some.injEq, Prod.mk.injEq] at hp
      exact hp.2 ▸ IsHeap.nil
    next z hlast =>
      simp only [Option.some.injEq, Prod.mk.injEq] at hp
      obtain ⟨rfl, rfl⟩ := hp
      have hsplit : l.dropLast ++ [z] = l := dropLast_append_getLast? z hlast
      have hlen : l.length = l.dropLast.length + 1 := by rw [← hsplit]; simp
      -- past the root the shortened heap agrees with the old one, or has ended
      have hkey : ∀ c, 0 < c → c < l.length →
          keyAt key (z :: l.dropLast) c = keyAt key (b :: l) c := by
        intro c hc hcl
        obtain ⟨d, rfl⟩ : ∃ d, c = d + 1 := ⟨c - 1, by omega⟩
        have hd : d < l.dropLast.length := by omega
        have : (l.dropLast ++ [z])[d]? = l.dropLast[d]? := getElem?_append_left hd
        rw [hsplit] at this
        simp [keyAt, this]
      refine down_ordered key _ _ (by simp) (by simp; omega)
        ⟨fun c hc hpc => ?_, fun c hc h0 => absurd h0 (lt_irrefl 0)⟩
      by_cases hcl : c < l.length
      · rw [hkey c hc hcl, hkey (parent c) (Nat.pos_of_ne_zero hpc) ((parent_lt hc).trans hcl)]
        exact h c hc
      · rw [keyAt_of_le key (i := c) (by simp; omega)]
        exact le_top

/-- The root of a heap has the least key. -/
theorem IsHeap.root_key_le {a : α} {l : List α} (h : IsHeap key (a :: l)) :
    ∀ b ∈ a :: l, key a ≤ key b := by
  intro b hb
  obtain ⟨c, hc, rfl⟩ := mem_iff_getElem.mp hb
  have hle := h.root_le c
  rw [keyAt_of_lt key (length_pos_of_mem hb), keyAt_of_lt key hc, WithTop.coe_le_coe] at hle
  exact hle

/-- `pop` takes the root, which has a least key by `IsHeap.root_key_le`. -/
theorem exists_cons_of_pop {l l' : List α} {a : α} (h : pop key l = some (a, l')) :
    ∃ rest, l = a :: rest ∧ l'.Perm rest := by
  obtain ⟨rest, rfl⟩ := head?_eq_some_iff.mp (pop_root h)
  exact ⟨rest, rfl, ((perm_cons a).mp (pop_perm h)).symm⟩

end BinaryHeap

import Mathlib.Order.Lattice

/-!
# Caches with expiring entries

A cache maps keys to entries, each with a time up to which it lives, or none. `get` sees the living
entries only, so it does not matter when the dead ones are removed. What a later `get` finds was
there before.
-/

namespace ExpiringCache

variable {κ β : Type*}

structure Item (β : Type*) where
  value : β
  -- the last moment of the entry
  expiration : Option ℕ
deriving DecidableEq, Repr

/-- The entry has not expired. -/
def Item.Live (now : ℕ) (item : Item β) : Prop := ∀ e ∈ item.expiration, now ≤ e

instance (now : ℕ) (item : Item β) : Decidable (item.Live now) :=
  inferInstanceAs (Decidable (∀ e ∈ item.expiration, now ≤ e))

variable {now now' : ℕ} {item : Item β}

/-- The value has no part in it. -/
@[simp]
theorem Item.live_mk {γ : Type*} {v : γ} : Item.Live now ⟨v, item.expiration⟩ ↔ item.Live now :=
  Iff.rfl

theorem Item.Live.mono (h : item.Live now') (hle : now ≤ now') : item.Live now :=
  fun e he => hle.trans (h e he)

abbrev Cache (κ β : Type*) := κ → Option (Item β)

namespace Cache

/-- The entry of a key, if it lives. -/
def get (c : Cache κ β) (now : ℕ) (k : κ) : Option β :=
  match c k with
  | some item => if item.Live now then some item.value else none
  | none => none

variable {c : Cache κ β} {k : κ} {v : β}

theorem get_eq_some_iff :
    c.get now k = some v ↔ ∃ item, c k = some item ∧ item.Live now ∧ item.value = v := by
  unfold get
  cases c k with
  | none => simp
  | some item => simp

/-- An entry that is found later was there before. -/
theorem get_of_le (hle : now ≤ now') (h : c.get now' k = some v) : c.get now k = some v := by
  obtain ⟨item, hitem, hlive, hv⟩ := get_eq_some_iff.mp h
  exact get_eq_some_iff.mpr ⟨item, hitem, hlive.mono hle, hv⟩

variable [DecidableEq κ]

/-- Stores an entry. -/
def set (c : Cache κ β) (k : κ) (item : Item β) : Cache κ β :=
  fun k' => if k' = k then some item else c k'

theorem get_set_self (h : item.Live now) : (c.set k item).get now k = some item.value :=
  get_eq_some_iff.mpr ⟨item, if_pos rfl, h, rfl⟩

theorem get_set_of_ne {k' : κ} (h : k' ≠ k) : (c.set k item).get now k' = c.get now k' := by
  unfold get set
  rw [if_neg h]

/-- What is found after an entry was stored is the entry or was found before. -/
theorem get_set_cases {k' : κ} (h : (c.set k item).get now k' = some v) :
    k' = k ∧ v = item.value ∨ c.get now k' = some v := by
  by_cases hk : k' = k
  · subst hk
    obtain ⟨item', hitem, -, rfl⟩ := get_eq_some_iff.mp h
    obtain rfl : item = item' := Option.some.inj ((if_pos rfl).symm.trans hitem)
    exact .inl ⟨rfl, rfl⟩
  · rw [get_set_of_ne hk] at h
    exact .inr h

end Cache

end ExpiringCache

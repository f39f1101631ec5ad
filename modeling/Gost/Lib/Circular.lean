import Mathlib.Order.Lattice

/-!
# Windows of a circular buffer

A circular buffer stores a list in consecutive cells of a ring, going around its end at most once.
`wrap` is the cell of a position, `Window ring head l` says that `l` is stored from the cell `head`
on. The lemmas say what the window is after a cell is written at its end, at its front or inside,
and how a full ring is unrolled.
-/

namespace Circular

open List

variable {α : Type*}

/-- The cell of a position that is less than one turn beyond the end. -/
def wrap (cap i : ℕ) : ℕ := if i < cap then i else i - cap

variable {cap head i j : ℕ}

theorem wrap_of_lt (h : i < cap) : wrap cap i = i := if_pos h

theorem wrap_of_le (h : cap ≤ i) : wrap cap i = i - cap := if_neg (not_lt.mpr h)

theorem wrap_lt (hhead : head < cap) (hi : i ≤ cap) : wrap cap (head + i) < cap := by
  unfold wrap
  split_ifs <;> omega

theorem wrap_eq_mod (hhead : head < cap) (hi : i ≤ cap) :
    wrap cap (head + i) = (head + i) % cap := by
  rcases lt_or_ge (head + i) cap with h | h
  · rw [wrap_of_lt h, Nat.mod_eq_of_lt h]
  · rw [wrap_of_le h, Nat.mod_eq_sub_mod h, Nat.mod_eq_of_lt (by omega)]

/-- Different positions of one turn have different cells. -/
theorem wrap_ne (head : ℕ) (hij : i ≠ j) (hi : i < cap) (hj : j < cap) :
    wrap cap (head + i) ≠ wrap cap (head + j) := by
  unfold wrap
  split_ifs <;> omega

/-- A step from the cell of a position leads to the cell of the next one. -/
theorem wrap_wrap (hhead : head < cap) (hij : i + j ≤ cap) :
    wrap cap (wrap cap (head + i) + j) = wrap cap (head + (i + j)) := by
  unfold wrap
  split_ifs <;> omega

/-- The list `l` stands in the ring from the cell `head` on. -/
structure Window (ring : List α) (head : ℕ) (l : List α) : Prop where
  size : l.length ≤ ring.length
  content : ∀ i < l.length, ring[wrap ring.length (head + i)]? = l[i]?

variable {ring l : List α} {x y : α}

theorem window_nil (ring : List α) (head : ℕ) : Window ring head [] :=
  ⟨Nat.zero_le _, fun i hi => absurd hi (Nat.not_lt_zero i)⟩

/-- A list at the beginning of the ring. -/
theorem window_append (l rest : List α) : Window (l ++ rest) 0 l where
  size := by simp
  content i hi := by
    have hlt : i < (l ++ rest).length := by
      rw [length_append]
      omega
    rw [Nat.zero_add, wrap_of_lt hlt, getElem?_append_left hi]

namespace Window

/-- A cell outside the window is written. -/
theorem set_of_ne (h : Window ring head l) {c : ℕ}
    (hc : ∀ i < l.length, wrap ring.length (head + i) ≠ c) : Window (ring.set c x) head l where
  size := by
    rw [length_set]
    exact h.size
  content i hi := by
    rw [length_set, getElem?_set_ne (hc i hi).symm]
    exact h.content i hi

/-- The cell after the window is written: the window grows. -/
theorem concat (h : Window ring head l) (hhead : head < ring.length)
    (hroom : l.length < ring.length) :
    Window (ring.set (wrap ring.length (head + l.length)) x) head (l ++ [x]) where
  size := by
    rw [length_set, length_append]
    exact hroom
  content i hi := by
    have hold := h.set_of_ne (x := x) fun i hi =>
      wrap_ne head (Nat.ne_of_lt hi) (hi.trans hroom) hroom
    rw [length_append, length_singleton] at hi
    rcases Nat.lt_succ_iff_lt_or_eq.mp hi with hi | rfl
    · rw [hold.content i hi, getElem?_append_left hi]
    · rw [length_set, getElem?_set_self (wrap_lt hhead hroom.le)]
      simp

/-- The first cell of the window may be cleared when the window starts after it. -/
theorem tail (h : Window ring head (x :: l)) (hhead : head < ring.length) :
    ring[head]? = some x ∧ Window (ring.set head y) (wrap ring.length (head + 1)) l := by
  have hsize : l.length + 1 ≤ ring.length := h.size
  have hnext (i : ℕ) (hi : i < l.length) : wrap ring.length (wrap ring.length (head + 1) + i) =
      wrap ring.length (head + (i + 1)) := by
    rw [wrap_wrap hhead (by omega), Nat.add_comm 1 i]
  constructor
  · simpa [wrap_of_lt hhead] using h.content 0 (by simp)
  · refine set_of_ne ⟨(Nat.le_succ _).trans hsize, fun i hi => ?_⟩ fun i hi => ?_
    · rw [hnext i hi, h.content (i + 1) (by simpa using hi)]
      simp
    · rw [hnext i hi]
      have hne := wrap_ne head (Nat.succ_ne_zero i) (show i + 1 < ring.length by omega)
        (show 0 < ring.length by omega)
      rwa [Nat.add_zero, wrap_of_lt hhead] at hne

/-- A cell of the window is written. -/
theorem set (h : Window ring head l) (hhead : head < ring.length) (hi : i < l.length) :
    Window (ring.set (wrap ring.length (head + i)) x) head (l.set i x) where
  size := by
    rw [length_set, length_set]
    exact h.size
  content j hj := by
    rw [length_set] at hj
    have hsize := h.size
    rw [length_set]
    by_cases hij : i = j
    · subst hij
      rw [getElem?_set_self (wrap_lt hhead (by omega)), getElem?_set_self hj]
    · rw [getElem?_set_ne (wrap_ne head hij (by omega) (by omega)), getElem?_set_ne hij]
      exact h.content j hj

/-- A full ring, unrolled from the head on, is the window. -/
theorem unroll (h : Window ring head l) (hhead : head < ring.length)
    (hfull : l.length = ring.length) : ring.drop head ++ ring.take head = l := by
  refine ext_getElem? fun i => ?_
  rcases lt_or_ge i l.length with hi | hi
  · rw [← h.content i hi]
    rcases lt_or_ge (head + i) ring.length with hlt | hge
    · rw [wrap_of_lt hlt, getElem?_append_left (by rw [length_drop]; omega),
        getElem?_drop]
    · rw [wrap_of_le hge, getElem?_append_right (by rw [length_drop]; omega),
        length_drop, getElem?_take_of_lt (by omega)]
      congr 1
      omega
  · rw [getElem?_eq_none hi, getElem?_eq_none]
    rw [length_append, length_drop, length_take]
    omega

end Window

end Circular

import Gost.Lib.Circular

/-!
# The ring buffer

`RingBuffer` of `x/internal/util/congestion/bbr/ringbuffer.go`, with the ring as a list of cells. A
call that panics gives `none`. `Represents r l` says that the buffer is a queue with the elements
`l`, and there is one lemma for each operation: on the represented lists `PushBack` appends,
`PopFront` takes the first element and `Offset` is the access by index. `trace_eq_list` puts them
together: no sequence of operations tells a buffer from a list.
-/

namespace BBR

open Circular List

/-- `RingBuffer`. -/
structure RingBuffer (T : Type*) where
  ring : List T
  headPos : ℕ
  tailPos : ℕ
  full : Bool
deriving DecidableEq, Repr

namespace RingBuffer

variable {T : Type*}

/-- `Init` of the zero value. -/
def init [Inhabited T] (size : ℕ) : RingBuffer T := ⟨List.replicate size default, 0, 0, false⟩

/-- `Len`. -/
def len (r : RingBuffer T) : ℕ :=
  if r.full then r.ring.length
  else if r.tailPos ≥ r.headPos then r.tailPos - r.headPos
  else r.tailPos + r.ring.length - r.headPos

/-- `Empty`. -/
def empty (r : RingBuffer T) : Bool := !r.full && r.headPos == r.tailPos

/-- `grow`: the cells from the head on, then those before it, in a ring of twice the size. -/
def grow [Inhabited T] (r : RingBuffer T) : RingBuffer T :=
  let newSize := if r.ring.length * 2 = 0 then 1 else r.ring.length * 2
  ⟨r.ring.drop r.headPos ++ r.ring.take r.headPos ++
    List.replicate (newSize - r.ring.length) default, 0, r.ring.length, false⟩

/-- The write at the tail in `PushBack`. -/
def write (r : RingBuffer T) (t : T) : RingBuffer T :=
  let tailPos := if r.tailPos + 1 = r.ring.length then 0 else r.tailPos + 1
  { r with ring := r.ring.set r.tailPos t, tailPos, full := r.full || tailPos == r.headPos }

/-- `PushBack`. -/
def pushBack [Inhabited T] (r : RingBuffer T) (t : T) : RingBuffer T :=
  if r.full || r.ring.length == 0 then r.grow.write t else r.write t

/-- `PopFront`. The cell is set to the zero value. -/
def popFront [Inhabited T] (r : RingBuffer T) : Option (T × RingBuffer T) :=
  if r.empty then none
  else
    r.ring[r.headPos]?.map fun t =>
      (t, { r with
        ring := r.ring.set r.headPos default
        headPos := if r.headPos + 1 = r.ring.length then 0 else r.headPos + 1
        full := false })

/-- The cell that `Offset` returns a pointer to. -/
def cell (r : RingBuffer T) (index : ℕ) : ℕ := (r.headPos + index) % r.ring.length

/-- `Offset`. -/
def offset (r : RingBuffer T) (index : ℕ) : Option T :=
  if r.empty || index ≥ r.len then none else r.ring[r.cell index]?

/-- A write through the pointer that `Offset` returns. -/
def setOffset (r : RingBuffer T) (index : ℕ) (t : T) : RingBuffer T :=
  { r with ring := r.ring.set (r.cell index) t }

/-- `Front`. -/
def front (r : RingBuffer T) : Option T := if r.empty then none else r.ring[r.headPos]?

/-- `Back`. -/
def back (r : RingBuffer T) : Option T := if r.empty then none else r.offset (r.len - 1)

/-- `Clear`. -/
def clear [Inhabited T] (r : RingBuffer T) : RingBuffer T :=
  ⟨r.ring.map fun _ => default, 0, 0, false⟩

/-! ## The queue in the buffer -/

/-- The buffer holds the elements `l`, the oldest first. -/
structure Represents (r : RingBuffer T) (l : List T) : Prop where
  window : Window r.ring r.headPos l
  head : r.headPos < r.ring.length ∨ r.ring.length = 0 ∧ r.headPos = 0
  tail : r.tailPos = wrap r.ring.length (r.headPos + l.length)
  full : r.full = true ↔ l.length = r.ring.length ∧ r.ring.length ≠ 0

theorem represents_init [Inhabited T] (size : ℕ) : Represents (init size : RingBuffer T) [] where
  window := window_nil _ _
  head := by
    rcases Nat.eq_zero_or_pos size with h | h
    · exact .inr (by simp [init, h])
    · exact .inl (by simpa [init] using h)
  tail := by simp [init, wrap]
  full := by simp [init, eq_comm]

namespace Represents

variable {r : RingBuffer T} {l : List T} {x : T}

/-- A buffer that is not full and has cells has room. -/
theorem length_lt (h : Represents r l) (hfull : r.full = false) (hcells : r.ring.length ≠ 0) :
    l.length < r.ring.length := by
  refine lt_of_le_of_ne h.window.size fun heq => ?_
  rw [h.full.mpr ⟨heq, hcells⟩] at hfull
  cases hfull

theorem head_lt (h : Represents r l) (hcells : r.ring.length ≠ 0) : r.headPos < r.ring.length :=
  h.head.resolve_right fun h => hcells h.1

/-- A buffer with an element has cells. -/
theorem cells_of_pos (h : Represents r l) (hpos : 0 < l.length) : r.ring.length ≠ 0 :=
  Nat.ne_of_gt (lt_of_lt_of_le hpos h.window.size)

/-! ### Observers -/

theorem len_eq (h : Represents r l) : r.len = l.length := by
  unfold len
  split_ifs with hfull hge
  · exact (h.full.mp hfull).1.symm
  all_goals
    rw [Bool.not_eq_true] at hfull
    have htail := h.tail
    have hlt := h.length_lt hfull
    unfold wrap at htail
    split_ifs at htail <;> omega

theorem empty_iff (h : Represents r l) : r.empty = true ↔ l = [] := by
  rw [← length_eq_zero_iff]
  unfold empty
  by_cases hfull : r.full = true
  · have := h.full.mp hfull
    simp only [hfull, Bool.not_true, Bool.false_and, Bool.false_eq_true, false_iff]
    omega
  · rw [Bool.not_eq_true] at hfull
    have htail := h.tail
    have hhead := h.head
    have hlt := h.length_lt hfull
    simp only [hfull, Bool.not_false, Bool.true_and, beq_iff_eq]
    unfold wrap at htail
    split_ifs at htail <;> omega

theorem empty_eq (h : Represents r l) : r.empty = l.isEmpty := by
  rw [Bool.eq_iff_iff, h.empty_iff, List.isEmpty_iff]

theorem empty_eq_false (h : Represents r (x :: l)) : r.empty = false := h.empty_eq

/-- The cell of an element. -/
theorem cell_eq (h : Represents r l) {i : ℕ} (hi : i < l.length) :
    r.cell i = wrap r.ring.length (r.headPos + i) := by
  have hsize := h.window.size
  have hhead := h.head_lt (h.cells_of_pos (Nat.zero_lt_of_lt hi))
  exact (wrap_eq_mod hhead (by omega)).symm

theorem offset_eq (h : Represents r l) (i : ℕ) : r.offset i = l[i]? := by
  unfold offset
  rw [h.len_eq]
  by_cases hi : i < l.length
  · have hne : r.empty = false := by
      rw [← Bool.not_eq_true, h.empty_iff]
      exact ne_nil_of_length_pos (Nat.zero_lt_of_lt hi)
    rw [hne, h.cell_eq hi, h.window.content i hi]
    simp [hi]
  · simp [hi]

/-- The elements of a buffer are determined. -/
theorem unique {l' : List T} (h : Represents r l) (h' : Represents r l') : l = l' :=
  ext_getElem? fun i => by rw [← h.offset_eq, h'.offset_eq]

theorem front_eq (h : Represents r l) : r.front = l.head? := by
  unfold front
  cases l with
  | nil => simp [h.empty_iff.mpr rfl]
  | cons x l =>
    have hhead := h.head_lt (h.cells_of_pos (by simp))
    rw [h.empty_eq_false, (h.window.tail (y := x) hhead).1]
    simp

theorem back_eq (h : Represents r l) : r.back = l.getLast? := by
  unfold back
  rw [h.offset_eq, h.len_eq, ← getLast?_eq_getElem?]
  cases l with
  | nil => simp
  | cons x l => simp [h.empty_eq_false]

/-! ### Updates -/

theorem setOffset (h : Represents r l) {i : ℕ} (hi : i < l.length) (t : T) :
    Represents (r.setOffset i t) (l.set i t) := by
  have hhead := h.head_lt (h.cells_of_pos (Nat.zero_lt_of_lt hi))
  unfold RingBuffer.setOffset
  rw [h.cell_eq hi]
  constructor
  · exact h.window.set hhead hi
  all_goals simp only [length_set]
  · exact h.head
  · exact h.tail
  · exact h.full

theorem write (h : Represents r l) (hroom : l.length < r.ring.length) (t : T) :
    Represents (r.write t) (l ++ [t]) := by
  have hcells : r.ring.length ≠ 0 := Nat.ne_of_gt (Nat.zero_lt_of_lt hroom)
  have hhead := h.head_lt hcells
  have hfull : r.full = false := by
    rw [← Bool.not_eq_true, h.full]
    omega
  have htail : (if r.tailPos + 1 = r.ring.length then 0 else r.tailPos + 1) =
      wrap r.ring.length (r.headPos + (l.length + 1)) := by
    rw [h.tail]
    unfold wrap
    split_ifs <;> omega
  unfold RingBuffer.write
  rw [htail, hfull]
  constructor
  · rw [h.tail]
    exact h.window.concat hhead hroom
  all_goals simp only [length_set, length_append, length_singleton]
  · exact h.head
  · simp only [Bool.false_or, beq_iff_eq]
    unfold wrap
    split_ifs <;> omega

/-- A buffer without room for an element gets more cells. -/
theorem grow [Inhabited T] (h : Represents r l) (hsize : l.length = r.ring.length) :
    Represents r.grow l ∧ l.length < r.grow.ring.length := by
  have hunroll : r.ring.drop r.headPos ++ r.ring.take r.headPos = l := by
    rcases h.head with hhead | ⟨hcells, -⟩
    · exact h.window.unroll hhead hsize
    · rw [length_eq_zero_iff.mp hcells]
      rw [hcells, length_eq_zero_iff] at hsize
      simp [hsize]
  have hlen : l.length < r.grow.ring.length := by
    simp only [RingBuffer.grow, hunroll, length_append, length_replicate]
    split_ifs <;> omega
  refine ⟨⟨?_, ?_, ?_, ?_⟩, hlen⟩
  · simp only [RingBuffer.grow, hunroll]
    exact window_append l _
  · exact .inl (Nat.zero_lt_of_lt hlen)
  · show r.ring.length = wrap r.grow.ring.length (0 + l.length)
    rw [Nat.zero_add, wrap_of_lt hlen, hsize]
  · show false = true ↔ _
    simp only [Bool.false_eq_true, false_iff]
    omega

theorem pushBack [Inhabited T] (h : Represents r l) (t : T) :
    Represents (r.pushBack t) (l ++ [t]) := by
  unfold RingBuffer.pushBack
  split_ifs with hgrow
  · have hsize : l.length = r.ring.length := by
      rw [Bool.or_eq_true, beq_iff_eq] at hgrow
      rcases hgrow with hfull | hcells
      · exact (h.full.mp hfull).1
      · have := h.window.size
        omega
    obtain ⟨hgrown, hroom⟩ := h.grow hsize
    exact hgrown.write hroom t
  · rw [Bool.not_eq_true, Bool.or_eq_false_iff, beq_eq_false_iff_ne] at hgrow
    exact h.write (h.length_lt hgrow.1 hgrow.2) t

theorem popFront [Inhabited T] (h : Represents r (x :: l)) :
    ∃ r', r.popFront = some (x, r') ∧ Represents r' l := by
  have hcells := h.cells_of_pos (Nat.succ_pos _)
  have hhead := h.head_lt hcells
  obtain ⟨hfirst, hrest⟩ := h.window.tail (y := default) hhead
  have hsize := h.window.size
  rw [length_cons] at hsize
  have hnext : (if r.headPos + 1 = r.ring.length then 0 else r.headPos + 1) =
      wrap r.ring.length (r.headPos + 1) := by
    unfold wrap
    split_ifs <;> omega
  refine ⟨⟨r.ring.set r.headPos default, wrap r.ring.length (r.headPos + 1), r.tailPos, false⟩,
    by simp [RingBuffer.popFront, h.empty_eq_false, hfirst, hnext], ?_⟩
  constructor
  · exact hrest
  all_goals simp only [length_set]
  · exact .inl (wrap_lt hhead (by omega))
  · rw [h.tail, wrap_wrap hhead (by omega), length_cons, Nat.add_comm 1]
  · simp only [Bool.false_eq_true, false_iff]
    omega

theorem clear [Inhabited T] (r : RingBuffer T) : Represents r.clear [] := by
  rw [RingBuffer.clear, map_const']
  exact represents_init _

end Represents

/-! ## Sequences of operations -/

inductive Op (T : Type*)
  | pushBack (t : T)
  | popFront
  | offset (index : ℕ)
  | front
  | back
  | clear
deriving DecidableEq, Repr

/-- An operation on a buffer: what it returns and the buffer afterwards. -/
def apply [Inhabited T] (r : RingBuffer T) : Op T → Option (Option T × RingBuffer T)
  | .pushBack t => some (none, r.pushBack t)
  | .popFront => r.popFront.map fun (t, r) => (some t, r)
  | .offset index => (r.offset index).map fun t => (some t, r)
  | .front => r.front.map fun t => (some t, r)
  | .back => r.back.map fun t => (some t, r)
  | .clear => some (none, r.clear)

/-- The same operation on a list. -/
def Op.onList (l : List T) : Op T → Option (Option T × List T)
  | .pushBack t => some (none, l ++ [t])
  | .popFront => l.head?.map fun t => (some t, l.tail)
  | .offset index => l[index]?.map fun t => (some t, l)
  | .front => l.head?.map fun t => (some t, l)
  | .back => l.getLast?.map fun t => (some t, l)
  | .clear => some (none, [])

/-- `Len` and `Empty` before each operation and at the end, with what the operations return. There
is no trace if one of them panics. -/
def trace {σ : Type*} (f : σ → Op T → Option (Option T × σ)) (len : σ → ℕ) (empty : σ → Bool) :
    σ → List (Op T) → Option (List (ℕ × Bool × Option T))
  | s, [] => some [(len s, empty s, none)]
  | s, op :: ops =>
    (f s op).bind fun out => (trace f len empty out.2 ops).map ((len s, empty s, out.1) :: ·)

variable {r : RingBuffer T} {l : List T}

/-- An operation on the buffer does what it does on the list, and panics where that is undefined. -/
theorem Represents.apply [Inhabited T] (h : Represents r l) (op : Op T) :
    r.apply op = none ∧ op.onList l = none ∨
      ∃ t r' l', r.apply op = some (t, r') ∧ op.onList l = some (t, l') ∧ Represents r' l' := by
  have hread {o o' : Option T} (ho : o = o') :
      (o.map fun t => (some t, r)) = none ∧ (o'.map fun t => (some t, l)) = none ∨
        ∃ t r' l', (o.map fun t => (some t, r)) = some (t, r') ∧
          (o'.map fun t => (some t, l)) = some (t, l') ∧ Represents r' l' := by
    subst ho
    cases o with
    | none => exact .inl ⟨rfl, rfl⟩
    | some t => exact .inr ⟨_, r, l, rfl, rfl, h⟩
  cases op with
  | pushBack t => exact .inr ⟨_, _, _, rfl, rfl, h.pushBack t⟩
  | clear => exact .inr ⟨_, _, _, rfl, rfl, .clear r⟩
  | offset index => exact hread (h.offset_eq index)
  | front => exact hread h.front_eq
  | back => exact hread h.back_eq
  | popFront =>
    cases l with
    | nil => exact .inl ⟨by simp [RingBuffer.apply, RingBuffer.popFront, h.empty_iff], rfl⟩
    | cons x l =>
      obtain ⟨r', hpop, hr'⟩ := h.popFront
      exact .inr ⟨some x, r', l, by rw [RingBuffer.apply, hpop, Option.map_some], rfl, hr'⟩

theorem Represents.trace [Inhabited T] (h : Represents r l) (ops : List (Op T)) :
    RingBuffer.trace RingBuffer.apply len empty r ops =
      RingBuffer.trace Op.onList length isEmpty l ops := by
  induction ops generalizing r l with
  | nil => rw [RingBuffer.trace, RingBuffer.trace, h.len_eq, h.empty_eq]
  | cons op ops ih =>
    rw [RingBuffer.trace, RingBuffer.trace, h.len_eq, h.empty_eq]
    obtain ⟨hr, hl⟩ | ⟨t, r', l', hr, hl, hnext⟩ := h.apply op
    · rw [hr, hl, Option.bind_none, Option.bind_none]
    · rw [hr, hl, Option.bind_some, Option.bind_some, ih hnext]

/-- From `Init` with any size, every sequence of operations has the same trace on the buffer and on
a list. -/
theorem trace_eq_list [Inhabited T] (size : ℕ) (ops : List (Op T)) :
    trace apply len empty (init size) ops = trace Op.onList length isEmpty [] ops :=
  (represents_init size).trace ops

end RingBuffer

end BBR

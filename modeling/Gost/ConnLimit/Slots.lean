import Gost.ConnLimit.Admission

/-!
# Slots of a group

Groups of limiters without the tables that build them: any limiters, any groups of them, and
any number of `Allow(1)` and `Close` calls at the same time. A call that is refused has raised
counters on its way and lowers them again one by one, so another call may find a limiter full that
is not. It never finds room that is not there.

`slots_conserved` is what the counters are worth: a limiter is held by at most as many open
connections as its limit says, and its counter is the number of its holders as soon as no `Allow`
call is on its way.
-/

namespace ConnLimit

open List ListCount Option TransitionSystem

variable {ν : Type}

/-- An `Allow(1)` or `Allow(-1)` call has more additions to make. -/
def Pc.InAllow : Pc → Prop
  | .adding _ _ _ | .undoing _ _ | .rollback (_ :: _) | .closing (_ :: _) => True
  | _ => False

instance : DecidablePred Pc.InAllow
  | .adding _ _ _ | .undoing _ _ | .rollback (_ :: _) | .closing (_ :: _) => .isTrue trivial
  | .called | .opened _ | .unlimited | .rollback [] | .closing [] => .isFalse id

namespace Slots

inductive Op
  -- an `Accept` calls `Allow(1)` of a group
  | allow (group : List ℕ)
  -- the next addition of an `Allow` call
  | next (i : ℕ)
  -- `Close` is called
  | close (i : ℕ)
deriving DecidableEq, Repr

/-- `NewLimiter` for each limit. -/
def start (limits : List ℤ) : State ν where
  limiter := { limiters := limits.map fun limit => { limit } }

/-- The connection of a call is appended, whatever becomes of it. -/
def step (s : State ν) : Op → Option (State ν)
  | .allow group =>
    if ∀ o ∈ group, o < s.limiter.limiters.length then
      some { s with conns := s.conns ++ [{ host := [], pc := .begin (some group) }] }
    else none
  | .next i =>
    s.conns[i]?.bind fun c => (c.pc.next s.limiter).map fun (pc, o, n) =>
      { s with limiter := s.limiter.add o n }.setPc i c pc
  | .close i => s.conns[i]?.bind fun c => c.pc.close.map fun pc => s.setPc i c pc

/-- What the connection contributes to the holders of a limiter: only one that was admitted and is
not closed does. -/
def holds (o : ℕ) (pc : Pc) : ℕ := if pc.IsOpen then pc.held.count o else 0

/-- The admitted, unclosed connections that hold a limiter. A connection whose group names a
limiter twice holds it twice. -/
def holders (s : State ν) (o : ℕ) : ℕ := (s.conns.map fun c => holds o c.pc).sum

/-- No `Allow` call is in progress. -/
def Quiet (s : State ν) : Prop := ∀ c ∈ s.conns, ¬c.pc.InAllow

instance (s : State ν) : Decidable (Quiet s) :=
  inferInstanceAs (Decidable (∀ c ∈ s.conns, ¬c.pc.InAllow))

/-! ## Holders -/

section Holders

variable {s : State ν} {pc : Pc} {o : ℕ}

theorem holds_le_count_held (o : ℕ) (pc : Pc) : holds o pc ≤ pc.held.count o := by
  unfold holds
  split_ifs
  · exact le_rfl
  · exact Nat.zero_le _

theorem holders_le_granted (s : State ν) (o : ℕ) : holders s o ≤ s.granted o :=
  sum_le_sum fun c _ => holds_le_count_held o c.pc

/-- Outside of `Allow` a connection is counted where it holds, and nowhere else. -/
theorem holds_eq_count_counted (h : ¬pc.InAllow) (o : ℕ) : holds o pc = pc.counted.count o := by
  match pc with
  | .opened held => exact if_pos trivial
  | .unlimited | .called | .rollback [] | .closing [] => rfl
  | .adding _ _ _ | .undoing _ _ | .rollback (_ :: _) | .closing (_ :: _) =>
    exact absurd trivial h

theorem holders_eq_counted (h : Quiet s) (o : ℕ) : holders s o = s.counted o := by
  refine congrArg List.sum (map_congr_left fun c hc => ?_)
  exact holds_eq_count_counted (h c hc) o

/-- Every open connection that holds the limiter is among its holders. -/
theorem countP_le_holders (s : State ν) (o : ℕ) :
    s.conns.countP (fun c => c.pc.IsOpen ∧ o ∈ c.pc.held) ≤ holders s o := by
  unfold holders
  induction s.conns with
  | nil => exact le_rfl
  | cons c conns ih =>
    rw [countP_cons, map_cons, sum_cons, Nat.add_comm]
    refine Nat.add_le_add ?_ ih
    split_ifs with h
    · obtain ⟨hopen, hheld⟩ := of_decide_eq_true h
      rw [holds, if_pos hopen]
      exact count_pos_iff.mpr hheld
    · exact Nat.zero_le _

end Holders

/-! ## Conservation -/

/-- The counters are right, and no limiter has allowed more connections than its limit. -/
structure Conserved (limits : List ℤ) (s : State ν) : Prop where
  limits : s.limiter.limiters.map (·.limit) = limits
  known_lt : ∀ c ∈ s.conns, ∀ o ∈ c.pc.known, o < s.limiter.limiters.length
  current_eq : ∀ (o : ℕ) x, s.limiter.limiters[o]? = some x → x.current = s.counted o
  granted_le : ∀ (o : ℕ) x, s.limiter.limiters[o]? = some x → s.granted o ≤ x.limit.toNat

section Conserved

variable {limits : List ℤ} {s s' : State ν} {op : Op}

theorem conserved_start (limits : List ℤ) : Conserved limits (start limits : State ν) where
  limits := by
    show List.map _ (List.map _ limits) = limits
    rw [List.map_map]
    exact map_id limits
  known_lt := nofun
  current_eq o x hx := by
    obtain ⟨limit, -, rfl⟩ := map_eq_some_iff.mp ((getElem?_map ..).symm.trans hx)
    rfl
  granted_le o x _ := Nat.zero_le _

/-- A call of `Allow(1)` begins with nothing. -/
theorem Conserved.allow (hs : Conserved limits s) {group : List ℕ}
    (hgroup : ∀ o ∈ group, o < s.limiter.limiters.length) :
    Conserved limits
      { s with conns := s.conns ++ [{ host := [], pc := .begin (some group) }] } where
  limits := hs.limits
  known_lt c hc o ho := by
    rcases mem_append.mp hc with hc | hc
    · exact hs.known_lt c hc o ho
    · rw [mem_singleton.mp hc, Pc.known, Pc.counted_begin, Pc.group_begin] at ho
      exact hgroup o ho
  current_eq o x hx := by
    rw [hs.current_eq o x hx]
    simp [State.counted, Pc.counted_begin]
  granted_le o x hx := by
    refine le_of_eq_of_le ?_ (hs.granted_le o x hx)
    simp [State.granted, Pc.held_begin]

variable {i : ℕ} {c : Conn} {pc : Pc}

theorem Conserved.next (hs : Conserved limits s) (hc : s.conns[i]? = some c) {o : ℕ} {n : ℤ}
    (h : Pc.NextCase s.limiter c.pc pc o n) :
    Conserved limits ({ s with limiter := s.limiter.add o n }.setPc i c pc) where
  limits := by
    refine Eq.trans ?_ hs.limits
    refine ext_getElem? fun j => ?_
    show (List.map _ (modify ..))[j]? = _
    rw [getElem?_map, getElem?_map, getElem?_modify]
    show Option.map _ (Option.map _ _) = _
    rw [Option.map_map]
    split_ifs <;> rfl
  known_lt c' hc' o' ho' := State.known_lt_next hs.known_lt hc h hc' ho'
  current_eq o' x hx := State.current_eq_next hs.current_eq hc h hx
  granted_le o' x hx := by
    obtain ⟨x₀, hx₀, hlimit, -⟩ := ConnLimiter.getElem?_add hx
    rw [hlimit]
    rcases State.granted_next hs.current_eq hc h hx₀ with hle | hle
    · exact hle.trans (hs.granted_le o' x₀ hx₀)
    · exact Int.ofNat_le.mp (hle.trans (Int.self_le_toNat x₀.limit))

/-- A connection that is closed is counted until its limiters are told. -/
theorem Conserved.close (hs : Conserved limits s) (hc : s.conns[i]? = some c)
    (h : c.pc.close = some pc) : Conserved limits (s.setPc i c pc) := by
  obtain ⟨rfl, hheld⟩ := Pc.close_spec h
  refine ⟨hs.limits, fun c' hc' o ho => ?_, fun o x hx => ?_, fun o x hx => ?_⟩
  · rcases State.mem_setPc hc' with hc' | rfl
    · exact hs.known_lt c' hc' o ho
    · change o ∈ c.pc.counted ++ [] at ho
      rw [append_nil] at ho
      exact hs.known_lt c (mem_of_getElem? hc) o (mem_append_left _ ho)
  · have hsum := State.counted_setPc hc (.closing c.pc.counted) o
    rw [Nat.add_right_cancel_iff.mp hsum]
    exact hs.current_eq o x hx
  · have hsum := State.granted_setPc hc (.closing c.pc.counted) o
    rw [hheld] at hsum
    rw [Nat.add_right_cancel_iff.mp hsum]
    exact hs.granted_le o x hx

theorem Conserved.step (hs : Conserved limits s) (h : step s op = some s') :
    Conserved limits s' := by
  cases op with
  | allow group =>
    obtain ⟨hgroup, hs'⟩ := ite_none_right_eq_some.mp h
    exact some.inj hs' ▸ hs.allow hgroup
  | next i =>
    obtain ⟨c, hc, hmap⟩ := bind_eq_some_iff.mp h
    obtain ⟨⟨pc, o, n⟩, hnext, rfl⟩ := map_eq_some_iff.mp hmap
    exact hs.next hc (Pc.next_cases hnext)
  | close i =>
    obtain ⟨c, hc, hmap⟩ := bind_eq_some_iff.mp h
    obtain ⟨pc, hclose, rfl⟩ := map_eq_some_iff.mp hmap
    exact hs.close hc hclose

end Conserved

/-- A client with a limit of two and a global limit of one: the first connection is admitted, the
second is refused by the global limiter after the first one has been asked, and the first is closed
twice. -/
def contended : List Op :=
  [.allow [1, 0], .next 0, .allow [1, 0], .next 1, .next 0, .next 1, .next 1, .next 1,
    .close 0, .next 0, .close 0, .next 0]

end Slots

end ConnLimit

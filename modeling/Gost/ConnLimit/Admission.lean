import Mathlib.Algebra.Order.BigOperators.Group.List
import Gost.ConnLimit.Tables
import Gost.Lib.ListCount

/-!
# Connections under a limit

A limiter counts every connection that has added one to it, and no more connections than its limit
have found the sum in order: `Accounted` holds in every state, also in the middle of `Allow`.
So a rule is kept as long as all its connections are counted by one limiter. A reload replaces the
limiters and forgets the connections that are open.

`open_le_limit`: the connections that are open never exceed the limit of a global or single-IP
rule, if the rules are loaded before the first client is looked up and no reload happens while a
connection under the rule is open or on its way through `Allow(1)`.
-/

namespace ConnLimit

open List ListCount Option TransitionSystem

variable {ι ν : Type} {net : Net ι ν} {rules : List Rule} {key : Bytes}

/-! ## One call -/

namespace Pc

/-- The limiters that have allowed the connection and were not given it back. -/
def held : Pc → List ℕ
  | .adding _ _ held | .undoing _ held | .opened held => held
  | .rollback todo | .closing todo => todo
  | _ => []

/-- The limiters whose counters the connection is part of. -/
def counted : Pc → List ℕ
  | .undoing o held => o :: held
  | pc => pc.held

/-- The limiters that a live connection has or will have asked. -/
def group : Pc → List ℕ
  | .adding o todo held => held ++ o :: todo
  | .opened held => held
  | _ => []

/-- All limiters that the call knows. -/
def known (pc : Pc) : List ℕ := pc.counted ++ pc.group

/-- What the next addition is. -/
inductive NextCase (l : ConnLimiter ν) : Pc → Pc → ℕ → ℤ → Prop
  | allowed (o : ℕ) (todo held : List ℕ) (hle : l.current o + 1 ≤ l.limit o) :
    NextCase l (.adding o todo held) (allowed o held todo) o 1
  | exceeded (o : ℕ) (todo held : List ℕ) : NextCase l (.adding o todo held) (.undoing o held) o 1
  | undo (o : ℕ) (held : List ℕ) : NextCase l (.undoing o held) (.rollback held) o (-1)
  | rollback (o : ℕ) (todo : List ℕ) : NextCase l (.rollback (o :: todo)) (.rollback todo) o (-1)
  | closing (o : ℕ) (todo : List ℕ) : NextCase l (.closing (o :: todo)) (.closing todo) o (-1)

variable {l : ConnLimiter ν} {pc pc' : Pc} {o : ℕ} {n : ℤ}

theorem next_cases (h : pc.next l = some (pc', o, n)) : NextCase l pc pc' o n := by
  match pc with
  | .called | .opened _ | .unlimited | .rollback [] | .closing [] => cases h
  | .adding o' todo held =>
    dsimp only [next] at h
    split_ifs at h with hover
    · obtain ⟨rfl, rfl, rfl⟩ : _ ∧ _ ∧ _ := by simpa using h
      exact .exceeded o' todo held
    · obtain ⟨rfl, rfl, rfl⟩ : _ ∧ _ ∧ _ := by simpa using h
      exact .allowed o' todo held (not_lt.mp hover)
  | .undoing o' held =>
    obtain ⟨rfl, rfl, rfl⟩ : _ ∧ _ ∧ _ := by simpa [next] using h
    exact .undo o' held
  | .rollback (o' :: todo) =>
    obtain ⟨rfl, rfl, rfl⟩ : _ ∧ _ ∧ _ := by simpa [next] using h
    exact .rollback o' todo
  | .closing (o' :: todo) =>
    obtain ⟨rfl, rfl, rfl⟩ : _ ∧ _ ∧ _ := by simpa [next] using h
    exact .closing o' todo

theorem held_allowed (o : ℕ) (held todo : List ℕ) : (allowed o held todo).held = held ++ [o] := by
  cases todo <;> rfl

theorem counted_allowed (o : ℕ) (held todo : List ℕ) :
    (allowed o held todo).counted = held ++ [o] := by
  cases todo <;> rfl

theorem group_allowed (o : ℕ) (held todo : List ℕ) :
    (allowed o held todo).group = held ++ o :: todo := by
  cases todo with
  | nil => rfl
  | cons o' todo =>
    show held ++ [o] ++ o' :: todo = held ++ o :: o' :: todo
    rw [append_assoc, singleton_append]

theorem count_concat (held : List ℕ) (o x : ℕ) :
    (held ++ [o]).count x = held.count x + if x = o then 1 else 0 := by
  by_cases h : x = o
  · simp [h]
  · simp [h, Ne.symm h]

theorem count_cons (held : List ℕ) (o x : ℕ) :
    (o :: held).count x = held.count x + if x = o then 1 else 0 := by
  rw [← (perm_append_singleton o held).count_eq, count_concat]

theorem count_tail (held : List ℕ) (o x : ℕ) :
    (held.count x : ℤ) = (o :: held).count x + if x = o then -1 else 0 := by
  rw [count_cons]
  split_ifs <;> push_cast <;> ring

/-- An addition changes the connection's part in that counter. -/
theorem NextCase.count_counted (h : NextCase l pc pc' o n) (x : ℕ) :
    (pc'.counted.count x : ℤ) = pc.counted.count x + if x = o then n else 0 := by
  cases h with
  | allowed _ todo held _ =>
    rw [counted_allowed, count_concat]
    show _ = (held.count x : ℤ) + _
    split_ifs <;> push_cast <;> ring
  | exceeded _ todo held =>
    show ((o :: held).count x : ℤ) = (held.count x : ℤ) + _
    rw [count_cons]
    split_ifs <;> push_cast <;> ring
  | undo _ held => exact count_tail held o x
  | rollback _ todo | closing _ todo => exact count_tail todo o x

/-- It takes hold of a limiter only if the sum is within the limit. -/
theorem NextCase.count_held (h : NextCase l pc pc' o n) (x : ℕ) :
    pc'.held.count x ≤ pc.held.count x ∨
      x = o ∧ l.current o + 1 ≤ l.limit o ∧ pc'.held.count x = pc.held.count x + 1 := by
  cases h with
  | allowed _ todo held hle =>
    rw [held_allowed, count_concat]
    by_cases hx : x = o
    · exact .inr ⟨hx, hle, by rw [if_pos hx]; rfl⟩
    · exact .inl (by rw [if_neg hx]; exact le_rfl)
  | exceeded _ todo held => exact .inl le_rfl
  | undo _ held => exact .inl le_rfl
  | rollback _ todo | closing _ todo => exact .inl count_le_count_cons

/-- A live connection keeps its group. -/
theorem NextCase.group_eq (h : NextCase l pc pc' o n) (hlive : pc'.Live) :
    pc.Live ∧ pc'.group = pc.group := by
  cases h with
  | allowed _ todo held _ => exact ⟨trivial, group_allowed o held todo⟩
  | exceeded _ todo held => cases hlive
  | undo _ held => cases hlive
  | rollback _ todo => cases hlive
  | closing _ todo => cases hlive

theorem NextCase.known_subset (h : NextCase l pc pc' o n) : pc'.known ⊆ pc.known := by
  cases h with
  | allowed _ todo held _ =>
    rw [known, counted_allowed, group_allowed]
    show held ++ [o] ++ (held ++ o :: todo) ⊆ held ++ (held ++ o :: todo)
    intro x
    simp only [mem_append, mem_cons]
    tauto
  | exceeded _ todo held =>
    show o :: held ++ [] ⊆ held ++ (held ++ o :: todo)
    intro x
    simp only [mem_append, mem_cons]
    tauto
  | undo _ held | rollback _ todo | closing _ todo => exact fun x hx => mem_cons_of_mem _ hx

end Pc

/-! ## The counters -/

variable {o' : ℕ} {pc : Pc}

namespace ConnLimiter

variable {l : ConnLimiter ν} {o : ℕ} {n : ℤ} {x : LLimiter}

theorem current_eq (h : l.limiters[o]? = some x) : l.current o = x.current := by
  rw [current, h]
  rfl

theorem limit_eq (h : l.limiters[o]? = some x) : l.limit o = x.limit := by
  rw [limit, h]
  rfl

/-- A limiter after an addition to one of them. -/
theorem getElem?_add (h : (l.add o n).limiters[o']? = some x) :
    ∃ x₀, l.limiters[o']? = some x₀ ∧ x.limit = x₀.limit ∧
      x.current = x₀.current + if o' = o then n else 0 := by
  change (l.limiters.modify o _)[o']? = some x at h
  rw [getElem?_modify] at h
  obtain ⟨x₀, hx₀, rfl⟩ := map_eq_some_iff.mp h
  refine ⟨x₀, hx₀, ?_⟩
  by_cases ho : o = o'
  · simp [ho]
  · simp [ho, Ne.symm ho]

theorem exists_getElem?_add (h : l.limiters[o']? = some x) :
    ∃ x', (l.add o n).limiters[o']? = some x' ∧ x'.limit = x.limit := by
  have hlt : o' < (l.add o n).limiters.length :=
    (List.getElem?_eq_some_iff.mp h).1.trans_eq (List.length_modify ..).symm
  obtain ⟨x₀, hx₀, hlimit, -⟩ := getElem?_add (getElem?_eq_getElem hlt)
  obtain rfl : x₀ = x := some.inj (hx₀.symm.trans h)
  exact ⟨_, getElem?_eq_getElem hlt, hlimit⟩

theorem WellFormed.add (hl : l.WellFormed) (o : ℕ) (n : ℤ) : (l.add o n).WellFormed := by
  have hlen : (l.add o n).limiters.length = l.limiters.length := length_modify ..
  refine ⟨?_, ?_, ?_⟩
  all_goals rw [hlen]
  · exact hl.ipLimits
  · exact hl.cidrLimits
  · exact hl.limits

end ConnLimiter

namespace State

variable {s s' : State ν} {c : Conn} {i : ℕ}

/-- How often connections have added to a counter and not taken it back. -/
def counted (s : State ν) (o : ℕ) : ℕ := (s.conns.map fun c => c.pc.counted.count o).sum

/-- How often a limiter has allowed a connection and was not given it back. -/
def granted (s : State ν) (o : ℕ) : ℕ := (s.conns.map fun c => c.pc.held.count o).sum

theorem counted_setPc (hc : s.conns[i]? = some c) (pc : Pc) (o : ℕ) :
    (s.setPc i c pc).counted o + c.pc.counted.count o = s.counted o + pc.counted.count o :=
  sum_map_set_add hc

theorem granted_setPc (hc : s.conns[i]? = some c) (pc : Pc) (o : ℕ) :
    (s.setPc i c pc).granted o + c.pc.held.count o = s.granted o + pc.held.count o :=
  sum_map_set_add hc

variable {c' : Conn}

theorem mem_setPc (h : c' ∈ (s.setPc i c pc).conns) : c' ∈ s.conns ∨ c' = { c with pc } :=
  mem_or_eq_of_mem_set h

/-- The counters are right, and no limiter has allowed more connections than its limit. -/
structure Accounted (s : State ν) : Prop where
  wellFormed : s.limiter.WellFormed
  known_lt : ∀ c ∈ s.conns, ∀ o ∈ c.pc.known, o < s.limiter.limiters.length
  current_eq : ∀ (o : ℕ) x, s.limiter.limiters[o]? = some x → x.current = s.counted o
  granted_le : ∀ (o : ℕ) x, s.limiter.limiters[o]? = some x → s.granted o ≤ x.limit

theorem accounted_init : ({} : State ν).Accounted :=
  ⟨⟨nofun, nofun, nofun⟩, nofun, nofun, nofun⟩

theorem held_count_le_counted (pc : Pc) (o : ℕ) : pc.held.count o ≤ pc.counted.count o := by
  cases pc with
  | undoing o' held => exact count_le_count_cons
  | called => exact le_rfl
  | adding => exact le_rfl
  | rollback => exact le_rfl
  | opened => exact le_rfl
  | unlimited => exact le_rfl
  | closing => exact le_rfl

theorem granted_le_counted (s : State ν) (o : ℕ) : s.granted o ≤ s.counted o :=
  sum_le_sum fun c _ => held_count_le_counted c.pc o

/-- A limiter that is known to no call counts nothing. -/
theorem Accounted.counted_eq_zero (hs : s.Accounted) {o : ℕ}
    (ho : s.limiter.limiters.length ≤ o) : s.counted o = 0 := by
  refine sum_map_eq_zero fun c hc => count_eq_zero.mpr fun hmem => ?_
  exact absurd (hs.known_lt c hc o (mem_append_left _ hmem)) (not_lt.mpr ho)

/-- New limiters, and maps that name limiters that exist. -/
theorem Accounted.extend (hs : s.Accounted) {l : ConnLimiter ν} (h : s.limiter.Extends l)
    (hl : l.WellFormed) : Accounted { s with limiter := l } where
  wellFormed := hl
  known_lt c hc o ho := (hs.known_lt c hc o ho).trans_le h.length_le
  current_eq o x hx := by
    rcases h.cases hx with hx | ⟨ho, -, hzero⟩
    · exact hs.current_eq o x hx
    · rw [hzero]
      exact (congrArg _ (hs.counted_eq_zero ho)).symm
  granted_le o x hx := by
    rcases h.cases hx with hx | ⟨ho, hpos, -⟩
    · exact hs.granted_le o x hx
    · have hle := s.granted_le_counted o
      rw [hs.counted_eq_zero ho] at hle
      show (s.granted o : ℤ) ≤ x.limit
      omega

/-- A call moves on without an addition. -/
theorem Accounted.setPc (hs : s.Accounted) (hc : s.conns[i]? = some c)
    (hcounted : pc.counted = c.pc.counted) (hheld : pc.held = c.pc.held)
    (hknown : ∀ o ∈ pc.known, o < s.limiter.limiters.length) : (s.setPc i c pc).Accounted where
  wellFormed := hs.wellFormed
  known_lt c' hc' := by
    rcases mem_setPc hc' with hc' | rfl
    · exact hs.known_lt c' hc'
    · exact hknown
  current_eq o x hx := by
    have hsum := counted_setPc hc pc o
    rw [hcounted, Nat.add_right_cancel_iff] at hsum
    rw [hsum]
    exact hs.current_eq o x hx
  granted_le o x hx := by
    have hsum := granted_setPc hc pc o
    rw [hheld, Nat.add_right_cancel_iff] at hsum
    rw [hsum]
    exact hs.granted_le o x hx

section Next

variable {pc : Pc} {o : ℕ} {n : ℤ} {x : LLimiter}

/-- An addition keeps the counters right. -/
theorem current_eq_next
    (hs : ∀ (o : ℕ) x, s.limiter.limiters[o]? = some x → x.current = s.counted o)
    (hc : s.conns[i]? = some c) (h : Pc.NextCase s.limiter c.pc pc o n)
    (hx : (s.limiter.add o n).limiters[o']? = some x) :
    x.current = ({ s with limiter := s.limiter.add o n }.setPc i c pc).counted o' := by
  obtain ⟨x₀, hx₀, -, hcurrent⟩ := ConnLimiter.getElem?_add hx
  have hsum := counted_setPc (s := { s with limiter := s.limiter.add o n }) hc pc o'
  have hpart := h.count_counted o'
  have hbefore := hs o' x₀ hx₀
  change _ = s.counted o' + _ at hsum
  omega

/-- An addition gives out a limiter only within its limit. -/
theorem granted_next (hs : ∀ (o : ℕ) x, s.limiter.limiters[o]? = some x → x.current = s.counted o)
    (hc : s.conns[i]? = some c) (h : Pc.NextCase s.limiter c.pc pc o n)
    (hx : s.limiter.limiters[o']? = some x) :
    ({ s with limiter := s.limiter.add o n }.setPc i c pc).granted o' ≤ s.granted o' ∨
      (({ s with limiter := s.limiter.add o n }.setPc i c pc).granted o' : ℤ) ≤ x.limit := by
  have hsum := granted_setPc (s := { s with limiter := s.limiter.add o n }) hc pc o'
  change _ = s.granted o' + _ at hsum
  rcases h.count_held o' with hle | ⟨rfl, hle, heq⟩
  · exact .inl (by omega)
  · -- the sum that was in order counts this connection and all that were allowed before
    rw [ConnLimiter.current_eq hx, ConnLimiter.limit_eq hx, hs o' x hx] at hle
    have hgranted := s.granted_le_counted o'
    exact .inr (by omega)

theorem known_lt_next (hs : ∀ c ∈ s.conns, ∀ o ∈ c.pc.known, o < s.limiter.limiters.length)
    (hc : s.conns[i]? = some c) (h : Pc.NextCase s.limiter c.pc pc o n)
    (hc' : c' ∈ ({ s with limiter := s.limiter.add o n }.setPc i c pc).conns)
    (ho' : o' ∈ c'.pc.known) : o' < (s.limiter.add o n).limiters.length := by
  rw [show (s.limiter.add o n).limiters.length = _ from length_modify ..]
  rcases mem_setPc hc' with hc' | rfl
  · exact hs c' hc' o' ho'
  · exact hs c (mem_of_getElem? hc) o' (h.known_subset ho')

/-- A call makes its next addition. -/
theorem Accounted.next (hs : s.Accounted) (hc : s.conns[i]? = some c)
    (h : Pc.NextCase s.limiter c.pc pc o n) :
    Accounted ({ s with limiter := s.limiter.add o n }.setPc i c pc) where
  wellFormed := hs.wellFormed.add o n
  known_lt c' hc' o' ho' := known_lt_next hs.known_lt hc h hc' ho'
  current_eq o' x hx := current_eq_next hs.current_eq hc h hx
  granted_le o' x hx := by
    obtain ⟨x₀, hx₀, hlimit, -⟩ := ConnLimiter.getElem?_add hx
    rw [hlimit]
    rcases granted_next hs.current_eq hc h hx₀ with hle | hle
    · exact (Int.ofNat_le.mpr hle).trans (hs.granted_le o' x₀ hx₀)
    · exact hle

end Next

/-! ## Steps -/

/-- What a step does, guards included. -/
inductive StepCase (net : Net ι ν) (rules : List Rule) (s : State ν) : Op → State ν → Prop
  | reload : StepCase net rules s .reload { s with limiter := s.limiter.reload net rules }
  | accept (host : Bytes) :
    StepCase net rules s (.accept host) { s with conns := s.conns ++ [{ host }] }
  | lookup (i : ℕ) (c : Conn) (hc : s.conns[i]? = some c) (hpc : c.pc = .called) :
    StepCase net rules s (.next i) (s.lookup net i c)
  | next (i : ℕ) (c : Conn) {pc : Pc} {o : ℕ} {n : ℤ} (hc : s.conns[i]? = some c)
    (h : Pc.NextCase s.limiter c.pc pc o n) :
    StepCase net rules s (.next i) ({ s with limiter := s.limiter.add o n }.setPc i c pc)
  | close (i : ℕ) (c : Conn) {pc : Pc} (hc : s.conns[i]? = some c) (h : c.pc.close = some pc) :
    StepCase net rules s (.close i) (s.setPc i c pc)

theorem step_cases {op : Op} (h : s.step net rules op = some s') : StepCase net rules s op s' := by
  cases op with
  | reload => exact some.inj h ▸ .reload
  | accept host => exact some.inj h ▸ .accept host
  | next i =>
    obtain ⟨c, hc, hnext⟩ := bind_eq_some_iff.mp h
    unfold State.next at hnext
    split_ifs at hnext with hpc
    · exact some.inj hnext ▸ .lookup i c hc hpc
    · obtain ⟨⟨pc, o, n⟩, hmove, rfl⟩ := map_eq_some_iff.mp hnext
      exact .next i c hc (Pc.next_cases hmove)
  | close i =>
    obtain ⟨c, hc, hmap⟩ := bind_eq_some_iff.mp h
    obtain ⟨pc, hclose, rfl⟩ := map_eq_some_iff.mp hmap
    exact .close i c hc hclose

end State

/-- A connection that is closed is counted until its limiters are told. -/
theorem Pc.close_spec {pc' : Pc} (h : pc.close = some pc') :
    pc' = .closing pc.counted ∧ pc.held = pc.counted := by
  cases pc with
  | opened held | unlimited | closing todo => exact ⟨(some.inj h).symm, rfl⟩
  | called => cases h
  | adding => cases h
  | undoing => cases h
  | rollback => cases h

theorem Pc.IsOpen.live (h : pc.IsOpen) : pc.Live := by
  cases pc with
  | opened held => trivial
  | unlimited => trivial
  | called => exact h
  | adding => trivial
  | undoing => exact h
  | rollback => exact h
  | closing => exact h

theorem Pc.IsOpen.group_eq_held (h : pc.IsOpen) : pc.group = pc.held := by
  cases pc with
  | opened held => rfl
  | unlimited => rfl
  | called => rfl
  | adding => cases h
  | undoing => cases h
  | rollback => cases h
  | closing => cases h

theorem Pc.group_begin {g : Option (List ℕ)} : (Pc.begin g).group = g.getD [] := by
  match g with
  | none => rfl
  | some [] => rfl
  | some (_ :: _) => rfl

theorem Pc.counted_begin (g : Option (List ℕ)) : (Pc.begin g).counted = [] := by
  match g with
  | none => rfl
  | some [] => rfl
  | some (_ :: _) => rfl

theorem Pc.held_begin (g : Option (List ℕ)) : (Pc.begin g).held = [] := by
  match g with
  | none => rfl
  | some [] => rfl
  | some (_ :: _) => rfl

namespace State

variable {s s' : State ν} {op : Op} {i : ℕ} {c : Conn} {n : ℤ}

theorem Accounted.lookup (hs : s.Accounted) (hc : s.conns[i]? = some c) (hpc : c.pc = .called) :
    (s.lookup net i c).Accounted := by
  have hspec : ConnLimiter.LimiterSpec net s.limiter c.host _ :=
    ConnLimiter.limiter_spec hs.wellFormed c.host
  have hext := hs.extend hspec.toExtends hspec.wellFormed
  refine hext.setPc hc ?_ ?_ fun o ho => ?_
  · rw [Pc.counted_begin, hpc]
    rfl
  · rw [Pc.held_begin, hpc]
    rfl
  · rw [Pc.known, Pc.counted_begin, nil_append, Pc.group_begin] at ho
    cases hgroup : (s.limiter.limiter net c.host).2 with
    | none =>
      rw [hgroup] at ho
      cases ho
    | some group =>
      rw [hgroup] at ho
      exact hspec.lt group hgroup o ho

theorem Accounted.step (hs : s.Accounted) (h : s.step net rules op = some s') : s'.Accounted := by
  cases step_cases h with
  | reload =>
    have hspec : ConnLimiter.ReloadSpec net s.limiter rules _ :=
      ConnLimiter.reload_spec s.limiter rules
    exact hs.extend hspec.toExtends hspec.wellFormed
  | accept host =>
    let s₁ : State ν := { s with conns := s.conns ++ [{ host }] }
    have hcounted (o : ℕ) : s₁.counted o = s.counted o := by
      simp [s₁, State.counted, Pc.counted, Pc.held]
    have hgranted (o : ℕ) : s₁.granted o = s.granted o := by
      simp [s₁, State.granted, Pc.held]
    refine ⟨hs.wellFormed, fun c hc => ?_, ?_, ?_⟩
    · rcases mem_append.mp hc with hc | hc
      · exact hs.known_lt c hc
      · rw [mem_singleton.mp hc]
        exact nofun
    · intro o
      rw [hcounted]
      exact hs.current_eq o
    · intro o
      rw [hgranted]
      exact hs.granted_le o
  | lookup i c hc hpc => exact hs.lookup hc hpc
  | next i c hc hnext => exact hs.next hc hnext
  | close i c hc hclose =>
    obtain ⟨rfl, hheld⟩ := Pc.close_spec hclose
    refine hs.setPc hc rfl hheld.symm fun o ho => ?_
    change o ∈ c.pc.counted ++ [] at ho
    rw [append_nil] at ho
    exact hs.known_lt c (mem_of_getElem? hc) o (mem_append_left _ ho)

/-- All live connections under a rule are counted by its limiter, which has the configured limit. -/
structure Covered (key : Bytes) (n : ℤ) (s : State ν) : Prop where
  limit : ∀ g, s.limiter.ipLimits key = some g → ∃ (o : ℕ) (x : LLimiter),
    g = .single (some o) ∧ s.limiter.limiters[o]? = some x ∧ x.limit = n
  cached : ∀ host group o, Applies key host → s.limiter.limits host = some group →
    s.limiter.ipLimits key = some (.single (some o)) → o ∈ group
  live : ∀ c ∈ s.conns, Applies key c.host → c.pc.Live →
    ∃ o, s.limiter.ipLimits key = some (.single (some o)) ∧ o ∈ c.pc.group

/-- No client under the rule is looked up before the rule is loaded, and no reload happens while a
connection under the rule is open or on its way through `Allow(1)`. -/
def Timely (key : Bytes) (s : State ν) : Op → Prop
  | .reload => ∀ c ∈ s.conns, Applies key c.host → ¬c.pc.Live
  | .next i => ∀ c ∈ s.conns[i]?, c.pc = .called → Applies key c.host →
      s.limiter.ipLimits key ≠ none
  | _ => True

instance (key : Bytes) (s : State ν) (op : Op) : Decidable (Timely key s op) :=
  match op with
  | .reload => inferInstanceAs (Decidable (∀ c ∈ s.conns, _ → ¬_))
  | .next i => inferInstanceAs (Decidable (∀ c ∈ s.conns[i]?, _ → _ → _))
  | .accept _ => .isTrue trivial
  | .close _ => .isTrue trivial

theorem covered_init (key : Bytes) (n : ℤ) : ({} : State ν).Covered key n := ⟨nofun, nofun, nofun⟩

theorem Covered.lookup (hs : s.Covered key n) (hacc : s.Accounted) (hkey : net.Single key)
    (hloaded : Applies key c.host → s.limiter.ipLimits key ≠ none) :
    (s.lookup net i c).Covered key n := by
  have hspec : ConnLimiter.LimiterSpec net s.limiter c.host _ :=
    ConnLimiter.limiter_spec hacc.wellFormed c.host
  -- the group found for the client has the limiter of the rule
  have hgroup : ∀ o, Applies key c.host → s.limiter.ipLimits key = some (.single (some o)) →
      ∃ g, (s.limiter.limiter net c.host).2 = some g ∧ o ∈ g := by
    intro o happ ho
    rcases hspec.group with ⟨g, hcache, hfound⟩ | hfound
    · exact ⟨g, hfound, hs.cached c.host g o happ hcache ho⟩
    · exact hfound key o hkey happ ho
  refine ⟨fun g hg => ?_, fun host group o happ hcache ho => ?_, fun c' hc' happ hlive => ?_⟩
  · obtain ⟨o, x, ho, hx, hlimit⟩ := hs.limit g (hspec.ipLimits ▸ hg)
    exact ⟨o, x, ho, hspec.toExtends.getElem? hx, hlimit⟩
  · have ho' : s.limiter.ipLimits key = some (.single (some o)) := hspec.ipLimits ▸ ho
    rcases hspec.limits host with hsame | ⟨rfl, hnew⟩
    · exact hs.cached host group o happ (hsame.symm.trans hcache) ho'
    · obtain ⟨g, hg, hmem⟩ := hgroup o happ ho'
      obtain rfl : g = group := some.inj (hg.symm.trans (hnew.symm.trans hcache))
      exact hmem
  · show ∃ o, (s.limiter.limiter net c.host).1.ipLimits key = _ ∧ _
    rw [hspec.ipLimits]
    rcases mem_setPc hc' with hc' | rfl
    · exact hs.live c' hc' happ hlive
    · obtain ⟨g, hg⟩ := ne_none_iff_exists'.mp (hloaded happ)
      obtain ⟨o, x, rfl, -⟩ := hs.limit g hg
      obtain ⟨group, hfound, hmem⟩ := hgroup o happ hg
      refine ⟨o, hg, ?_⟩
      rw [hfound, Pc.group_begin]
      exact hmem

theorem Covered.step (hs : s.Covered key n) (hacc : s.Accounted) (hkey : net.Single key)
    (hn : configured rules key = some n) (hguard : Timely key s op)
    (h : s.step net rules op = some s') : s'.Covered key n := by
  cases step_cases h with
  | reload =>
    have hspec : ConnLimiter.ReloadSpec net s.limiter rules _ :=
      ConnLimiter.reload_spec s.limiter rules
    refine ⟨fun g hg => ?_, fun host group o _ hcache => ?_, fun c hc happ hlive => ?_⟩
    · obtain ⟨o, x, ho, hx, hlimit⟩ := hspec.single key n hkey hn
      exact ⟨o, x, some.inj (hg.symm.trans ho), hx, hlimit⟩
    · exact absurd ((hspec.limits host).symm.trans hcache) nofun
    · exact absurd hlive (hguard c hc happ)
  | accept host =>
    refine ⟨hs.limit, hs.cached, fun c hc => ?_⟩
    rcases mem_append.mp hc with hc | hc
    · exact hs.live c hc
    · rw [mem_singleton.mp hc]
      exact fun _ hlive => absurd hlive id
  | lookup i c hc hpc => exact hs.lookup hacc hkey (hguard c hc hpc)
  | next i c hc hnext =>
    refine ⟨fun g hg => ?_, hs.cached, fun c' hc' happ hlive => ?_⟩
    · obtain ⟨o, x, ho, hx, hlimit⟩ := hs.limit g hg
      obtain ⟨x', hx', hlimit'⟩ := ConnLimiter.exists_getElem?_add hx
      exact ⟨o, x', ho, hx', hlimit'.trans hlimit⟩
    · rcases mem_setPc hc' with hc' | rfl
      · exact hs.live c' hc' happ hlive
      · obtain ⟨hlive', hgroup⟩ := hnext.group_eq hlive
        obtain ⟨o, ho, hmem⟩ := hs.live c (mem_of_getElem? hc) happ hlive'
        exact ⟨o, ho, hgroup ▸ hmem⟩
  | close i c hc hclose =>
    obtain ⟨rfl, -⟩ := Pc.close_spec hclose
    refine ⟨hs.limit, hs.cached, fun c' hc' happ hlive => ?_⟩
    rcases mem_setPc hc' with hc' | rfl
    · exact hs.live c' hc' happ hlive
    · cases hlive

/-- The open connections under a rule. -/
def openConns (s : State ν) (key : Bytes) : ℕ :=
  s.conns.countP fun c => Applies key c.host ∧ c.pc.IsOpen

theorem Covered.openConns_le (hs : s.Covered key n) (hacc : s.Accounted) (hn : 0 < n) :
    s.openConns key ≤ n := by
  by_cases hopen : ∃ c ∈ s.conns, Applies key c.host ∧ c.pc.IsOpen
  · obtain ⟨c, hc, happ, hpc⟩ := hopen
    obtain ⟨o, ho, -⟩ := hs.live c hc happ hpc.live
    obtain ⟨o', x, ho', hx, rfl⟩ := hs.limit _ ho
    obtain rfl : o = o' := some.inj (Generator.single.inj ho')
    have hle : s.openConns key ≤ s.granted o := by
      refine countP_le_sum_map fun c hc hp => ?_
      obtain ⟨happ, hpc⟩ := of_decide_eq_true hp
      obtain ⟨o₁, ho₁, hmem⟩ := hs.live c hc happ hpc.live
      obtain rfl : o = o₁ :=
        some.inj (Generator.single.inj (some.inj (ho.symm.trans ho₁)))
      exact count_pos_iff.mpr (hpc.group_eq_held ▸ hmem)
    have hgranted := hacc.granted_le o x hx
    omega
  · have hzero : s.openConns key = 0 :=
      countP_eq_zero.mpr fun c hc hp => hopen ⟨c, hc, of_decide_eq_true hp⟩
    omega

end State

open State in
/-- The open connections under a global or single-IP rule are never more than its limit, if clients
are looked up after the rule is loaded, and reloads happen while no connection under the rule is
open or being accepted. -/
theorem open_le_limit (net : Net ι ν) (rules : List Rule) (key : Bytes) (n : ℤ) (ops : List Op)
    (s : State ν) (hkey : net.Single key) (hn : configured rules key = some n)
    (htimely : Along (step net rules) (Timely key) {} ops)
    (hrun : run (step net rules) {} ops = some s) : s.openConns key ≤ n := by
  have hs : s.Accounted ∧ s.Covered key n := by
    refine run_induction_along (I := fun s => s.Accounted ∧ s.Covered key n)
      (fun s op s' hs hguard hstep => ?_) ⟨accounted_init, covered_init key n⟩ htimely hrun
    exact ⟨hs.1.step hstep, hs.2.step hs.1 hkey hn hguard hstep⟩
  exact hs.2.openConns_le hs.1 (configured_pos hn)

/-- Only the keys `$` and `$$` are understood. -/
def noNetworks : Net Unit Unit where
  parseIP _ := none
  parseCIDR _ := none
  containingNetworks _ _ := none

/-- One connection in all. -/
def oneConn : List Rule := [{ key := globalLimitKey, limit := 1 }]

/-- A client connects and closes, a reload, and another client connects. -/
def betweenConns : List Op :=
  [.reload, .accept [1], .next 0, .next 0, .close 0, .next 0,
    .reload, .accept [2], .next 1, .next 1]

theorem open_le_limit_between :
    ∃ s, run (State.step noNetworks oneConn) {} betweenConns = some s ∧
      s.openConns globalLimitKey = 1 ∧ (s.openConns globalLimitKey : ℤ) ≤ 1 :=
  ⟨_, rfl, by decide, open_le_limit noNetworks oneConn globalLimitKey 1 betweenConns _ (.inl rfl)
    (by decide) (by decide) rfl⟩

/-- The same reload, with the first connection still open. -/
def duringConn : List Op :=
  [.reload, .accept [1], .next 0, .next 0, .reload, .accept [2], .next 1, .next 1]

/-- Two connections are open under a global limit of one. -/
theorem open_exceeds_limit :
    configured oneConn globalLimitKey = some 1 ∧
      (run (State.step noNetworks oneConn) {} duringConn).map (·.openConns globalLimitKey) =
        some 2 := by
  decide

end ConnLimit

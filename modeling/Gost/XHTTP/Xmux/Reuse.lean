import Gost.XHTTP.Xmux.Steps

/-!
# The reuse policy of the multiplexer

`GetXmuxClient` of `xhttp/dialer/xmux.go` in detail: the removal loop deletes from `xmuxClients` in
place and reads the clock anew for each client. At a clock that stands still during the call it is
`State.getXmuxClient` (`getXmuxClientAt_zero`).

A `Pool` is a manager with the values drawn for `CMaxReuseTimes` and the clients it has returned.
Between the calls clients are closed, request budgets and usage counters change, and time passes.
`reuse_policy`: a client is returned at most as often as was drawn for it, and no client that
existed before is returned closed, without requests left or expired.
-/

namespace XHTTP.Xmux

open List Option TransitionSystem

/-! ## The call -/

variable {i pick : ℕ} {clock : ℕ → ℕ} {t : State} {draw : Draw}

namespace State

/-- The state `ns` nanoseconds later. -/
def after (s : State) (ns : ℕ) : State := { s with now := s.now + ns }

/-- The removal loop at index `i`, with `n` passes left. A pass deletes the client at `i` or moves
on, and reads the clock at `clock n` nanoseconds into the call. -/
def removalLoop (s : State) (clock : ℕ → ℕ) : ℕ → List ℕ → ℕ → List ℕ
  | 0, xmuxClients, _ => xmuxClients
  | n + 1, xmuxClients, i =>
    match xmuxClients[i]? with
    | none => xmuxClients
    | some j =>
      if (s.after (clock (n + 1))).Reusable j then removalLoop s clock n xmuxClients (i + 1)
      else removalLoop s clock n (xmuxClients.eraseIdx i) i

/-- The clients of the pool with a free slot, or all of them if there is no such limit. -/
def available (s : State) : List ℕ :=
  if 0 < s.concurrency then s.xmuxClients.filter fun i => s.HasSlot i else s.xmuxClients

/-- `GetXmuxClient` after the removal loop. -/
def select (s : State) (pick : ℕ) (draw : Draw) : Option (State × ℕ) :=
  if s.xmuxClients = [] then s.newXmuxClient draw
  else if 0 < s.connections ∧ (s.xmuxClients.length : ℤ) < s.connections then
    s.newXmuxClient draw
  else if s.available = [] then s.newXmuxClient draw
  else
    match s.available[pick]? with
    | none => none
    | some i =>
      some (s.modifyClient i fun c =>
        { c with leftUsage := if 0 < c.leftUsage then c.leftUsage - 1 else c.leftUsage }, i)

/-- `GetXmuxClient`, with `clock` for the clock readings of the call, from the last one back: the
reading for a new client is `clock 0`. -/
def getXmuxClientAt (s : State) (clock : ℕ → ℕ) (pick : ℕ) (draw : Draw) : Option (State × ℕ) :=
  let xmuxClients := s.removalLoop clock s.xmuxClients.length s.xmuxClients 0
  { s.after (clock 0) with xmuxClients }.select pick draw

/-- The clients of a list that the removal loop keeps. -/
def kept (s : State) (clock : ℕ → ℕ) : List ℕ → List ℕ
  | [] => []
  | j :: rest =>
    if (s.after (clock (rest.length + 1))).Reusable j then j :: s.kept clock rest
    else s.kept clock rest

/-- The loop has passed `front` and still has `rest` to check. -/
theorem removalLoop_append (s : State) (clock : ℕ → ℕ) (front rest : List ℕ) :
    s.removalLoop clock rest.length (front ++ rest) front.length = front ++ s.kept clock rest := by
  induction rest generalizing front with
  | nil => rfl
  | cons j rest ih =>
    have hget : (front ++ j :: rest)[front.length]? = some j := by
      rw [getElem?_append_right le_rfl, Nat.sub_self]
      rfl
    rw [length_cons, removalLoop, hget, kept]
    dsimp only
    split_ifs
    · have := ih (front ++ [j])
      rwa [length_append, append_assoc, append_assoc] at this
    · rw [eraseIdx_append_of_length_le le_rfl, Nat.sub_self]
      exact ih front

theorem removalLoop_eq (s : State) (clock : ℕ → ℕ) :
    s.removalLoop clock s.xmuxClients.length s.xmuxClients 0 = s.kept clock s.xmuxClients :=
  removalLoop_append s clock [] s.xmuxClients

theorem kept_zero (s : State) (l : List ℕ) :
    s.kept (fun _ => 0) l = l.filter fun i => s.Reusable i := by
  induction l with
  | nil => rfl
  | cons j rest ih =>
    rw [kept, filter_cons, ih]
    simp only [decide_eq_true_eq]
    rfl

variable {s : State}

/-- A client that expires during the call has not expired before it. -/
theorem Reusable.of_after {ns : ℕ} (h : (s.after ns).Reusable i) : s.Reusable i := by
  obtain ⟨c, hc, hopen, hleft, hreq, hexp⟩ := h
  refine ⟨c, hc, hopen, hleft, hreq, ?_⟩
  rintro ⟨t, ht, hlt⟩
  exact hexp ⟨t, ht, hlt.trans_le (Nat.le_add_right _ _)⟩

theorem reusable_of_mem_kept {l : List ℕ} (h : i ∈ s.kept clock l) : s.Reusable i := by
  induction l with
  | nil => cases h
  | cons j rest ih =>
    rw [kept] at h
    split_ifs at h with hj
    · rcases mem_cons.mp h with rfl | h
      · exact hj.of_after
      · exact ih h
    · exact ih h

/-- With a clock that stands still during the call, this is the call as one step. -/
theorem getXmuxClientAt_zero (s : State) (pick : ℕ) (draw : Draw) :
    s.getXmuxClientAt (fun _ => 0) pick draw = s.getXmuxClient pick draw := by
  have hloop : { s.after 0 with
      xmuxClients := s.removalLoop (fun _ => 0) s.xmuxClients.length s.xmuxClients 0 } =
      s.removeUnusable := by
    rw [removalLoop_eq, kept_zero]
    rfl
  show State.select { s.after 0 with xmuxClients := _ } pick draw = _
  rw [hloop]
  rfl

/-- What `select` does. -/
inductive SelectCase (s : State) (draw : Draw) : State → ℕ → Prop
  | new : SelectCase s draw { s with
      clients := s.clients ++ [s.freshClient draw]
      xmuxClients := s.xmuxClients ++ [s.clients.length] } s.clients.length
  | reused (i : ℕ) (hi : i ∈ s.xmuxClients) : SelectCase s draw (s.modifyClient i fun c =>
      { c with leftUsage := if 0 < c.leftUsage then c.leftUsage - 1 else c.leftUsage }) i

theorem mem_of_mem_available (h : i ∈ s.available) : i ∈ s.xmuxClients := by
  unfold available at h
  split_ifs at h
  · exact mem_of_mem_filter h
  · exact h

theorem select_cases (h : s.select pick draw = some (t, i)) : SelectCase s draw t i := by
  have hnew (h : s.newXmuxClient draw = some (t, i)) : SelectCase s draw t i := by
    unfold newXmuxClient at h
    split_ifs at h
    cases h
    exact .new
  unfold select at h
  split_ifs at h
  · exact hnew h
  · exact hnew h
  · exact hnew h
  · split at h
    next => cases h
    next j hj =>
      obtain ⟨rfl, rfl⟩ := Prod.mk.inj (some.inj h)
      exact .reused j (mem_of_mem_available (mem_of_getElem? hj))

/-- A call creates a client, at the time of its last clock reading, or returns one that could be
reused when the call began. -/
theorem getXmuxClientAt_cases (h : s.getXmuxClientAt clock pick draw = some (t, i)) :
    i = s.clients.length ∧ t.clients = s.clients ++ [(s.after (clock 0)).freshClient draw] ∨
      s.Reusable i ∧ t.clients = s.clients.modify i fun c =>
        { c with leftUsage := if 0 < c.leftUsage then c.leftUsage - 1 else c.leftUsage } := by
  cases select_cases h with
  | new => exact .inl ⟨rfl, rfl⟩
  | reused _ hi =>
    have hmem : i ∈ s.removalLoop clock s.xmuxClients.length s.xmuxClients 0 := hi
    rw [removalLoop_eq] at hmem
    exact .inr ⟨reusable_of_mem_kept hmem, rfl⟩

end State

/-! ## Sequences of calls -/

/-- A manager and what it has drawn and returned. -/
structure Pool where
  manager : State
  -- the `CMaxReuseTimes` value of each client
  draws : List ℤ := []
  -- the clients that `GetXmuxClient` has returned, call by call
  returned : List ℕ := []

inductive Event
  | getXmuxClient (clock : ℕ → ℕ) (pick : ℕ) (draw : Draw)
  -- what `IsClosed()` of a client reports from now on
  | closed (i : ℕ) (isClosed : Bool)
  -- the request budget of a client falls by `n`
  | charge (i n : ℕ)
  | addUsage (i : ℕ) (n : ℤ)
  -- time passes
  | tick (ns : ℕ)

namespace Pool

/-- `GetXmuxClient`, with its result and, for a new client, its draw recorded. -/
def get (p : Pool) (clock : ℕ → ℕ) (pick : ℕ) (draw : Draw) : Option Pool :=
  (p.manager.getXmuxClientAt clock pick draw).map fun (s, i) =>
    { manager := s
      draws :=
        if i < p.manager.clients.length then p.draws else p.draws ++ [draw.cMaxReuseTimes]
      returned := p.returned ++ [i] }

def modify (p : Pool) (i : ℕ) (f : Client → Client) : Pool :=
  { p with manager := p.manager.modifyClient i f }

def step (p : Pool) : Event → Option Pool
  | .getXmuxClient clock pick draw => p.get clock pick draw
  | .closed i isClosed => some (p.modify i fun c => { c with isClosed })
  | .charge i n => some (p.modify i fun c => { c with leftRequests := c.leftRequests - n })
  | .addUsage i n => some (p.modify i fun c => { c with openUsage := c.openUsage + n })
  | .tick ns => some { p with manager := p.manager.after ns }

def init (xmuxConfig : XmuxConfig) (scMaxEachPostBytes : Range) (concurrency connections : ℤ) :
    Pool :=
  { manager := newXmuxManager xmuxConfig scMaxEachPostBytes concurrency connections }

/-- What was drawn for a client is split into the times it was returned and `leftUsage`. -/
structure Counted (p : Pool) : Prop where
  length_draws : p.draws.length = p.manager.clients.length
  returned_lt : ∀ i ∈ p.returned, i < p.manager.clients.length
  count_add_left : ∀ (i : ℕ) (x : ℤ) (c : Client), p.draws[i]? = some x →
    p.manager.clients[i]? = some c → 0 < x → 0 ≤ c.leftUsage ∧ p.returned.count i + c.leftUsage = x

theorem counted_init (xmuxConfig : XmuxConfig) (scMaxEachPostBytes : Range)
    (concurrency connections : ℤ) :
    (init xmuxConfig scMaxEachPostBytes concurrency connections).Counted where
  length_draws := rfl
  returned_lt := nofun
  count_add_left := nofun

variable {p : Pool}

theorem Counted.modify (hp : p.Counted) (i : ℕ) {f : Client → Client}
    (hf : ∀ c, (f c).leftUsage = c.leftUsage) : (p.modify i f).Counted where
  length_draws := hp.length_draws.trans (length_modify ..).symm
  returned_lt j hj := (hp.returned_lt j hj).trans_eq (length_modify ..).symm
  count_add_left j x c hx hc hpos := by
    change (p.manager.clients.modify i f)[j]? = some c at hc
    rw [getElem?_modify] at hc
    obtain ⟨c₀, hc₀, rfl⟩ := map_eq_some_iff.mp hc
    have hleft : (if i = j then f c₀ else c₀).leftUsage = c₀.leftUsage := by
      split_ifs
      · exact hf c₀
      · rfl
    rw [hleft]
    exact hp.count_add_left j x c₀ hx hc₀ hpos

/-- A new client is returned for the first time. -/
theorem Counted.new (hp : p.Counted) (now : State)
    (ht : t.clients = p.manager.clients ++ [now.freshClient draw]) :
    Pool.Counted
      { manager := t
        draws := p.draws ++ [draw.cMaxReuseTimes]
        returned := p.returned ++ [p.manager.clients.length] } where
  length_draws := by
    rw [ht, length_append, length_append, hp.length_draws]
    rfl
  returned_lt j hj := by
    rw [ht, length_append, length_singleton]
    rcases mem_append.mp hj with hj | hj
    · exact Nat.lt_succ_of_lt (hp.returned_lt j hj)
    · exact Nat.lt_succ_of_le (mem_singleton.mp hj).le
  count_add_left j x c hx hc hpos := by
    rw [count_append, count_singleton]
    rw [ht] at hc
    rcases Nat.lt_or_ge j p.manager.clients.length with hj | hj
    · rw [getElem?_append_left (hj.trans_eq hp.length_draws.symm)] at hx
      rw [getElem?_append_left hj] at hc
      rw [if_neg (by simpa using hj.ne')]
      exact hp.count_add_left j x c hx hc hpos
    · rw [getElem?_append_right (hp.length_draws.trans_le hj), getElem?_singleton] at hx
      rw [getElem?_append_right hj, getElem?_singleton] at hc
      split_ifs at hx hc with hlen hlen'
      obtain rfl : j = p.manager.clients.length := by omega
      cases hx
      cases hc
      have hzero : p.returned.count p.manager.clients.length = 0 :=
        count_eq_zero.mpr fun hmem => (hp.returned_lt _ hmem).false
      have hleft : (now.freshClient draw).leftUsage = draw.cMaxReuseTimes - 1 := if_pos hpos
      rw [hzero, hleft, if_pos (by simp)]
      omega

/-- A client that is returned again uses up one of its times. -/
theorem Counted.reused (hp : p.Counted) (hi : p.manager.Reusable i)
    (ht : t.clients = p.manager.clients.modify i fun c =>
      { c with leftUsage := if 0 < c.leftUsage then c.leftUsage - 1 else c.leftUsage }) :
    Pool.Counted { p with manager := t, returned := p.returned ++ [i] } where
  length_draws := by
    rw [ht, length_modify, hp.length_draws]
  returned_lt j hj := by
    rw [ht, length_modify]
    rcases mem_append.mp hj with hj | hj
    · exact hp.returned_lt j hj
    · obtain ⟨c, hc, -⟩ := hi
      rw [mem_singleton.mp hj]
      exact (List.getElem?_eq_some_iff.mp hc).1
  count_add_left j x c hx hc hpos := by
    rw [count_append, count_singleton]
    rw [ht, getElem?_modify] at hc
    obtain ⟨c₀, hc₀, rfl⟩ := map_eq_some_iff.mp hc
    obtain ⟨hnonneg, hsum⟩ := hp.count_add_left j x c₀ hx hc₀ hpos
    by_cases hij : i = j
    · subst hij
      obtain ⟨c₁, hc₁, -, hleft, -⟩ := hi
      obtain rfl : c₁ = c₀ := some.inj (hc₁.symm.trans hc₀)
      have hlt : 0 < c₁.leftUsage := by omega
      simp only [if_true, if_pos hlt, beq_self_eq_true]
      omega
    · simpa [hij] using ⟨hnonneg, hsum⟩

theorem Counted.get {p' : Pool} (hp : p.Counted) (h : p.get clock pick draw = some p') :
    p'.Counted := by
  obtain ⟨⟨t, i⟩, hget, rfl⟩ := map_eq_some_iff.mp h
  dsimp only
  rcases State.getXmuxClientAt_cases hget with ⟨rfl, ht⟩ | ⟨hreusable, ht⟩
  · rw [if_neg (lt_irrefl _)]
    exact hp.new _ ht
  · obtain ⟨c, hc, -⟩ := id hreusable
    rw [if_pos (List.getElem?_eq_some_iff.mp hc).1]
    exact hp.reused hreusable ht

theorem Counted.step {p' : Pool} {e : Event} (hp : p.Counted) (h : p.step e = some p') :
    p'.Counted := by
  cases e with
  | getXmuxClient clock pick draw => exact hp.get h
  | closed i isClosed | charge i n | addUsage i n =>
    exact some.inj h ▸ hp.modify i fun _ => rfl
  | tick ns =>
    exact some.inj h ▸ ⟨hp.length_draws, hp.returned_lt, hp.count_add_left⟩

end Pool

/-- After any sequence of calls and other events, a client for which `x > 0` uses were drawn has
been returned at most `x` times, and the next call, whatever it draws and reads off the clock,
returns no client that is closed, has no requests left or has expired, unless the call creates
it. -/
theorem reuse_policy (xmuxConfig : XmuxConfig) (scMaxEachPostBytes : Range)
    (concurrency connections : ℤ) (events : List Event) (p : Pool)
    (hrun : run Pool.step (.init xmuxConfig scMaxEachPostBytes concurrency connections) events =
      some p) :
    (∀ (i : ℕ) (x : ℤ), p.draws[i]? = some x → 0 < x → p.returned.count i ≤ x) ∧
    ∀ clock pick draw p', p.step (.getXmuxClient clock pick draw) = some p' →
      ∃ i, p'.returned = p.returned ++ [i] ∧
        ∀ c, p.manager.clients[i]? = some c →
          c.isClosed = false ∧ 0 < c.leftRequests ∧ ¬p.manager.Expired c := by
  have hp : p.Counted := run_induction (fun _ _ _ => Pool.Counted.step) (Pool.counted_init ..) hrun
  constructor
  · intro i x hx hpos
    have hlt : i < p.manager.clients.length :=
      (List.getElem?_eq_some_iff.mp hx).1.trans_eq hp.length_draws
    have hsum := hp.count_add_left i x _ hx (getElem?_eq_getElem hlt) hpos
    omega
  · intro clock pick draw p' h
    obtain ⟨⟨t, i⟩, hget, rfl⟩ := map_eq_some_iff.mp h
    refine ⟨i, rfl, fun c hc => ?_⟩
    rcases State.getXmuxClientAt_cases hget with ⟨rfl, -⟩ | ⟨hreusable, -⟩
    · exact absurd (List.getElem?_eq_some_iff.mp hc).1 (lt_irrefl _)
    · obtain ⟨c', hc', hopen, -, hreq, hexp⟩ := hreusable
      obtain rfl : c' = c := some.inj (hc'.symm.trans hc)
      exact ⟨hopen, hreq, hexp⟩

/-- Two uses for each client. -/
def twoUses : XmuxConfig := { cMaxReuseTimes := some ⟨2, 2⟩ }

/-- Three calls, the last two with clocks that run. -/
def threeCalls : List Event :=
  [.getXmuxClient (fun _ => 0) 0 ⟨2, 0, 0⟩, .tick 5, .getXmuxClient (fun n => 9 - n) 0 ⟨2, 0, 0⟩,
    .charge 0 1, .getXmuxClient (fun n => 9 - n) 0 ⟨2, 0, 0⟩]

/-- The first client is returned twice and then replaced. -/
theorem reuse_policy_two_uses :
    ∃ p, run Pool.step (.init twoUses ⟨1, 1⟩ 0 1) threeCalls = some p ∧
      p.returned = [0, 0, 1] ∧ p.draws = [2, 2] ∧ (p.returned.count 0 : ℤ) ≤ 2 :=
  ⟨_, rfl, rfl, rfl, (reuse_policy twoUses ⟨1, 1⟩ 0 1 threeCalls _ rfl).1 0 2 rfl (by decide)⟩

end XHTTP.Xmux

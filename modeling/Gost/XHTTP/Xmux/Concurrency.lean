import Gost.XHTTP.Xmux.Steps

/-!
# The concurrency cap of the multiplexer

`GetXmuxClient` offers a client while its `OpenUsage` is below the cap, but `DialContext` counts
itself only after the manager's lock is released. Between the two steps a slot is promised and not
yet taken, and the manager does not see promises: two dials may get the last slot of a client.

`openUsage_le_concurrency`: the cap holds in every run in which no dial selects while the pool
offers a client whose free slots are all promised.
-/

namespace XHTTP.Xmux

open TransitionSystem

/-- The number of dials that have selected the client and are not yet counted. -/
def State.promised (s : State) (i : ℕ) : ℕ := s.dialsAt (·.pc = .selected) i

/-- A dial selects only while every offered client has a slot that is not promised. -/
def SlotsFree (s : State) : Act → Prop
  | .dialSelect _ _ _ =>
    ∀ i ∈ s.offered, ∀ c ∈ s.clients[i]?, c.openUsage + s.promised i < s.concurrency
  | _ => True

instance (s : State) (a : Act) : Decidable (SlotsFree s a) := by
  unfold SlotsFree
  split <;> infer_instance

/-- The client is not used more than before. -/
def UsageLe (c c' : Client) : Prop := c'.openUsage ≤ c.openUsage

theorem UsageLe.refl (c : Client) : UsageLe c c := le_refl c.openUsage

/-- Used and promised slots together stay below the cap. -/
structure Capped (s : State) : Prop where
  wellFormed : WellFormed s
  positive : 0 < s.concurrency
  slots : ∀ i c, s.clients[i]? = some c → c.openUsage + s.promised i ≤ s.concurrency

namespace Capped

variable {s s' : State}

/-- A step that neither selects nor counts. -/
theorem frame (h : Capped s) (hwf : WellFormed s') (hconc : s'.concurrency = s.concurrency)
    (hclients : ClientsRel UsageLe s.clients s'.clients)
    (hpromised : ∀ i, s'.promised i = s.promised i) : Capped s' := by
  refine ⟨hwf, hconc ▸ h.positive, fun i c hc => ?_⟩
  obtain ⟨c₀, hc₀, hle⟩ := hclients i c hc
  have := h.slots i c₀ hc₀
  unfold UsageLe at hle
  rw [hpromised, hconc]
  omega

variable {t : State} {draw : Draw} {k d : ℕ} {mode : Mode} {x : Dial}

/-- Selection keeps the slots, apart from the promise: a new client has all of them. -/
theorem slots_selects (h : Capped s) {i : ℕ} {c : Client} (hsel : Selects s draw t k)
    (hc : t.clients[i]? = some c) : c.openUsage + s.promised i ≤ s.concurrency := by
  rcases hsel.client hc with ⟨c₀, hc₀, hsame, -⟩ | ⟨rfl, hlen, rfl⟩
  · rw [hsame.1]
    exact h.slots i c₀ hc₀
  · have hzero : s.promised i = 0 := hlen ▸ h.wellFormed.dialsAt_length _
    have hpos := h.positive
    change 0 + _ ≤ _
    omega

/-- A new dial is promised a slot. -/
theorem promised_select (hdials : t.dials = s.dials) (i : ℕ) :
    (t.addDial mode k).promised i = s.promised i + if k = i then 1 else 0 := by
  have hnew : (t.addDial mode k).dials = s.dials ++ [⟨mode, k, .selected, 0⟩] := by
    rw [State.addDial, hdials]
  have := @dialsAt_append s (t.addDial mode k) (·.pc = .selected) _ i _ hnew
  simpa [State.promised] using this

/-- A counted dial takes the slot it was promised. -/
theorem promised_count (hx : s.dials[d]? = some x) (hpc : x.pc = .selected) (i : ℕ) :
    ((s.addUsage x.client 1).setDial d { x with pc := .counted }).promised i +
      (if x.client = i then 1 else 0) = s.promised i := by
  have := @dialsAt_set s ((s.addUsage x.client 1).setDial d { x with pc := .counted })
    (·.pc = .selected) _ i x d _ hx rfl
  simpa [State.promised, hpc] using this

/-- A dial moves on after it was counted. -/
theorem promised_setDial {x' : Dial} (hx : s.dials[d]? = some x) (hs : s'.dials = s.dials.set d x')
    (hpc : x.pc ≠ .selected) (hpc' : x'.pc ≠ .selected) (i : ℕ) : s'.promised i = s.promised i := by
  have := @dialsAt_set s s' (·.pc = .selected) _ i x d x' hx hs
  simpa [State.promised, hpc, hpc'] using this

/-- A dial selects a client that has a slot left. -/
theorem select (h : Capped s) (hwf : WellFormed (t.addDial mode k)) (hsel : Selects s draw t k)
    (hfree : ∀ i ∈ s.offered, ∀ c ∈ s.clients[i]?, c.openUsage + s.promised i < s.concurrency) :
    Capped (t.addDial mode k) := by
  refine ⟨hwf, hsel.concurrency ▸ h.positive, fun i c hc => ?_⟩
  rw [promised_select hsel.dials]
  change _ ≤ t.concurrency
  rw [hsel.concurrency]
  by_cases hk : k = i
  · subst hk
    rw [if_pos rfl]
    rcases hsel.client hc with ⟨c₀, hc₀, hsame, hoffer⟩ | ⟨-, hlen, rfl⟩
    · have := hfree k (hoffer rfl) c₀ hc₀
      rw [hsame.1]
      omega
    · have hzero : s.promised k = 0 := hlen ▸ h.wellFormed.dialsAt_length _
      have hpos := h.positive
      change 0 + _ ≤ _
      omega
  · have := h.slots_selects hsel hc
    rw [if_neg hk]
    omega

end Capped

theorem concurrency_step {s s' : State} {a : Act} (hs : step s a = some s') :
    s'.concurrency = s.concurrency := by
  cases step_cases hs with
  | select mode pick draw t i hsel | loopHop l pick draw y t i hy hpc hsel => exact hsel.concurrency
  | finish d x hx hpc =>
    unfold State.finish
    split_ifs <;> rfl
  | close d x hx hpc =>
    unfold State.close
    split_ifs <;> rfl
  | _ => rfl

theorem capped_step {s s' : State} {a : Act} (h : Capped s) (ha : SlotsFree s a)
    (hs : step s a = some s') : Capped s' := by
  have hwf := wellFormed_step h.wellFormed hs
  cases step_cases hs with
  | tick ns => exact ⟨hwf, h.positive, h.slots⟩
  | connFails k => exact h.frame hwf rfl (clientsRel_modify .refl .refl) fun _ => rfl
  | select mode pick draw t k hsel => exact h.select hwf hsel ha
  | count d x hx hpc =>
    refine ⟨hwf, h.positive, fun i c hc => ?_⟩
    have hset := Capped.promised_count hx hpc i
    obtain ⟨c₀, hc₀, rfl⟩ := modify_client hc
    have hle := h.slots i c₀ hc₀
    change _ ≤ s.concurrency
    split_ifs at hset ⊢
    · change c₀.openUsage + 1 + _ ≤ _
      omega
    · omega
  | charge d x pc hx hpc =>
    have hmoves := DialPc.Moves.of_charge hpc
    refine h.frame hwf rfl (clientsRel_modify .refl .refl) ?_
    exact Capped.promised_setDial hx rfl hmoves.counted hmoves.kept
  | call d x pc hx hpc =>
    have hmoves := DialPc.Moves.of_call hpc
    refine h.frame hwf rfl (clientsRel_modify .refl .refl) ?_
    exact Capped.promised_setDial hx rfl hmoves.counted hmoves.kept
  | answer d x pc ok hx hpc =>
    have hmoves := DialPc.Moves.of_answer hpc
    refine h.frame hwf rfl (.refl .refl _) ?_
    exact Capped.promised_setDial hx rfl hmoves.counted hmoves.kept
  | finish d x hx hpc =>
    unfold State.finish at hwf ⊢
    split_ifs at hwf ⊢
    all_goals
      refine h.frame hwf rfl (.refl .refl _) ?_
      exact Capped.promised_setDial hx rfl (by simp [hpc]) (by simp)
  | close d x hx hpc =>
    unfold State.close at hwf ⊢
    split_ifs at hwf ⊢
    · refine h.frame hwf rfl (clientsRel_modify .refl fun c => ?_) ?_
      · change c.openUsage + -1 ≤ c.openUsage
        omega
      · exact Capped.promised_setDial hx rfl (by simp [hpc]) (by simp [hpc])
    · refine h.frame hwf rfl (.refl .refl _) ?_
      exact Capped.promised_setDial hx rfl (by simp [hpc]) (by simp [hpc])
  | loopStay | loopLeave | loopPost =>
    exact h.frame hwf rfl (clientsRel_modify .refl .refl) fun _ => rfl
  | loopHop l pick draw y t k hy hpc hsel =>
    refine ⟨hwf, hsel.concurrency ▸ h.positive, fun i c hc => ?_⟩
    have hprom : State.promised (t.setLoop l { client := k, pc := .ready }) i = s.promised i :=
      dialsAt_congr hsel.dials
    rw [hprom]
    change _ ≤ t.concurrency
    rw [hsel.concurrency]
    exact h.slots_selects hsel hc
  | loopEnd => exact h.frame hwf rfl (.refl .refl _) fun _ => rfl

/-- The concurrency cap: in every run of dials, closes and upload loops in which dials select only
while every offered client has a slot that is not promised, no client ever has more open uses than
the cap. -/
theorem openUsage_le_concurrency (cfg : XmuxConfig) (r : Range) (concurrency connections : ℤ)
    (hpos : 0 < concurrency) (as : List Act) (s : State)
    (hrun : run step (newXmuxManager cfg r concurrency connections) as = some s)
    (hfree : Along step SlotsFree (newXmuxManager cfg r concurrency connections) as) :
    ∀ c ∈ s.clients, c.openUsage ≤ concurrency := by
  have hinit : Capped (newXmuxManager cfg r concurrency connections) :=
    ⟨wellFormed_init .., hpos, by simp [newXmuxManager]⟩
  have hconc : Capped s ∧ s.concurrency = concurrency := by
    refine run_induction_along (I := fun s => Capped s ∧ s.concurrency = concurrency) ?_
      ⟨hinit, rfl⟩ hfree hrun
    intro s a s' h ha hs
    exact ⟨capped_step h.1 ha hs, (concurrency_step hs).trans h.2⟩
  intro c hc
  obtain ⟨i, hi⟩ := List.mem_iff_getElem?.mp hc
  have := hconc.1.slots i c hi
  omega

/-- Two dials, the second one after the first was counted. -/
def sequentialDials : List Act :=
  [.dialSelect .streamOne 0 unlimited, .dialCount 0, .dialSelect .streamOne 0 unlimited,
    .dialCount 1]

/-- The second dial gets a client of its own. -/
theorem openUsage_le_concurrency_sequential :
    ∃ s, run step (newXmuxManager {} ⟨1, 1⟩ 1 0) sequentialDials = some s ∧
      s.clients.length = 2 ∧ ∀ c ∈ s.clients, c.openUsage ≤ 1 := by
  refine ⟨_, rfl, rfl, ?_⟩
  exact openUsage_le_concurrency {} ⟨1, 1⟩ 1 0 (by decide) sequentialDials _ rfl (by decide)

/-- Two dials that select before either is counted. -/
def concurrentDials : List Act :=
  [.dialSelect .streamOne 0 unlimited, .dialSelect .streamOne 0 unlimited, .dialCount 0,
    .dialCount 1]

/-- Both get the one slot of the client. -/
theorem openUsage_exceeds_concurrency :
    ∃ s, run step (newXmuxManager {} ⟨1, 1⟩ 1 0) concurrentDials = some s ∧
      ∃ c ∈ s.clients, 1 < c.openUsage := by
  exact ⟨_, rfl, _, List.mem_cons_self, by decide⟩

end XHTTP.Xmux

import Gost.XHTTP.Xmux.Steps

/-!
# The request budget of the multiplexer

`LeftRequests` starts at the `HMaxRequestTimes` value drawn for the client, and every request is
meant to be paid for by a decrement. Two places do not keep to that. `DialContext` decrements
without looking at the result, so a client without budget still gets the request. `uploadLoop`
decrements the client it leaves, and posts over the next one without a decrement there.

`issued_le_maxRequests`: the budget is kept in every run whose dials decrement a positive
`LeftRequests`, and whose upload loops change to clients without a limit only.
-/

namespace XHTTP.Xmux

open TransitionSystem ListCount

/-- The step finds a budget: a dial decrements a positive `LeftRequests`, and an upload loop that
changes its client finds none with a limit. -/
def BudgetLeft (s : State) : Act → Prop
  | .dialCharge d =>
    ∀ x ∈ s.dials[d]?, ∀ c ∈ s.clients[x.client]?, c.maxRequests ≠ none → 0 < c.leftRequests
  | .loopHop _ _ draw =>
    draw.hMaxRequestTimes ≤ 0 ∧
      ∀ i ∈ s.xmuxClients, ∀ c ∈ s.clients[i]?, c.maxRequests = none
  | _ => True

instance (s : State) (a : Act) : Decidable (BudgetLeft s a) := by
  unfold BudgetLeft
  split <;> infer_instance

/-! ## Paid requests -/

/-- The dial has paid for a request that it has not issued. -/
def Dial.Paid (x : Dial) : Prop := x.pc = .charged ∨ x.pc = .chargedUp

instance : DecidablePred Dial.Paid := fun _ => inferInstanceAs (Decidable (_ ∨ _))

/-- The number of requests over the client `i` that are about to be issued. -/
def State.paid (s : State) (i : ℕ) : ℕ :=
  s.dialsAt Dial.Paid i + s.loopsAt (·.pc = .ready) i

/-- With `n` more requests to come, the client stays within its budget, and so it does if the rest
of the budget is used up. -/
def Client.Within (c : Client) (n : ℕ) : Prop :=
  ∀ m ∈ c.maxRequests, (c.issued + n : ℤ) ≤ m ∧ c.issued + n + c.leftRequests ≤ m

/-- Nothing was paid or issued. -/
def Client.SameBudget (c c' : Client) : Prop :=
  c'.leftRequests = c.leftRequests ∧ c'.issued = c.issued ∧ c'.maxRequests = c.maxRequests

theorem Client.SameBudget.refl (c : Client) : c.SameBudget c := ⟨rfl, rfl, rfl⟩

namespace Client.Within

variable {c c' : Client} {n : ℕ}

theorem congr (h : c.Within n) (hc : c.SameBudget c') : c'.Within n := by
  obtain ⟨hleft, hissued, hmax⟩ := hc
  unfold Client.Within
  rw [hleft, hissued, hmax]
  exact h

/-- A decrement of what is left pays for one request. -/
theorem pay (h : c.Within n) (hleft : c.maxRequests ≠ none → 0 < c.leftRequests) :
    { c with leftRequests := c.leftRequests - 1 }.Within (n + 1) := by
  intro m hm
  have hpos := hleft (Option.ne_none_iff_exists'.mpr ⟨m, hm⟩)
  have := h m hm
  push_cast
  omega

/-- A decrement may also pay for nothing. -/
theorem waste (h : c.Within n) : { c with leftRequests := c.leftRequests - 1 }.Within n := by
  intro m hm
  have := h m hm
  dsimp only
  omega

/-- A paid request is issued. -/
theorem issue (h : c.Within (n + 1)) : { c with issued := c.issued + 1 }.Within n := by
  intro m hm
  have := h m hm
  push_cast at this ⊢
  omega

end Client.Within

theorem freshClient_within (s : State) (draw : Draw) : (s.freshClient draw).Within 0 := by
  intro m hm
  simp only [State.freshClient] at hm ⊢
  split_ifs at hm ⊢ with hpos
  · rw [Option.mem_some_iff] at hm
    omega
  · cases hm

/-! ## Steps -/

/-- Every client stays within its budget. -/
structure Budgeted (s : State) : Prop where
  wellFormed : WellFormed s
  within : ∀ (i : ℕ) (c : Client), s.clients[i]? = some c → c.Within (s.paid i)

theorem budgeted_init (cfg : XmuxConfig) (r : Range) (concurrency connections : ℤ) :
    Budgeted (newXmuxManager cfg r concurrency connections) :=
  ⟨wellFormed_init .., by simp [newXmuxManager]⟩

variable {k : ℕ}

section Paid

variable {s s' : State} {i : ℕ}

theorem paid_dial {d : ℕ} {x x' : Dial} (hx : s.dials[d]? = some x)
    (hs : s'.dials = s.dials.set d x')
    (hloops : s'.loopsAt (·.pc = .ready) i = s.loopsAt (·.pc = .ready) i) :
    s'.paid i + (if x.client = i ∧ x.Paid then 1 else 0) =
      s.paid i + (if x'.client = i ∧ x'.Paid then 1 else 0) := by
  have h := @dialsAt_set s s' Dial.Paid _ i x d x' hx hs
  rw [State.paid, State.paid, hloops]
  omega

theorem paid_loop {l : ℕ} {y y' : UploadLoop} (hy : s.loops[l]? = some y)
    (hs : s'.loops = s.loops.set l y') (hdials : s'.dials = s.dials) :
    s'.paid i + (if y.client = i ∧ y.pc = .ready then 1 else 0) =
      s.paid i + (if y'.client = i ∧ y'.pc = .ready then 1 else 0) := by
  have h := @loopsAt_set s s' (·.pc = .ready) _ i y l y' hy hs
  rw [State.paid, State.paid, dialsAt_congr hdials]
  omega

/-- A new dial has not paid. -/
theorem paid_select {t : State} {draw : Draw} {mode : Mode} (hsel : Selects s draw t k) :
    (t.addDial mode k).paid i = s.paid i := by
  have hnew : (t.addDial mode k).dials = s.dials ++ [⟨mode, k, .selected, 0⟩] := by
    rw [State.addDial, hsel.dials]
  have hdials := @dialsAt_append s (t.addDial mode k) Dial.Paid _ i _ hnew
  rw [if_neg (by simp [Dial.Paid]), Nat.add_zero] at hdials
  have hloops : (t.addDial mode k).loopsAt (·.pc = .ready) i = s.loopsAt (·.pc = .ready) i :=
    loopsAt_congr hsel.loops
  rw [State.paid, hdials, hloops, State.paid]

/-- A dial moves on without paying or issuing. -/
theorem paid_dial_unpaid {d : ℕ} {x x' : Dial} (hx : s.dials[d]? = some x)
    (hs : s'.dials = s.dials.set d x')
    (hloops : s'.loopsAt (·.pc = .ready) i = s.loopsAt (·.pc = .ready) i) (hpc : ¬x.Paid)
    (hpc' : ¬x'.Paid) : s'.paid i = s.paid i := by
  have h := paid_dial hx hs hloops
  rwa [if_neg (fun h => hpc h.2), if_neg (fun h => hpc' h.2)] at h

/-- An upload loop moves on without paying or issuing. -/
theorem paid_loop_unpaid {l : ℕ} {y y' : UploadLoop} (hy : s.loops[l]? = some y)
    (hs : s'.loops = s.loops.set l y') (hdials : s'.dials = s.dials) (hpc : y.pc ≠ .ready)
    (hpc' : y'.pc ≠ .ready) : s'.paid i = s.paid i := by
  have h := @paid_loop s s' i l y y' hy hs hdials
  rwa [if_neg (fun h => hpc h.2), if_neg (fun h => hpc' h.2)] at h

end Paid

namespace Budgeted

variable {s s' : State}

/-- A step that neither pays nor issues. -/
theorem frame (h : Budgeted s) (hwf : WellFormed s')
    (hclients : ClientsRel Client.SameBudget s.clients s'.clients)
    (hpaid : ∀ i, s'.paid i = s.paid i) : Budgeted s' := by
  refine ⟨hwf, fun i c hc => ?_⟩
  obtain ⟨c₀, hc₀, hsame⟩ := hclients i c hc
  rw [hpaid]
  exact (h.within i c₀ hc₀).congr hsame

/-- A step that changes the client `k`, by `f`, and its paid requests. -/
theorem update (h : Budgeted s) (hwf : WellFormed s') {f : Client → Client}
    (hclients : s'.clients = s.clients.modify k f) (hpaid : ∀ i, i ≠ k → s'.paid i = s.paid i)
    (hf : ∀ c, s.clients[k]? = some c → c.Within (s.paid k) → (f c).Within (s'.paid k)) :
    Budgeted s' := by
  refine ⟨hwf, fun i c hc => ?_⟩
  rw [hclients] at hc
  obtain ⟨c₀, hc₀, rfl⟩ := modify_client hc
  have hold := h.within i c₀ hc₀
  split_ifs with hk
  · subst hk
    exact hf c₀ hc₀ hold
  · rw [hpaid i (Ne.symm hk)]
    exact hold

/-- A step that pays for a request over the client `k`, which has something left. -/
theorem pay (h : Budgeted s) (hwf : WellFormed s') (hclients : s'.clients = (s.charge k).clients)
    (hpaid : ∀ i, s'.paid i = s.paid i + if k = i then 1 else 0)
    (hleft : ∀ c, s.clients[k]? = some c → c.maxRequests ≠ none → 0 < c.leftRequests) :
    Budgeted s' := by
  refine h.update hwf hclients (fun i hi => ?_) fun c hc hold => ?_
  · rw [hpaid, if_neg hi.symm, Nat.add_zero]
  · rw [hpaid, if_pos rfl]
    exact hold.pay (hleft c hc)

/-- A step that issues a paid request over the client `k`. -/
theorem issue (h : Budgeted s) (hwf : WellFormed s') (hclients : s'.clients = (s.issue k).clients)
    (hpaid : ∀ i, s'.paid i + (if k = i then 1 else 0) = s.paid i) : Budgeted s' := by
  refine h.update hwf hclients (fun i hi => ?_) fun c hc hold => ?_
  · rw [← hpaid i, if_neg hi.symm, Nat.add_zero]
  · rw [← hpaid k, if_pos rfl] at hold
    exact hold.issue

/-- An upload loop changes to a client without a limit. -/
theorem hop (h : Budgeted s) {t : State} {draw : Draw} {l : ℕ} {y : UploadLoop}
    (hwf : WellFormed (t.setLoop l { client := k, pc := .ready })) (hy : s.loops[l]? = some y)
    (hpc : y.pc = .hopping) (hsel : Selects s draw t k) (hdraw : draw.hMaxRequestTimes ≤ 0)
    (hpool : ∀ i ∈ s.xmuxClients, ∀ c ∈ s.clients[i]?, c.maxRequests = none) :
    Budgeted (t.setLoop l { client := k, pc := .ready }) := by
  refine ⟨hwf, fun i c hc => ?_⟩
  by_cases hi : i = k
  · intro m hm
    rcases hsel.client hc with ⟨c₀, hc₀, hsame, hoffer⟩ | ⟨-, -, rfl⟩
    · rw [hsame.2.2.2, hpool k (mem_xmuxClients_of_mem_offered (hoffer hi)) c₀ (hi ▸ hc₀)] at hm
      cases hm
    · simp only [State.freshClient, if_neg (not_lt.mpr hdraw)] at hm
      cases hm
  · have hpaid : (t.setLoop l { client := k, pc := .ready }).paid i = s.paid i := by
      have := @paid_loop s (t.setLoop l { client := k, pc := .ready }) i l y
        { client := k, pc := .ready } hy (by rw [State.setLoop, hsel.loops]) hsel.dials
      simpa [hpc, Ne.symm hi] using this
    rw [hpaid]
    rcases hsel.client hc with ⟨c₀, hc₀, hsame, -⟩ | ⟨hik, -, -⟩
    · exact (h.within i c₀ hc₀).congr hsame.2
    · exact absurd hik hi

end Budgeted

theorem budgeted_step {s s' : State} {a : Act} (h : Budgeted s) (ha : BudgetLeft s a)
    (hs : step s a = some s') : Budgeted s' := by
  have hwf := wellFormed_step h.wellFormed hs
  cases step_cases hs with
  | tick ns => exact h.frame hwf (.refl .refl _) fun _ => rfl
  | connFails k => exact h.frame hwf (clientsRel_modify .refl .refl) fun _ => rfl
  | select mode pick draw t k hsel =>
    refine ⟨hwf, fun i c hc => ?_⟩
    rw [paid_select hsel]
    rcases hsel.client hc with ⟨c₀, hc₀, hsame, -⟩ | ⟨rfl, hlen, rfl⟩
    · exact (h.within i c₀ hc₀).congr hsame.2
    · rw [hlen, State.paid, h.wellFormed.dialsAt_length, h.wellFormed.loopsAt_length]
      exact freshClient_within s draw
  | count d x hx hpc =>
    refine h.frame hwf (clientsRel_modify .refl .refl) fun i => ?_
    exact paid_dial_unpaid hx rfl rfl (by simp [Dial.Paid, hpc]) (by simp [Dial.Paid])
  | charge d x pc hx hpc =>
    have hcases := DialPc.charge_cases hpc
    have hbefore : ¬x.Paid := by rcases hcases with h | h <;> simp [Dial.Paid, h.1]
    have hafter : { x with pc := pc }.Paid := by rcases hcases with h | h <;> simp [Dial.Paid, h.2]
    refine h.pay hwf rfl (fun i => ?_) (ha x hx)
    have := @paid_dial s ((s.charge x.client).setDial d { x with pc := pc }) i d x _ hx rfl rfl
    simpa only [hbefore, hafter, and_true, and_false, if_false, Nat.add_zero] using this
  | call d x pc hx hpc =>
    have hcases := DialPc.call_cases hpc
    have hbefore : x.Paid := by rcases hcases with h | h <;> simp [Dial.Paid, h.1]
    have hafter : ¬{ x with pc := pc }.Paid := by
      rcases hcases with h | h <;> simp [Dial.Paid, h.2]
    refine h.issue hwf rfl fun i => ?_
    have := @paid_dial s ((s.issue x.client).setDial d { x with pc := pc }) i d x _ hx rfl rfl
    simpa only [hbefore, hafter, and_true, and_false, if_false, Nat.add_zero] using this
  | answer d x pc ok hx hpc =>
    obtain ⟨hold, hnew⟩ := DialPc.answer_cases hpc
    refine h.frame hwf (.refl .refl _) fun i => paid_dial_unpaid hx rfl rfl ?_ ?_
    · rcases hold with h | h <;> simp [Dial.Paid, h]
    · rcases hnew with ⟨-, h | h⟩ | ⟨-, h⟩ <;> simp [Dial.Paid, h]
  | finish d x hx hpc =>
    unfold State.finish at hwf ⊢
    split_ifs at hwf ⊢
    · -- the new upload loop is idle
      refine h.frame hwf (.refl .refl _) fun i => ?_
      exact paid_dial_unpaid hx rfl rfl (by simp [Dial.Paid, hpc]) (by simp [Dial.Paid])
    · refine h.frame hwf (.refl .refl _) fun i => ?_
      refine paid_dial_unpaid hx rfl ?_ (by simp [Dial.Paid, hpc]) (by simp [Dial.Paid])
      rw [loopsAt_append rfl, if_neg (by simp), Nat.add_zero]
  | close d x hx hpc =>
    have hpaid : ∀ i, (s.close d x).paid i = s.paid i := fun i =>
      paid_dial_unpaid hx (State.close_dials s d x) (loopsAt_congr (State.close_loops s d x))
        (by simp [Dial.Paid, hpc]) (by simp [Dial.Paid, hpc])
    refine h.frame hwf ?_ hpaid
    unfold State.close
    split_ifs
    · exact clientsRel_modify .refl fun c => ⟨rfl, rfl, rfl⟩
    · exact .refl .refl _
  | loopStay l y hy hpc hex =>
    refine h.pay hwf rfl (fun i => ?_) fun c hc _ => ?_
    · have := @paid_loop s ((s.charge y.client).setLoop l { y with pc := .ready }) i l y _ hy rfl
        rfl
      simpa [hpc] using this
    · -- the loop saw that something is left after its decrement
      by_contra hleft
      exact hex ⟨c, hc, .inl (by omega)⟩
  | loopLeave l y hy hpc hex =>
    have hpaid : ∀ i, ((s.charge y.client).setLoop l { y with pc := .hopping }).paid i =
        s.paid i := fun i => paid_loop_unpaid hy rfl rfl (by simp [hpc]) (by simp)
    refine h.update hwf rfl (fun i _ => hpaid i) fun c hc hold => ?_
    rw [hpaid]
    exact hold.waste
  | loopHop l pick draw y t k hy hpc hsel => exact h.hop hwf hy hpc hsel ha.1 ha.2
  | loopPost l ok y hy hpc =>
    refine h.issue hwf rfl fun i => ?_
    have := @paid_loop s ((s.issue y.client).setLoop l
      { y with pc := if ok then .idle else .done }) i l y _ hy rfl rfl
    cases ok <;> simpa [hpc] using this
  | loopEnd l y hy hpc =>
    refine h.frame hwf (.refl .refl _) fun i => ?_
    exact paid_loop_unpaid hy rfl rfl (by simp [hpc]) (by simp)

/-- The request budget: in every run whose dials decrement a positive `LeftRequests`, and whose
upload loops change to clients without a limit only, no client with a positive `HMaxRequestTimes`
value has more requests issued over it than that. -/
theorem issued_le_maxRequests (cfg : XmuxConfig) (r : Range) (concurrency connections : ℤ)
    (as : List Act) (s : State)
    (hrun : run step (newXmuxManager cfg r concurrency connections) as = some s)
    (hleft : Along step BudgetLeft (newXmuxManager cfg r concurrency connections) as) :
    ∀ c ∈ s.clients, ∀ m ∈ c.maxRequests, (c.issued : ℤ) ≤ m := by
  have h : Budgeted s := run_induction_along (fun _ _ _ h ha hs => budgeted_step h ha hs)
    (budgeted_init ..) hleft hrun
  intro c hc m hm
  obtain ⟨i, hi⟩ := List.mem_iff_getElem?.mp hc
  have := (h.within i c hi m hm).1
  omega

/-- Clients serve two requests each. -/
def twoRequests : XmuxConfig := { hMaxRequestTimes := some ⟨2, 2⟩ }

/-- Two stream-one dials and a third one after them. -/
def threeDials : List Act :=
  [.dialSelect .streamOne 0 ⟨0, 2, 0⟩, .dialCount 0, .dialCharge 0, .dialOpen 0,
    .dialSelect .streamOne 0 ⟨0, 2, 0⟩, .dialCount 1, .dialCharge 1, .dialOpen 1,
    .dialSelect .streamOne 0 ⟨0, 2, 0⟩, .dialCount 2, .dialCharge 2, .dialOpen 2]

/-- The third dial gets a new client. -/
theorem issued_le_maxRequests_threeDials :
    ∃ s, run step (newXmuxManager twoRequests ⟨1, 1⟩ 0 0) threeDials = some s ∧
      s.clients.map (fun c => (c.maxRequests, c.issued)) = [(some 2, 2), (some 2, 1)] ∧
      ∀ c ∈ s.clients, ∀ m ∈ c.maxRequests, (c.issued : ℤ) ≤ m := by
  refine ⟨_, rfl, by decide, ?_⟩
  exact issued_le_maxRequests twoRequests ⟨1, 1⟩ 0 0 threeDials _ rfl (by decide)

/-- A stream-one dial and a stream-up dial, over one client. -/
def streamUpDial : List Act :=
  [.dialSelect .streamOne 0 ⟨0, 2, 0⟩, .dialCount 0, .dialCharge 0, .dialOpen 0,
    .dialSelect .streamUp 0 ⟨0, 2, 0⟩, .dialCount 1, .dialCharge 1, .dialOpen 1,
    .dialOpened 1 true, .dialCharge 1, .dialOpen 1]

/-- The uplink of the stream-up dial is the third request over the client. -/
theorem streamUpDial_exceeds_maxRequests :
    ∃ s, run step (newXmuxManager twoRequests ⟨1, 1⟩ 0 0) streamUpDial = some s ∧
      ∃ c ∈ s.clients, ∃ m ∈ c.maxRequests, m < (c.issued : ℤ) := by
  exact ⟨_, rfl, _, List.mem_cons_self, 2, by decide, by decide⟩

end XHTTP.Xmux

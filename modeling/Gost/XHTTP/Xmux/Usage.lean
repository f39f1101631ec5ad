import Gost.XHTTP.Xmux.Steps

/-!
# Usage accounting of the multiplexer

`DialContext` adds to `OpenUsage` before its fallible steps, and takes its use back only through
the `onClose` callback of the connection. The error returns drop the connection without closing
it, so the use of a failed dial is never released.

`usage_accounting`: in a state without dials in progress, `OpenUsage` of every client is the number
of its open connections exactly if no dial of the run took an error return.
-/

namespace XHTTP.Xmux

open List ListCount TransitionSystem

/-- The connection was returned to the caller and is not closed. -/
def Dial.IsOpen (x : Dial) : Prop := x.pc = .returned ∧ x.closes = 0

instance : DecidablePred Dial.IsOpen := fun _ => inferInstanceAs (Decidable (_ ∧ _))

/-- The dial was counted and not released. -/
def Dial.Holds (x : Dial) : Prop := x.pc ≠ .selected ∧ (x.pc = .returned → x.closes = 0)

instance : DecidablePred Dial.Holds := fun _ => inferInstanceAs (Decidable (_ ∧ _))

/-- The number of open connections dialed through the client `i`. -/
def State.openConns (s : State) (i : ℕ) : ℕ := s.dialsAt Dial.IsOpen i

/-- The step is not an error return of `DialContext`. -/
def NoErrorReturn (s : State) : Act → Prop
  | .dialOpened _ ok => ok = true
  | .dialFinish _ => 0 < s.scMaxEachPostBytes.lo
  | _ => True

instance (s : State) (a : Act) : Decidable (NoErrorReturn s a) := by
  unfold NoErrorReturn
  split <;> infer_instance

/-! ## Every use belongs to a dial -/

/-- `OpenUsage` counts the dials that were counted and not released. -/
structure UsageCounted (s : State) : Prop where
  wellFormed : WellFormed s
  unreleased : ∀ x ∈ s.dials, x.pc ≠ .returned → x.closes = 0
  usage : ∀ (i : ℕ) (c : Client), s.clients[i]? = some c →
    c.openUsage = (s.dialsAt Dial.Holds i : ℤ)

theorem usageCounted_init (cfg : XmuxConfig) (r : Range) (concurrency connections : ℤ) :
    UsageCounted (newXmuxManager cfg r concurrency connections) :=
  ⟨wellFormed_init .., by simp [newXmuxManager], by simp [newXmuxManager]⟩

/-- The client is used as before. -/
def UsageEq (c c' : Client) : Prop := c'.openUsage = c.openUsage

theorem UsageEq.refl (c : Client) : UsageEq c c := Eq.refl c.openUsage

namespace UsageCounted

variable {s s' : State} {d : ℕ} {x : Dial}

/-- A dial that holds its use moves on and keeps it. -/
theorem move (h : UsageCounted s) (hwf : WellFormed s') {x' : Dial} (hx : s.dials[d]? = some x)
    (hs : s'.dials = s.dials.set d x') (hclient : x'.client = x.client)
    (hcloses : x'.closes = x.closes) (hpc : x.pc.Moves x'.pc)
    (husage : ClientsRel UsageEq s.clients s'.clients) : UsageCounted s' := by
  have hzero : x.closes = 0 := h.unreleased x (mem_of_getElem? hx) hpc.unreturned
  have hholds : x.Holds := ⟨hpc.counted, fun _ => hzero⟩
  have hholds' : x'.Holds := ⟨hpc.kept, fun _ => hcloses.trans hzero⟩
  refine ⟨hwf, hs ▸ forall_mem_set h.unreleased fun _ => hcloses.trans hzero, fun i c hc => ?_⟩
  obtain ⟨c₀, hc₀, heq⟩ := husage i c hc
  have hset := @dialsAt_set s s' Dial.Holds _ i x d x' hx hs
  simp only [hholds, hholds', and_true, hclient] at hset
  rw [heq, h.usage i c₀ hc₀]
  omega

/-- Dials and usage counters stay as they are. -/
theorem frame (h : UsageCounted s) (hwf : WellFormed s') (hdials : s'.dials = s.dials)
    (husage : ClientsRel UsageEq s.clients s'.clients) : UsageCounted s' := by
  refine ⟨hwf, hdials ▸ h.unreleased, fun i c hc => ?_⟩
  obtain ⟨c₀, hc₀, heq⟩ := husage i c hc
  rw [heq, h.usage i c₀ hc₀, dialsAt_congr hdials]

/-- The first `Close` gives up the use of a connection. -/
theorem holds_close (hx : s.dials[d]? = some x) (hpc : x.pc = .returned) (i : ℕ) :
    (s.close d x).dialsAt Dial.Holds i + (if x.client = i ∧ x.closes = 0 then 1 else 0) =
      s.dialsAt Dial.Holds i := by
  have := @dialsAt_set s (s.close d x) Dial.Holds _ i x d _ hx (State.close_dials s d x)
  simpa [Dial.Holds, hpc] using this

/-- Selection changes no use: a new client has none. -/
theorem usage_selects (h : UsageCounted s) {t : State} {draw : Draw} {k i : ℕ} {c : Client}
    (hsel : Selects s draw t k) (hc : t.clients[i]? = some c) :
    c.openUsage = (s.dialsAt Dial.Holds i : ℤ) := by
  rcases hsel.client hc with ⟨c₀, hc₀, hsame, -⟩ | ⟨rfl, hlen, rfl⟩
  · rw [hsame.1, h.usage i c₀ hc₀]
  · rw [hlen, h.wellFormed.dialsAt_length]
    rfl

/-- A dial is counted. -/
theorem count (h : UsageCounted s)
    (hwf : WellFormed ((s.addUsage x.client 1).setDial d { x with pc := .counted }))
    (hx : s.dials[d]? = some x) (hpc : x.pc = .selected) :
    UsageCounted ((s.addUsage x.client 1).setDial d { x with pc := .counted }) := by
  have hzero : x.closes = 0 := h.unreleased x (mem_of_getElem? hx) (by simp [hpc])
  refine ⟨hwf, forall_mem_set h.unreleased fun _ => hzero, fun i c hc => ?_⟩
  have hset := @dialsAt_set s ((s.addUsage x.client 1).setDial d { x with pc := .counted })
    Dial.Holds _ i x d _ hx rfl
  have hbefore : ¬x.Holds := fun hx => hx.1 hpc
  have hafter : { x with pc := .counted }.Holds := ⟨by simp, by simp⟩
  simp only [hbefore, hafter, and_true, and_false, if_false] at hset
  obtain ⟨c₀, hc₀, rfl⟩ := modify_client hc
  have hold := h.usage i c₀ hc₀
  split_ifs at hset ⊢
  · change c₀.openUsage + 1 = _
    omega
  · omega

/-- A connection is closed, for the first time or again. -/
theorem close (h : UsageCounted s) (hwf : WellFormed (s.close d x)) (hx : s.dials[d]? = some x)
    (hpc : x.pc = .returned) : UsageCounted (s.close d x) := by
  refine ⟨hwf, ?_, fun i c hc => ?_⟩
  · rw [State.close_dials]
    exact forall_mem_set h.unreleased fun hne => absurd hpc hne
  · have hset := holds_close hx hpc i
    by_cases hclosed : x.closes = 0
    · rw [State.close, if_pos hclosed] at hc
      obtain ⟨c₀, hc₀, rfl⟩ := modify_client hc
      have hold := h.usage i c₀ hc₀
      simp only [and_iff_left hclosed] at hset
      split_ifs at hset ⊢
      · change c₀.openUsage + -1 = _
        omega
      · omega
    · rw [State.close, if_neg hclosed] at hc
      rw [if_neg (fun hx => hclosed hx.2)] at hset
      rw [h.usage i c hc, ← hset, Nat.add_zero]

end UsageCounted

variable {s s' : State} {a : Act}

theorem usageCounted_step (h : UsageCounted s) (hs : step s a = some s') : UsageCounted s' := by
  have hwf := wellFormed_step h.wellFormed hs
  cases step_cases hs with
  | tick ns => exact ⟨hwf, h.unreleased, h.usage⟩
  | connFails k => exact h.frame hwf rfl (clientsRel_modify .refl .refl)
  | select mode pick draw t k hsel =>
    have hnew : (t.addDial mode k).dials = s.dials ++ [⟨mode, k, .selected, 0⟩] := by
      rw [State.addDial, hsel.dials]
    refine ⟨hwf, ?_, fun i c hc => ?_⟩
    · rw [hnew]
      exact forall_mem_append.mpr ⟨h.unreleased, forall_mem_singleton.mpr fun _ => rfl⟩
    · -- the new dial is not counted yet
      have hcount : (t.addDial mode k).dialsAt Dial.Holds i = s.dialsAt Dial.Holds i := by
        have := @dialsAt_append s (t.addDial mode k) Dial.Holds _ i _ hnew
        simpa [Dial.Holds] using this
      rw [hcount]
      exact h.usage_selects hsel hc
  | count d x hx hpc => exact h.count hwf hx hpc
  | charge d x pc hx hpc =>
    exact h.move hwf hx rfl rfl rfl (.of_charge hpc) (clientsRel_modify .refl .refl)
  | call d x pc hx hpc =>
    exact h.move hwf hx rfl rfl rfl (.of_call hpc) (clientsRel_modify .refl .refl)
  | answer d x pc ok hx hpc => exact h.move hwf hx rfl rfl rfl (.of_answer hpc) (.refl .refl _)
  | finish d x hx hpc =>
    unfold State.finish at hwf ⊢
    have hmoves : x.pc.Moves .failed ∧ x.pc.Moves .returned := by
      constructor <;> constructor <;> simp [hpc]
    split_ifs at hwf ⊢
    · exact h.move hwf hx rfl rfl rfl hmoves.1 (.refl .refl _)
    · exact h.move hwf hx rfl rfl rfl hmoves.2 (.refl .refl _)
  | close d x hx hpc => exact h.close hwf hx hpc
  | loopStay | loopLeave | loopPost =>
    exact h.frame hwf rfl (clientsRel_modify .refl .refl)
  | loopHop l pick draw y t k hy hpc hsel =>
    refine ⟨hwf, fun z hz => h.unreleased z (hsel.dials ▸ hz), fun i c hc => ?_⟩
    have hcount : (t.setLoop l { client := k, pc := .ready }).dialsAt Dial.Holds i =
        s.dialsAt Dial.Holds i := dialsAt_congr hsel.dials
    rw [hcount]
    exact h.usage_selects hsel hc
  | loopEnd => exact h.frame hwf rfl (.refl .refl _)

/-! ## Failed dials -/

/-- Some dial returned an error. -/
def State.HasFailed (s : State) : Prop := ∃ x ∈ s.dials, x.pc = .failed

/-- A step that is not an error return makes no dial fail. -/
theorem not_hasFailed_step (h : ¬s.HasFailed) (ha : NoErrorReturn s a) (hs : step s a = some s') :
    ¬s'.HasFailed := by
  -- the dial that moves is not at an error return
  have hmove {d : ℕ} {x' : Dial} {t : State} (ht : t.dials = s.dials.set d x')
      (hpc : x'.pc ≠ .failed) : ¬t.HasFailed := by
    rintro ⟨z, hz, hfail⟩
    exact forall_mem_set (fun z hz hfail => h ⟨z, hz, hfail⟩) hpc z (ht ▸ hz) hfail
  cases step_cases hs with
  | tick | connFails => exact h
  | select mode pick draw t k hsel =>
    rintro ⟨z, hz, hfail⟩
    rcases mem_append.mp hz with hz | hz
    · exact h ⟨z, hsel.dials ▸ hz, hfail⟩
    · rw [mem_singleton.mp hz] at hfail
      cases hfail
  | count d x hx hpc => exact hmove rfl (by simp)
  | charge d x pc hx hpc =>
    exact hmove rfl (by rcases DialPc.charge_cases hpc with h | h <;> simp [h.2])
  | call d x pc hx hpc =>
    exact hmove rfl (by rcases DialPc.call_cases hpc with h | h <;> simp [h.2])
  | answer d x pc ok hx hpc =>
    refine hmove rfl ?_
    rcases (DialPc.answer_cases hpc).2 with ⟨-, h | h⟩ | ⟨hok, -⟩
    · simp [h]
    · simp [h]
    · exact absurd (hok.symm.trans ha) (by decide)
  | finish d x hx hpc =>
    rw [State.finish, if_neg (not_le.mpr ha)]
    exact hmove rfl (by simp)
  | close d x hx hpc => exact hmove (State.close_dials s d x) (by simp [hpc])
  | loopStay | loopLeave | loopPost | loopEnd => exact h
  | loopHop l pick draw y t k hy hpc hsel =>
    rintro ⟨z, hz, hfail⟩
    exact h ⟨z, hsel.dials ▸ hz, hfail⟩

/-- A failed dial stays failed, and an error return leaves one. -/
theorem hasFailed_step (h : s.HasFailed ∨ ¬NoErrorReturn s a) (hs : step s a = some s') :
    s'.HasFailed := by
  -- a dial that moves was not at an error return
  have hmove {d : ℕ} {x x' : Dial} {t : State} (hfailed : s.HasFailed) (hx : s.dials[d]? = some x)
      (ht : t.dials = s.dials.set d x') (hpc : x.pc ≠ .failed) : t.HasFailed := by
    unfold State.HasFailed
    rw [ht]
    exact exists_mem_set hx (fun h => absurd h hpc) hfailed
  have hbefore (hret : NoErrorReturn s a) : s.HasFailed := h.resolve_right (not_not_intro hret)
  cases step_cases hs with
  | tick | connFails | loopStay | loopLeave | loopPost | loopEnd => exact hbefore trivial
  | select mode pick draw t k hsel =>
    obtain ⟨z, hz, hfail⟩ := hbefore trivial
    exact ⟨z, mem_append_left _ (hsel.dials.symm ▸ hz), hfail⟩
  | count d x hx hpc => exact hmove (hbefore trivial) hx rfl (by simp [hpc])
  | charge d x pc hx hpc =>
    exact hmove (hbefore trivial) hx rfl (DialPc.Moves.of_charge hpc).unfailed
  | call d x pc hx hpc =>
    exact hmove (hbefore trivial) hx rfl (DialPc.Moves.of_call hpc).unfailed
  | answer d x pc ok hx hpc =>
    rcases h with h | h
    · exact hmove h hx rfl (DialPc.Moves.of_answer hpc).unfailed
    · rcases (DialPc.answer_cases hpc).2 with ⟨hok, -⟩ | ⟨-, hpc'⟩
      · exact absurd hok h
      · exact ⟨_, mem_set_self hx, hpc'⟩
  | finish d x hx hpc =>
    unfold State.finish
    split_ifs with hlo
    · exact ⟨_, mem_set_self hx, rfl⟩
    · exact hmove (hbefore (not_le.mp hlo)) hx rfl (by simp [hpc])
  | close d x hx hpc =>
    exact hmove (hbefore trivial) hx (State.close_dials s d x) (by simp [hpc])
  | loopHop l pick draw y t k hy hpc hsel =>
    obtain ⟨z, hz, hfail⟩ := hbefore trivial
    exact ⟨z, hsel.dials.symm ▸ hz, hfail⟩

/-- A run has failed dials exactly if it has error returns. -/
theorem not_hasFailed_iff {as : List Act} (h : ¬s.HasFailed) (hrun : run step s as = some s') :
    ¬s'.HasFailed ↔ Along step NoErrorReturn s as := by
  constructor
  · intro h'
    refine (along_of_run (I := fun s => ¬s.HasFailed) ?_ hrun h').2
    intro s a s' hs hs'
    constructor
    · by_contra hfail
      exact hs' (hasFailed_step (.inl hfail) hs)
    · by_contra hret
      exact hs' (hasFailed_step (.inr hret) hs)
  · intro hret
    exact run_induction_along (I := fun s => ¬s.HasFailed)
      (fun _ _ _ h ha hs => not_hasFailed_step h ha hs) h hret hrun

/-! ## Accounting -/

/-- Without dials in progress, a use is held by an open connection or by a failed dial. -/
theorem dialsAt_holds (hidle : ∀ x ∈ s.dials, ¬x.pc.InProgress) (i : ℕ) :
    s.dialsAt Dial.Holds i = s.openConns i + s.dialsAt (·.pc = .failed) i := by
  refine countP_eq_add fun x hx => ?_
  have hpc : x.pc = .returned ∨ x.pc = .failed := by
    have := hidle x hx
    cases hpc : x.pc <;> simp_all [DialPc.InProgress]
  simp only [decide_eq_true_eq, Dial.Holds, Dial.IsOpen]
  rcases hpc with hpc | hpc <;> simp [hpc]

/-- Usage accounting: in every state without dials in progress, `OpenUsage` of every client is the
number of connections dialed through it that were returned and are not closed, exactly if no dial
of the run ended in an error return. -/
theorem usage_accounting (cfg : XmuxConfig) (r : Range) (concurrency connections : ℤ)
    (as : List Act) (s : State)
    (hrun : run step (newXmuxManager cfg r concurrency connections) as = some s)
    (hidle : ∀ x ∈ s.dials, ¬x.pc.InProgress) :
    (∀ (i : ℕ) (c : Client), s.clients[i]? = some c → c.openUsage = (s.openConns i : ℤ)) ↔
      Along step NoErrorReturn (newXmuxManager cfg r concurrency connections) as := by
  have h : UsageCounted s := run_induction (fun _ _ _ h hs => usageCounted_step h hs)
    (usageCounted_init ..) hrun
  rw [← not_hasFailed_iff (by simp [State.HasFailed, newXmuxManager]) hrun]
  constructor
  · -- a failed dial holds a use of its client
    rintro haccount ⟨x, hx, hfail⟩
    have hlt := h.wellFormed.dials x hx
    have hc := getElem?_eq_getElem hlt
    have husage := h.usage _ _ hc
    have hpos : 0 < s.dialsAt (·.pc = .failed) x.client :=
      countP_pos_iff.mpr ⟨x, hx, by simp [hfail]⟩
    rw [haccount _ _ hc, dialsAt_holds hidle] at husage
    omega
  · intro hnone i c hc
    have hzero : s.dialsAt (·.pc = .failed) i = 0 := by
      refine countP_eq_zero.mpr fun x hx => ?_
      rw [decide_eq_true_eq]
      exact fun hfail => hnone ⟨x, hx, hfail.2⟩
    rw [h.usage i c hc, dialsAt_holds hidle, hzero, Nat.add_zero]

/-- Two dials over one client, one of which is closed twice. -/
def dialAndCloseTwice : List Act :=
  [.dialSelect .streamOne 0 unlimited, .dialCount 0, .dialCharge 0, .dialOpen 0, .dialOpened 0 true,
    .dialSelect .packetUp 0 unlimited, .dialCount 1, .dialCharge 1, .dialOpen 1, .dialOpened 1 true,
    .dialFinish 1, .close 0, .close 0]

/-- The second `Close` releases nothing. -/
theorem usage_accounting_closeTwice :
    ∃ s, run step (newXmuxManager {} ⟨1, 1⟩ 0 0) dialAndCloseTwice = some s ∧
      (∀ x ∈ s.dials, ¬x.pc.InProgress) ∧ s.openConns 0 = 1 ∧
      ∀ (i : ℕ) (c : Client), s.clients[i]? = some c → c.openUsage = (s.openConns i : ℤ) := by
  refine ⟨_, rfl, by decide, by decide, ?_⟩
  exact (usage_accounting {} ⟨1, 1⟩ 0 0 dialAndCloseTwice _ rfl (by decide)).mpr (by decide)

/-- A dial whose `OpenStream` fails. -/
def failedDial : List Act :=
  [.dialSelect .streamOne 0 unlimited, .dialCount 0, .dialCharge 0, .dialOpen 0,
    .dialOpened 0 false]

/-- Its use is never released. -/
theorem failedDial_leaks_usage :
    ∃ s, run step (newXmuxManager {} ⟨1, 1⟩ 0 0) failedDial = some s ∧
      (∀ x ∈ s.dials, ¬x.pc.InProgress) ∧ s.openConns 0 = 0 ∧
      s.clients.map Client.openUsage = [1] := by
  exact ⟨_, rfl, by decide, by decide, by decide⟩

end XHTTP.Xmux

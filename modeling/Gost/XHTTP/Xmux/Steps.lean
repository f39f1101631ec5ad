import Gost.Lib.ListCount
import Gost.XHTTP.Xmux.Defs

/-!
# What a step of the multiplexer can do

Inversion of `step` (`step_cases`), with `Selects` for what `GetXmuxClient` does: it hands out an
offered client or a new one, and changes no counter that dials and upload loops use. Every
reachable state is `WellFormed`: dials and upload loops hold clients that exist.
-/

namespace XHTTP.Xmux

open List ListCount Option TransitionSystem

/-! ## Selection -/

/-- The client counters that selection leaves alone. -/
def Client.SameCounters (c c' : Client) : Prop :=
  c'.openUsage = c.openUsage ∧ c'.leftRequests = c.leftRequests ∧ c'.issued = c.issued ∧
    c'.maxRequests = c.maxRequests

/-- `GetXmuxClient` leads from `s` to `t` and returns the client `i`. -/
structure Selects (s : State) (draw : Draw) (t : State) (i : ℕ) : Prop where
  concurrency : t.concurrency = s.concurrency
  scMaxEachPostBytes : t.scMaxEachPostBytes = s.scMaxEachPostBytes
  dials : t.dials = s.dials
  loops : t.loops = s.loops
  clients : (i ∈ s.offered ∧ ∃ f : Client → Client, (∀ c, Client.SameCounters c (f c)) ∧
      t.clients = s.clients.modify i f) ∨
    (i = s.clients.length ∧ t.clients = s.clients ++ [s.freshClient draw])

variable {s t : State} {draw : Draw} {i : ℕ} {c : Client} {a : Act} {pc pc' : DialPc} {mode : Mode}
  {ok : Bool} {cs : List Client} {f : Client → Client} {R : Client → Client → Prop}

theorem newXmuxClient_spec (h : s.removeUnusable.newXmuxClient draw = some (t, i)) :
    Selects s draw t i := by
  unfold State.newXmuxClient at h
  split_ifs at h
  obtain ⟨rfl, rfl⟩ := h
  exact ⟨rfl, rfl, rfl, rfl, .inr ⟨rfl, rfl⟩⟩

theorem getXmuxClient_spec {pick : ℕ} (h : s.getXmuxClient pick draw = some (t, i)) :
    Selects s draw t i := by
  unfold State.getXmuxClient at h
  split_ifs at h
  iterate 3 exact newXmuxClient_spec h
  split at h
  next => cases h
  next j hj =>
    obtain ⟨rfl, rfl⟩ := h
    refine ⟨rfl, rfl, rfl, rfl, .inl ⟨mem_of_getElem? hj, _, ?_, rfl⟩⟩
    exact fun c => ⟨rfl, rfl, rfl, rfl⟩

/-- An offered client exists, and has a free slot if the concurrency is limited. -/
theorem exists_of_mem_offered (h : i ∈ s.offered) :
    ∃ c, s.clients[i]? = some c ∧ (0 < s.concurrency → c.openUsage < s.concurrency) := by
  unfold State.offered at h
  split_ifs at h with hconc
  · rw [mem_filter, decide_eq_true_eq] at h
    obtain ⟨c, hc, hslot⟩ := h.2
    exact ⟨c, hc, fun _ => hslot⟩
  · rw [State.reusable, mem_filter, decide_eq_true_eq] at h
    obtain ⟨c, hc, -⟩ := h.2
    exact ⟨c, hc, fun hpos => absurd hpos hconc⟩

theorem mem_xmuxClients_of_mem_offered (h : i ∈ s.offered) : i ∈ s.xmuxClients := by
  unfold State.offered at h
  split_ifs at h
  · exact mem_of_mem_filter (mem_of_mem_filter h)
  · exact mem_of_mem_filter h

theorem Selects.lt_length (h : Selects s draw t i) :
    i < t.clients.length ∧ s.clients.length ≤ t.clients.length := by
  rcases h.clients with ⟨hi, f, -, hclients⟩ | ⟨rfl, hclients⟩
  · obtain ⟨c, hc, -⟩ := exists_of_mem_offered hi
    rw [hclients, length_modify]
    exact ⟨(List.getElem?_eq_some_iff.mp hc).1, le_rfl⟩
  · rw [hclients, length_append]
    exact ⟨Nat.lt_succ_self _, Nat.le_add_right _ _⟩

/-- A client after selection: it has the counters it had, or it is the new one. -/
theorem Selects.client {j : ℕ} (h : Selects s draw t i) (hc : t.clients[j]? = some c) :
    (∃ c₀, s.clients[j]? = some c₀ ∧ c₀.SameCounters c ∧ (j = i → i ∈ s.offered)) ∨
      j = i ∧ i = s.clients.length ∧ c = s.freshClient draw := by
  rcases h.clients with ⟨hi, f, hf, hclients⟩ | ⟨rfl, hclients⟩
  · rw [hclients, getElem?_modify] at hc
    obtain ⟨c₀, hc₀, rfl⟩ := map_eq_some_iff.mp hc
    refine .inl ⟨c₀, hc₀, ?_, fun _ => hi⟩
    split_ifs
    · exact hf c₀
    · exact ⟨rfl, rfl, rfl, rfl⟩
  · rw [hclients] at hc
    rcases getElem?_concat_cases hc with hc | ⟨rfl, rfl⟩
    · have hlt := (List.getElem?_eq_some_iff.mp hc).1
      exact .inl ⟨c, hc, ⟨rfl, rfl, rfl, rfl⟩, fun heq => absurd heq hlt.ne⟩
    · exact .inr ⟨rfl, rfl, rfl⟩

/-! ## All steps -/

/-- What a step does, guards included. -/
inductive StepCase (s : State) : Act → State → Prop
  | tick (ns : ℕ) : StepCase s (.tick ns) { s with now := s.now + ns }
  | connFails (i : ℕ) :
      StepCase s (.connFails i) (s.modifyClient i fun c => { c with isClosed := true })
  | select (mode : Mode) (pick : ℕ) (draw : Draw) (t : State) (i : ℕ) : Selects s draw t i →
      StepCase s (.dialSelect mode pick draw) (t.addDial mode i)
  | count (d : ℕ) (x : Dial) : s.dials[d]? = some x → x.pc = .selected →
      StepCase s (.dialCount d) ((s.addUsage x.client 1).setDial d { x with pc := .counted })
  | charge (d : ℕ) (x : Dial) (pc : DialPc) : s.dials[d]? = some x →
      x.pc.charge x.mode = some pc →
      StepCase s (.dialCharge d) ((s.charge x.client).setDial d { x with pc := pc })
  | call (d : ℕ) (x : Dial) (pc : DialPc) : s.dials[d]? = some x → x.pc.call = some pc →
      StepCase s (.dialOpen d) ((s.issue x.client).setDial d { x with pc := pc })
  | answer (d : ℕ) (x : Dial) (pc : DialPc) (ok : Bool) : s.dials[d]? = some x →
      x.pc.answer x.mode ok = some pc →
      StepCase s (.dialOpened d ok) (s.setDial d { x with pc := pc })
  | finish (d : ℕ) (x : Dial) : s.dials[d]? = some x → x.pc = .opened →
      StepCase s (.dialFinish d) (s.finish d x)
  | close (d : ℕ) (x : Dial) : s.dials[d]? = some x → x.pc = .returned →
      StepCase s (.close d) (s.close d x)
  | loopStay (l : ℕ) (y : UploadLoop) : s.loops[l]? = some y → y.pc = .idle →
      ¬s.Exhausted y.client →
      StepCase s (.loopCharge l) ((s.charge y.client).setLoop l { y with pc := .ready })
  | loopLeave (l : ℕ) (y : UploadLoop) : s.loops[l]? = some y → y.pc = .idle →
      s.Exhausted y.client →
      StepCase s (.loopCharge l) ((s.charge y.client).setLoop l { y with pc := .hopping })
  | loopHop (l pick : ℕ) (draw : Draw) (y : UploadLoop) (t : State) (i : ℕ) :
      s.loops[l]? = some y → y.pc = .hopping → Selects s draw t i →
      StepCase s (.loopHop l pick draw) (t.setLoop l { client := i, pc := .ready })
  | loopPost (l : ℕ) (ok : Bool) (y : UploadLoop) : s.loops[l]? = some y → y.pc = .ready →
      StepCase s (.loopPost l ok)
        ((s.issue y.client).setLoop l { y with pc := if ok then .idle else .done })
  | loopEnd (l : ℕ) (y : UploadLoop) : s.loops[l]? = some y → y.pc = .idle →
      StepCase s (.loopEnd l) (s.setLoop l { y with pc := .done })

theorem step_cases {s' : State} (hs : step s a = some s') : StepCase s a s' := by
  cases a <;> simp only [step, bind_eq_bind, bind_eq_some_iff, ite_none_right_eq_some, some.injEq,
    Prod.exists] at hs
  case tick ns => exact hs ▸ .tick ns
  case connFails i => exact hs ▸ .connFails i
  case dialSelect mode pick draw =>
    obtain ⟨t, i, hsel, rfl⟩ := hs
    exact .select mode pick draw t i (getXmuxClient_spec hsel)
  case dialCount d =>
    obtain ⟨x, hx, hpc, rfl⟩ := hs
    exact .count d x hx hpc
  case dialCharge d =>
    obtain ⟨x, hx, pc, hpc, rfl⟩ := hs
    exact .charge d x pc hx hpc
  case dialOpen d =>
    obtain ⟨x, hx, pc, hpc, rfl⟩ := hs
    exact .call d x pc hx hpc
  case dialOpened d ok =>
    obtain ⟨x, hx, pc, hpc, rfl⟩ := hs
    exact .answer d x pc ok hx hpc
  case dialFinish d =>
    obtain ⟨x, hx, hpc, rfl⟩ := hs
    exact .finish d x hx hpc.1
  case close d =>
    obtain ⟨x, hx, hpc, rfl⟩ := hs
    exact .close d x hx hpc
  case loopCharge l =>
    obtain ⟨y, hy, hpc, rfl⟩ := hs
    split_ifs with hex
    · exact .loopLeave l y hy hpc hex
    · exact .loopStay l y hy hpc hex
  case loopHop l pick draw =>
    obtain ⟨y, hy, hpc, t, i, hsel, rfl⟩ := hs
    exact .loopHop l pick draw y t i hy hpc (getXmuxClient_spec hsel)
  case loopPost l ok =>
    obtain ⟨y, hy, hpc, rfl⟩ := hs
    exact .loopPost l ok y hy hpc
  case loopEnd l =>
    obtain ⟨y, hy, hpc, rfl⟩ := hs
    exact .loopEnd l y hy hpc

/-! ## Program points of a dial -/

theorem DialPc.charge_cases (h : pc.charge mode = some pc') :
    pc = .counted ∧ pc' = .charged ∨ pc = .opened ∧ pc' = .chargedUp := by
  unfold DialPc.charge at h
  split at h <;> simp_all

theorem DialPc.call_cases (h : pc.call = some pc') :
    pc = .charged ∧ pc' = .opening ∨ pc = .chargedUp ∧ pc' = .openingUp := by
  unfold DialPc.call at h
  split at h <;> simp_all

theorem DialPc.answer_cases (h : pc.answer mode ok = some pc') :
    (pc = .opening ∨ pc = .openingUp) ∧
      (ok = true ∧ (pc' = .returned ∨ pc' = .opened) ∨ ok = false ∧ pc' = .failed) := by
  unfold DialPc.answer at h
  split at h <;> simp_all

/-- A dial moves on between the count of its use and its return. -/
structure DialPc.Moves (pc pc' : DialPc) : Prop where
  counted : pc ≠ .selected
  unreturned : pc ≠ .returned
  unfailed : pc ≠ .failed
  kept : pc' ≠ .selected

theorem DialPc.Moves.of_charge (h : pc.charge mode = some pc') : pc.Moves pc' := by
  rcases DialPc.charge_cases h with ⟨rfl, rfl⟩ | ⟨rfl, rfl⟩ <;> exact ⟨nofun, nofun, nofun, nofun⟩

theorem DialPc.Moves.of_call (h : pc.call = some pc') : pc.Moves pc' := by
  rcases DialPc.call_cases h with ⟨rfl, rfl⟩ | ⟨rfl, rfl⟩ <;> exact ⟨nofun, nofun, nofun, nofun⟩

theorem DialPc.Moves.of_answer (h : pc.answer mode ok = some pc') : pc.Moves pc' := by
  obtain ⟨rfl | rfl, ⟨-, rfl | rfl⟩ | ⟨-, rfl⟩⟩ := DialPc.answer_cases h <;>
    exact ⟨nofun, nofun, nofun, nofun⟩

/-! ## Clients and counts after an update -/

/-- The number of dials through the client `i` with a property. -/
def State.dialsAt (s : State) (P : Dial → Prop) [DecidablePred P] (i : ℕ) : ℕ :=
  s.dials.countP fun x => x.client = i ∧ P x

/-- The number of upload loops on the client `i` with a property. -/
def State.loopsAt (s : State) (P : UploadLoop → Prop) [DecidablePred P] (i : ℕ) : ℕ :=
  s.loops.countP fun y => y.client = i ∧ P y

section Counts

variable {s s' : State} {P : Dial → Prop} [DecidablePred P] {Q : UploadLoop → Prop}
  [DecidablePred Q] {i : ℕ} {x : Dial} {y : UploadLoop}

/-- A dial that moves on exchanges its contributions. -/
theorem dialsAt_set {d : ℕ} {x' : Dial} (hx : s.dials[d]? = some x)
    (hs : s'.dials = s.dials.set d x') :
    s'.dialsAt P i + (if x.client = i ∧ P x then 1 else 0) =
      s.dialsAt P i + (if x'.client = i ∧ P x' then 1 else 0) := by
  have h := @countP_set_add _ (fun x => decide (x.client = i ∧ P x)) _ _ _ x' hx
  simp only [decide_eq_true_eq] at h
  rw [State.dialsAt, hs]
  exact h

theorem loopsAt_set {l : ℕ} {y' : UploadLoop} (hy : s.loops[l]? = some y)
    (hs : s'.loops = s.loops.set l y') :
    s'.loopsAt Q i + (if y.client = i ∧ Q y then 1 else 0) =
      s.loopsAt Q i + (if y'.client = i ∧ Q y' then 1 else 0) := by
  have h := @countP_set_add _ (fun y => decide (y.client = i ∧ Q y)) _ _ _ y' hy
  simp only [decide_eq_true_eq] at h
  rw [State.loopsAt, hs]
  exact h

theorem dialsAt_append (hs : s'.dials = s.dials ++ [x]) :
    s'.dialsAt P i = s.dialsAt P i + if x.client = i ∧ P x then 1 else 0 := by
  rw [State.dialsAt, hs, countP_append, countP_singleton]
  simp only [decide_eq_true_eq]
  rfl

theorem loopsAt_append (hs : s'.loops = s.loops ++ [y]) :
    s'.loopsAt Q i = s.loopsAt Q i + if y.client = i ∧ Q y then 1 else 0 := by
  rw [State.loopsAt, hs, countP_append, countP_singleton]
  simp only [decide_eq_true_eq]
  rfl

theorem dialsAt_congr (hs : s'.dials = s.dials) : s'.dialsAt P i = s.dialsAt P i := by
  rw [State.dialsAt, hs, State.dialsAt]

theorem loopsAt_congr (hs : s'.loops = s.loops) : s'.loopsAt Q i = s.loopsAt Q i := by
  rw [State.loopsAt, hs, State.loopsAt]

end Counts

/-- A client after one client was changed. -/
theorem modify_client {j : ℕ} (h : (cs.modify i f)[j]? = some c) :
    ∃ c₀, cs[j]? = some c₀ ∧ c = if i = j then f c₀ else c₀ := by
  rw [getElem?_modify] at h
  obtain ⟨c₀, hc₀, rfl⟩ := map_eq_some_iff.mp h
  refine ⟨c₀, hc₀, ?_⟩
  split_ifs <;> rfl

theorem State.close_dials (s : State) (d : ℕ) (x : Dial) :
    (s.close d x).dials = s.dials.set d { x with closes := x.closes + 1 } := by
  unfold State.close
  split_ifs <;> rfl

theorem State.close_loops (s : State) (d : ℕ) (x : Dial) : (s.close d x).loops = s.loops := by
  unfold State.close
  split_ifs <;> rfl

/-- Every client of `cs'` was there before, and has changed according to `R`. -/
def ClientsRel (R : Client → Client → Prop) (cs cs' : List Client) : Prop :=
  ∀ (i : ℕ) (c' : Client), cs'[i]? = some c' → ∃ c, cs[i]? = some c ∧ R c c'

theorem ClientsRel.refl (hR : ∀ c, R c c) (cs : List Client) : ClientsRel R cs cs :=
  fun _ c hc => ⟨c, hc, hR c⟩

theorem clientsRel_modify {k : ℕ} (hR : ∀ c, R c c) (hf : ∀ c, R c (f c)) :
    ClientsRel R cs (cs.modify k f) := by
  intro i c' hc'
  obtain ⟨c, hc, rfl⟩ := modify_client hc'
  refine ⟨c, hc, ?_⟩
  split_ifs
  · exact hf c
  · exact hR c

/-- Dials and upload loops hold clients that exist. -/
structure WellFormed (s : State) : Prop where
  dials : ∀ x ∈ s.dials, x.client < s.clients.length
  loops : ∀ y ∈ s.loops, y.client < s.clients.length

theorem wellFormed_step {s' : State} (h : WellFormed s) (hs : step s a = some s') :
    WellFormed s' := by
  -- the dial or loop that moves keeps its client
  have hdial {d : ℕ} {x x' : Dial} (hx : s.dials[d]? = some x) (hx' : x'.client = x.client) :
      ∀ z ∈ s.dials.set d x', z.client < s.clients.length :=
    forall_mem_set h.dials (hx' ▸ h.dials x (mem_of_getElem? hx))
  have hloop {l : ℕ} {y y' : UploadLoop} (hy : s.loops[l]? = some y) (hy' : y'.client = y.client) :
      ∀ z ∈ s.loops.set l y', z.client < s.clients.length :=
    forall_mem_set h.loops (hy' ▸ h.loops y (mem_of_getElem? hy))
  have hmodify {t : State} {i : ℕ} {f : Client → Client} (ht : t.clients = s.clients.modify i f)
      (hd : ∀ x ∈ t.dials, x.client < s.clients.length)
      (hl : ∀ y ∈ t.loops, y.client < s.clients.length) : WellFormed t := by
    constructor <;> rwa [ht, length_modify]
  cases step_cases hs with
  | tick ns => exact ⟨h.dials, h.loops⟩
  | connFails i => exact hmodify rfl h.dials h.loops
  | select mode pick draw t i hsel =>
    obtain ⟨hi, hle⟩ := hsel.lt_length
    refine ⟨forall_mem_append.mpr ⟨fun x hx => ?_, forall_mem_singleton.mpr hi⟩, fun y hy => ?_⟩
    · exact (h.dials x (hsel.dials ▸ hx)).trans_le hle
    · exact (h.loops y (hsel.loops ▸ hy)).trans_le hle
  | count d x hx _ | charge d x pc hx _ | call d x pc hx _ =>
    exact hmodify rfl (hdial hx rfl) h.loops
  | answer d x pc ok hx _ => exact ⟨hdial hx rfl, h.loops⟩
  | finish d x hx _ =>
    unfold State.finish
    split_ifs
    · exact ⟨hdial hx rfl, h.loops⟩
    · refine ⟨hdial hx rfl, forall_mem_append.mpr ⟨h.loops, forall_mem_singleton.mpr ?_⟩⟩
      exact h.dials x (mem_of_getElem? hx)
  | close d x hx _ =>
    unfold State.close
    split_ifs
    · exact hmodify rfl (hdial hx rfl) h.loops
    · exact ⟨hdial hx rfl, h.loops⟩
  | loopStay l y hy _ _ | loopLeave l y hy _ _ | loopPost l ok y hy _ =>
    exact hmodify rfl h.dials (hloop hy rfl)
  | loopHop l pick draw y t i hy _ hsel =>
    obtain ⟨hi, hle⟩ := hsel.lt_length
    refine ⟨fun x hx => (h.dials x (hsel.dials ▸ hx)).trans_le hle, forall_mem_set ?_ hi⟩
    exact fun z hz => (h.loops z (hsel.loops ▸ hz)).trans_le hle
  | loopEnd l y hy _ => exact ⟨h.dials, hloop hy rfl⟩

/-- No dial has the index of a client that does not exist yet. -/
theorem WellFormed.dialsAt_length (h : WellFormed s) (P : Dial → Prop) [DecidablePred P] :
    s.dialsAt P s.clients.length = 0 := by
  refine countP_eq_zero.mpr fun x hx => ?_
  have := h.dials x hx
  simp only [decide_eq_true_eq]
  omega

theorem WellFormed.loopsAt_length (h : WellFormed s) (Q : UploadLoop → Prop) [DecidablePred Q] :
    s.loopsAt Q s.clients.length = 0 := by
  refine countP_eq_zero.mpr fun y hy => ?_
  have := h.loops y hy
  simp only [decide_eq_true_eq]
  omega

theorem wellFormed_init (cfg : XmuxConfig) (r : Range) (concurrency connections : ℤ) :
    WellFormed (newXmuxManager cfg r concurrency connections) := by
  constructor <;> simp [newXmuxManager]

end XHTTP.Xmux

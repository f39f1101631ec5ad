import Gost.XHTTP.PacketUp.Defs

/-!
# The contract of `Write`

`Write` of `xhttp/internal/pipebuffer/pipebuffer.go` is to append all of its argument or to return
an error. Here any number of calls run against `ReadChunk`, `Close` and `Interrupt`, one critical
section at a time. A call that finds the buffer closed after it has appended a part returns that
part without an error.

`write_contract_iff`: the contract is kept, now and for as long as nothing else closes the buffer,
exactly if no call had appended a part of its argument when the buffer was closed.
-/

namespace XHTTP.PipeBuffer

open List Option PacketUp TransitionSystem

/-- A `Write` call with its argument. -/
structure Call extends WriteCall where
  p : Bytes
deriving DecidableEq, Repr

/-- The buffer and all `Write` calls so far. -/
structure Shared where
  buf : Buffer
  calls : List Call := []
deriving DecidableEq

inductive Op
  /-- `Write(p)` is called -/
  | writeCall (p : Bytes)
  /-- the `i`-th call goes through its loop once, or returns -/
  | write (i : ℕ)
  | readChunk (max : ℕ)
  | close
  | interrupt
deriving DecidableEq, Repr

/-- One pass of a call through its loop. -/
def Call.pass (c : Call) (b : Buffer) : Option (Buffer × Call) :=
  if c.result ≠ none then none
  else if c.rest = [] then some (b, { c with result := some (c.written.length, none) })
  else
    match b.write c.rest with
    | .blocked => none
    | .closed => some (b, { c with result := some c.closedResult })
    | .wrote b n =>
      some (b, { c with rest := c.rest.drop n, written := c.written ++ c.rest.take n })

namespace Shared

def write (s : Shared) (i : ℕ) : Option Shared :=
  s.calls[i]?.bind fun c => (c.pass s.buf).map fun (b, c) => ⟨b, s.calls.set i c⟩

def readChunk (s : Shared) (max : ℕ) : Option Shared :=
  match s.buf.readChunk max with
  | .blocked => none
  | .failed _ => some s
  | .chunk _ b => some { s with buf := b }

def step (s : Shared) : Op → Option Shared
  | .writeCall p => some { s with calls := s.calls ++ [{ rest := p, p := p }] }
  | .write i => s.write i
  | .readChunk max => s.readChunk max
  | .close => some { s with buf := s.buf.close }
  | .interrupt => some { s with buf := s.buf.interrupt }

def init (limit : ℤ) : Shared := { buf := PipeBuffer.new limit }

end Shared

/-- A call that has returned `nil` has appended all of its argument, and says so. -/
def Call.Honours (c : Call) : Prop :=
  ∀ n, c.result = some (n, none) → n = c.p.length ∧ c.written = c.p

/-- The call has appended a part of its argument, and has not returned. -/
def Call.Partway (c : Call) : Prop := c.result = none ∧ c.written ≠ [] ∧ c.rest ≠ []

/-- `Close` and `Interrupt`. -/
def Op.Closes (op : Op) : Prop := op = .close ∨ op = .interrupt

/-- An open buffer is not closed while a call is partway. -/
def ClosedBetweenCalls (s : Shared) (op : Op) : Prop :=
  op.Closes → s.buf.closed = false → ∀ c ∈ s.calls, ¬c.Partway

instance : DecidablePred Call.Partway := fun c =>
  inferInstanceAs (Decidable (c.result = none ∧ c.written ≠ [] ∧ c.rest ≠ []))

instance : DecidablePred Op.Closes := fun op =>
  inferInstanceAs (Decidable (op = .close ∨ op = .interrupt))

instance (s : Shared) (op : Op) : Decidable (ClosedBetweenCalls s op) :=
  inferInstanceAs (Decidable (op.Closes → s.buf.closed = false → ∀ c ∈ s.calls, ¬c.Partway))

/-! ## One pass -/

/-- What a pass does, guards included. -/
inductive Call.PassCase (c : Call) (b : Buffer) : Buffer → Call → Prop
  | done (hrest : c.rest = []) : PassCase c b b { c with result := some (c.written.length, none) }
  | closed (hrest : c.rest ≠ []) (hclosed : b.closed = true) :
    PassCase c b b { c with result := some c.closedResult }
  | wrote {b' : Buffer} {n : ℕ} (hopen : b.closed = false) (hopen' : b'.closed = false) :
    PassCase c b b' { c with rest := c.rest.drop n, written := c.written ++ c.rest.take n }

variable {c c' : Call} {b b' : Buffer}

theorem Call.pass_cases (h : c.pass b = some (b', c')) : c.result = none ∧ c.PassCase b b' c' := by
  unfold Call.pass at h
  split_ifs at h with hresult hrest
  · cases h
    exact ⟨not_not.mp hresult, .done hrest⟩
  · refine ⟨not_not.mp hresult, ?_⟩
    cases hwrite : b.write c.rest with
    | blocked =>
      rw [hwrite] at h
      cases h
    | closed =>
      rw [hwrite] at h
      cases h
      refine .closed hrest ?_
      unfold Buffer.write at hwrite
      split_ifs at hwrite with _ hclosed
      exact hclosed
    | wrote b₁ n =>
      rw [hwrite] at h
      cases h
      obtain ⟨-, hopen', hopen, -⟩ := Buffer.write_wrote hrest hwrite
      exact .wrote hopen hopen'

theorem Call.closed_of_pass (h : c.pass b = some (b', c')) : b'.closed = b.closed := by
  cases (Call.pass_cases h).2 with
  | done => rfl
  | closed => rfl
  | wrote hopen hopen' => rw [hopen, hopen']

/-- A call in a run that keeps the contract. -/
structure Call.Sound (closed : Bool) (c : Call) : Prop where
  whole : c.written ++ c.rest = c.p
  honest : ∀ n, c.result = some (n, none) → c.rest = [] ∧ n = c.written.length
  uncut : closed = true → ¬c.Partway

theorem Call.Sound.honours {closed : Bool} (h : c.Sound closed) : c.Honours := by
  intro n hn
  obtain ⟨hrest, rfl⟩ := h.honest n hn
  have hwhole := h.whole
  rw [hrest, append_nil] at hwhole
  exact ⟨congrArg List.length hwhole, hwhole⟩

theorem Call.Sound.pass (h : c.Sound b.closed) (hpass : c.pass b = some (b', c')) :
    c'.Sound b.closed := by
  obtain ⟨hresult, hcase⟩ := Call.pass_cases hpass
  cases hcase with
  | done hrest =>
    refine ⟨h.whole, fun n hn => ?_, fun _ hpart => hpart.2.2 hrest⟩
    exact ⟨hrest, (Prod.mk.inj (some.inj hn)).1.symm⟩
  | closed hrest hclosed =>
    -- the call has appended nothing, so it returns the error
    have hnone : c.written = [] := by
      by_contra hne
      exact h.uncut hclosed ⟨hresult, hne, hrest⟩
    refine ⟨h.whole, fun n hn => ?_, fun _ hpart => some_ne_none _ hpart.1⟩
    rw [WriteCall.closedResult, hnone] at hn
    cases hn
  | @wrote _ n hopen _ =>
    rw [hopen]
    refine ⟨?_, fun n hn => absurd (hresult.symm.trans hn) (some_ne_none _).symm, nofun⟩
    rw [append_assoc, take_append_drop, h.whole]

/-- A call that was cut off: it has returned, or will return, what it has appended. -/
structure Call.Cut (c : Call) : Prop where
  whole : c.written ++ c.rest = c.p
  written_ne : c.written ≠ []
  rest_ne : c.rest ≠ []
  result : c.result = none ∨ c.result = some (c.written.length, none)

theorem Call.Cut.not_honours (h : c.Cut) (hresult : c.result = some (c.written.length, none)) :
    ¬c.Honours := by
  intro hhonours
  have hwritten := (hhonours _ hresult).2
  have hwhole := h.whole
  rw [hwritten, append_right_eq_self] at hwhole
  exact h.rest_ne hwhole

/-- On a closed buffer, a cut call returns what it has appended. -/
theorem Call.Cut.pass_eq (h : c.Cut) (hresult : c.result = none) (hclosed : b.closed = true) :
    c.pass b = some (b, { c with result := some (c.written.length, none) }) := by
  have hwrite : b.write c.rest = .closed := by
    rw [Buffer.write, if_neg (by simp [hclosed]), if_pos hclosed]
  have hresult' : c.closedResult = (c.written.length, none) :=
    if_pos (length_pos_iff.mpr h.written_ne)
  rw [Call.pass, if_neg (not_not.mpr hresult), if_neg h.rest_ne, hwrite]
  simp only [hresult']

theorem Call.Cut.pass (h : c.Cut) (hclosed : b.closed = true) (hpass : c.pass b = some (b', c')) :
    b' = b ∧ c'.Cut := by
  rcases h.result with hresult | hresult
  · rw [h.pass_eq hresult hclosed] at hpass
    cases hpass
    exact ⟨rfl, h.whole, h.written_ne, h.rest_ne, .inr rfl⟩
  · rw [Call.pass, if_pos (by simp [hresult])] at hpass
    cases hpass

/-! ## Runs -/

namespace Shared

variable {s s' : Shared} {op : Op}

/-- All calls are sound. -/
def Sound (s : Shared) : Prop := ∀ c ∈ s.calls, c.Sound s.buf.closed

theorem sound_init (limit : ℤ) : (init limit).Sound := fun _ hc => absurd hc not_mem_nil

/-- What a step does to the calls: it moves one on, starts a new one, or leaves them. -/
inductive StepCase (s : Shared) : Op → Shared → Prop
  | writeCall (p : Bytes) :
    StepCase s (.writeCall p) { s with calls := s.calls ++ [{ rest := p, p := p }] }
  | write {i : ℕ} {c c' : Call} {b : Buffer} (hc : s.calls[i]? = some c)
    (hpass : c.pass s.buf = some (b, c')) : StepCase s (.write i) ⟨b, s.calls.set i c'⟩
  | readChunk {max : ℕ} {b : Buffer} (hclosed : b.closed = s.buf.closed) :
    StepCase s (.readChunk max) { s with buf := b }
  | closes {op : Op} {b : Buffer} (hop : op.Closes) (hclosed : b.closed = true) :
    StepCase s op { s with buf := b }

theorem step_cases (h : s.step op = some s') : StepCase s op s' := by
  cases op with
  | writeCall p => exact some.inj h ▸ .writeCall p
  | write i =>
    obtain ⟨c, hc, hmap⟩ := bind_eq_some_iff.mp h
    obtain ⟨⟨b, c'⟩, hpass, rfl⟩ := map_eq_some_iff.mp hmap
    exact .write hc hpass
  | readChunk max =>
    change s.readChunk max = some s' at h
    unfold readChunk at h
    cases hread : s.buf.readChunk max with
    | blocked =>
      rw [hread] at h
      cases h
    | failed e =>
      rw [hread] at h
      exact some.inj h ▸ .readChunk rfl
    | chunk out b =>
      rw [hread] at h
      exact some.inj h ▸ .readChunk (Buffer.readChunk_chunk hread).2.2
  | close => exact some.inj h ▸ .closes (.inl rfl) rfl
  | interrupt => exact some.inj h ▸ .closes (.inr rfl) rfl

/-- A step that closes no buffer under a call that is partway keeps all calls sound. -/
theorem Sound.step (hs : s.Sound) (hguard : ClosedBetweenCalls s op) (h : s.step op = some s') :
    s'.Sound := by
  cases step_cases h with
  | writeCall p =>
    intro c hc
    rcases mem_append.mp hc with hc | hc
    · exact hs c hc
    · rw [mem_singleton.mp hc]
      exact ⟨rfl, nofun, fun _ hpart => hpart.2.1 rfl⟩
  | write hc hpass =>
    intro c₁ hc₁
    rw [Call.closed_of_pass hpass]
    rcases mem_or_eq_of_mem_set hc₁ with hc₁ | rfl
    · exact hs c₁ hc₁
    · exact (hs _ (mem_of_getElem? hc)).pass hpass
  | readChunk hclosed =>
    intro c hc
    rw [hclosed]
    exact hs c hc
  | closes hop _ =>
    intro c hc
    refine ⟨(hs c hc).whole, (hs c hc).honest, fun _ => ?_⟩
    by_cases hopen : s.buf.closed = false
    · exact hguard hop hopen c hc
    · exact (hs c hc).uncut (Bool.eq_true_of_not_eq_false hopen)

/-- The buffer is closed, and some call was cut off. -/
def Broken (s : Shared) : Prop :=
  s.buf.closed = true ∧ ∃ (i : ℕ) (c : Call), s.calls[i]? = some c ∧ c.Cut

theorem Broken.step (hs : s.Broken) (h : s.step op = some s') : s'.Broken := by
  obtain ⟨hclosed, i, c, hc, hcut⟩ := hs
  cases step_cases h with
  | writeCall p =>
    refine ⟨hclosed, i, c, ?_, hcut⟩
    rw [List.getElem?_append_left (List.getElem?_eq_some_iff.mp hc).1, hc]
  | readChunk hsame => exact ⟨hsame.trans hclosed, i, c, hc, hcut⟩
  | closes _ hclosed' => exact ⟨hclosed', i, c, hc, hcut⟩
  | @write j c₁ c₂ b hc₁ hpass =>
    by_cases hij : j = i
    · subst hij
      obtain rfl : c = c₁ := some.inj (hc.symm.trans hc₁)
      obtain ⟨rfl, hcut'⟩ := hcut.pass hclosed hpass
      refine ⟨hclosed, j, c₂, ?_, hcut'⟩
      exact List.getElem?_set_self (List.getElem?_eq_some_iff.mp hc).1
    · refine ⟨(Call.closed_of_pass hpass).trans hclosed, i, c, ?_, hcut⟩
      rw [getElem?_set_ne hij, hc]

/-- A step that closes the buffer under a call that is partway cuts the call off. -/
theorem Sound.broken (hs : s.Sound) (hguard : ¬ClosedBetweenCalls s op) (h : s.step op = some s') :
    s'.Broken := by
  simp only [ClosedBetweenCalls, Classical.not_imp, not_forall, not_not] at hguard
  obtain ⟨hop, -, c, hc, hresult, hwritten, hrest⟩ := hguard
  obtain ⟨i, hlt, rfl⟩ := getElem_of_mem hc
  cases step_cases h with
  | closes _ hclosed =>
    exact ⟨hclosed, i, _, getElem?_eq_getElem hlt, (hs _ hc).whole, hwritten, hrest,
      .inl hresult⟩
  | writeCall p | write _ _ | readChunk _ => rcases hop with hop | hop <;> cases hop

/-- A cut call breaks the contract now, or with its next pass. -/
theorem Broken.exists_not_honours (hs : s.Broken) :
    ∃ ops s', (∀ op ∈ ops, ¬Op.Closes op) ∧ run Shared.step s ops = some s' ∧
      ∃ c ∈ s'.calls, ¬c.Honours := by
  obtain ⟨hclosed, i, c, hc, hcut⟩ := hs
  rcases hcut.result with hresult | hresult
  · let c' : Call := { c with result := some (c.written.length, none) }
    have hstep : s.step (.write i) = some { s with calls := s.calls.set i c' } := by
      show s.calls[i]?.bind _ = _
      rw [hc, bind_some, hcut.pass_eq hresult hclosed, map_some]
    refine ⟨[.write i], _, ?_, run_cons_eq_some.mpr ⟨_, hstep, rfl⟩, c', ?_, ?_⟩
    · intro op hop hcloses
      obtain rfl := mem_singleton.mp hop
      rcases hcloses with h | h <;> cases h
    · exact List.mem_set (List.getElem?_eq_some_iff.mp hc).1 _
    · have hcut' : c'.Cut := ⟨hcut.whole, hcut.written_ne, hcut.rest_ne, .inr rfl⟩
      exact hcut'.not_honours rfl
  · exact ⟨[], s, nofun, rfl, c, mem_of_getElem? hc, hcut.not_honours hresult⟩

/-- Steps that close nothing pass the guard. -/
theorem along_of_not_closes {ops : List Op} (hops : ∀ op ∈ ops, ¬op.Closes) :
    Along Shared.step ClosedBetweenCalls s ops :=
  (along_of_forall hops s).mono fun _ _ hop hcloses => absurd hcloses hop

end Shared

open Shared in
/-- Every call that has returned `nil`, or will return it while nothing else closes the buffer, has
appended all of its argument and returned its length, exactly if the buffer was never closed while
a call was partway. -/
theorem write_contract_iff (limit : ℤ) (ops : List Op) (s : Shared)
    (hrun : run Shared.step (init limit) ops = some s) :
    Along Shared.step ClosedBetweenCalls (init limit) ops ↔
      ∀ ops' s', (∀ op ∈ ops', ¬op.Closes) → run Shared.step s ops' = some s' →
        ∀ c ∈ s'.calls, c.Honours := by
  constructor
  · intro halong ops' s' hops' hrun' c hc
    have hs : s.Sound :=
      run_induction_along (fun _ _ _ hs hguard => hs.step hguard) (sound_init limit) halong hrun
    have hs' : s'.Sound :=
      run_induction_along (fun _ _ _ hs hguard => hs.step hguard) hs
        (along_of_not_closes hops') hrun'
    exact (hs' c hc).honours
  · intro hall
    rcases along_or_trapped (fun _ _ _ hs hguard => hs.step hguard)
      (fun _ _ _ hs hguard => hs.broken hguard) (fun _ _ _ hs => hs.step) (sound_init limit) hrun
      with halong | hbroken
    · exact halong
    · obtain ⟨ops', s', hops', hrun', c, hc, hnot⟩ := hbroken.exists_not_honours
      exact absurd (hall ops' s' hops' hrun' c hc) hnot

/-- Two bytes through a buffer of one, with a reader between them and `Close` at the end. -/
def drainedOps : List Op :=
  [.writeCall [7, 8], .write 0, .readChunk 5, .write 0, .write 0, .close]

theorem write_contract_drained :
    ∃ s, run Shared.step (Shared.init 1) drainedOps = some s ∧
      s.calls.map (·.result) = [some (2, none)] ∧ ∀ c ∈ s.calls, c.Honours :=
  ⟨_, rfl, rfl, (write_contract_iff 1 drainedOps _ rfl).mp (by decide) [] _ nofun rfl⟩

/-- A buffer of one byte, a call with two, and a `Close` between the two. -/
def cutOps : List Op := [.writeCall [7, 8], .write 0, .close, .write 0]

/-- The call that `Close` strikes between its two bytes returns 1 of 2 and no error. -/
theorem write_contract_cut :
    (run Shared.step (Shared.init 1) cutOps).map (·.calls) =
      some [{ p := [7, 8], rest := [8], written := [7], result := some (1, none) }] := by
  decide

end XHTTP.PipeBuffer

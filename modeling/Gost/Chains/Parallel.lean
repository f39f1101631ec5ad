import Gost.Lib.ListCount
import Gost.Lib.TransitionSystem

/-!
# Dialing all nodes at once

`parallelTransporter.Dial`. One goroutine for each node dials it and sends its result to the channel
`resCh`, which has room for all of them. `Dial` receives until the first connection arrives or every
node has failed. With a connection it leaves a goroutine behind that receives the results that
are still to come and closes the connections among them; how many there are it computes from the
number of errors.

The goroutines, the caller and the goroutine that drains the channel take their steps in any order.
The results that have been sent are kept in a history, in the order of their arrival.

`dial_leaks_nothing`: whatever the order, the caller gets the first connection that has arrived, and
when nothing can move any more every other connection has been closed once.
-/

namespace Chains.Parallel

open List ListCount Option TransitionSystem

variable {ε γ : Type}

/-- `result`: an error, or a connection that is not nil. -/
structure Result (ε γ : Type) where
  node : ℕ
  outcome : Except ε γ

/-- A connection. -/
def Result.isOk (res : Result ε γ) : Bool := res.outcome.isOk

/-- The goroutine of a node. -/
inductive Goroutine
  | dialing
  -- the result is in the channel, `wg.Done` is deferred
  | sent
  | done
deriving DecidableEq, Repr

/-- What `Dial` returns. -/
inductive Outcome (ε γ : Type)
  -- the error `no nodes available`
  | noNodes
  -- `errors.Join`
  | failed (errs : List ε)
  | conn (best : Result ε γ)

/-- Where `Dial` is. -/
inductive Main (ε γ : Type)
  -- at the head of the loop, with `i` and `errs`
  | receiving (i : ℕ) (errs : List ε)
  -- after the loop, with `best` and `errs`
  | found (best : Result ε γ) (errs : List ε)
  | returned (outcome : Outcome ε γ)

/-- The goroutine that `Dial` leaves behind. -/
inductive Drain
  | absent
  -- at the head of the loop, with `i`
  | draining (i : ℕ)
  -- in `wg.Wait`
  | waiting
  -- the channel is closed
  | stopped
deriving DecidableEq, Repr

structure State (ε γ : Type) where
  goroutines : List Goroutine
  resCh : List (Result ε γ) := []
  isClosed : Bool := false
  -- a goroutine has sent to a closed channel
  panicked : Bool := false
  main : Main ε γ
  drain : Drain := .absent
  -- the results whose connection was closed
  closed : List (Result ε γ) := []
  -- all results sent so far
  arrived : List (Result ε γ) := []

/-- The goroutines that have not sent their result. -/
def State.dialing (s : State ε γ) : ℕ := s.goroutines.countP (· = .dialing)

inductive Op (ε γ : Type)
  -- a dial completes, and its result is sent
  | send (i : ℕ) (outcome : Except ε γ)
  -- `wg.Done`
  | done (i : ℕ)
  -- `Dial` moves on
  | main
  -- the goroutine that it leaves behind moves on
  | drain

/-- `Dial` is called for `n` nodes; all goroutines are started. -/
def start (n : ℕ) : State ε γ where
  goroutines := List.replicate n .dialing
  main := if n = 0 then .returned .noNodes else .receiving 0 []

/-- The loop of `Dial`, and what follows it. -/
def mainStep (n : ℕ) (s : State ε γ) : Option (State ε γ) :=
  match s.main with
  | .receiving i errs =>
    if i < n then
      match s.resCh with
      -- blocked
      | [] => none
      | res :: rest =>
        match res.outcome with
        | .error e => some { s with resCh := rest, main := .receiving (i + 1) (errs ++ [e]) }
        | .ok _ => some { s with resCh := rest, main := .found res errs }
    else some { s with main := .returned (.failed errs), drain := .waiting }
  | .found best errs =>
    some { s with main := .returned (.conn best), drain := .draining (errs.length + 1) }
  | .returned _ => none

def drainStep (n : ℕ) (s : State ε γ) : Option (State ε γ) :=
  match s.drain with
  | .draining i =>
    if i < n then
      match s.resCh with
      -- blocked
      | [] => none
      | res :: rest =>
        some { s with
          resCh := rest
          closed := if res.isOk then s.closed ++ [res] else s.closed
          drain := .draining (i + 1) }
    else some { s with drain := .waiting }
  | .waiting =>
    if ∀ g ∈ s.goroutines, g = .done then some { s with isClosed := true, drain := .stopped }
    else none
  | .absent | .stopped => none

def step (n : ℕ) (s : State ε γ) : Op ε γ → Option (State ε γ)
  | .send i outcome =>
    if s.goroutines[i]? = some .dialing then
      if s.isClosed then some { s with goroutines := s.goroutines.set i .done, panicked := true }
      else if s.resCh.length < n then
        some { s with
          goroutines := s.goroutines.set i .sent
          resCh := s.resCh ++ [{ node := i, outcome }]
          arrived := s.arrived ++ [{ node := i, outcome }] }
      -- blocked
      else none
    else none
  | .done i =>
    if s.goroutines[i]? = some .sent then
      some { s with goroutines := s.goroutines.set i .done }
    else none
  | .main => mainStep n s
  | .drain => drainStep n s

/-! ## Steps -/

section Steps

variable {n : ℕ} {s s' : State ε γ} {op : Op ε γ}

/-- What a step does, guards included. -/
inductive StepCase (n : ℕ) (s : State ε γ) : State ε γ → Prop
  | send (i : ℕ) (outcome : Except ε γ) (hi : s.goroutines[i]? = some .dialing) :
    StepCase n s { s with
      goroutines := s.goroutines.set i .sent
      resCh := s.resCh ++ [{ node := i, outcome }]
      arrived := s.arrived ++ [{ node := i, outcome }] }
  | panic (i : ℕ) (hi : s.goroutines[i]? = some .dialing) (hclosed : s.isClosed = true) :
    StepCase n s { s with goroutines := s.goroutines.set i .done, panicked := true }
  | done (i : ℕ) (hi : s.goroutines[i]? = some .sent) :
    StepCase n s { s with goroutines := s.goroutines.set i .done }
  | error {i : ℕ} {errs : List ε} {res : Result ε γ} {rest : List (Result ε γ)} {e : ε}
    (hmain : s.main = .receiving i errs) (hi : i < n) (hch : s.resCh = res :: rest)
    (hres : res.outcome = .error e) :
    StepCase n s { s with resCh := rest, main := .receiving (i + 1) (errs ++ [e]) }
  | conn {i : ℕ} {errs : List ε} {res : Result ε γ} {rest : List (Result ε γ)}
    (hmain : s.main = .receiving i errs) (hi : i < n) (hch : s.resCh = res :: rest)
    (hres : res.isOk = true) :
    StepCase n s { s with resCh := rest, main := .found res errs }
  | exhausted {i : ℕ} {errs : List ε} (hmain : s.main = .receiving i errs) (hi : n ≤ i) :
    StepCase n s { s with main := .returned (.failed errs), drain := .waiting }
  | found {best : Result ε γ} {errs : List ε} (hmain : s.main = .found best errs) :
    StepCase n s
      { s with main := .returned (.conn best), drain := .draining (errs.length + 1) }
  | late {i : ℕ} (res : Result ε γ) {rest : List (Result ε γ)}
    (hdrain : s.drain = .draining i) (hi : i < n) (hch : s.resCh = res :: rest) :
    StepCase n s { s with
      resCh := rest
      closed := if res.isOk then s.closed ++ [res] else s.closed
      drain := .draining (i + 1) }
  | drained {i : ℕ} (hdrain : s.drain = .draining i) (hi : n ≤ i) :
    StepCase n s { s with drain := .waiting }
  | stop (hdrain : s.drain = .waiting) (hdone : ∀ g ∈ s.goroutines, g = .done) :
    StepCase n s { s with isClosed := true, drain := .stopped }

theorem mainStep_cases (h : mainStep n s = some s') : StepCase n s s' := by
  unfold mainStep at h
  split at h
  next i errs hmain =>
    split_ifs at h with hi
    · split at h
      · cases h
      next res rest hch =>
        split at h
        next e hres => exact some.inj h ▸ .error hmain hi hch hres
        next c hres =>
          have hok : res.isOk = true := by rw [Result.isOk, hres]; rfl
          exact some.inj h ▸ .conn hmain hi hch hok
    · exact some.inj h ▸ .exhausted hmain (Nat.le_of_not_lt hi)
  next best errs hmain => exact some.inj h ▸ .found hmain
  · cases h

theorem drainStep_cases (h : drainStep n s = some s') : StepCase n s s' := by
  unfold drainStep at h
  split at h
  next i hdrain =>
    split_ifs at h with hi
    · split at h
      · cases h
      next res rest hch => exact some.inj h ▸ .late _ hdrain hi hch
    · exact some.inj h ▸ .drained hdrain (Nat.le_of_not_lt hi)
  next hdrain =>
    split_ifs at h with hdone
    exact some.inj h ▸ .stop hdrain hdone
  · cases h
  · cases h

theorem step_cases (h : step n s op = some s') : StepCase n s s' := by
  cases op with
  | send i outcome =>
    dsimp only [step] at h
    split_ifs at h with hi hclosed
    · exact some.inj h ▸ .panic i hi hclosed
    · exact some.inj h ▸ .send i outcome hi
  | done i =>
    dsimp only [step] at h
    split_ifs at h with hi
    exact some.inj h ▸ .done i hi
  | main => exact mainStep_cases h
  | drain => exact drainStep_cases h

end Steps

/-! ## What has been received -/

/-- The results are errors, and `errs` are these errors. -/
def Failures (es : List (Result ε γ)) (errs : List ε) : Prop :=
  es.map (·.outcome) = errs.map .error

/-- The goroutine has received all it waits for. -/
def Drain.Ending (d : Drain) : Prop := d = .waiting ∨ d = .stopped

/-- What the caller and its goroutine have done with the results they have received. -/
inductive Phase (n : ℕ) : Main ε γ → Drain → (closed received : List (Result ε γ)) → Prop
  | noNodes (hn : n = 0) : Phase n (.returned .noNodes) .absent [] []
  | receiving {es : List (Result ε γ)} {errs : List ε} (hes : Failures es errs) :
    Phase n (.receiving errs.length errs) .absent [] es
  | found {es : List (Result ε γ)} {errs : List ε} {best : Result ε γ} (hes : Failures es errs)
    (hbest : best.isOk = true) : Phase n (.found best errs) .absent [] (es ++ [best])
  | failed {es : List (Result ε γ)} {errs : List ε} {d : Drain} (hes : Failures es errs)
    (hn : errs.length = n) (hd : d.Ending) : Phase n (.returned (.failed errs)) d [] es
  | draining {es : List (Result ε γ)} {errs : List ε} {best : Result ε γ}
    (late : List (Result ε γ)) (hes : Failures es errs) (hbest : best.isOk = true) :
    Phase n (.returned (.conn best)) (.draining (errs.length + 1 + late.length))
      (late.filter Result.isOk) (es ++ best :: late)
  | drained {es late : List (Result ε γ)} {errs : List ε} {best : Result ε γ} {d : Drain}
    (hes : Failures es errs) (hbest : best.isOk = true) (hn : errs.length + 1 + late.length = n)
    (hd : d.Ending) :
    Phase n (.returned (.conn best)) d (late.filter Result.isOk) (es ++ best :: late)

/-- What holds in every state of a run. -/
structure Inv (n : ℕ) (s : State ε γ) : Prop where
  -- every goroutine sends one result
  arrived : s.arrived.length + s.dialing = n
  done_of_isClosed : s.isClosed = true → ∀ g ∈ s.goroutines, g = .done
  not_panicked : s.panicked = false
  phase : ∃ received, Phase n s.main s.drain s.closed received ∧ s.arrived = received ++ s.resCh

variable {es : List (Result ε γ)} {i : ℕ}

section Invariant

variable {n i : ℕ} {s s' : State ε γ} {errs : List ε} {best : Result ε γ} {main : Main ε γ}
  {drain : Drain} {closed received : List (Result ε γ)}

theorem Failures.length_eq (h : Failures es errs) : es.length = errs.length := by
  have hlen := congrArg List.length h
  rwa [length_map, length_map] at hlen

theorem Failures.filter_isOk (h : Failures es errs) : es.filter Result.isOk = [] := by
  refine filter_eq_nil_iff.mpr fun res hres => ?_
  have hmem : res.outcome ∈ errs.map Except.error := h ▸ mem_map_of_mem hres
  obtain ⟨e, -, he⟩ := mem_map.mp hmem
  rw [Result.isOk, ← he]
  exact Bool.false_ne_true

variable {res : Result ε γ}

theorem Failures.concat (h : Failures es errs) {e : ε} (hres : res.outcome = .error e) :
    Failures (es ++ [res]) (errs ++ [e]) := by
  unfold Failures
  rw [map_append, map_append, h]
  show _ ++ [res.outcome] = _
  rw [hres]
  rfl

/-! The phases by where the caller and its goroutine are. -/

theorem Phase.of_receiving (h : Phase n (.receiving i errs) drain closed received) :
    i = errs.length ∧ drain = .absent ∧ closed = [] ∧ Failures received errs := by
  cases h with
  | receiving hes => exact ⟨rfl, rfl, rfl, hes⟩

theorem Phase.of_found (h : Phase n (.found best errs) drain closed received) :
    drain = .absent ∧ closed = [] ∧ best.isOk = true ∧
      ∃ es, Failures es errs ∧ received = es ++ [best] := by
  cases h with
  | found hes hbest => exact ⟨rfl, rfl, hbest, _, hes, rfl⟩

theorem Phase.of_draining (h : Phase n main (.draining i) closed received) :
    ∃ es errs best late, Failures es errs ∧ best.isOk = true ∧ main = .returned (.conn best) ∧
      i = errs.length + 1 + late.length ∧ closed = late.filter Result.isOk ∧
      received = es ++ best :: late := by
  cases h with
  | draining _ hes hbest => exact ⟨_, _, _, _, hes, hbest, rfl, rfl, rfl, rfl⟩
  | failed _ _ hd | drained _ _ _ hd => exact absurd hd (by rintro (h | h) <;> cases h)

/-- In `wg.Wait` all results have been received. -/
theorem Phase.of_ending (hd : drain.Ending) (h : Phase n main drain closed received) :
    received.length = n ∧ ∀ d : Drain, d.Ending → Phase n main d closed received := by
  cases h with
  | failed hes hn _ => exact ⟨hes.length_eq.trans hn, fun d hd => .failed hes hn hd⟩
  | drained hes hbest hn _ =>
    refine ⟨?_, fun d hd => .drained hes hbest hn hd⟩
    rw [length_append, hes.length_eq, length_cons, ← hn]
    omega
  | noNodes | receiving | found | draining => exact absurd hd (by rintro (h | h) <;> cases h)

theorem inv_start (n : ℕ) : Inv n (start n : State ε γ) where
  arrived := by
    show 0 + (List.replicate n Goroutine.dialing).countP _ = n
    rw [countP_replicate, Nat.zero_add]
    exact if_pos rfl
  done_of_isClosed := nofun
  not_panicked := rfl
  phase := by
    refine ⟨[], ?_, rfl⟩
    show Phase n (if n = 0 then _ else _) _ _ _
    split_ifs with hn
    · exact .noNodes hn
    · exact .receiving (show Failures [] [] from rfl)

/-- The results that are received come first in the history. -/
theorem Inv.length_le (hs : Inv n s) {received : List (Result ε γ)}
    (h : s.arrived = received ++ s.resCh) :
    received.length + s.resCh.length + s.dialing = n := by
  have hlen := congrArg List.length h
  rw [length_append] at hlen
  rw [← hlen]
  exact hs.arrived

/-- A result leaves the channel. -/
theorem arrived_eq_of_recv {rest : List (Result ε γ)} (h : s.arrived = received ++ s.resCh)
    (hch : s.resCh = res :: rest) : s.arrived = (received ++ [res]) ++ rest := by
  rw [h, hch, append_assoc, singleton_append]

/-- A late connection is closed, an error is dropped. -/
theorem close_late (late : List (Result ε γ)) (res : Result ε γ) :
    (if res.isOk then late.filter Result.isOk ++ [res] else late.filter Result.isOk) =
      (late ++ [res]).filter Result.isOk := by
  rw [filter_append]
  by_cases hok : res.isOk = true
  · rw [if_pos hok, filter_cons_of_pos hok, filter_nil]
  · rw [if_neg hok, filter_cons_of_neg hok, filter_nil, append_nil]

theorem Inv.step (hs : Inv n s) (h : StepCase n s s') : Inv n s' := by
  obtain ⟨received, hphase, harrived⟩ := hs.phase
  have hlen := hs.length_le harrived
  cases h with
  | send i outcome hi =>
    refine ⟨?_, fun hclosed => ?_, hs.not_panicked, received, hphase, ?_⟩
    · have hcount := countP_set_add (p := fun g => decide (g = Goroutine.dialing)) (b := .sent) hi
      have hsum := hs.arrived
      show (s.arrived ++ [_]).length + (s.goroutines.set i .sent).countP _ = n
      unfold State.dialing at hsum
      simp only [length_append, length_singleton, decide_true, reduceCtorEq,
        decide_false, if_true, Bool.false_eq_true, if_false] at hcount ⊢
      omega
    · have hdone := hs.done_of_isClosed hclosed _ (mem_of_getElem? hi)
      cases hdone
    · rw [harrived, append_assoc]
  | panic i hi hclosed =>
    -- the channel is closed only after all goroutines are done
    have hdone := hs.done_of_isClosed hclosed _ (mem_of_getElem? hi)
    cases hdone
  | done i hi =>
    refine ⟨?_, fun hclosed g hg => ?_, hs.not_panicked, received, hphase, harrived⟩
    · have hcount := countP_set_add (p := fun g => decide (g = Goroutine.dialing)) (b := .done) hi
      have hsum := hs.arrived
      show s.arrived.length + (s.goroutines.set i .done).countP _ = n
      unfold State.dialing at hsum
      simp only [reduceCtorEq, decide_false, Bool.false_eq_true, if_false] at hcount
      omega
    · rcases mem_or_eq_of_mem_set hg with hg | hg
      · exact hs.done_of_isClosed hclosed g hg
      · exact hg
  | error hmain hi hch hres =>
    rw [hmain] at hphase
    obtain ⟨rfl, hdrain, hclosed, hes⟩ := hphase.of_receiving
    have hrecv := arrived_eq_of_recv harrived hch
    refine { hs with phase := ⟨_, ?_, hrecv⟩ }
    have hnext : Phase n (.receiving _ _) .absent [] _ := .receiving (hes.concat hres)
    rw [length_append] at hnext
    rw [hdrain, hclosed]
    exact hnext
  | conn hmain hi hch hres =>
    rw [hmain] at hphase
    obtain ⟨-, hdrain, hclosed, hes⟩ := hphase.of_receiving
    have hrecv := arrived_eq_of_recv harrived hch
    refine { hs with phase := ⟨_, ?_, hrecv⟩ }
    rw [hdrain, hclosed]
    exact .found hes hres
  | exhausted hmain hi =>
    rw [hmain] at hphase
    obtain ⟨rfl, -, hclosed, hes⟩ := hphase.of_receiving
    refine { hs with phase := ⟨received, ?_, harrived⟩ }
    rw [hclosed]
    refine .failed hes ?_ (.inl rfl)
    rw [hes.length_eq] at hlen
    omega
  | found hmain =>
    rw [hmain] at hphase
    obtain ⟨-, hclosed, hbest, es, hes, rfl⟩ := hphase.of_found
    refine { hs with phase := ⟨_, ?_, harrived⟩ }
    rw [hclosed]
    exact .draining [] hes hbest
  | late res hdrain hi hch =>
    rw [hdrain] at hphase
    obtain ⟨es, errs, best, late, hes, hbest, hmain, rfl, hclosed, rfl⟩ := hphase.of_draining
    have hrecv := arrived_eq_of_recv harrived hch
    refine { hs with phase := ⟨_, ?_, hrecv⟩ }
    have hnext : Phase n (.returned (.conn best)) (.draining _) _ _ :=
      .draining (late ++ [res]) hes hbest
    rw [length_append] at hnext
    rw [hmain, hclosed, close_late, append_assoc, cons_append]
    exact hnext
  | drained hdrain hi =>
    rw [hdrain] at hphase
    obtain ⟨es, errs, best, late, hes, hbest, hmain, rfl, hclosed, rfl⟩ := hphase.of_draining
    refine { hs with phase := ⟨_, ?_, harrived⟩ }
    rw [hmain, hclosed]
    refine .drained hes hbest ?_ (.inl rfl)
    rw [length_append, hes.length_eq, length_cons] at hlen
    omega
  | stop hdrain hdone =>
    rw [hdrain] at hphase
    refine ⟨hs.arrived, fun _ => hdone, hs.not_panicked, received, ?_, harrived⟩
    exact (hphase.of_ending (.inl rfl)).2 .stopped (.inr rfl)

end Invariant

/-! ## Every run ends -/

section Termination

variable {n : ℕ} {s s' : State ε γ}

/-- The steps that a goroutine has left. -/
def Goroutine.left : Goroutine → ℕ
  | .dialing => 2
  | .sent => 1
  | .done => 0

def Main.left (n : ℕ) : Main ε γ → ℕ
  | .receiving i _ => n - i + 2
  | .found _ _ => 1
  | .returned _ => 0

def Drain.left (n : ℕ) : Drain → ℕ
  | .absent => n + 2
  | .draining i => n - i + 2
  | .waiting => 1
  | .stopped => 0

/-- At most so many steps are left. -/
def State.left (n : ℕ) (s : State ε γ) : ℕ :=
  (s.goroutines.map Goroutine.left).sum + (s.main.left n + s.drain.left n)

theorem left_lt_of_goroutine {g g' : Goroutine} (hi : s.goroutines[i]? = some g)
    (hlt : g'.left < g.left) (hset : s'.goroutines = s.goroutines.set i g')
    (hmain : s'.main = s.main) (hdrain : s'.drain = s.drain) : s'.left n < s.left n := by
  have hsum : ((s.goroutines.set i g').map Goroutine.left).sum + g.left = _ + g'.left :=
    sum_map_set_add hi
  unfold State.left
  rw [hset, hmain, hdrain]
  omega

theorem left_lt_of_main (hsame : s'.goroutines = s.goroutines)
    (hlt : s'.main.left n + s'.drain.left n < s.main.left n + s.drain.left n) :
    s'.left n < s.left n := by
  unfold State.left
  rw [hsame]
  exact Nat.add_lt_add_left hlt _

theorem Inv.left_lt (hs : Inv n s) (h : StepCase n s s') : s'.left n < s.left n := by
  obtain ⟨received, hphase, -⟩ := hs.phase
  cases h with
  | send i _ hi | panic i hi | done i hi =>
    exact left_lt_of_goroutine hi (by decide) rfl rfl rfl
  | error hmain hi | conn hmain hi =>
    refine left_lt_of_main rfl ?_
    rw [hmain]
    simp only [Main.left]
    omega
  | exhausted hmain hi =>
    rw [hmain] at hphase
    refine left_lt_of_main rfl ?_
    rw [hmain, hphase.of_receiving.2.1]
    simp only [Main.left, Drain.left]
    omega
  | found hmain =>
    rw [hmain] at hphase
    refine left_lt_of_main rfl ?_
    rw [hmain, hphase.of_found.1]
    simp only [Main.left, Drain.left]
    omega
  | late _ hdrain hi | drained hdrain hi | stop hdrain =>
    refine left_lt_of_main rfl ?_
    rw [hdrain]
    simp only [Drain.left]
    omega

theorem left_start_le (n : ℕ) : (start n : State ε γ).left n ≤ 4 * n + 4 := by
  have hgoroutines : ((List.replicate n Goroutine.dialing).map Goroutine.left).sum = n * 2 := by
    rw [map_replicate, sum_replicate_nat, Goroutine.left]
  have hmain : Main.left n (if n = 0 then .returned .noNodes else .receiving 0 [] : Main ε γ) ≤
      n + 2 := by
    split_ifs
    · exact Nat.zero_le _
    · exact Nat.le_refl _
  show ((List.replicate n Goroutine.dialing).map Goroutine.left).sum +
    (Main.left n (if n = 0 then _ else _) + (n + 2)) ≤ _
  omega

end Termination

/-! ## How a run ends -/

section Final

variable {n : ℕ} {s : State ε γ}

/-- All results are received, and of the connections the first to arrive is returned and every
other one is closed, each once. -/
structure Finished (n : ℕ) (s : State ε γ) : Prop where
  arrived : s.arrived.length = n
  resCh : s.resCh = []
  outcome : n = 0 ∧ s.main = .returned .noNodes ∨ s.drain = .stopped ∧
    ((∃ errs, s.main = .returned (.failed errs)) ∨
      ∃ best, s.main = .returned (.conn best) ∧ s.arrived.filter Result.isOk = best :: s.closed)

/-- The goroutine receives as often as there are results to come. -/
theorem Inv.receives (hs : Inv n s) (hdrain : s.drain = .draining i) :
    i + (s.resCh.length + s.dialing) = n := by
  obtain ⟨received, hphase, harrived⟩ := hs.phase
  have hlen := hs.length_le harrived
  rw [hdrain] at hphase
  obtain ⟨es, errs, best, late, hes, -, -, rfl, -, rfl⟩ := hphase.of_draining
  rw [length_append, hes.length_eq, length_cons] at hlen
  omega

/-- A goroutine that is not done can move, or none has a result to send. -/
theorem done_of_stuck (hstuck : ∀ op, step n s op = none) (hdialing : s.dialing = 0) :
    ∀ g ∈ s.goroutines, g = .done := by
  intro g hg
  obtain ⟨i, hi⟩ := mem_iff_getElem?.mp hg
  cases g with
  | done => rfl
  | sent =>
    have hmove := hstuck (.done i)
    dsimp only [step] at hmove
    rw [if_pos hi] at hmove
    cases hmove
  | dialing => exact absurd (decide_eq_true rfl) (countP_eq_zero.mp hdialing _ hg)

/-- With all results received, `wg.Wait` returns. -/
theorem Inv.stopped_of_ending (hs : Inv n s) (hstuck : ∀ op, Parallel.step n s op = none)
    (hd : s.drain.Ending) : s.drain = .stopped := by
  obtain ⟨received, hphase, harrived⟩ := hs.phase
  have hlen := hs.length_le harrived
  have hreceived := (hphase.of_ending hd).1
  rcases hd with hd | hd
  · have hdone : ∀ g ∈ s.goroutines, g = .done := done_of_stuck hstuck (by omega)
    have hmove : drainStep n s = none := hstuck .drain
    unfold drainStep at hmove
    rw [hd] at hmove
    rw [if_pos hdone] at hmove
    cases hmove
  · exact hd

variable {errs : List ε}

/-- The first success of the history. -/
theorem filter_isOk_of_failures {late : List (Result ε γ)} {best : Result ε γ}
    (hes : Failures es errs) (hbest : best.isOk = true) :
    (es ++ best :: late).filter Result.isOk = best :: late.filter Result.isOk := by
  rw [filter_append, hes.filter_isOk, filter_cons_of_pos hbest, nil_append]

section Stuck

variable [Inhabited ε] (hs : Inv n s) (hstuck : ∀ op, Parallel.step n s op = none)
include hs hstuck

/-- A dial that has not completed can do so. -/
theorem Inv.dialing_eq_zero (hroom : s.resCh.length < n) : s.dialing = 0 := by
  refine countP_eq_zero.mpr fun g hg hdialing => ?_
  obtain rfl := of_decide_eq_true hdialing
  obtain ⟨i, hi⟩ := mem_iff_getElem?.mp hg
  have hopen : ¬s.isClosed = true := fun hclosed => nomatch hs.done_of_isClosed hclosed _ hg
  have hmove := hstuck (.send i (.error default))
  dsimp only [Parallel.step] at hmove
  rw [if_pos hi, if_neg hopen, if_pos hroom] at hmove
  cases hmove

/-- The caller is not blocked before it has its results. -/
theorem Inv.not_receiving : s.main ≠ .receiving i errs := by
  intro hmain
  obtain ⟨received, hphase, harrived⟩ := hs.phase
  have hlen := hs.length_le harrived
  rw [hmain] at hphase
  obtain ⟨rfl, -, -, hes⟩ := hphase.of_receiving
  have hmove : mainStep n s = none := hstuck .main
  unfold mainStep at hmove
  rw [hmain] at hmove
  dsimp only at hmove
  split_ifs at hmove with hi
  split at hmove
  next hch =>
    -- the channel is empty, so a dial is still to complete
    rw [hch, length_nil] at hlen
    have hzero := hs.dialing_eq_zero hstuck (by rw [hch]; exact Nat.zero_lt_of_lt hi)
    rw [hes.length_eq] at hlen
    omega
  · split at hmove <;> cases hmove

/-- The goroutine that drains the channel is not blocked either. -/
theorem Inv.not_draining : s.drain ≠ .draining i := by
  intro hdrain
  have hreceives := hs.receives hdrain
  have hmove : drainStep n s = none := hstuck .drain
  unfold drainStep at hmove
  rw [hdrain] at hmove
  dsimp only at hmove
  split_ifs at hmove with hi
  split at hmove
  next hch =>
    rw [hch, length_nil] at hreceives
    have hzero := hs.dialing_eq_zero hstuck (by rw [hch]; exact Nat.zero_lt_of_lt hi)
    omega
  · cases hmove

theorem Inv.finished : Finished n s := by
  obtain ⟨received, hphase, harrived⟩ := hs.phase
  have hlen := hs.length_le harrived
  have hending : s.drain.Ending → s.drain = .stopped := hs.stopped_of_ending hstuck
  have hreceiving : ∀ i errs, s.main ≠ .receiving i errs := fun i errs => hs.not_receiving hstuck
  have hdraining : ∀ i, s.drain ≠ .draining i := fun i => hs.not_draining hstuck
  have hmove : mainStep n s = none := hstuck .main
  -- once all are received, nothing is left in the channel
  have hall : received.length = n → s.arrived.length = n ∧ s.resCh = [] := fun h =>
    ⟨by have := hs.arrived; omega, length_eq_zero_iff.mp (by omega)⟩
  generalize hm : s.main = main at hphase hreceiving
  generalize hd : s.drain = drain at hphase hending hdraining
  generalize hc : s.closed = closed at hphase
  cases hphase with
  | noNodes hn =>
    obtain ⟨h₁, h₂⟩ := hall hn.symm
    exact ⟨h₁, h₂, .inl ⟨hn, hm⟩⟩
  | receiving => exact absurd rfl (hreceiving _ _)
  | found =>
    unfold mainStep at hmove
    rw [hm] at hmove
    cases hmove
  | failed hes hn hd' =>
    obtain ⟨h₁, h₂⟩ := hall (hes.length_eq.trans hn)
    exact ⟨h₁, h₂, .inr ⟨hd.trans (hending hd'), .inl ⟨_, hm⟩⟩⟩
  | draining => exact absurd rfl (hdraining _)
  | @drained es late errs best _ hes hbest hn hd' =>
    have hreceived : (es ++ best :: late).length = n := by
      rw [length_append, hes.length_eq, length_cons, ← hn]
      omega
    obtain ⟨h₁, h₂⟩ := hall hreceived
    refine ⟨h₁, h₂, .inr ⟨hd.trans (hending hd'), .inr ⟨best, hm, ?_⟩⟩⟩
    rw [harrived, h₂, append_nil, filter_isOk_of_failures hes hbest, hc]

end Stuck

/-- What `Dial` returns at any time of a run. -/
theorem Inv.returned (hs : Inv n s) :
    (∀ best, s.main = .returned (.conn best) → (s.arrived.filter Result.isOk).head? = some best) ∧
    ∀ errs, s.main = .returned (.failed errs) →
      Failures s.arrived errs ∧ s.arrived.length = n ∧ s.resCh = [] ∧ s.drain.Ending := by
  obtain ⟨received, hphase, harrived⟩ := hs.phase
  have hlen := hs.length_le harrived
  constructor
  · intro best hmain
    have hfirst : ∀ {es late errs}, Failures es errs → best.isOk = true →
        s.arrived = es ++ best :: late ++ s.resCh →
        (s.arrived.filter Result.isOk).head? = some best := by
      intro es late errs hes hbest h
      rw [h, append_assoc, cons_append, filter_isOk_of_failures hes hbest]
      rfl
    rw [hmain] at hphase
    generalize s.drain = drain at hphase
    generalize s.closed = closed at hphase
    cases hphase with
    | draining _ hes hbest | drained hes hbest => exact hfirst hes hbest harrived
  · intro errs hmain
    rw [hmain] at hphase
    generalize s.closed = closed at hphase
    cases hphase with
    | failed hes hn hending =>
      have hch : s.resCh = [] := length_eq_zero_iff.mp (by rw [hes.length_eq] at hlen; omega)
      rw [harrived, hch, append_nil]
      exact ⟨hes, hes.length_eq.trans hn, rfl, hending⟩

end Final

/-- `Dial` for any number of nodes, with the dials completing in any order.

Every run is finite and no goroutine sends to a closed channel. If a connection is returned, it is
the first that has arrived; a goroutine that is left behind has as many receives to make as there
are results still to come. If errors are returned, they are those of all nodes and nothing waits
for a result any more. When nothing can move, `Finished` holds. -/
theorem dial_leaks_nothing [Inhabited ε] (n : ℕ) {ops : List (Op ε γ)} {s : State ε γ}
    (hrun : run (step n) (start n) ops = some s) :
    ops.length ≤ 4 * n + 4 ∧ s.panicked = false ∧
    (∀ best, s.main = .returned (.conn best) →
      (s.arrived.filter Result.isOk).head? = some best) ∧
    (∀ i, s.drain = .draining i → i + (s.resCh.length + s.dialing) = n) ∧
    (∀ errs, s.main = .returned (.failed errs) → Failures s.arrived errs ∧
      s.arrived.length = n ∧ s.resCh = [] ∧ s.drain.Ending) ∧
    ((∀ op, step n s op = none) → Finished n s) := by
  have hkeep : ∀ (s : State ε γ) op s', Inv n s → step n s op = some s' → Inv n s' :=
    fun _ _ _ hs h => hs.step (step_cases h)
  have hs : Inv n s := run_induction hkeep (inv_start n) hrun
  have hsteps := length_add_le_of_measure hkeep
    (fun _ _ _ hs h => hs.left_lt (step_cases h)) (inv_start n) hrun
  have hstart : (start n : State ε γ).left n ≤ 4 * n + 4 := left_start_le n
  exact ⟨by omega, hs.not_panicked, hs.returned.1, fun i => hs.receives, hs.returned.2,
    hs.finished⟩

/-- Three nodes: the second fails, the first is returned, and the third, which connects late, is
closed. -/
def lateConnection : List (Op ℕ ℕ) :=
  [.send 1 (.error 7), .main, .send 0 (.ok 10), .main, .main, .send 2 (.ok 12), .drain, .drain,
    .done 0, .done 1, .done 2, .drain]

theorem dial_leaks_nothing_late :
    ∃ s, run (step 3) (start 3) lateConnection = some s ∧ s.closed = [⟨2, .ok 12⟩] ∧
      (s.arrived.filter Result.isOk).head? = some ⟨0, .ok 10⟩ := by
  have hrun : run (step 3) (start 3) lateConnection = some _ := rfl
  exact ⟨_, hrun, rfl, (dial_leaks_nothing 3 hrun).2.2.1 ⟨0, .ok 10⟩ rfl⟩

end Chains.Parallel

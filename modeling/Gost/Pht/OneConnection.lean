import Gost.Lib.TransitionSystem
import Gost.Pht.Tunnel

/-!
# One connection for a token

As long as every request is looked up while `conns` has a pipe for the token, all handlers share the
pipe of `handleAuthorize`: `Attached`. But the entry is deleted at the end of a pull, by `Close` and
when a push fails, and a request that is looked up later gets a second connection queued:
`run_lookup`. The client itself sends such a request when the application has closed the connection,
unless the last pull had no line at all: `run_finish`.
-/

namespace Pht

namespace State

open List Option TransitionSystem

/-! ## The invariant -/

/-- The requests of the token are looked up while it has an entry. -/
def Found (s : State) : Event → Prop
  | .handler _ .load => s.entry ≠ none
  | _ => True

/-- A handler that has only seen the first pipe. -/
structure HandlerAttached (entry : Option ℕ) (x : Handler) : Prop where
  stage : x.stage = .load ∨ x.stage = .serve 0 ∨ ∃ actions, x.stage = .cleanup 0 actions
  ok : x.ok = true
  deleted : x.request = .pull → ∀ actions, x.stage = .cleanup 0 actions → .delete ∉ actions →
    entry = none

structure Attached (s : State) : Prop where
  queued : s.queued = [0]
  entry : ∀ p, s.entry = some p → p = 0
  handlers : ∀ (h : ℕ) (x : Handler), s.handlers[h]? = some x → HandlerAttached s.entry x
  pulling : ∀ h n, s.client.loop = .pulling h n →
    ∃ x, s.handlers[h]? = some x ∧ x.request = .pull

variable {s s' : State} {h : ℕ} {x x' : Handler}

theorem attached_authorized : Attached authorized where
  queued := rfl
  entry _ hp := (some.inj hp).symm
  handlers _ x hx := absurd hx.symm (some_ne_none x)
  pulling _ _ hloop := Loop.noConfusion hloop

theorem getElem?_setHandler (hx : s.handlers[h]? = some x) (h' : ℕ) :
    (s.setHandler h x').handlers[h']? = if h' = h then some x' else s.handlers[h']? := by
  have hlt : h < s.handlers.length := (List.getElem?_eq_some_iff.mp hx).1
  show (s.handlers.set h x')[h']? = _
  rw [getElem?_set]
  split_ifs with h₁ h₂ h₂
  · rfl
  · exact absurd h₁.symm h₂
  · exact absurd h₂.symm h₁
  · rfl

theorem getElem?_setHandler_self (hx : s.handlers[h]? = some x) :
    (s.setHandler h x').handlers[h]? = some x' := (getElem?_setHandler hx h).trans (if_pos rfl)

theorem Attached.setHandler (hs : Attached s) (hx : s.handlers[h]? = some x)
    (hrequest : x'.request = x.request) (hx' : HandlerAttached s.entry x') :
    Attached (s.setHandler h x') where
  queued := hs.queued
  entry := hs.entry
  handlers h' y hy := by
    rw [getElem?_setHandler hx] at hy
    split_ifs at hy
    · cases hy
      exact hx'
    · exact hs.handlers h' y hy
  pulling h' n hloop := by
    obtain ⟨y, hy, hpull⟩ := hs.pulling h' n hloop
    rw [getElem?_setHandler hx]
    split_ifs with heq
    · rw [heq, hx, some.injEq] at hy
      exact ⟨x', rfl, by rw [hrequest, hy, hpull]⟩
    · exact ⟨y, hy, hpull⟩

/-- Only the client changes, and it is not in another pull. -/
theorem Attached.setClient (hs : Attached s) {client : Client}
    (hloop : ∀ h n, client.loop = .pulling h n → ∃ m, s.client.loop = .pulling h m) :
    Attached { s with client } where
  queued := hs.queued
  entry := hs.entry
  handlers := hs.handlers
  pulling h n hpulling := by
    obtain ⟨m, hm⟩ := hloop h n hpulling
    exact hs.pulling h m hm

theorem handlerAttached_new (entry : Option ℕ) (r : Request) :
    HandlerAttached entry { request := r } :=
  ⟨.inl rfl, rfl, fun _ _ hstage => Stage.noConfusion hstage⟩

theorem Attached.request (hs : Attached s) (r : Request) : Attached (s.request r) where
  queued := hs.queued
  entry := hs.entry
  handlers h x hx := by
    change (s.handlers ++ [{ request := r }])[h]? = some x at hx
    rw [getElem?_append] at hx
    split_ifs at hx
    · exact hs.handlers h x hx
    · rw [mem_singleton.mp (mem_of_getElem? hx)]
      exact handlerAttached_new s.entry r
  pulling h n hloop := by
    obtain ⟨x, hx, hpull⟩ := hs.pulling h n hloop
    exact ⟨x, (List.getElem?_append_left (List.getElem?_eq_some_iff.mp hx).1).trans hx, hpull⟩

theorem Attached.delete (hs : Attached s) : Attached { s with entry := none } where
  queued := hs.queued
  entry p hp := absurd hp.symm (some_ne_none p)
  handlers h x hx := ⟨(hs.handlers h x hx).stage, (hs.handlers h x hx).ok, fun _ _ _ _ => rfl⟩
  pulling := hs.pulling

theorem Attached.act (hs : Attached s) (p : ℕ) (a : Action) : Attached (s.act p a) := by
  cases a with
  | delete => exact hs.delete
  | close | closeApp => exact ⟨hs.queued, hs.entry, hs.handlers, hs.pulling⟩

theorem handlers_act (p : ℕ) (a : Action) : (s.act p a).handlers = s.handlers := by
  cases a <;> rfl

/-! ## Handlers -/

variable {actions : List Action} {c : Client} {e : Event} {p n : ℕ}

section Handlers

variable (hs : Attached s) (hx : s.handlers[h]? = some x)
include hs hx

/-- A handler with a pipe goes on, or to its end. A pull has to delete the entry there. -/
theorem Attached.setStage {lines : List Bytes} (hdelete : x.request = .pull → .delete ∈ actions) :
    Attached (s.setHandler h { x with stage := .cleanup 0 actions, lines }) := by
  refine hs.setHandler hx rfl ⟨.inr (.inr ⟨actions, rfl⟩), (hs.handlers h x hx).ok, ?_⟩
  intro hpull actions' hstage hnot
  obtain ⟨-, rfl⟩ := Stage.cleanup.inj hstage
  exact absurd (hdelete hpull) hnot

theorem Attached.addLine (line : Bytes) :
    Attached (s.setHandler h { x with lines := x.lines ++ [line] }) :=
  hs.setHandler hx rfl
    ⟨(hs.handlers h x hx).stage, (hs.handlers h x hx).ok, (hs.handlers h x hx).deleted⟩

theorem Attached.load (hfound : s.entry ≠ none) (hstep : s.load h x = some s') : Attached s' := by
  unfold State.load at hstep
  split_ifs at hstep
  cases hstep
  -- The entry is there, and it can only be the first pipe.
  obtain ⟨p, hp⟩ := ne_none_iff_exists'.mp hfound
  obtain rfl := hs.entry p hp
  rw [hp]
  refine hs.setHandler hx rfl ⟨.inr (.inl rfl), (hs.handlers h x hx).ok, ?_⟩
  exact fun _ _ hstage => Stage.noConfusion hstage

/-- No handler comes to create a pipe. -/
theorem Attached.store_eq_none : s.store h x = none := by
  rcases (hs.handlers h x hx).stage with hstage | hstage | ⟨actions, hstage⟩ <;>
    rw [State.store, hstage] <;> rfl

theorem Attached.enqueue_eq_none (full : Bool) : s.enqueue h x full = none := by
  rcases (hs.handlers h x hx).stage with hstage | hstage | ⟨actions, hstage⟩ <;>
    rw [State.enqueue, hstage]

variable {t : Transfer}

theorem Attached.servePush {data : Bytes} (hrequest : x.request = .push data)
    (hstep : s.servePush h x 0 data t = some s') : Attached s' := by
  have hpush {actions : List Action} (hpull : x.request = .pull) : .delete ∈ actions :=
    Request.noConfusion (hrequest.symm.trans hpull)
  unfold State.servePush at hstep
  split at hstep
  · split_ifs at hstep
    cases hstep
    exact hs.setStage hx hpush
  · cases hstep
    exact hs.setStage hx hpush
  · split_ifs at hstep
    cases hstep
    exact hs.setStage hx hpush
  · cases hstep

theorem Attached.servePull (hstep : s.servePull h x 0 t = some s') : Attached s' := by
  unfold State.servePull at hstep
  split at hstep
  · split_ifs at hstep
    cases hstep
    exact hs.addLine hx _
  · split_ifs at hstep
    cases hstep
    exact hs.addLine hx _
  · split_ifs at hstep
    cases hstep
    exact hs.setStage hx fun _ => mem_cons_self
  · split_ifs at hstep
    cases hstep
    exact hs.setStage hx fun _ => mem_cons_self
  · cases hstep

theorem Attached.serve (hstep : s.serve h x t = some s') : Attached s' := by
  unfold State.serve at hstep
  rcases (hs.handlers h x hx).stage with hstage | hstage | ⟨actions, hstage⟩
  · rw [hstage] at hstep
    cases hstep
  · rw [hstage] at hstep
    cases hrequest : x.request with
    | pull =>
      rw [hrequest] at hstep
      exact hs.servePull hx hstep
    | push data =>
      rw [hrequest] at hstep
      exact hs.servePush hx hrequest hstep
  · rw [hstage] at hstep
    cases hstep

theorem Attached.cleanup (hstep : s.cleanup h x = some s') : Attached s' := by
  unfold State.cleanup at hstep
  split at hstep
  next p a actions hstage =>
    cases hstep
    have hp : p = 0 := by
      rcases (hs.handlers h x hx).stage with h₁ | h₁ | ⟨actions', h₁⟩
      · exact Stage.noConfusion (hstage.symm.trans h₁)
      · exact Stage.noConfusion (hstage.symm.trans h₁)
      · exact (Stage.cleanup.inj (hstage.symm.trans h₁)).1
    subst hp
    have hx' : (s.act 0 a).handlers[h]? = some x := by
      rw [handlers_act]
      exact hx
    refine (hs.act 0 a).setHandler hx' rfl
      ⟨.inr (.inr ⟨actions, rfl⟩), (hs.handlers h x hx).ok, ?_⟩
    intro hpull actions' heq hnot
    obtain ⟨-, rfl⟩ := Stage.cleanup.inj heq
    -- Either this action is the deletion, or it had been done before.
    have hdeleted (ha : a ≠ .delete) : s.entry = none := by
      refine (hs.handlers h x hx).deleted hpull _ hstage fun hmem => ?_
      exact (mem_cons.mp hmem).elim (fun heq => ha heq.symm) hnot
    cases a with
    | delete => rfl
    | close | closeApp => exact hdeleted nofun
  · cases hstep

theorem Attached.handle {e : HandlerStep}
    (hfound : Found s (.handler h e)) (hstep : s.handle h x e = some s') : Attached s' := by
  cases e with
  | load => exact hs.load hx hfound hstep
  | store => exact absurd ((hs.store_eq_none hx).symm.trans hstep).symm (some_ne_none s')
  | enqueue full =>
    exact absurd ((hs.enqueue_eq_none hx full).symm.trans hstep).symm (some_ne_none s')
  | serve t => exact hs.serve hx hstep
  | cleanup => exact hs.cleanup hx hstep

end Handlers

/-! ## Steps of the client -/

theorem Attached.pull (hs : Attached s) (hstep : s.pull = some s') : Attached s' := by
  unfold State.pull at hstep
  split_ifs at hstep
  · cases hstep
    exact hs.setClient fun _ _ hloop => Loop.noConfusion hloop
  · cases hstep
    -- The new handler is the one that the client waits for.
    refine ⟨hs.queued, hs.entry, (hs.request .pull).handlers, fun h n hloop => ?_⟩
    obtain ⟨rfl, -⟩ := Loop.pulling.inj hloop
    exact ⟨{ request := .pull }, getElem?_concat_length, rfl⟩

theorem Attached.scan (hs : Attached s) (hstep : s.scan = some s') : Attached s' := by
  unfold State.scan at hstep
  split at hstep
  next h n hloop =>
    obtain ⟨line, -, hline⟩ := bind_eq_some_iff.mp hstep
    split_ifs at hline
    · cases hline
      exact hs.setClient fun h' n' heq => ⟨n, by rw [hloop, (Loop.pulling.inj heq).1]⟩
    · cases hline
      exact hs.setClient fun h' n' heq => ⟨n, by rw [hloop, (Loop.pulling.inj heq).1]⟩
  · cases hstep

theorem Attached.scanEnd (hs : Attached s) (hstep : s.scanEnd = some s') : Attached s' := by
  unfold State.scanEnd at hstep
  split at hstep
  next h n hloop =>
    obtain ⟨x, -, hx⟩ := bind_eq_some_iff.mp hstep
    split_ifs at hx
    · cases hx
      exact hs.setClient fun _ _ heq => Loop.noConfusion heq
    · cases hx
      exact hs.setClient fun _ _ heq => Loop.noConfusion heq
  · cases hstep

theorem Attached.fail (hs : Attached s) (hstep : s.fail = some s') : Attached s' := by
  unfold State.fail at hstep
  split at hstep
  · cases hstep
    exact hs.setClient fun _ _ hloop => Loop.noConfusion hloop
  · cases hstep

theorem loop_read {c' : Client} {size : ℕ} {preferClosed : Bool} {r : ReadResult}
    (hread : c.read size preferClosed = some (r, c')) : c'.loop = c.loop := by
  unfold Client.read at hread
  split at hread
  · split at hread
    · rw [← (Prod.mk.inj (some.inj hread)).2]
    · cases hrxc : c.rxc with
      | cons b rxc =>
        rw [hrxc] at hread
        rw [← (Prod.mk.inj (some.inj hread)).2]
      | nil =>
        rw [hrxc] at hread
        split_ifs at hread
        rw [← (Prod.mk.inj (some.inj hread)).2]
  · rw [← (Prod.mk.inj (some.inj hread)).2]

theorem attached_step (hs : Attached s) (hfound : s.Found e) (hstep : s.step e = some s') :
    Attached s' := by
  cases e with
  | pull => exact hs.pull hstep
  | write b =>
    replace hstep : s.write b = some s' := hstep
    unfold State.write at hstep
    split_ifs at hstep
    cases hstep
    exact hs.request (.push b)
  | close =>
    replace hstep : s.close = some s' := hstep
    unfold State.close at hstep
    split_ifs at hstep
    cases hstep
    exact (hs.request (.push [])).setClient fun _ n hloop => ⟨n, hloop⟩
  | cancel =>
    replace hstep : s.cancel = some s' := hstep
    unfold State.cancel at hstep
    split_ifs at hstep
    cases hstep
    exact hs.setClient fun _ n hloop => ⟨n, hloop⟩
  | scan => exact hs.scan hstep
  | scanEnd => exact hs.scanEnd hstep
  | fail => exact hs.fail hstep
  | read size preferClosed =>
    obtain ⟨⟨r, c⟩, hr, rfl⟩ := map_eq_some_iff.mp hstep
    exact hs.setClient fun _ n hloop => ⟨n, (loop_read hr).symm.trans hloop⟩
  | handler h e =>
    obtain ⟨x, hx, hhandle⟩ := bind_eq_some_iff.mp hstep
    exact hs.handle hx hfound hhandle
  | appClose p =>
    replace hstep : s.appClose p = some s' := hstep
    unfold State.appClose at hstep
    split_ifs at hstep
    cases hstep
    exact hs.act p .closeApp

/-! ## Requests that find no entry -/

theorem step_handler (hx : s.handlers[h]? = some x) (e : HandlerStep) :
    s.step (.handler h e) = s.handle h x e := by
  rw [step, hx]
  rfl

theorem step_load (hx : s.handlers[h]? = some x) (hstage : x.stage = .load)
    (hentry : s.entry = none) :
    s.step (.handler h .load) = some (s.setHandler h { x with stage := .store }) := by
  rw [step_handler hx]
  show s.load h x = _
  rw [State.load, if_pos hstage, hentry]

theorem step_store (hx : s.handlers[h]? = some x) (hstage : x.stage = .store)
    (hentry : s.entry = none) :
    ∃ s', s.step (.handler h .store) = some s' ∧
      s'.handlers[h]? = some { x with stage := .enqueue s.pipes.length } ∧
      s'.queued = s.queued ∧ s'.client = s.client := by
  rw [step_handler hx]
  show ∃ s', s.store h x = some s' ∧ _
  rw [State.store, if_pos hstage, hentry]
  exact ⟨_, rfl, getElem?_setHandler_self hx, rfl, rfl⟩

theorem step_enqueue (hx : s.handlers[h]? = some x) (hstage : x.stage = .enqueue p) :
    ∃ s', s.step (.handler h (.enqueue false)) = some s' ∧ s'.queued = s.queued ++ [p] ∧
      s'.client = s.client := by
  rw [step_handler hx]
  show ∃ s', s.enqueue h x false = some s' ∧ _
  rw [State.enqueue, hstage]
  exact ⟨_, rfl, rfl, rfl⟩

/-- The steps of a handler whose request finds no entry, with room in the queue. -/
def lookup (h : ℕ) : List Event :=
  [.handler h .load, .handler h .store, .handler h (.enqueue false)]

theorem run_lookup (hx : s.handlers[h]? = some x) (hstage : x.stage = .load)
    (hentry : s.entry = none) :
    ∃ s', run step s (lookup h) = some s' ∧ s'.queued = s.queued ++ [s.pipes.length] ∧
      s'.client = s.client := by
  have hx₁ : (s.setHandler h { x with stage := .store }).handlers[h]? =
      some { x with stage := .store } := getElem?_setHandler_self hx
  obtain ⟨s₂, hstore, hx₂, hqueued₂, hclient₂⟩ := step_store hx₁ rfl hentry
  obtain ⟨s₃, henqueue, hqueued₃, hclient₃⟩ := step_enqueue hx₂ rfl
  refine ⟨s₃, ?_, ?_, hclient₃.trans hclient₂⟩
  · refine run_cons_eq_some.mpr ⟨_, step_load hx hstage hentry, ?_⟩
    exact run_cons_eq_some.mpr ⟨s₂, hstore, run_cons_eq_some.mpr ⟨s₃, henqueue, rfl⟩⟩
  · rw [hqueued₃, hqueued₂]
    rfl

/-! ## The end of a connection -/

/-- The steps that end a pull: the handler deletes the entry, closes the pipe and returns, and the
client sees the end of the response. -/
def finish (h : ℕ) : Stage → List Event
  | .cleanup _ actions => actions.map (fun _ => .handler h .cleanup) ++ [.scanEnd]
  | _ => [.handler h (.serve .eof), .handler h .cleanup, .handler h .cleanup, .scanEnd]

theorem found_of_mem_finish {stage : Stage} (he : e ∈ finish h stage) (s : State) : s.Found e := by
  have hcleanup (actions : List Action)
      (he : e ∈ actions.map (fun _ => Event.handler h .cleanup) ++ [.scanEnd]) : s.Found e := by
    rcases mem_append.mp he with he | he
    · obtain ⟨a, -, rfl⟩ := mem_map.mp he
      trivial
    · rw [mem_singleton.mp he]
      trivial
  have heof (he : e ∈ finish h (.serve 0)) : s.Found e := by
    rcases mem_cons.mp he with rfl | he
    · trivial
    · exact hcleanup [.delete, .close] he
  cases stage with
  | cleanup p actions => exact hcleanup actions he
  | load => exact heof he
  | store => exact heof he
  | enqueue p => exact heof he
  | serve p => exact heof he

/-- All that a handler has left to do, one action after the other. -/
theorem run_cleanup (hx : s.handlers[h]? = some x) (hstage : x.stage = .cleanup p actions) :
    ∃ s', run step s (actions.map fun _ => .handler h .cleanup) = some s' ∧
      s'.handlers[h]? = some { x with stage := .cleanup p [] } ∧ s'.client = s.client := by
  induction actions generalizing s x with
  | nil =>
    refine ⟨s, rfl, ?_, rfl⟩
    rw [hx, ← hstage]
  | cons a actions ih =>
    have hx₀ : (s.act p a).handlers[h]? = some x := by
      rw [handlers_act]
      exact hx
    have hstep : s.step (.handler h .cleanup) =
        some ((s.act p a).setHandler h { x with stage := .cleanup p actions }) := by
      rw [step_handler hx]
      show s.cleanup h x = _
      rw [State.cleanup, hstage]
    obtain ⟨s', hrun, hx', hclient⟩ := ih (x := { x with stage := .cleanup p actions })
      (getElem?_setHandler_self hx₀) rfl
    refine ⟨s', run_cons_eq_some.mpr ⟨_, hstep, hrun⟩, hx', ?_⟩
    rw [hclient]
    cases a <;> rfl

theorem run_cleanup_scanEnd (hx : s.handlers[h]? = some x) (hstage : x.stage = .cleanup p actions)
    (hok : x.ok = true) (hloop : s.client.loop = .pulling h n) (hn : n = x.lines.length) :
    ∃ s', run step s (actions.map (fun _ => .handler h .cleanup) ++ [.scanEnd]) = some s' ∧
      s'.handlers[h]? = some { x with stage := .cleanup p [] } ∧
      s'.client = { s.client with loop := if n = 0 then .stopped else .idle } := by
  obtain ⟨s₁, hrun, hx₁, hclient⟩ := run_cleanup hx hstage
  refine ⟨{ s₁ with client.loop := if n = 0 then .stopped else .idle }, ?_, hx₁, ?_⟩
  · refine run_concat hrun ?_
    show s₁.scanEnd = _
    rw [State.scanEnd, hclient, hloop]
    dsimp only
    rw [hx₁]
    exact if_pos ⟨hok, hn⟩
  · rw [hclient]

/-- The application has closed the connection, and all its data was delivered to a client that waits
for more: `n` lines were sent to its pull `h`. -/
structure AtEnd (s : State) (h n : ℕ) (x : Handler) : Prop where
  appClosed : (s.pipes[0]?).any Pipe.appClosed
  loop_eq : s.client.loop = .pulling h n
  handler_eq : s.handlers[h]? = some x
  attached : x.stage ≠ .load
  scanned : n = x.lines.length
  rxc_eq : s.client.rxc = []
  buf_eq : s.client.buf = []
  closed_eq : s.client.closed = false

/-- The loop of the client stops if there was no line, and otherwise is about to pull again, with no
entry left. -/
theorem run_finish (hs : Attached s) (hend : s.AtEnd h n x) :
    ∃ s', run step s (finish h x.stage) = some s' ∧ Attached s' ∧ s'.entry = none ∧
      s'.client = { s.client with loop := if n = 0 then .stopped else .idle } := by
  have hx := hend.handler_eq
  have hpull : x.request = .pull := by
    obtain ⟨y, hy, hpull⟩ := hs.pulling h n hend.loop_eq
    rw [hx, some.injEq] at hy
    exact hy ▸ hpull
  have hok := (hs.handlers h x hx).ok
  obtain ⟨s', hrun, hx', hclient⟩ : ∃ s', run step s (finish h x.stage) = some s' ∧
      s'.handlers[h]? = some { x with stage := .cleanup 0 [] } ∧
      s'.client = { s.client with loop := if n = 0 then .stopped else .idle } := by
    -- The handler has yet to see the end of the pipe, or has seen it already.
    rcases (hs.handlers h x hx).stage with hstage | hstage | ⟨actions, hstage⟩
    · exact absurd hstage hend.attached
    · have hclosed : s.isOpen 0 = false := by
        obtain ⟨pipe, hpipe, hclosed⟩ := (any_eq_true _ _).mp hend.appClosed
        rw [isOpen, hpipe]
        show (!pipe.appClosed && !pipe.serverClosed) = false
        rw [hclosed]
        rfl
      have hstep : s.step (.handler h (.serve .eof)) =
          some (s.setHandler h { x with stage := .cleanup 0 [.delete, .close] }) := by
        have hserve : s.serve h x .eof = s.servePull h x 0 .eof := by
          rw [State.serve, hstage, hpull]
        rw [step_handler hx]
        show s.serve h x .eof = _
        rw [hserve, State.servePull, if_neg (Bool.eq_false_iff.mp hclosed)]
      rw [hstage]
      obtain ⟨s', hrun, hx', hclient⟩ := run_cleanup_scanEnd
        (x := { x with stage := .cleanup 0 [.delete, .close] }) (getElem?_setHandler_self hx) rfl
        hok hend.loop_eq hend.scanned
      exact ⟨s', run_cons_eq_some.mpr ⟨_, hstep, hrun⟩, hx', hclient⟩
    · rw [hstage]
      exact run_cleanup_scanEnd hx hstage hok hend.loop_eq hend.scanned
  have hs' : Attached s' := run_induction_along
    (fun s e s' hs hfound h => attached_step hs hfound h) hs
    ((along_of_forall (fun e he => found_of_mem_finish he) s).mono fun s e he => he s) hrun
  refine ⟨s', hrun, hs', ?_, hclient⟩
  -- The handler of a pull has returned, so it has deleted the entry.
  exact (hs'.handlers h _ hx').deleted hpull [] rfl not_mem_nil

theorem read_of_stopped (hloop : c.loop = .stopped) (hrxc : c.rxc = []) (hbuf : c.buf = [])
    (hclosed : c.closed = false) (size : ℕ) (preferClosed : Bool) :
    c.read size preferClosed = some (.eof, c) := by
  rw [Client.read, if_pos hbuf, hclosed, hrxc, hloop]
  rfl

theorem read_of_ne_stopped (hloop : c.loop ≠ .stopped) (hrxc : c.rxc = []) (hbuf : c.buf = [])
    (hclosed : c.closed = false) (size : ℕ) (preferClosed : Bool) :
    c.read size preferClosed = none := by
  rw [Client.read, if_pos hbuf, hclosed, hrxc]
  exact if_neg hloop

/-- The client pulls again and finds no entry. -/
theorem run_pull_lookup (hloop : s.client.loop = .idle) (hclosed : s.client.closed = false)
    (hentry : s.entry = none) :
    ∃ s', run step s (.pull :: lookup s.handlers.length) = some s' ∧
      s'.queued = s.queued ++ [s.pipes.length] ∧
      s'.client = { s.client with loop := .pulling s.handlers.length 0 } := by
  have hpull : s.step .pull = some { s.request .pull with
      client.loop := .pulling s.handlers.length 0 } := by
    show s.pull = _
    rw [State.pull, if_pos hloop, if_neg (Bool.eq_false_iff.mp hclosed)]
  obtain ⟨s', hrun, hqueued, hclient⟩ := run_lookup
    (s := { s.request .pull with client.loop := .pulling s.handlers.length 0 })
    (h := s.handlers.length) getElem?_concat_length rfl hentry
  exact ⟨s', run_cons_eq_some.mpr ⟨_, hpull, hrun⟩, hqueued, hclient⟩

/-! ## Runs -/

/-- Let every request so far have been looked up while the token had its entry. Then one connection
was queued. Once the application has closed it and its data was delivered, `Read` returns `io.EOF`
if the pull had no line; otherwise the client pulls again, and gets a second connection. So does
every other request that finds no entry. -/
theorem one_connection (ops : List Event) (hfound : Along step Found authorized ops)
    (hrun : run step authorized ops = some s) :
    s.queued.length ≤ 1 ∧
      (∀ h n x, s.AtEnd h n x →
        (n = 0 → ∃ s', run step s (finish h x.stage) = some s' ∧ s'.queued.length ≤ 1 ∧
          ∀ size preferClosed, s'.client.read size preferClosed = some (.eof, s'.client)) ∧
        (n ≠ 0 → ∃ h' s', run step s (finish h x.stage ++ .pull :: lookup h') = some s' ∧
          s'.queued.length = 2 ∧
          ∀ size preferClosed, s'.client.read size preferClosed = none)) ∧
      ∀ h x, s.handlers[h]? = some x → x.stage = .load → s.entry = none →
        ∃ s', run step s (lookup h) = some s' ∧ s'.queued.length = 2 := by
  have hs : Attached s := run_induction_along
    (fun _ _ _ hs hfound h => attached_step hs hfound h) attached_authorized hfound hrun
  refine ⟨by rw [hs.queued]; exact le_rfl, fun h n x hend => ?_, fun h x hx hstage hentry => ?_⟩
  · obtain ⟨s₁, hrun₁, hs₁, hentry₁, hclient₁⟩ := run_finish hs hend
    have hrxc : s₁.client.rxc = [] := (congrArg Client.rxc hclient₁).trans hend.rxc_eq
    have hbuf : s₁.client.buf = [] := (congrArg Client.buf hclient₁).trans hend.buf_eq
    have hclosed : s₁.client.closed = false :=
      (congrArg Client.closed hclient₁).trans hend.closed_eq
    have hloop : s₁.client.loop = if n = 0 then .stopped else .idle := congrArg Client.loop hclient₁
    constructor
    · intro hn
      rw [if_pos hn] at hloop
      refine ⟨s₁, hrun₁, by rw [hs₁.queued]; exact le_rfl, fun size preferClosed => ?_⟩
      exact read_of_stopped hloop hrxc hbuf hclosed size preferClosed
    · intro hn
      rw [if_neg hn] at hloop
      obtain ⟨s₂, hrun₂, hqueued₂, hclient₂⟩ := run_pull_lookup hloop hclosed hentry₁
      refine ⟨s₁.handlers.length, s₂, run_append_eq_some.mpr ⟨s₁, hrun₁, hrun₂⟩, ?_, ?_⟩
      · rw [hqueued₂, hs₁.queued]
        rfl
      · rw [hclient₂]
        exact read_of_ne_stopped (fun h => Loop.noConfusion h) hrxc hbuf hclosed
  · obtain ⟨s', hrun', hqueued, -⟩ := run_lookup hx hstage hentry
    refine ⟨s', hrun', ?_⟩
    rw [hqueued, hs.queued]
    rfl

/-- The application closes the connection before there was any data, and `Read` returns
`io.EOF`. -/
theorem one_connection_no_line :
    ∃ s s', run step authorized [.pull, .handler 0 .load, .appClose 0] = some s ∧
      run step s (finish 0 (.serve 0)) = some s' ∧ s'.queued.length ≤ 1 ∧
      ∀ size preferClosed, s'.client.read size preferClosed = some (.eof, s'.client) := by
  have hfound : Along step Found authorized [.pull, .handler 0 .load, .appClose 0] := by
    refine ⟨trivial, fun s₁ h₁ => ⟨?_, fun _ _ => ⟨trivial, fun _ _ => trivial⟩⟩⟩
    cases h₁
    exact some_ne_none 0
  have hend := (one_connection _ hfound rfl).2.1 0 0 ⟨.pull, .serve 0, true, []⟩
    ⟨rfl, rfl, rfl, nofun, rfl, rfl, rfl, rfl⟩
  obtain ⟨s', hrun', hqueued, hread⟩ := hend.1 rfl
  exact ⟨_, s', rfl, hrun', hqueued, hread⟩

/-- With one byte of data, the client is attached to a second connection behind the first, where its
`Read` blocks. Without data, its `Close` behind `io.EOF` gets a second connection queued. -/
theorem second_connection :
    (∃ s, run step authorized [.pull, .handler 0 .load, .handler 0 (.serve (.data [7])), .scan,
        .read 16 false, .appClose 0, .handler 0 (.serve .eof), .handler 0 .cleanup,
        .handler 0 .cleanup, .scanEnd, .pull, .handler 1 .load, .handler 1 .store,
        .handler 1 (.enqueue false)] = some s ∧
      s.queued = [0, 1] ∧ s.client.read 16 false = none) ∧
    ∃ s, run step authorized [.pull, .handler 0 .load, .appClose 0, .handler 0 (.serve .eof),
        .handler 0 .cleanup, .handler 0 .cleanup, .scanEnd, .read 16 false, .close,
        .handler 1 .load, .handler 1 .store, .handler 1 (.enqueue false)] = some s ∧
      s.queued = [0, 1] :=
  ⟨⟨_, rfl, rfl, rfl⟩, _, rfl, rfl⟩

end State

end Pht

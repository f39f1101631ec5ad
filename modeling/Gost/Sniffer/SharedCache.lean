import Gost.Sniffer.Packages

/-!
# Connections that share the response cache

All connections of a service look up and store responses in one cache. Its key has the method, the
host and the target of a request and nothing else, and it is consulted before a node checks any
credentials. What one client fetched may therefore be what another one gets: a response that its own
credentials do not allow, or one that was cut to the range the other client had asked for.
-/

namespace Sniffer

open Bytes Http List Option Reader TransitionSystem

variable {ν : Type}

/-! ## The service -/

/-- The connections of a service and their cache. -/
structure Service (ν : Type) where
  sessions : ℕ → Session ν := fun _ => {}
  store : Store := {}
  now : ℕ := 0
  -- what was stored so far, the newest first: the request, the data and the status
  stored : List (Request × Bytes × ℕ) := []

inductive Action
  -- what is read from the connection of a client
  | serve (client : ℕ) (input : Input)
  -- time goes by
  | tick (n : ℕ)
  | evict (keys : List Bytes)

/-- The input together with what the cache has for it. -/
def Input.consult (net : Net) (store : Store) (now : ℕ) : Input → Input
  | .readError eof => .readError eof
  | .request req env => .request req { env with lookup := lookup net store now req }

def Event.stored : Event ν → Option (Request × Bytes × ℕ)
  | .store req data status => some (req, data, status)
  | _ => none

/-- What was added to the log. -/
def newEvents (s s' : Session ν) : List (Event ν) := s'.log.drop s.log.length

namespace Service

/-- `StoreKey`, under the key of the request. -/
def storeKey (cache : Option Policy) (s : Service ν) (p : Request × Bytes × ℕ) : Service ν :=
  match cache with
  | none => s
  | some policy =>
    { s with
      store := s.store.set s.now p.1.key p.2.1 (policy.ttlFor p.2.2)
      stored := p :: s.stored }

/-- A step of one of the connections, or of the cache. -/
def step (h : ℕ → Handler ν) (net : Net) (s : Service ν) : Action → Option (Service ν)
  | .tick n => some { s with now := s.now + n }
  | .evict keys => some { s with store := s.store.evict keys }
  | .serve i input =>
    ((h i).step (s.sessions i) (input.consult net s.store s.now)).map fun session =>
      ((newEvents (s.sessions i) session).filterMap Event.stored).foldl (storeKey (h i).cache)
        { s with sessions := Function.update s.sessions i session }

theorem storeKeys_sessions (cache : Option Policy) (ps : List (Request × Bytes × ℕ))
    (s : Service ν) : (ps.foldl (storeKey cache) s).sessions = s.sessions := by
  induction ps generalizing s with
  | nil => rfl
  | cons p ps ih =>
    rw [foldl_cons, ih]
    unfold storeKey
    split <;> rfl

end Service

/-! ## Noninterference -/

/-- The input as it is without a cache. -/
def Input.uncached : Input → Input
  | .readError eof => .readError eof
  | .request req env => .request req { env with lookup := .miss }

/-- What the client sends. -/
def Action.inputOf (i : ℕ) : Action → Option Input
  | .serve j input => if j = i then some input.uncached else none
  | _ => none

variable {a : Action} {input : Input}

theorem Action.eq_of_inputOf {i : ℕ} (h : a.inputOf i = some input) :
    ∃ input', a = .serve i input' ∧ input'.uncached = input := by
  cases a with
  | tick n => cases h
  | evict keys => cases h
  | serve j input' =>
    by_cases hji : j = i
    · exact ⟨input', hji ▸ rfl, some.inj ((if_pos hji).symm.trans h)⟩
    · exact absurd ((if_neg hji).symm.trans h) nofun

/-- The forwarder, for a client with the address. -/
def Forwarder.forClient (f : Forwarder) (ip : Bytes) : Forwarder := { f with clientIP := ip }

/-- The handlers of the clients with these addresses. -/
def Forwarder.handlers (f : Forwarder) (ip : ℕ → Bytes) (i : ℕ) : Handler Route :=
  (f.forClient (ip i)).handleHTTP

namespace Service

/-- The cache has nothing for a request of the client. -/
def Unanswered (h : ℕ → Handler ν) (net : Net) (i : ℕ) (s : Service ν) : Action → Prop
  | .serve j (.request req env) =>
    j = i → (h i).lookup req { env with lookup := lookup net s.store s.now req } = .miss
  | _ => True

instance (h : ℕ → Handler ν) (net : Net) (i : ℕ) (s : Service ν) :
    DecidablePred (s.Unanswered h net i)
  | .serve _ (.request _ _) => inferInstanceAs (Decidable (_ → _))
  | .serve _ (.readError _) => .isTrue trivial
  | .tick _ => .isTrue trivial
  | .evict _ => .isTrue trivial

/-- What is written to the client next. -/
def reply (h : ℕ → Handler ν) (net : Net) (s : Service ν) (i : ℕ) (input : Input) :
    Option (List Written) :=
  ((h i).step (s.sessions i) (input.consult net s.store s.now)).map fun session =>
    (newEvents (s.sessions i) session).filterMap fun
      | .write w => some w
      | _ => none

end Service

/-- Without an entry for the request it makes no difference what the cache is. -/
theorem Forwarder.step_uncached (f : Forwarder) {s : Session Route} {req : Request} {env : Env}
    (hmiss : f.handleHTTP.lookup req env = .miss) :
    f.handleHTTP.step s (.request req env) =
      f.handleHTTP.step s (.request req { env with lookup := .miss }) := by
  have hmiss' : f.handleHTTP.lookup req { env with lookup := .miss } = .miss := by
    unfold Handler.lookup
    split <;> rfl
  have hserve : ∀ t, f.handleHTTP.serve t req env =
      f.handleHTTP.serve t req { env with lookup := .miss } := by
    intro t
    unfold Handler.serve
    rw [hmiss, hmiss']
    cases t.cc <;> rfl
  unfold Handler.step Handler.first Handler.next
  simp only [hserve]

namespace Service

variable {f : Forwarder} {ip : ℕ → Bytes} {i : ℕ} {s s' : Service Route}

/-- A step of the client's own connection without the cache. -/
theorem step_own (hmiss : s.Unanswered (f.handlers ip) f.net i (.serve i input))
    (hstep : s.step (f.handlers ip) f.net (.serve i input) = some s') :
    (f.handlers ip i).step (s.sessions i) input.uncached = some (s'.sessions i) := by
  obtain ⟨session, hsession, rfl⟩ := map_eq_some_iff.mp hstep
  rw [storeKeys_sessions]
  dsimp only
  rw [Function.update_self]
  cases input with
  | readError eof => exact hsession
  | request req env => exact ((f.forClient (ip i)).step_uncached (hmiss rfl)).symm.trans hsession

/-- Other steps do not touch the connection of the client. -/
theorem step_other (hother : a.inputOf i = none)
    (hstep : s.step (f.handlers ip) f.net a = some s') :
    s'.sessions i = s.sessions i := by
  cases a with
  | tick n | evict keys => exact some.inj hstep ▸ rfl
  | serve j input =>
    obtain ⟨session, -, rfl⟩ := map_eq_some_iff.mp hstep
    have hne : i ≠ j := fun hij => some_ne_none _ ((if_pos hij.symm).symm.trans hother)
    rw [storeKeys_sessions]
    exact Function.update_of_ne hne _ _

/-- As long as the cache has nothing for a client, its connection depends on its own requests
only. -/
theorem run_own {actions : List Action}
    (hmiss : Along (step (f.handlers ip) f.net)
      (fun s a => s.Unanswered (f.handlers ip) f.net i a) s actions)
    (hrun : run (step (f.handlers ip) f.net) s actions = some s') :
    run (f.handlers ip i).step (s.sessions i) (actions.filterMap (Action.inputOf i)) =
      some (s'.sessions i) := by
  induction actions generalizing s with
  | nil => exact congrArg some (some.inj hrun ▸ rfl)
  | cons a actions ih =>
    obtain ⟨s₁, hstep, hrest⟩ := run_cons_eq_some.mp hrun
    have hih := ih (hmiss.2 s₁ hstep) hrest
    cases hinput : a.inputOf i with
    | none =>
      rw [filterMap_cons_none hinput, ← step_other hinput hstep]
      exact hih
    | some input =>
      rw [filterMap_cons_some hinput]
      refine run_cons_eq_some.mpr ⟨s₁.sessions i, ?_, hih⟩
      obtain ⟨input', rfl, rfl⟩ := Action.eq_of_inputOf hinput
      exact step_own hmiss.1 hstep

/-- What a client gets depends on its connection only, as long as the cache has nothing for it. -/
theorem reply_own {s₁ s₂ : Service Route} (hsessions : s₁.sessions i = s₂.sessions i)
    (hmiss₁ : s₁.Unanswered (f.handlers ip) f.net i (.serve i input))
    (hmiss₂ : s₂.Unanswered (f.handlers ip) f.net i (.serve i input)) :
    s₁.reply (f.handlers ip) f.net i input = s₂.reply (f.handlers ip) f.net i input := by
  have hstep : (f.handlers ip i).step (s₁.sessions i) (input.consult f.net s₁.store s₁.now) =
      (f.handlers ip i).step (s₂.sessions i) (input.consult f.net s₂.store s₂.now) := by
    rw [hsessions]
    cases input with
    | readError eof => rfl
    | request req env =>
      exact ((f.forClient (ip i)).step_uncached (hmiss₁ rfl)).trans
        ((f.forClient (ip i)).step_uncached (hmiss₂ rfl)).symm
  unfold reply
  rw [hstep, hsessions]

end Service

/-! ## Rejected credentials -/

/-- The action is a request of another client whose credentials the node accepts, or an eviction,
which may come of such requests. -/
def Forwarder.mayDiffer (f : Forwarder) (settings : HTTPNodeSettings) (i : ℕ) : Action → Bool
  | .serve j (.request req _) => j != i && f.authenticates settings req.adjust
  | .evict _ => true
  | _ => false

/-- Two histories that differ only in requests of other clients whose credentials the node accepts,
and in what is evicted, and a request whose credentials it rejects. -/
structure Forwarder.Histories (f : Forwarder) (node : Node) (settings : HTTPNodeSettings) (i : ℕ)
    (req : Request) (history history' : List Action) : Prop where
  node_settings : node.options.http = some settings
  auther : settings.auther.isSome = true
  rejected : f.authenticates settings req.adjust = false
  differ : history.filter (!f.mayDiffer settings i ·) =
    history'.filter (!f.mayDiffer settings i ·)

theorem inputsOf_filter (f : Forwarder) (settings : HTTPNodeSettings) (i : ℕ)
    (history : List Action) :
    (history.filter (!f.mayDiffer settings i ·)).filterMap (Action.inputOf i) =
      history.filterMap (Action.inputOf i) := by
  rw [filterMap_filter]
  refine filterMap_congr fun a _ => ?_
  split
  next => rfl
  next hdiffers =>
    cases a with
    | tick n => rfl
    | evict keys => rfl
    | serve j input =>
      cases input with
      | readError eof => exact absurd rfl hdiffers
      | request req env =>
        rw [Bool.not_eq_true, Bool.not_eq_false', Forwarder.mayDiffer, Bool.and_eq_true,
          bne_iff_ne] at hdiffers
        exact (if_neg hdiffers.1).symm

/-- A client whose credentials the node rejects gets the same in both histories, as long as the
cache has nothing for the requests that it sends. -/
theorem rejected_sees_same (f : Forwarder) (ip : ℕ → Bytes) (node : Node)
    (settings : HTTPNodeSettings) (i : ℕ) (req : Request) (env : Env)
    (history history' : List Action) (hhistories : f.Histories node settings i req history history')
    (s s' : Service Route)
    (hmiss : Along (Service.step (f.handlers ip) f.net)
      (fun s a => s.Unanswered (f.handlers ip) f.net i a) {} history)
    (hmiss' : Along (Service.step (f.handlers ip) f.net)
      (fun s a => s.Unanswered (f.handlers ip) f.net i a) {} history')
    (hrun : run (Service.step (f.handlers ip) f.net) {} history = some s)
    (hrun' : run (Service.step (f.handlers ip) f.net) {} history' = some s')
    (hlast : s.Unanswered (f.handlers ip) f.net i (.serve i (.request req env)))
    (hlast' : s'.Unanswered (f.handlers ip) f.net i (.serve i (.request req env))) :
    s.reply (f.handlers ip) f.net i (.request req env) =
      s'.reply (f.handlers ip) f.net i (.request req env) := by
  refine Service.reply_own (some.inj ?_) hlast hlast'
  rw [← Service.run_own hmiss hrun, ← Service.run_own hmiss' hrun', ← inputsOf_filter f settings,
    ← inputsOf_filter f settings i history', hhistories.differ]

/-- Settings with a single user. -/
def guardedSettings : HTTPNodeSettings := { auther := some fun user _ => user == bytes "u" }

/-- A node for that user. -/
def guardedNode : Node where
  id := 0
  name := bytes "n"
  addr := bytes "n:1"
  built := some { http := some guardedSettings }

/-- A forwarder to that node, with a cache. -/
def guarded : Forwarder where
  net := .ofHeads [(okHead, 200)]
  cache := some defaultPolicy
  node := some guardedNode

/-- The user fetches the front page. -/
def fetched : Action :=
  .serve 1 (.request
    { Request.get (bytes "a") (bytes "/") with header := [(bytes "Authorization", bytes "u")] }
    { reads := [⟨okHead, none⟩] })

theorem histories_fetched (uri : Bytes) :
    guarded.Histories guardedNode guardedSettings 0 (.get (bytes "a") uri) [fetched] [] where
  node_settings := rfl
  auther := rfl
  rejected := by
    change (([] : Bytes) == bytes "u") = false
    decide +kernel
  differ := filter_cons_of_neg (by decide +kernel)

theorem rejected_sees_same_other_page : ∃ s,
    run (Service.step (guarded.handlers fun _ => []) guarded.net) {} [fetched] = some s ∧
    s.reply (guarded.handlers fun _ => []) guarded.net 0
        (.request (.get (bytes "a") (bytes "/x")) {}) =
      ({} : Service Route).reply (guarded.handlers fun _ => []) guarded.net 0
        (.request (.get (bytes "a") (bytes "/x")) {}) := by
  have hany : (run (Service.step (guarded.handlers fun _ => []) guarded.net) {} [fetched]).any
      (fun s => decide (s.Unanswered (guarded.handlers fun _ => []) guarded.net 0
        (.serve 0 (.request (.get (bytes "a") (bytes "/x")) {})))) = true := by decide +kernel
  obtain ⟨s, hrun, hs⟩ := (any_eq_true _ _).mp hany
  refine ⟨s, hrun, ?_⟩
  exact rejected_sees_same guarded (fun _ => []) guardedNode guardedSettings 0 _ {} [fetched] []
    (histories_fetched _) s {} (by decide +kernel) (by decide +kernel) hrun rfl
    (of_decide_eq_true hs) (by decide +kernel)

/-- The page that the user fetched is served without credentials; otherwise the node asks for
them. -/
theorem rejected_served_from_cache :
    guarded.Histories guardedNode guardedSettings 0 (.get (bytes "a") (bytes "/")) [fetched] [] ∧
    (∃ s, run (Service.step (guarded.handlers fun _ => []) guarded.net) {} [fetched] = some s ∧
      s.reply (guarded.handlers fun _ => []) guarded.net 0
        (.request (.get (bytes "a") (bytes "/")) {}) = some [.cached (.empty 200)]) ∧
    ({} : Service Route).reply (guarded.handlers fun _ => []) guarded.net 0
      (.request (.get (bytes "a") (bytes "/")) {}) =
        some [(Request.get (bytes "a") (bytes "/")).own 401
          [(bytes "WWW-Authenticate", bytes "Basic")]] := by
  have hany : (run (Service.step (guarded.handlers fun _ => []) guarded.net) {} [fetched]).any
      (fun s => s.reply (guarded.handlers fun _ => []) guarded.net 0
        (.request (.get (bytes "a") (bytes "/")) {}) == some [.cached (.empty 200)]) = true := by
    decide +kernel
  obtain ⟨s, hrun, hs⟩ := (any_eq_true _ _).mp hany
  exact ⟨histories_fetched _, ⟨s, hrun, beq_iff_eq.mp hs⟩, by decide +kernel⟩

end Sniffer

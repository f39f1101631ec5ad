import Gost.Sniffer.Steps

/-!
# The upstream connection of a session

A session has one upstream connection at most. It is dialed for the first request that is not
answered from the cache, closed when the host changes, and left open otherwise, also when
`HandleHTTP` returns. Closing it assumes that there is one, although a request that was answered
from the cache may have left the session without.
-/

namespace Sniffer

open Bytes List Option TransitionSystem

variable {ν : Type} {input : Input} {inputs : List Input}

namespace Handler

/-! ## A connection that is missing -/

/-- There is no connection for the request yet. -/
def Unconnected (s : Session ν) (req : Request) : Prop :=
  s.cc = none ∨ s.started = true ∧ ChangesHost s req

instance (s : Session ν) (req : Request) : Decidable (Unconnected s req) :=
  decidable_of_iff (s.cc.isNone = true ∨ s.started = true ∧ ChangesHost s req) <| by
    rw [Option.isNone_iff_eq_none]
    rfl

/-- The request is answered from the cache without a connection to the upstream, and the client
stays connected. -/
def StaysUnconnected (h : Handler ν) (s : Session ν) : Input → Prop
  | .readError _ => False
  | .request req env => Unconnected s req ∧
    ∃ resp, h.lookup req env = .fresh resp ∧ resp.closes = false ∧ env.writeResponse = true

/-- Between two requests there is a connection. -/
structure Connected (s : Session ν) : Prop where
  cc_ne_none : s.outcome = .running → s.started = true → s.cc ≠ none
  ne_panicked : s.outcome ≠ .panicked

section Missing

variable {h : Handler ν} {s t s' : Session ν} {req : Request} {env : Env}

theorem forward_ne_panicked (cc : Conn ν) (stale : Option Response) :
    (h.forward s cc stale req env).outcome ≠ .panicked := by
  unfold forward
  dsimp only
  split <;> simp

/-- Serving a request never takes a connection for granted. -/
theorem ServeCase.ne_panicked (hserve : h.ServeCase t req env s') : s'.outcome ≠ .panicked := by
  cases hserve with
  | cached resp =>
    change (if env.writeResponse && !resp.closes then Outcome.running else _) ≠ _
    split <;> simp
  | reused | dialed => exact forward_ne_panicked _ _
  | refused | dialFailed => exact Outcome.noConfusion

/-- If the session goes on without a connection, the request was answered from the cache. -/
theorem ServeCase.cc_ne_none (hserve : h.ServeCase t req env s')
    (hrunning : s'.outcome = .running) :
    s'.cc ≠ none ∨ t.cc = none ∧
      ∃ resp, h.lookup req env = .fresh resp ∧ resp.closes = false ∧ env.writeResponse = true := by
  cases hserve with
  | cached resp hfound =>
    rw [or_iff_not_imp_left, not_not]
    intro hcc
    change (if env.writeResponse && !resp.closes then Outcome.running else _) = _ at hrunning
    split at hrunning
    next hkept =>
      rw [Bool.and_eq_true, Bool.not_eq_true'] at hkept
      exact ⟨hcc, resp, hfound, hkept.2, hkept.1⟩
    next => cases hrunning
  | reused cc _ hcc =>
    left
    change t.cc ≠ none
    rw [hcc]
    exact some_ne_none cc
  | refused => cases hrunning
  | dialFailed => cases hrunning
  | dialed => exact .inl (some_ne_none _)

theorem Ready.unconnected (hready : h.Ready s req t) (hcc : t.cc = none) : Unconnected s req := by
  cases hready with
  | first => exact .inl hcc
  | changed _ hstarted hchange => exact .inr ⟨hstarted, hchange⟩
  | same => exact .inl hcc

theorem Connected.of_outcome (hrunning : s.outcome ≠ .running) (hpanicked : s.outcome ≠ .panicked) :
    Connected s :=
  ⟨fun h => absurd h hrunning, hpanicked⟩

theorem Connected.step (hs : Connected s) (hstays : ¬ h.StaysUnconnected s input)
    (hstep : h.step s input = some s') : Connected s' := by
  obtain ⟨hrunning, hcase⟩ := step_cases hstep
  cases hcase with
  | readError eof => exact .of_outcome Outcome.noConfusion Outcome.noConfusion
  | stopped req env outcome hstops =>
    cases hstops with
    | http2 | bypassed => exact .of_outcome Outcome.noConfusion Outcome.noConfusion
    | panicked hstarted _ hcc => exact absurd hcc (hs.cc_ne_none hrunning hstarted)
  | served req env t _ hready hserve =>
    refine ⟨fun hr _ => ?_, hserve.ne_panicked⟩
    rcases hserve.cc_ne_none hr with hcc | ⟨hcc, hfound⟩
    · exact hcc
    · exact absurd ⟨hready.unconnected hcc, hfound⟩ hstays

/-- In a session that stays unconnected some request leads to a call on a missing connection. -/
theorem exists_panic (hstays : h.StaysUnconnected s input) (hstep : h.step s input = some s')
    (hrunning : s'.outcome = .running) :
    ∃ req env s'', h.step s' (.request req env) = some s'' ∧ s''.outcome = .panicked := by
  obtain ⟨-, hcase⟩ := step_cases hstep
  have hs' : s'.started = true ∧ s'.cc = none := by
    cases hcase with
    | readError eof => cases hrunning
    | stopped req env outcome hstops => cases hstops <;> cases hrunning
    | served req env t _ hready hserve =>
      obtain ⟨hun, resp, hfound, -⟩ := hstays
      have hmiss : ¬ h.Misses req env := fun hmiss => hmiss resp hfound
      cases hserve with
      | reused _ hm | refused _ _ hm | dialFailed _ hm | dialed _ hm => exact absurd hm hmiss
      | cached resp' =>
        cases hready with
        | first hstarted =>
          refine ⟨rfl, hun.resolve_right fun hch => ?_⟩
          rw [hstarted] at hch
          exact absurd hch.1 Bool.false_ne_true
        | changed _ hstarted => exact ⟨hstarted, rfl⟩
        | same hstarted hsame => exact ⟨hstarted, hun.resolve_right fun hch => hsame hch.2⟩
  obtain ⟨hstarted, hcc⟩ := hs'
  -- one of two hosts is not the one of the last dial
  have hhost : ∃ req : Request, ChangesHost s' req := by
    let ask (host : Bytes) : Request :=
      { proto := (1, 1), header := [], method := bytes "GET", host, requestURI := bytes "/"
        path := bytes "/", rawQuery := [], contentLength := some 0, body := [] }
    by_cases ha : (ask (bytes "a:80")).target = s'.upstreamHost
    · refine ⟨ask (bytes "b:80"), by decide, ?_⟩
      rw [← ha]
      decide
    · exact ⟨ask (bytes "a:80"), by decide, ha⟩
  obtain ⟨req, hchange⟩ := hhost
  refine ⟨req, {}, { s' with outcome := .panicked }, ?_, rfl⟩
  have hnext : h.next s' req {} = { s' with outcome := .panicked } := by
    unfold next
    rw [if_pos hchange]
    split
    · rfl
    next heq =>
      rw [hcc] at heq
      cases heq
  unfold step
  rw [if_pos hrunning]
  dsimp only
  rw [if_pos hstarted, hnext]

/-- A session in which no request is answered without a connection never misses one. -/
theorem ne_panicked_of_along
    (hkeeps : Along h.step (fun s input => ¬ h.StaysUnconnected s input) {} inputs)
    (hrun : h.Runs inputs s) : s.outcome ≠ .panicked := by
  have hinit : Connected ({} : Session ν) := ⟨fun _ hstarted => (Bool.false_ne_true hstarted).elim,
    Outcome.noConfusion⟩
  exact (run_induction_along (fun s input s' hs hg hstep => hs.step hg hstep) hinit hkeeps
    hrun).ne_panicked

end Missing

end Handler

/-- The loop of both packages calls no method on a missing connection as long as no request is
answered from the cache while there is no connection, with the client connected afterwards. After
such an answer some request makes it do so. -/
theorem upstream_present (f : Forwarder) (g : Sniffing) :
    ((∀ inputs s,
        Along f.handleHTTP.step (fun s input => ¬ f.handleHTTP.StaysUnconnected s input) {} inputs →
        f.handleHTTP.Runs inputs s → s.outcome ≠ .panicked) ∧
      ∀ inputs input s s', f.handleHTTP.Runs inputs s → f.handleHTTP.step s input = some s' →
        s'.outcome = .running → f.handleHTTP.StaysUnconnected s input →
        ∃ next s'', f.handleHTTP.Runs (inputs ++ [input, next]) s'' ∧ s''.outcome = .panicked) ∧
    (∀ inputs s,
        Along g.handleHTTP.step (fun s input => ¬ g.handleHTTP.StaysUnconnected s input) {} inputs →
        g.handleHTTP.Runs inputs s → s.outcome ≠ .panicked) ∧
      ∀ inputs input s s', g.handleHTTP.Runs inputs s → g.handleHTTP.step s input = some s' →
        s'.outcome = .running → g.handleHTTP.StaysUnconnected s input →
        ∃ next s'', g.handleHTTP.Runs (inputs ++ [input, next]) s'' ∧ s''.outcome = .panicked := by
  have hlater : ∀ {ν : Type} (h : Handler ν) inputs input (s s' : Session ν), h.Runs inputs s →
      h.step s input = some s' → s'.outcome = .running → h.StaysUnconnected s input →
      ∃ next s'', h.Runs (inputs ++ [input, next]) s'' ∧ s''.outcome = .panicked := by
    intro ν h inputs input s s' hrun hstep hrunning hstays
    obtain ⟨req, env, s'', hnext, hpanicked⟩ := Handler.exists_panic hstays hstep hrunning
    refine ⟨.request req env, s'', ?_, hpanicked⟩
    have hconcat := run_concat (run_concat hrun hstep) hnext
    rwa [append_assoc] at hconcat
  exact ⟨⟨fun _ _ => Handler.ne_panicked_of_along, hlater _⟩,
    fun _ _ => Handler.ne_panicked_of_along, hlater _⟩

/-- A sniffer without a cache. -/
def uncached : Sniffing := { net := .ofHeads [(okHead, 200)] }

/-- Two requests to two hosts. -/
def twoHosts : List Input :=
  [.request (.get (bytes "a") (bytes "/")) { reads := [⟨okHead, none⟩] },
    .request (.get (bytes "b") (bytes "/")) { reads := [⟨okHead, none⟩] }]

theorem upstream_present_uncached :
    ∃ s, uncached.handleHTTP.Runs twoHosts s ∧ s.outcome ≠ .panicked := by
  have hkeeps : Along uncached.handleHTTP.step
      (fun s input => ¬ uncached.handleHTTP.StaysUnconnected s input) {} twoHosts := by
    refine (along_true _ _).mono fun s input _ hstays => ?_
    cases input with
    | readError eof => exact hstays
    | request req env =>
      obtain ⟨-, resp, hfound, -⟩ := hstays
      change Lookup.miss = .fresh resp at hfound
      cases hfound
  obtain ⟨s, hrun⟩ : ∃ s, uncached.handleHTTP.Runs twoHosts s := ⟨_, rfl⟩
  exact ⟨s, hrun, (upstream_present { net := .ofHeads [] } uncached).2.1 _ _ hkeeps hrun⟩

/-- The first request is answered from the cache, the second one names a host. -/
theorem cached_then_forwarded_panics :
    (∃ s, ({ net := .ofHeads [], cache := some defaultPolicy } : Forwarder).handleHTTP.Runs
      [.request (.get (bytes "a") (bytes "/")) { lookup := .fresh (.empty 200) },
        .request (.get (bytes "a") (bytes "/x")) {}] s ∧ s.outcome = .panicked) ∧
    ∃ s, ({ net := .ofHeads [], cache := some defaultPolicy } : Sniffing).handleHTTP.Runs
      [.request (.get (bytes "a") (bytes "/")) { lookup := .fresh (.empty 200) },
        .request (.get (bytes "a") (bytes "/x")) {}] s ∧ s.outcome = .panicked :=
  ⟨⟨_, rfl, rfl⟩, _, rfl, rfl⟩

/-! ## A connection left open -/

namespace Handler

/-- Every connection that was dialed has been closed. -/
def AllClosed (s : Session ν) : Prop := ∀ cc, .connect cc ∈ s.log → .close cc ∈ s.log

/-- The host that a connection for the request is dialed to. -/
def hostFor (s : Session ν) (req : Request) : Bytes :=
  if s.started = true ∧ ¬ ChangesHost s req then s.host else req.target

/-- After the input there is a connection: it is there and the host does not change, or a new one is
dialed. -/
def LeavesOpen (h : Handler ν) (s : Session ν) : Input → Prop
  | .readError _ => s.cc ≠ none
  | .request req env => ¬ Unconnected s req ∨
    (s.started = true ∨ h.admits req = true) ∧ h.Misses req env ∧ env.dial = true ∧
      ∃ target, h.resolve (hostFor s req) req env.survey = .ok target

/-- The log accounts for the connections. -/
structure Tracked (s : Session ν) : Prop where
  fresh : ∀ cc, .connect cc ∈ s.log ∨ .close cc ∈ s.log → cc.id < s.dials
  closed : ∀ cc, .connect cc ∈ s.log → .close cc ∈ s.log ∨ s.cc = some cc
  isOpen : ∀ cc, s.cc = some cc → .connect cc ∈ s.log ∧ .close cc ∉ s.log
  unstarted : s.started = false → s.cc = none

section Tracked

variable {h : Handler ν} {s t s' : Session ν} {req : Request} {env : Env}

/-- What neither dials nor closes is of no account. -/
theorem Tracked.append (hs : Tracked s) (events : List (Event ν))
    (hevents : ∀ cc, .connect cc ∉ events ∧ .close cc ∉ events) (hlog : s'.log = s.log ++ events)
    (hcc : s'.cc = s.cc) (hdials : s'.dials = s.dials)
    (hstarted : s'.started = false → s.started = false) : Tracked s' := by
  have hconnect : ∀ cc, .connect cc ∈ s'.log ↔ .connect cc ∈ s.log := fun cc => by
    rw [hlog, mem_append, or_iff_left (hevents cc).1]
  have hclose : ∀ cc, .close cc ∈ s'.log ↔ .close cc ∈ s.log := fun cc => by
    rw [hlog, mem_append, or_iff_left (hevents cc).2]
  refine ⟨fun cc => ?_, fun cc => ?_, fun cc => ?_, fun hst => ?_⟩
  · rw [hconnect, hclose, hdials]
    exact hs.fresh cc
  · rw [hconnect, hclose, hcc]
    exact hs.closed cc
  · rw [hconnect, hclose, hcc]
    exact hs.isOpen cc
  · rw [hcc]
    exact hs.unstarted (hstarted hst)

variable {cc : Conn ν}

theorem Tracked.changeHost (hs : Tracked s) (hcc : s.cc = some cc) (hstarted : s.started = true) :
    Tracked (changeHost s req cc) := by
  refine ⟨fun c hc => ?_, fun c hc => ?_, fun c hc => ?_, fun h => ?_⟩
  · simp only [Handler.changeHost, mem_append, mem_singleton, reduceCtorEq, or_false,
      Event.close.injEq] at hc
    rcases hc with hc | hc | rfl
    · exact hs.fresh c (.inl hc)
    · exact hs.fresh c (.inr hc)
    · exact hs.fresh c (.inl (hs.isOpen c hcc).1)
  · simp only [Handler.changeHost, mem_append, mem_singleton, reduceCtorEq, or_false,
      Event.close.injEq] at hc ⊢
    rcases hs.closed c hc with hclosed | hopen
    · exact .inl hclosed
    · exact .inr (some.inj (hopen.symm.trans hcc))
  · cases hc
  · exact absurd (hstarted.symm.trans h) Bool.noConfusion

theorem Tracked.connect (hs : Tracked s) (hcc : s.cc = none) (hstarted : s.started = true)
    (target : Target ν) : Tracked (h.connect s req target) := by
  have hlog : ∀ e : Event ν, e ∈ (h.connect s req target).log ↔ e ∈ s.log ∨ e = .dial target.addr ∨
      e = .connect (newConn s target) ∨ target.tracked = true ∧ e = .reset target.node := by
    intro e
    change e ∈ s.log ++ [.dial target.addr, .connect (newConn s target)] ++ _ ↔ _
    split_ifs with htracked <;> simp [htracked]
  refine ⟨fun c hc => ?_, fun c hc => ?_, fun c hc => ?_, fun h => ?_⟩
  · simp only [hlog, reduceCtorEq, and_false, or_false, false_or, Event.connect.injEq] at hc
    rcases hc with (hc | rfl) | hc
    · exact Nat.lt_succ_of_lt (hs.fresh c (.inl hc))
    · exact Nat.lt_succ_self _
    · exact Nat.lt_succ_of_lt (hs.fresh c (.inr hc))
  · simp only [hlog, reduceCtorEq, and_false, or_false, false_or, Event.connect.injEq] at hc ⊢
    rcases hc with hc | rfl
    · rcases hs.closed c hc with hclosed | hopen
      · exact .inl hclosed
      · rw [hcc] at hopen
        cases hopen
    · exact .inr rfl
  · obtain rfl : newConn s target = c := some.inj hc
    simp only [hlog, reduceCtorEq, and_false, or_false, or_true, true_and]
    exact fun hclose => Nat.lt_irrefl _ (hs.fresh _ (.inr hclose))
  · exact absurd (hstarted.symm.trans h) Bool.noConfusion

theorem Tracked.forward (hs : Tracked s) (cc : Conn ν) (stale : Option Response) :
    Tracked (h.forward s cc stale req env) :=
  hs.append _ (fun _ => ⟨connect_notMem_events _, close_notMem_events _⟩) rfl rfl rfl id

theorem Tracked.giveUp (hs : Tracked s) (stale : Option Response) (err : Err)
    (told : List Written) : Tracked (h.giveUp s stale env err told) :=
  hs.append _ (fun _ => by simp) rfl rfl rfl id

theorem Tracked.dialFailed (hs : Tracked s) (target : Target ν) :
    Tracked (dialFailed s target) := by
  refine hs.append ([.dial target.addr] ++ if target.tracked then [.mark target.node] else [])
    (fun cc => ?_) ?_ rfl rfl id
  · split_ifs <;> simp
  · exact append_assoc _ _ _

theorem Tracked.ready (hs : Tracked s) (hready : h.Ready s req t) :
    Tracked t ∧ t.started = true := by
  cases hready with
  | first hstarted =>
    refine ⟨hs.append [] (fun _ => ⟨not_mem_nil, not_mem_nil⟩)
      (append_nil _).symm rfl rfl fun _ => hstarted, rfl⟩
  | changed cc hstarted _ hcc => exact ⟨hs.changeHost hcc hstarted, hstarted⟩
  | same hstarted => exact ⟨hs, hstarted⟩

theorem Tracked.serve (ht : Tracked t) (hstarted : t.started = true)
    (hserve : h.ServeCase t req env s') : Tracked s' := by
  cases hserve with
  | cached resp =>
    refine ht.append _ (fun cc => ?_) rfl rfl rfl id
    split_ifs <;> simp
  | reused => exact ht.forward _ _
  | refused => exact ht.giveUp _ _ _
  | dialFailed => exact (ht.dialFailed _).giveUp _ _ _
  | dialed _ _ hcc => exact (ht.connect hcc hstarted _).forward _ _

theorem Tracked.step (hs : Tracked s) (hstep : h.step s input = some s') : Tracked s' := by
  obtain ⟨-, hcase⟩ := step_cases hstep
  have hsame : ∀ outcome, Tracked { s with outcome } := fun _ =>
    hs.append [] (fun _ => ⟨not_mem_nil, not_mem_nil⟩)
      (append_nil _).symm rfl rfl id
  cases hcase with
  | readError => exact hsame _
  | stopped => exact hsame _
  | served req env t _ hready hserve =>
    obtain ⟨ht, hstarted⟩ := hs.ready hready
    exact ht.serve hstarted hserve

theorem Tracked.init : Tracked ({} : Session ν) := by
  refine ⟨fun cc hcc => ?_, fun cc hcc => ?_, fun cc hcc => ?_, fun _ => rfl⟩
  · exact absurd hcc (not_or.mpr ⟨not_mem_nil, not_mem_nil⟩)
  · exact absurd hcc not_mem_nil
  · cases hcc

theorem Tracked.run (hrun : h.Runs inputs s) : Tracked s :=
  run_induction (fun _ _ _ hs hstep => hs.step hstep) Tracked.init hrun

theorem Tracked.allClosed_iff (hs : Tracked s) : AllClosed s ↔ s.cc = none := by
  constructor
  · intro hall
    cases hcc : s.cc with
    | none => rfl
    | some cc => exact absurd (hall cc (hs.isOpen cc hcc).1) (hs.isOpen cc hcc).2
  · intro hcc cc hconnect
    refine (hs.closed cc hconnect).resolve_right fun hopen => ?_
    rw [hcc] at hopen
    cases hopen

theorem Ready.cc_eq_none_iff (hs : Tracked s) (hready : h.Ready s req t) :
    t.cc = none ↔ Unconnected s req := by
  refine ⟨hready.unconnected, fun hun => ?_⟩
  cases hready with
  | first hstarted => exact hs.unstarted hstarted
  | changed => rfl
  | same _ hsame => exact hun.resolve_right fun hch => hsame hch.2

/-- A connection that the request finds was there before it, and the host stays the same. -/
theorem Ready.eq_of_cc (hs : Tracked s) (hready : h.Ready s req t) (hcc : t.cc = some cc) :
    t = s ∧ ¬ ChangesHost s req := by
  cases hready with
  | first hstarted =>
    have hnone : s.cc = none := hs.unstarted hstarted
    exact absurd (hnone.symm.trans hcc) nofun
  | changed => cases hcc
  | same _ hsame => exact ⟨rfl, hsame⟩

theorem Ready.host_eq (hready : h.Ready s req t) : t.host = hostFor s req := by
  unfold hostFor
  cases hready with
  | first hstarted => rw [if_neg fun hst => Bool.false_ne_true (hstarted.symm.trans hst.1)]
  | changed _ _ hchange => rw [if_neg fun hst => hst.2 hchange]; rfl
  | same hstarted hsame => rw [if_pos ⟨hstarted, hsame⟩]

theorem Ready.admitted (hready : h.Ready s req t) : s.started = true ∨ h.admits req = true := by
  cases hready with
  | first _ _ hadmits => exact .inr hadmits
  | changed _ hstarted => exact .inl hstarted
  | same hstarted => exact .inl hstarted

theorem Ready.started_eq (hready : h.Ready s req t) : t.started = true := by
  cases hready with
  | first => rfl
  | changed _ hstarted => exact hstarted
  | same hstarted => exact hstarted

/-- Whether there is a connection when `HandleHTTP` returns. -/
theorem cc_ne_none_iff {err : Option Err} (hs : Tracked s) (hstep : h.step s input = some s')
    (hreturned : s'.outcome = .returned err) : s'.cc ≠ none ↔ h.LeavesOpen s input := by
  obtain ⟨-, hcase⟩ := step_cases hstep
  cases hcase with
  | readError => exact Iff.rfl
  | stopped req env outcome hstops =>
    cases hstops with
    | http2 => cases hreturned
    | panicked => cases hreturned
    | bypassed hstarted hadmits =>
      refine iff_of_false (not_not.mpr (hs.unstarted hstarted)) ?_
      rintro (hun | ⟨hlet, -⟩)
      · exact hun (.inl (hs.unstarted hstarted))
      · rw [hstarted, hadmits] at hlet
        exact hlet.elim Bool.false_ne_true Bool.false_ne_true
  | served req env t _ hready hserve =>
    have hcc := hready.cc_eq_none_iff hs
    -- without a connection before, `LeavesOpen` says that one is dialed
    cases hserve with
    | cached resp hfound =>
      change t.cc ≠ none ↔ _
      rw [Ne, hcc]
      exact ⟨.inl, fun hopen => hopen.resolve_right fun hnew => hnew.2.1 resp hfound⟩
    | reused cc _ htcc =>
      have hsome : t.cc ≠ none := htcc ▸ some_ne_none cc
      exact iff_of_true hsome (.inl fun hun => hsome (hcc.mpr hun))
    | refused err told _ htcc hresolve =>
      refine iff_of_false (not_not.mpr htcc) ?_
      rintro (hun | ⟨-, -, -, target, htarget⟩)
      · exact hun (hcc.mp htcc)
      · rw [← hready.host_eq, hresolve] at htarget
        cases htarget
    | dialFailed target _ htcc hresolve hdial =>
      refine iff_of_false (not_not.mpr htcc) ?_
      rintro (hun | ⟨-, -, hdial', -⟩)
      · exact hun (hcc.mp htcc)
      · exact Bool.false_ne_true (hdial.symm.trans hdial')
    | dialed target hmiss _ hresolve hdial =>
      refine iff_of_true (some_ne_none _) (.inr ⟨hready.admitted, hmiss, hdial, target, ?_⟩)
      rw [← hready.host_eq, hresolve]

end Tracked

end Handler

/-- The client was switched to another protocol. -/
def Event.isUpgrade : Event ν → Bool
  | .write (.upgrade _) => true
  | _ => false

/-- When `HandleHTTP` returns, all connections are closed exactly if there is none at that moment:
the one before it was closed because the host changed, and no other one was dialed. Upgraded
connections are not considered. -/
theorem all_closed_iff (f : Forwarder) (g : Sniffing) :
    (∀ inputs input s s' err, f.handleHTTP.Runs inputs s → f.handleHTTP.step s input = some s' →
      s'.outcome = .returned err → (∀ e ∈ s'.log, e.isUpgrade = false) →
      (Handler.AllClosed s' ↔ ¬ f.handleHTTP.LeavesOpen s input)) ∧
    ∀ inputs input s s' err, g.handleHTTP.Runs inputs s → g.handleHTTP.step s input = some s' →
      s'.outcome = .returned err → (∀ e ∈ s'.log, e.isUpgrade = false) →
      (Handler.AllClosed s' ↔ ¬ g.handleHTTP.LeavesOpen s input) := by
  have hgen : ∀ {ν : Type} (h : Handler ν) inputs input (s s' : Session ν) err, h.Runs inputs s →
      h.step s input = some s' → s'.outcome = .returned err →
      (Handler.AllClosed s' ↔ ¬ h.LeavesOpen s input) := by
    intro ν h inputs input s s' err hrun hstep hreturned
    have hs := Handler.Tracked.run hrun
    rw [(hs.step hstep).allClosed_iff, ← Handler.cc_ne_none_iff hs hstep hreturned, not_not]
  exact ⟨fun inputs input s s' err hrun hstep hreturned _ =>
      hgen _ inputs input s s' err hrun hstep hreturned,
    fun inputs input s s' err hrun hstep hreturned _ =>
      hgen _ inputs input s s' err hrun hstep hreturned⟩

/-- A sniffer with a cache. -/
def caching : Sniffing := { net := .ofHeads [(okHead, 200)], cache := some defaultPolicy }

/-- A request that is forwarded. -/
def forwardedA : Input := .request (.get (bytes "a") (bytes "/")) { reads := [⟨okHead, none⟩] }

/-- A request that is answered from the cache, and the client connection is closed. -/
def cachedB : Input :=
  .request (.get (bytes "b") (bytes "/"))
    { lookup := .fresh { Response.empty 200 with close := true } }

theorem all_closed_cached :
    ∃ s, caching.handleHTTP.Runs [forwardedA, cachedB] s ∧ s.outcome = .returned none ∧
      s.dials = 1 ∧ Handler.AllClosed s := by
  have hfirst : (run caching.handleHTTP.step {} [forwardedA]).any
      (fun s => s.started && s.upstreamHost == bytes "a:80") = true := by decide +kernel
  have hboth : (run caching.handleHTTP.step {} [forwardedA, cachedB]).any
      (fun s => s.outcome == .returned none && s.dials == 1 && s.log.all (!·.isUpgrade)) =
        true := by
    decide +kernel
  obtain ⟨s, hrun, hs⟩ := (any_eq_true _ _).mp hfirst
  obtain ⟨s', hrun', hs'⟩ := (any_eq_true _ _).mp hboth
  rw [Bool.and_eq_true, beq_iff_eq] at hs
  rw [Bool.and_eq_true, Bool.and_eq_true, beq_iff_eq, beq_iff_eq, List.all_eq_true] at hs'
  obtain ⟨⟨hreturned, hdials⟩, hupgrade⟩ := hs'
  have hstep : caching.handleHTTP.step s cachedB = some s' := by
    obtain ⟨t, ht, hlast⟩ := (@run_append_eq_some _ _ _ {} s' [forwardedA] [cachedB]).mp hrun'
    obtain rfl : s = t := some.inj (hrun.symm.trans ht)
    obtain ⟨_, hstep, hnil⟩ := run_cons_eq_some.mp hlast
    exact hstep.trans hnil
  refine ⟨s', hrun', hreturned, hdials, ?_⟩
  refine ((all_closed_iff { net := .ofHeads [] } caching).2 _ _ s s' none hrun hstep hreturned
    fun e he => ?_).mpr ?_
  · exact Bool.not_eq_true' _ ▸ hupgrade e he
  · rintro (hun | ⟨-, hmiss, -⟩)
    · refine hun (.inr ⟨hs.1, by decide +kernel, ?_⟩)
      rw [hs.2]
      decide +kernel
    · exact hmiss _ rfl

/-- A request is forwarded, and the client goes away. -/
theorem forwarded_leaks :
    (∃ s, ({ net := .ofHeads [(okHead, 200)] } : Forwarder).handleHTTP.Runs
      [forwardedA, .readError true] s ∧ s.outcome = .returned none ∧ ¬ Handler.AllClosed s) ∧
    ∃ s, caching.handleHTTP.Runs
      [forwardedA, .readError true] s ∧ s.outcome = .returned none ∧ ¬ Handler.AllClosed s := by
  have hgen : ∀ {ν : Type} (h : Handler ν),
      (run h.step {} [forwardedA, .readError true]).any
        (fun s => s.outcome == .returned none && s.cc.isSome) = true →
      ∃ s, h.Runs [forwardedA, .readError true] s ∧ s.outcome = .returned none ∧
        ¬ Handler.AllClosed s := by
    intro ν h hany
    obtain ⟨s, hrun, hs⟩ := (any_eq_true _ _).mp hany
    rw [Bool.and_eq_true, beq_iff_eq] at hs
    refine ⟨s, hrun, hs.1, fun hall => ?_⟩
    rw [(Handler.Tracked.run hrun).allClosed_iff.mp hall] at hs
    exact Bool.false_ne_true hs.2
  exact ⟨hgen _ (by decide +kernel), hgen _ (by decide +kernel)⟩

end Sniffer

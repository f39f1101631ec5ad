import Mathlib.Algebra.BigOperators.Group.List.Basic
import Gost.Sniffer.Packages
import Gost.Sniffer.Upstream

/-!
# Responses and the requests they answer

The upstream answers each request that is written to it with interim responses and a final one. The
relay passes over interim responses with the status 100 only, and reads each response through a
buffer of its own: any other interim response is taken for the final one, and what the buffer holds
behind it is lost. As long as all interim responses have the status 100, the final responses reach
the client in the order of the requests.
-/

namespace Sniffer

open Bytes Http List Option Reader TransitionSystem

/-! ## Answers -/

/-- What the upstream sends in answer to a request: the heads of interim responses, and the head and
the body of the final one. -/
structure Answer where
  interims : List Bytes
  head : Bytes
  body : Bytes

def Answer.text (a : Answer) : Bytes := a.interims.flatten ++ (a.head ++ a.body)

/-- The final response. -/
def Answer.final (net : Net) (method : Bytes) (a : Answer) : Option Response :=
  (net.parse method a.head).map fun p => { p.1 with body := a.body }

/-- The text is one complete head. -/
def IsHead (s : Bytes) : Prop := splitHead s = some (s, [])

instance (s : Bytes) : Decidable (IsHead s) := inferInstanceAs (Decidable (_ = _))

/-- The body has the form that the head announces. -/
def Framing.Frames (net : Net) (body : Bytes) : Framing → Prop
  | .length n => body.length = n
  | .chunked => net.chunked body = some (body, [])
  | .untilClose => True

instance (net : Net) (body : Bytes) : DecidablePred (Framing.Frames net body)
  | .length _ => inferInstanceAs (Decidable (_ = _))
  | .chunked => inferInstanceAs (Decidable (_ = _))
  | .untilClose => .isTrue trivial

/-- The statuses are those of interim responses other than 101, and of a final response. -/
structure Answer.Valid (net : Net) (method : Bytes) (a : Answer) : Prop where
  interims : ∀ head ∈ a.interims, IsHead head ∧ ∃ p ∈ net.parse method head,
    100 ≤ p.1.statusCode ∧ p.1.statusCode < 200 ∧ p.1.statusCode ≠ 101
  head : IsHead a.head
  final : ∃ p ∈ net.parse method a.head, 200 ≤ p.1.statusCode ∧ p.2.Frames net a.body

instance (net : Net) (method : Bytes) (a : Answer) : Decidable (a.Valid net method) :=
  decidable_of_iff ((∀ head ∈ a.interims, IsHead head ∧ ∃ p ∈ net.parse method head,
    100 ≤ p.1.statusCode ∧ p.1.statusCode < 200 ∧ p.1.statusCode ≠ 101) ∧ IsHead a.head ∧
      ∃ p ∈ net.parse method a.head, 200 ≤ p.1.statusCode ∧ p.2.Frames net a.body)
    ⟨fun h => ⟨h.1, h.2.1, h.2.2⟩, fun h => ⟨h.1, h.2, h.3⟩⟩

/-- All interim responses have the status 100. -/
def Answer.Continues (net : Net) (method : Bytes) (a : Answer) : Prop :=
  ∀ head ∈ a.interims, ∃ p ∈ net.parse method head, p.1.statusCode = 100

instance (net : Net) (method : Bytes) (a : Answer) : Decidable (a.Continues net method) :=
  inferInstanceAs (Decidable (∀ head ∈ a.interims, _))

/-! ## Reading an answer -/

variable {framing : Framing} {a : Answer}

section Reading

variable {net : Net} {method : Bytes} {cc : List (ReadResult UInt8)} {br body : Bytes}

/-- Behind a text that is all there is nothing is left to be read. -/
theorem bufferUntil_all {split : Bytes → Option (Bytes × Bytes)} (hsplit : Delimits split)
    (htext : split body = some (body, [])) (hclean : Clean cc) (hdata : br ++ received cc = body) :
    ∃ extra rest, bufferUntil split cc br = some (body, extra, rest) ∧ received rest = [] := by
  rw [← append_nil body] at hdata
  obtain ⟨taken, rest, extra, rfl, hrun, htaken, -⟩ :=
    bufferUntil_spec hsplit htext hclean.init hdata
  refine ⟨extra, rest, hrun, ?_⟩
  rw [received_append, ← append_assoc, htaken, append_assoc] at hdata
  exact (append_eq_nil_iff.mp (append_cancel_left hdata)).2

theorem readBody_spec (hframes : framing.Frames net body) (hclean : Clean cc)
    (hdata : br ++ received cc = body) :
    ∃ extra rest, readBody net cc br framing = some (body, extra, rest) ∧ received rest = [] := by
  cases framing with
  | length n =>
    refine bufferUntil_all (delimits_splitLength n) ?_ hclean hdata
    rw [splitLength, if_pos hframes.ge, take_of_length_le hframes.le, drop_of_length_le hframes.le]
  | chunked => exact bufferUntil_all net.delimits_chunked hframes hclean hdata
  | untilClose =>
    refine ⟨[], [], ?_, rfl⟩
    have hall : cc.all (·.err ≠ some .other) = true :=
      all_eq_true.mpr fun r hr => decide_eq_true (hclean.ne_other r hr)
    rw [readBody, if_pos hall, hdata]

variable {head : Bytes} {p : Response × Framing} {interims : List Bytes}

/-- A head at the front of the stream is read, and what follows is left. -/
theorem readResponse_spec {tail : Bytes} (hhead : IsHead head)
    (hparse : net.parse method head = some p) (hclean : Clean cc)
    (hdata : br ++ received cc = head ++ tail) :
    ∃ br' cc', readResponse net method cc br = some (p, br', cc') ∧ Clean cc' ∧
      br' ++ received cc' = tail := by
  obtain ⟨taken, rest, extra, rfl, hrun, htaken, -⟩ :=
    bufferUntil_spec delimits_splitHead hhead hclean.init hdata
  refine ⟨extra, rest, ?_, hclean.of_append, ?_⟩
  · rw [readResponse, hrun, bind_some, hparse]
    rfl
  · rw [received_append, ← append_assoc, htaken, append_assoc] at hdata
    exact append_cancel_left hdata

/-- The loop passes over the interim responses and stops at the final one. -/
theorem readFinal_spec (hhead : IsHead head) (hparse : net.parse method head = some p)
    (hstatus : p.1.statusCode ≠ 100)
    (hinterims : ∀ i ∈ interims, IsHead i ∧ ∃ q ∈ net.parse method i, q.1.statusCode = 100)
    {turns : ℕ} (hturns : interims.length < turns) (hclean : Clean cc)
    (hdata : br ++ received cc = interims.flatten ++ (head ++ body)) :
    ∃ passed br' cc', readFinal net method turns cc br = (passed, some (p, br', cc')) ∧ Clean cc' ∧
      br' ++ received cc' = body := by
  induction interims generalizing turns cc br with
  | nil =>
    obtain ⟨turns, rfl⟩ := Nat.exists_eq_add_one_of_ne_zero (Nat.ne_of_gt hturns)
    obtain ⟨br', cc', hread, hclean', hrest⟩ := readResponse_spec hhead hparse hclean hdata
    refine ⟨[], br', cc', ?_, hclean', hrest⟩
    rw [readFinal, hread]
    exact if_neg hstatus
  | cons i interims ih =>
    obtain ⟨turns, rfl⟩ :=
      Nat.exists_eq_add_one_of_ne_zero (Nat.ne_of_gt (Nat.zero_lt_of_lt hturns))
    obtain ⟨hi, q, hq, hcontinue⟩ := hinterims i mem_cons_self
    rw [flatten_cons, append_assoc] at hdata
    obtain ⟨br₁, cc₁, hread, hclean₁, hrest⟩ := readResponse_spec hi hq hclean hdata
    obtain ⟨passed, br', cc', hloop, hclean', hbody⟩ :=
      ih (fun j hj => hinterims j (mem_cons_of_mem i hj)) (Nat.lt_of_succ_lt_succ hturns)
        hclean₁ hrest
    refine ⟨q.1 :: passed, br', cc', ?_, hclean', hbody⟩
    rw [readFinal, hread]
    dsimp only
    rw [if_pos hcontinue, hloop]

/-- There are turns enough. -/
theorem length_lt_of_isHead (hinterims : ∀ i ∈ interims, IsHead i) (tail : Bytes) :
    interims.length < (interims.flatten ++ tail).length + 1 := by
  have hlen : interims.length ≤ interims.flatten.length := by
    rw [length_flatten, ← length_map (f := List.length)]
    refine length_le_sum_of_one_le _ fun n hn => ?_
    obtain ⟨i, hi, rfl⟩ := mem_map.mp hn
    refine length_pos_of_ne_nil fun hnil => ?_
    have := hinterims i hi
    rw [hnil] at this
    exact absurd this (by decide)
  rw [length_append]
  omega

end Reading

/-! ## What a round trip relays -/

/-- A final response of the upstream. -/
def Written.relayed : Written → Option Response
  | .final resp _ => if 200 ≤ resp.statusCode then some resp else none
  | _ => none

/-- The final responses of the upstream that were written to the client. -/
def relayed (ws : List Written) : List Response := ws.filterMap Written.relayed

@[simp]
theorem relayed_append (ws ws' : List Written) : relayed (ws ++ ws') = relayed ws ++ relayed ws' :=
  filterMap_append

@[simp]
theorem relayed_interims (interims : List Response) : relayed (interims.map .interim) = [] := by
  rw [relayed, filterMap_map]
  exact filterMap_eq_nil_iff.mpr fun _ _ => rfl

/-- What the relay says itself is no response of the upstream. -/
theorem Own.relayed {ws : List Written} (hws : Own ws) : relayed ws = [] := by
  refine filterMap_eq_nil_iff.mpr fun w hw => ?_
  obtain ⟨resp, rfl⟩ := hws w hw
  rfl

namespace Exchange.Plain

variable {x : Exchange} {net : Net} {cache : Option Policy} {websocket : Bool}
  {stale : Option Response} {req : Request} {env : Env}

theorem unanswered_relayed (hx : x.Plain) (err : Err) (sent : Bool) (interims : List Response) :
    relayed (unanswered cache x stale req env err sent interims).written = [] := by
  unfold unanswered
  split
  · rw [relayed_append, relayed_interims]
    rfl
  · rw [relayed_append, relayed_interims]
    exact (hx.failure req).relayed

variable {resp : Response} {br : Bytes} {cc : List (ReadResult UInt8)}

theorem answered_sent (interims : List Response) :
    (answered net cache websocket x req env interims resp framing br cc).sent = some true := by
  unfold answered
  split
  · rfl
  · split
    · rfl
    · unfold passOn
      split
      · rfl
      · split <;> rfl

/-- Nothing is relayed unless the request was written to the upstream. -/
theorem roundTrip_unsent (hx : x.Plain)
    (hsent : (x.roundTrip net cache websocket stale req env).sent ≠ some true) :
    relayed (x.roundTrip net cache websocket stale req env).written = [] := by
  generalize hr : x.roundTrip net cache websocket stale req env = r at hsent ⊢
  cases Exchange.roundTrip_cases hr with
  | refused err told hprepare => exact (hx.refused hprepare).relayed
  | unsent | unanswered => exact hx.unanswered_relayed _ _ _
  | answered _ interims => exact absurd (answered_sent interims) hsent

/-- A final response that is read is passed on, or the session is over. -/
theorem answered_relayed {body : Bytes} (interims : List Response) (hstatus : 200 ≤ resp.statusCode)
    (hframes : framing.Frames net body) (hclean : Clean cc) (hdata : br ++ received cc = body) :
    let r := answered net cache websocket x req env interims resp framing br cc
    received r.unread = [] ∧
      (relayed r.written = [{ resp with body }] ∨
        relayed r.written = [] ∧ (r.err.isSome || r.shouldClose) = true) := by
  obtain ⟨extra, rest, hread, hrest⟩ := readBody_spec hframes hclean hdata
  unfold answered
  rw [if_neg (Nat.ne_of_gt (Nat.lt_of_lt_of_le (by decide) hstatus)), hread]
  dsimp only
  unfold passOn
  split
  next => exact ⟨hrest, .inr ⟨relayed_interims interims, rfl⟩⟩
  next out hrewrite =>
    split
    next =>
      refine ⟨hrest, .inl ?_⟩
      rw [relayed_append, relayed_interims]
      exact filterMap_cons_some (if_pos hstatus)
    next => exact ⟨hrest, .inr ⟨relayed_interims interims, rfl⟩⟩

/-- A request that was written to the upstream, whose answer is delivered in any pieces. -/
theorem roundTrip_sent (hx : x.Plain) (hvalid : a.Valid net req.method)
    (hcontinues : a.Continues net req.method) (hclean : Clean env.reads)
    (hreads : received env.reads = a.text)
    (hsent : (x.roundTrip net cache websocket stale req env).sent = some true) :
    let r := x.roundTrip net cache websocket stale req env
    received r.unread = [] ∧ ∃ resp, a.final net req.method = some resp ∧
      (relayed r.written = [resp] ∨
        relayed r.written = [] ∧ (r.err.isSome || r.shouldClose) = true) := by
  obtain ⟨⟨resp, framing⟩, hparse, hstatus, hframes⟩ := hvalid.final
  have hfinal : a.final net req.method = some { resp with body := a.body } := by
    rw [Answer.final, hparse]
    rfl
  have hturns := length_lt_of_isHead (fun i hi => (hvalid.interims i hi).1) (a.head ++ a.body)
  obtain ⟨passed, br, cc, hread, hclean', hbody⟩ := readFinal_spec hvalid.head hparse
    (Nat.ne_of_gt (Nat.lt_of_lt_of_le (by decide) hstatus))
    (fun i hi => ⟨(hvalid.interims i hi).1, hcontinues i hi⟩) hturns hclean
    ((nil_append _).trans hreads)
  obtain ⟨out, hprepare, hwrite⟩ := Exchange.prepare_of_sent hsent
  rw [← Answer.text, ← hreads, ← hx.method hprepare] at hread
  rw [Exchange.roundTrip_of_read hprepare hwrite hread]
  obtain ⟨hunread, hrelayed⟩ := answered_relayed passed hstatus hframes hclean' hbody
  exact ⟨hunread, _, hfinal, hrelayed⟩

end Exchange.Plain

/-! ## A session and its upstream -/

section Link

variable {ν : Type}

/-- A final response of the upstream is written to the client. -/
def Event.relayed : Event ν → Option Response
  | .write w => w.relayed
  | _ => none

/-- The connection over which a request was written to the upstream. -/
def Event.forwardedTo : Event ν → Option (Conn ν)
  | .forward conn _ true => some conn
  | _ => none

/-- The final responses of the upstream in a log. -/
def relayedIn (log : List (Event ν)) : List Response := log.filterMap Event.relayed

/-- A session together with its upstream. -/
structure Link (ν : Type) where
  session : Session ν := {}
  -- what the upstream has sent over the connection and was not read
  pending : Bytes := []
  -- the final responses to the requests that were written to it
  answers : List Response := []

namespace Link

/-- The connection over which the next request is written to the upstream, if it is. -/
def forwardedTo (h : Handler ν) (l : Link ν) (input : Input) : Option (Conn ν) :=
  (h.step l.session input).bind fun s =>
    (s.log.drop l.session.log.length).findSome? Event.forwardedTo

/-- A step of the session, with the answer of the upstream if the request is written to it. -/
def step (h : Handler ν) (net : Net) (l : Link ν) : Input × Answer → Option (Link ν)
  | (.readError eof, _) => (h.step l.session (.readError eof)).map fun s => { l with session := s }
  | (.request req env, a) =>
    (h.step l.session (.request req env)).map fun s =>
      match l.forwardedTo h (.request req env) with
      | none => { l with session := s }
      | some conn =>
        { session := s
          pending := received (h.httpRoundTrip conn.node (h.standIn req env) req env).unread
          answers := l.answers ++ (a.final net req.method).toList }

/-- What is there to be read before the answer comes: nothing on a new connection. -/
def left (l : Link ν) (req : Request) : Bytes :=
  if Handler.Unconnected l.session req then [] else l.pending

/-- The reads cut what the upstream has sent into pieces. -/
def Delivers (h : Handler ν) (net : Net) (l : Link ν) : Input × Answer → Prop
  | (.readError _, _) => True
  | (.request req env, a) => (l.forwardedTo h (.request req env)).isSome = true →
    a.Valid net req.method ∧ Clean env.reads ∧ received env.reads = l.left req ++ a.text

/-- The upstream sends no interim responses but those with the status 100. -/
def Continues (h : Handler ν) (net : Net) (l : Link ν) : Input × Answer → Prop
  | (.readError _, _) => True
  | (.request req env, a) => (l.forwardedTo h (.request req env)).isSome = true →
    a.Continues net req.method

instance (h : Handler ν) (net : Net) (l : Link ν) : DecidablePred (l.Delivers h net)
  | (.readError _, _) => .isTrue trivial
  | (.request _ _, _) => inferInstanceAs (Decidable (_ → _))

instance (h : Handler ν) (net : Net) (l : Link ν) : DecidablePred (l.Continues h net)
  | (.readError _, _) => .isTrue trivial
  | (.request _ _, _) => inferInstanceAs (Decidable (_ → _))

end Link

/-! ## Pairing -/

theorem relayedIn_append (log log' : List (Event ν)) :
    relayedIn (log ++ log') = relayedIn log ++ relayedIn log' := filterMap_append

/-- Events that have nothing to do with requests and responses of the upstream. -/
def Silent (events : List (Event ν)) : Prop :=
  ∀ e ∈ events, e.forwardedTo = none ∧ e.relayed = none

variable {events : List (Event ν)} {conn : Conn ν}

theorem Silent.append {events' : List (Event ν)} (hl : Silent events) (hr : Silent events') :
    Silent (events ++ events') := fun e he => (mem_append.mp he).elim (hl e) (hr e)

theorem Silent.forwardedTo (hs : Silent events) : events.findSome? Event.forwardedTo = none :=
  findSome?_eq_none_iff.mpr fun e he => (hs e he).1

theorem Silent.relayed (hs : Silent events) : relayedIn events = [] :=
  filterMap_eq_nil_iff.mpr fun e he => (hs e he).2

theorem silent_nil : Silent ([] : List (Event ν)) := fun _ he => absurd he not_mem_nil

theorem silent_singleton {e : Event ν} (hforwarded : e.forwardedTo = none)
    (hrelayed : e.relayed = none) : Silent [e] :=
  fun _ he => mem_singleton.mp he ▸ ⟨hforwarded, hrelayed⟩

theorem silent_ite {p : Prop} [Decidable p] (hs : Silent events) :
    Silent (if p then events else []) := by
  split
  · exact hs
  · exact silent_nil

theorem silent_unconnected {h : Handler ν} {net : Net} (hrelay : h.IsRelay net)
    (stale : Option Response) (env : Env) (err : Err) {told : List Written} (htold : Own told) :
    Silent ((h.unconnected stale env err told).1.map (Event.write (ν := ν))) := by
  intro e he
  obtain ⟨w, hw, rfl⟩ := mem_map.mp he
  rcases hrelay.unconnected stale env err htold w hw with ⟨_, rfl⟩ | ⟨_, _, rfl, -⟩
  · exact ⟨rfl, rfl⟩
  · exact ⟨rfl, rfl⟩

theorem relayedIn_events (r : RoundTrip) (conn : Conn ν) (req : Request) :
    relayedIn (r.events conn req) = relayed r.written := by
  have hsent : relayedIn (r.sent.map (Event.forward conn req ·)).toList = [] := by
    cases r.sent <;> rfl
  have hmarked : relayedIn (if r.marked then [Event.mark conn.node] else []) = [] := by
    split <;> rfl
  have hstored :
      relayedIn (r.stored.map fun p => Event.store (ν := ν) req p.1 p.2).toList = [] := by
    cases r.stored <;> rfl
  have hwritten : relayedIn (r.written.map (Event.write (ν := ν))) = relayed r.written :=
    filterMap_map
  unfold RoundTrip.events
  rw [relayedIn_append, relayedIn_append, relayedIn_append, hsent, hmarked, hstored, hwritten,
    append_nil, nil_append, nil_append]

theorem forwardedTo_events (r : RoundTrip) (conn : Conn ν) (req : Request) :
    (r.events conn req).findSome? Event.forwardedTo =
      if r.sent = some true then some conn else none := by
  have hrest : ∀ e ∈ (if r.marked then [Event.mark conn.node] else []) ++ (r.written.map .write ++
      (r.stored.map fun p => .store req p.1 p.2).toList), e.forwardedTo = none := by
    intro e he
    rcases mem_append.mp he with he | he
    · split at he
      · exact mem_singleton.mp he ▸ rfl
      · exact absurd he not_mem_nil
    · rcases mem_append.mp he with he | he
      · obtain ⟨w, -, rfl⟩ := mem_map.mp he
        rfl
      · obtain ⟨p, -, rfl⟩ := map_eq_some_iff.mp (mem_toList.mp he)
        rfl
  unfold RoundTrip.events
  rw [append_assoc, append_assoc, findSome?_append, findSome?_eq_none_iff.mpr hrest, or_none]
  rcases r.sent with _ | _ | _ <;> rfl

/-- What a step adds to the log: the events of a round trip, or nothing that counts. -/
inductive Handler.Trace (h : Handler ν) (s : Session ν) : Input → Session ν → Prop
  | silent (input : Input) (s' : Session ν) (new : List (Event ν)) (hlog : s'.log = s.log ++ new)
      (hsilent : Silent new) : Trace h s input s'
  | forwarded (req : Request) (env : Env) (s' : Session ν) (conn : Conn ν) (pre : List (Event ν))
      (hlog : s'.log = s.log ++ (pre ++
        (h.httpRoundTrip conn.node (h.standIn req env) req env).events conn req))
      (hsilent : Silent pre)
      (hgoes : s'.outcome = .running →
        ((h.httpRoundTrip conn.node (h.standIn req env) req env).err.isSome ||
          (h.httpRoundTrip conn.node (h.standIn req env) req env).shouldClose) = false) :
      Trace h s (.request req env) s'

namespace Handler

variable {h : Handler ν} {net : Net} {s t s' : Session ν} {req : Request} {env : Env}
  {input : Input}

theorem forward_outcome {stale : Option Response}
    (hrunning : (h.forward s conn stale req env).outcome = .running) :
    ((h.httpRoundTrip conn.node stale req env).err.isSome ||
      (h.httpRoundTrip conn.node stale req env).shouldClose) = false := by
  by_contra hover
  have hreturned : (h.forward s conn stale req env).outcome = .returned _ :=
    if_pos (Bool.not_eq_false _ ▸ hover)
  exact Outcome.noConfusion (hreturned.symm.trans hrunning)

theorem ServeCase.trace (hrelay : h.IsRelay net) (hserve : h.ServeCase t req env s') :
    h.Trace t (.request req env) s' := by
  cases hserve with
  | cached resp => exact .silent _ _ _ rfl (silent_ite (silent_singleton rfl rfl))
  | reused conn =>
    exact .forwarded req env _ conn [] rfl silent_nil forward_outcome
  | refused err told _ _ hresolve =>
    exact .silent _ _ _ rfl (silent_unconnected hrelay _ _ _ (hrelay.refused hresolve))
  | dialFailed target _ _ hresolve =>
    refine .silent _ _ ([Event.dial target.addr] ++
      ((if target.tracked then [Event.mark target.node] else []) ++
        (h.unconnected (h.standIn req env) env .dial target.failure).1.map Event.write)) ?_ ?_
    · change _ ++ _ ++ _ ++ _ = _
      rw [append_assoc, append_assoc]
    · refine (silent_singleton rfl rfl).append ((silent_ite (silent_singleton rfl rfl)).append ?_)
      exact silent_unconnected hrelay _ _ _ (hrelay.failure hresolve)
  | dialed target =>
    refine .forwarded req env _ (newConn t target)
      ([Event.dial target.addr, Event.connect (newConn t target)] ++
        if target.tracked then [Event.reset target.node] else []) ?_ ?_ forward_outcome
    · change _ ++ _ ++ _ ++ _ = _
      rw [append_assoc, append_assoc]
      rfl
    · refine .append (fun e he => ?_) (silent_ite (silent_singleton rfl rfl))
      rcases mem_pair.mp he with rfl | rfl <;> exact ⟨rfl, rfl⟩

theorem trace_of_step (hrelay : h.IsRelay net) (hstep : h.step s input = some s') :
    h.Trace s input s' := by
  obtain ⟨-, hcase⟩ := step_cases hstep
  cases hcase with
  | readError | stopped => exact .silent _ _ [] (append_nil _).symm silent_nil
  | served req env t _ hready hserve =>
    obtain ⟨first, hfirst, hclose⟩ := hready.log_eq
    have hsilent : Silent first := fun e he => (hclose e he).elim fun _ h => h ▸ ⟨rfl, rfl⟩
    cases hserve.trace hrelay with
    | silent _ _ new hlog hnew =>
      refine .silent _ _ (first ++ new) ?_ (hsilent.append hnew)
      rw [hlog, hfirst, append_assoc]
    | forwarded _ _ _ conn pre hlog hpre hgoes =>
      refine .forwarded req env _ conn (first ++ pre) ?_ (hsilent.append hpre) hgoes
      rw [hlog, hfirst, append_assoc, append_assoc]

end Handler

namespace Link

variable {h : Handler ν} {net : Net} {l l' : Link ν} {s : Session ν} {new : List (Event ν)}

theorem forwardedTo_eq {input : Input} (hstep : h.step l.session input = some s)
    (hlog : s.log = l.session.log ++ new) :
    l.forwardedTo h input = new.findSome? Event.forwardedTo := by
  rw [forwardedTo, hstep, bind_some, hlog, drop_left]

/-- Every request that was written to the upstream has got its response, but for the last one of a
session that is over. -/
structure Paired (l : Link ν) : Prop where
  pending : l.pending = []
  paired : relayedIn l.session.log <+: l.answers
  complete : l.session.outcome = .running → relayedIn l.session.log = l.answers

theorem Paired.silent (hl : l.Paired) (hrunning : l.session.outcome = .running)
    (hlog : s.log = l.session.log ++ new) (hnew : relayedIn new = []) :
    ({ l with session := s } : Link ν).Paired := by
  have hsame : relayedIn s.log = l.answers := by
    rw [hlog, relayedIn_append, hnew, append_nil]
    exact hl.complete hrunning
  exact ⟨hl.pending, hsame ▸ prefix_refl _, fun _ => hsame⟩

theorem Paired.forwarded (hrelay : h.IsRelay net) (hl : l.Paired) {req : Request} {env : Env}
    {pre : List (Event ν)} (hrunning : l.session.outcome = .running)
    (hlog : s.log = l.session.log ++ (pre ++ (h.httpRoundTrip conn.node (h.standIn req env) req
      env).events conn req)) (hsilent : Silent pre)
    (hgoes : s.outcome = .running → ((h.httpRoundTrip conn.node (h.standIn req env) req
      env).err.isSome || (h.httpRoundTrip conn.node (h.standIn req env) req env).shouldClose) =
      false) (hsent : (h.httpRoundTrip conn.node (h.standIn req env) req env).sent = some true)
    (hvalid : a.Valid net req.method) (hcontinues : a.Continues net req.method)
    (hclean : Clean env.reads) (hreads : received env.reads = a.text) :
    ({ session := s
       pending := received (h.httpRoundTrip conn.node (h.standIn req env) req env).unread
       answers := l.answers ++ (a.final net req.method).toList } : Link ν).Paired := by
  obtain ⟨x, websocket, hx, heq⟩ := hrelay.roundTrip conn.node
  rw [heq] at hsent hgoes hlog ⊢
  obtain ⟨hunread, resp, hfinal, hrelayed⟩ :=
    hx.roundTrip_sent hvalid hcontinues hclean hreads hsent
  have hall : relayedIn s.log = l.answers ++
      relayed (x.roundTrip net h.cache websocket (h.standIn req env) req env).written := by
    rw [hlog, relayedIn_append, relayedIn_append, hsilent.relayed, nil_append,
      relayedIn_events, hl.complete hrunning]
  refine ⟨hunread, ?_, fun hr => ?_⟩
  · rw [hall, hfinal]
    rcases hrelayed with hone | ⟨hnone, -⟩
    · rw [hone]
      exact prefix_refl _
    · rw [hnone, append_nil]
      exact prefix_append _ _
  · rw [hall, hfinal]
    rcases hrelayed with hone | ⟨-, hover⟩
    · rw [hone]
      rfl
    · exact absurd ((hgoes hr).symm.trans hover) Bool.false_ne_true

theorem Paired.step (hrelay : h.IsRelay net) {p : Input × Answer} (hl : l.Paired)
    (hdelivers : l.Delivers h net p) (hcontinues : l.Continues h net p)
    (hstep : l.step h net p = some l') : l'.Paired := by
  obtain ⟨input, a⟩ := p
  cases input with
  | readError eof =>
    obtain ⟨s, hs, rfl⟩ := map_eq_some_iff.mp hstep
    cases Handler.trace_of_step hrelay hs with
    | silent _ _ new hlog hsilent =>
      exact hl.silent (Handler.step_cases hs).1 hlog hsilent.relayed
  | request req env =>
    obtain ⟨s, hs, rfl⟩ := map_eq_some_iff.mp hstep
    have hrunning := (Handler.step_cases hs).1
    cases Handler.trace_of_step hrelay hs with
    | silent _ _ new hlog hsilent =>
      rw [forwardedTo_eq hs hlog, hsilent.forwardedTo]
      exact hl.silent hrunning hlog hsilent.relayed
    | forwarded _ _ _ conn pre hlog hsilent hgoes =>
      have hto := forwardedTo_eq hs hlog
      rw [findSome?_append, hsilent.forwardedTo, none_or, forwardedTo_events] at hto
      by_cases hsent : (h.httpRoundTrip conn.node (h.standIn req env) req env).sent = some true
      · rw [if_pos hsent] at hto
        have hsome : (l.forwardedTo h (.request req env)).isSome = true := hto ▸ rfl
        obtain ⟨hvalid, hclean, hreads⟩ := hdelivers hsome
        have hleft : l.left req = [] := by
          unfold left
          split
          · rfl
          · exact hl.pending
        rw [hleft, nil_append] at hreads
        rw [hto]
        exact hl.forwarded hrelay hrunning hlog hsilent hgoes hsent hvalid (hcontinues hsome) hclean
          hreads
      · rw [hto, if_neg hsent]
        refine hl.silent hrunning hlog ?_
        obtain ⟨x, websocket, hx, heq⟩ := hrelay.roundTrip conn.node
        rw [heq] at hsent
        rw [relayedIn_append, hsilent.relayed, relayedIn_events, heq, hx.roundTrip_unsent hsent]
        rfl

theorem Paired.run (hrelay : h.IsRelay net) {labels : List (Input × Answer)}
    (hguard : Along (Link.step h net) (fun l p => l.Delivers h net p ∧ l.Continues h net p) {}
      labels)
    (hrun : run (Link.step h net) {} labels = some l) : l.Paired :=
  run_induction_along (fun _ _ _ hl hg hstep => hl.step hrelay hg.1 hg.2 hstep)
    ⟨rfl, prefix_refl _, fun _ => rfl⟩ hguard hrun

end Link

end Link

/-- The final responses reach the client in the order of the requests that were written to the
upstream, however the stream of the upstream is cut into reads, as long as all interim responses
have the status 100. -/
theorem finals_paired (f : Forwarder) (g : Sniffing) :
    (∀ labels l, Along (Link.step f.handleHTTP f.net)
        (fun l p => l.Delivers f.handleHTTP f.net p ∧ l.Continues f.handleHTTP f.net p) {} labels →
      run (Link.step f.handleHTTP f.net) {} labels = some l →
      ∀ (k : ℕ) resp, (relayedIn l.session.log)[k]? = some resp → l.answers[k]? = some resp) ∧
    ∀ labels l, Along (Link.step g.handleHTTP g.net)
        (fun l p => l.Delivers g.handleHTTP g.net p ∧ l.Continues g.handleHTTP g.net p) {} labels →
      run (Link.step g.handleHTTP g.net) {} labels = some l →
      ∀ (k : ℕ) resp, (relayedIn l.session.log)[k]? = some resp → l.answers[k]? = some resp := by
  have hget : ∀ {ν : Type} {l : Link ν}, l.Paired → ∀ (k : ℕ) resp,
      (relayedIn l.session.log)[k]? = some resp → l.answers[k]? = some resp := by
    intro ν l hl k resp hk
    obtain ⟨rest, hrest⟩ := hl.paired
    rw [← hrest]
    exact List.getElem?_append_left (List.getElem?_eq_some_iff.mp hk).1 ▸ hk
  exact ⟨fun labels l hguard hrun => hget (Link.Paired.run f.isRelay hguard hrun),
    fun labels l hguard hrun => hget (Link.Paired.run g.isRelay hguard hrun)⟩

/-- The heads of an interim and two final responses. -/
def pairingNet (status : ℕ) : Net :=
  .ofHeads [(bytes "I\r\n\r\n", status), (bytes "A\r\n\r\n", 200), (bytes "B\r\n\r\n", 204)]

/-- Two requests. The answer to the first one has an interim response, and comes in one read. -/
def interimFirst : List (Input × Answer) :=
  [(.request (.get (bytes "a") (bytes "/1"))
      { reads := [⟨bytes "I\r\n\r\n" ++ bytes "A\r\n\r\n", none⟩] },
    { interims := [bytes "I\r\n\r\n"], head := bytes "A\r\n\r\n", body := [] }),
    (.request (.get (bytes "a") (bytes "/2")) { reads := [⟨bytes "B\r\n\r\n", none⟩] },
      { interims := [], head := bytes "B\r\n\r\n", body := [] })]

theorem finals_paired_continue : ∃ l,
    run (Link.step ({ net := pairingNet 100 } : Sniffing).handleHTTP (pairingNet 100)) {}
      interimFirst = some l ∧
    (relayedIn l.session.log)[1]? = some (.empty 204) ∧ l.answers[1]? = some (.empty 204) := by
  have hany : (run (Link.step ({ net := pairingNet 100 } : Sniffing).handleHTTP (pairingNet 100)) {}
      interimFirst).any (fun l => (relayedIn l.session.log)[1]? == some (.empty 204)) = true := by
    decide +kernel
  obtain ⟨l, hrun, hl⟩ := (any_eq_true _ _).mp hany
  have hsecond := beq_iff_eq.mp hl
  refine ⟨l, hrun, hsecond, ?_⟩
  exact (finals_paired { net := pairingNet 100 } { net := pairingNet 100 }).2 interimFirst l
    (by decide +kernel) hrun 1 _ hsecond

/-- An interim response with the status 103 is taken for the final one, which is lost: the client
gets the second response as the first one. -/
theorem early_hints_lose_final :
    (∃ l, run (Link.step ({ net := pairingNet 103 } : Forwarder).handleHTTP (pairingNet 103)) {}
        interimFirst = some l ∧
      Along (Link.step ({ net := pairingNet 103 } : Forwarder).handleHTTP (pairingNet 103))
        (fun l p => l.Delivers ({ net := pairingNet 103 } : Forwarder).handleHTTP
          (pairingNet 103) p) {} interimFirst ∧
      (relayedIn l.session.log)[0]? = some (.empty 204) ∧ l.answers[0]? = some (.empty 200)) ∧
    ∃ l, run (Link.step ({ net := pairingNet 103 } : Sniffing).handleHTTP (pairingNet 103)) {}
        interimFirst = some l ∧
      Along (Link.step ({ net := pairingNet 103 } : Sniffing).handleHTTP (pairingNet 103))
        (fun l p => l.Delivers ({ net := pairingNet 103 } : Sniffing).handleHTTP
          (pairingNet 103) p) {} interimFirst ∧
      (relayedIn l.session.log)[0]? = some (.empty 204) ∧ l.answers[0]? = some (.empty 200) := by
  have hgen : ∀ {ν : Type} (h : Handler ν),
      Along (Link.step h (pairingNet 103)) (fun l p => l.Delivers h (pairingNet 103) p) {}
        interimFirst →
      (run (Link.step h (pairingNet 103)) {} interimFirst).any (fun l =>
        (relayedIn l.session.log)[0]? == some (.empty 204) &&
          l.answers[0]? == some (.empty 200)) = true →
      ∃ l, run (Link.step h (pairingNet 103)) {} interimFirst = some l ∧
        Along (Link.step h (pairingNet 103)) (fun l p => l.Delivers h (pairingNet 103) p) {}
          interimFirst ∧
        (relayedIn l.session.log)[0]? = some (.empty 204) ∧ l.answers[0]? = some (.empty 200) := by
    intro ν h hguard hany
    obtain ⟨l, hrun, hl⟩ := (any_eq_true _ _).mp hany
    rw [Bool.and_eq_true, beq_iff_eq, beq_iff_eq] at hl
    exact ⟨l, hrun, hguard, hl.1, hl.2⟩
  exact ⟨hgen _ (by decide +kernel) (by decide +kernel),
    hgen _ (by decide +kernel) (by decide +kernel)⟩

end Sniffer

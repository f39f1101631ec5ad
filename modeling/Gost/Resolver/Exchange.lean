import Gost.Lib.TransitionSystem
import Gost.Resolver.Cache

/-!
# Replies that get into the cache

`x/resolver/exchanger/exchanger.go`, and the callers of it that store what they get: `exchange` and
`resolveIPs` of `x/resolver/resolver.go`, and `exchange` of `x/handler/dns/handler.go`. An exchange
sends the query and takes one reply, which may come from anybody and be late. An HTTPS exchanger
returns the reply as it came; any other one unpacks it and packs it again.

A system is a sequence of exchanges over one cache. It also keeps, for each message that is stored,
the query that had been sent.
-/

namespace Resolver

open List Option TransitionSystem

/-- Package `dns`: messages on the wire. -/
structure Codec (IP : Type*) where
  pack : Msg IP → Option Bytes
  unpack : Bytes → Option (Msg IP)
  -- `Conn.ReadMsg`, of the bytes that come
  readMsg : Bytes → Option (Msg IP)
  unpack_of_readMsg : ∀ {b m}, readMsg b = some m → unpack b = some m
  -- what was unpacked is the same question with the same header when it is packed again
  unpack_pack : ∀ {b m b'}, unpack b = some m → pack m = some b' → ∃ m', unpack b' = some m' ∧
    m'.id = m.id ∧ m'.question = m.question ∧ m'.rcode = m.rcode

/-- Who exchanges messages. -/
inductive Caller
  | resolver
  | handler
deriving DecidableEq, Repr

structure Exchange (IP : Type*) where
  caller : Caller
  query : Msg IP
  https : Bool
  -- what is received, `none` if nothing is
  received : Option Bytes
  -- that of the nameserver or of the handler
  ttl : ℤ
deriving DecidableEq, Repr

variable {IP : Type*}

/-! ## One exchange -/

def rcodeSuccess : ℕ := 0

namespace Exchange

variable (codec : Codec IP) (e : Exchange IP)

/-- `Exchange` of the exchanger. -/
def reply : Option Bytes :=
  if e.https then e.received
  else e.received.bind fun b => (codec.readMsg b).bind codec.pack

/-- What both callers do: pack the query, have it exchanged and unpack the reply. -/
def exchange : Option (Msg IP) :=
  (codec.pack e.query).bind fun _ => (e.reply codec).bind codec.unpack

/-- The message that is passed to `Store`, with the question that is its key. -/
def toStore : Option (Question × Msg IP) :=
  match e.caller, e.query.question with
  | .resolver, q :: _ =>
    (e.exchange codec).bind fun mr => if mr.rcode ≠ rcodeSuccess then none else some (q, mr)
  -- only for a message with a single question
  | .handler, [q] => (e.exchange codec).map fun mr => (q, mr)
  | _, _ => none

/-- The message that is stored. -/
def stored : Option (Msg IP) :=
  if e.ttl < 0 then none else (e.toStore codec).map (·.2)

end Exchange

/-! ## Sequences of exchanges -/

structure Store (IP : Type*) where
  cache : Cache IP := []
  now : ℤ := 0
  -- the queries sent, each with the message stored for it
  log : List (Msg IP × Msg IP) := []
deriving DecidableEq, Repr

inductive Event (IP : Type*)
  | tick (d : ℕ)
  | exchange (e : Exchange IP)
deriving DecidableEq, Repr

variable (codec : Codec IP) (texts : Texts)

/-- What an event stores, with the query. -/
def Event.stored : Event IP → List (Msg IP × Msg IP)
  | .tick _ => []
  | .exchange e => (e.stored codec).toList.map fun mr => (e.query, mr)

def Store.step (s : Store IP) : Event IP → Option (Store IP)
  | .tick d => some { s with now := s.now + d }
  | .exchange e =>
    let cache := (e.toStore codec).elim s.cache fun (q, mr) =>
      s.cache.store s.now (texts.key q) mr e.ttl
    some { s with cache, log := s.log ++ (Event.exchange e).stored codec }

/-- Every message in the cache was stored for a query with its transaction ID and its questions. -/
def Store.Matching (s : Store IP) : Prop :=
  ∀ entry ∈ s.log, entry.2.id = entry.1.id ∧ entry.2.question = entry.1.question

/-! ## The messages that are stored -/

variable {mr : Msg IP} {event : Event IP}

namespace Exchange

variable (e : Exchange IP)

/-- The message that was received, as it came. -/
def message : Option (Msg IP) :=
  if e.https then e.received.bind codec.unpack
  else (e.received.bind codec.readMsg).filter fun m => (codec.pack m).isSome

/-- The caller stores such a message. -/
def Wants (m : Msg IP) : Prop :=
  0 ≤ e.ttl ∧
    match e.caller with
    | .resolver => e.query.question ≠ [] ∧ m.rcode = rcodeSuccess
    | .handler => e.query.question.length = 1

/-- If what was received for a query that could be sent is stored, it answers the query. -/
def Genuine : Prop :=
  (codec.pack e.query).isSome → ∀ m, e.message codec = some m → e.Wants m →
    m.id = e.query.id ∧ m.question = e.query.question

/-- Two messages have the same header and the same questions. -/
structure Alike (m m' : Msg IP) : Prop where
  id : m'.id = m.id
  question : m'.question = m.question
  rcode : m'.rcode = m.rcode

variable {codec e}

variable (codec e) in
/-- What comes out of the exchanger is what was received, or nothing. -/
theorem reply_spec :
    (e.message codec = none ∧ (e.reply codec).bind codec.unpack = none) ∨
    ∃ m m', e.message codec = some m ∧ (e.reply codec).bind codec.unpack = some m' ∧
      Alike m m' := by
  unfold message reply
  split_ifs
  · cases hm : e.received.bind codec.unpack with
    | none => exact .inl ⟨rfl, rfl⟩
    | some m => exact .inr ⟨m, m, rfl, rfl, rfl, rfl, rfl⟩
  · cases e.received with
    | none => exact .inl ⟨rfl, rfl⟩
    | some b =>
      rw [bind_some, bind_some]
      cases hread : codec.readMsg b with
      | none => exact .inl ⟨rfl, rfl⟩
      | some m =>
        rw [bind_some]
        cases hpack : codec.pack m with
        | none => exact .inl ⟨by rw [filter_some, hpack]; rfl, rfl⟩
        | some b' =>
          obtain ⟨m', hm', hid, hquestion, hrcode⟩ :=
            codec.unpack_pack (codec.unpack_of_readMsg hread) hpack
          refine .inr ⟨m, m', ?_, hm', hid, hquestion, hrcode⟩
          rw [filter_some, hpack]
          rfl

theorem Alike.wants {m m' : Msg IP} (h : Alike m m') : e.Wants m' ↔ e.Wants m := by
  unfold Wants
  rw [h.rcode]

/-- What is stored is the message that was exchanged, if the caller wants it. -/
theorem stored_eq_some_iff :
    e.stored codec = some mr ↔ e.exchange codec = some mr ∧ e.Wants mr := by
  unfold stored toStore Wants
  by_cases httl : e.ttl < 0
  · rw [if_pos httl]
    exact iff_of_false nofun fun h => absurd h.2.1 (not_le.mpr httl)
  · rw [if_neg httl, and_iff_right (not_lt.mp httl)]
    cases hcaller : e.caller with
    | resolver =>
      cases hquestion : e.query.question with
      | nil => simp
      | cons q rest =>
        simp only [map_eq_some_iff, bind_eq_some_iff]
        constructor
        · rintro ⟨⟨_, _⟩, ⟨mr', hmr', hif⟩, rfl⟩
          split_ifs at hif with hrcode
          cases hif
          exact ⟨hmr', cons_ne_nil q rest, not_not.mp hrcode⟩
        · rintro ⟨hmr, -, hrcode⟩
          exact ⟨(q, mr), ⟨mr, hmr, if_neg (not_not.mpr hrcode)⟩, rfl⟩
    | handler =>
      cases hquestion : e.query.question with
      | nil => simp
      | cons q rest =>
        cases rest with
        | nil => simp
        | cons q' rest => simp

theorem exchange_eq_some_iff :
    e.exchange codec = some mr ↔
      (codec.pack e.query).isSome ∧ (e.reply codec).bind codec.unpack = some mr := by
  rw [exchange, bind_eq_some_iff, isSome_iff_exists]
  exact exists_and_right

/-- An exchange is genuine if and only if what it stores matches the query. -/
theorem genuine_iff :
    e.Genuine codec ↔
      ∀ mr, e.stored codec = some mr → mr.id = e.query.id ∧ mr.question = e.query.question := by
  simp only [stored_eq_some_iff, exchange_eq_some_iff]
  rcases reply_spec codec e with ⟨hnone, hreply⟩ | ⟨m, m', hm, hreply, halike⟩
  · rw [hreply]
    refine iff_of_true (fun _ m hm => ?_) fun mr h => ?_
    · rw [hnone] at hm
      cases hm
    · cases h.1.2
  · rw [Genuine, hm, hreply]
    constructor
    · rintro h mr ⟨⟨hpack, heq⟩, hwants⟩
      cases heq
      obtain ⟨hid, hquestion⟩ := h hpack m rfl (halike.wants.mp hwants)
      exact ⟨halike.id.trans hid, halike.question.trans hquestion⟩
    · rintro h hpack m₁ heq hwants
      cases heq
      obtain ⟨hid, hquestion⟩ := h m' ⟨⟨hpack, rfl⟩, halike.wants.mpr hwants⟩
      exact ⟨halike.id.symm.trans hid, halike.question.symm.trans hquestion⟩

end Exchange

/-! ## Every sequence -/

namespace Store

variable {codec texts} {s s' : Store IP} {events : List (Event IP)}

theorem step_log (h : s.step codec texts event = some s') :
    s'.log = s.log ++ event.stored codec := by
  cases event with
  | tick d =>
    cases h
    exact (append_nil _).symm
  | exchange e =>
    cases h
    rfl

theorem run_log (h : run (step codec texts) s events = some s') :
    s'.log = s.log ++ events.flatMap (Event.stored codec) := by
  induction events generalizing s with
  | nil =>
    cases h
    exact (append_nil _).symm
  | cons event events ih =>
    obtain ⟨s₁, hstep, hrest⟩ := run_cons_eq_some.mp h
    rw [ih hrest, step_log hstep, append_assoc, flatMap_cons]

theorem exists_run (s : Store IP) (events : List (Event IP)) :
    ∃ s', run (step codec texts) s events = some s' := by
  induction events generalizing s with
  | nil => exact ⟨s, rfl⟩
  | cons event events ih =>
    cases event with
    | tick d => exact ih _
    | exchange e => exact ih _

/-- What is in the cache was stored for a query, under the key of a question of it. -/
def Logged (texts : Texts) (s : Store IP) : Prop :=
  ∀ key item, s.cache.lookup key = some item → ∃ entry ∈ s.log,
    item.msg.id = entry.2.id ∧ item.msg.question = entry.2.question ∧
      ∃ q ∈ entry.1.question, key = texts.key q

end Store

theorem Exchange.mem_question_of_toStore {e : Exchange IP} {q : Question}
    (h : e.toStore codec = some (q, mr)) : q ∈ e.query.question := by
  unfold toStore at h
  split at h
  next q' _ _ hquestion =>
    obtain ⟨_, -, hif⟩ := bind_eq_some_iff.mp h
    split_ifs at hif
    cases hif
    rw [hquestion]
    exact mem_cons_self
  next q' _ hquestion =>
    obtain ⟨_, -, heq⟩ := map_eq_some_iff.mp h
    cases heq
    rw [hquestion]
    exact mem_singleton_self q
  · cases h

namespace Store

variable {codec texts} {s s' : Store IP} {events : List (Event IP)}

theorem Logged.step (hs : s.Logged texts) (h : s.step codec texts event = some s') :
    s'.Logged texts := by
  cases event with
  | tick d =>
    cases h
    exact hs
  | exchange e =>
    cases h
    intro key item hitem
    have hold : s.cache.lookup key = some item → ∃ entry ∈ s.log ++ (Event.exchange e).stored codec,
        item.msg.id = entry.2.id ∧ item.msg.question = entry.2.question ∧
          ∃ q ∈ entry.1.question, key = texts.key q := by
      intro hitem
      obtain ⟨entry, hentry, hrest⟩ := hs key item hitem
      exact ⟨entry, mem_append_left _ hentry, hrest⟩
    cases hstore : e.toStore codec with
    | none =>
      rw [hstore] at hitem
      exact hold hitem
    | some p =>
      obtain ⟨q, mr⟩ := p
      rw [hstore] at hitem
      rcases Cache.lookup_store_eq_some hitem with hitem | ⟨httl, hkey, hid, hquestion⟩
      · exact hold hitem
      · have hstored : e.stored codec = some mr := by
          rw [Exchange.stored, if_neg httl, hstore]
          rfl
        refine ⟨(e.query, mr), mem_append_right _ ?_, hid, hquestion, q,
          Exchange.mem_question_of_toStore codec hstore, hkey⟩
        rw [Event.stored, hstored]
        exact mem_singleton_self _

/-- So a message in the cache matches a query that was sent, in every run in which all that is
stored does. -/
theorem cached_matches (hrun : run (step codec texts) {} events = some s) (hs : s.Matching)
    {key : Bytes} {item : Item IP} (hitem : s.cache.lookup key = some item) :
    ∃ query : Msg IP, item.msg.id = query.id ∧ item.msg.question = query.question ∧
      ∃ q ∈ query.question, key = texts.key q := by
  have hlogged : s.Logged texts := by
    refine run_induction (fun _ _ _ hs h => hs.step h) ?_ hrun
    intro key item h
    cases h
  obtain ⟨entry, hentry, hid, hquestion, hkey⟩ := hlogged key item hitem
  obtain ⟨hid', hquestion'⟩ := hs entry hentry
  exact ⟨entry.1, hid.trans hid', hquestion.trans hquestion', hkey⟩

/-- Only replies that match their query are stored, if and only if all that is received and would be
stored matches. -/
theorem matching_iff (codec : Codec IP) (texts : Texts) (events : List (Event IP)) :
    (∀ s, run (step codec texts) {} events = some s → s.Matching) ↔
      ∀ e, .exchange e ∈ events → e.Genuine codec := by
  obtain ⟨s, hrun⟩ : ∃ s, run (step codec texts) {} events = some s := exists_run {} events
  have hmatching : (∀ s, run (step codec texts) {} events = some s → s.Matching) ↔ s.Matching := by
    refine ⟨fun h => h s hrun, fun h s' hrun' => ?_⟩
    rw [hrun, some.injEq] at hrun'
    exact hrun' ▸ h
  rw [hmatching, Matching, run_log hrun, nil_append, forall_mem_flatMap]
  constructor
  · intro h e he
    refine Exchange.genuine_iff.mpr fun mr hmr => h _ he (e.query, mr) ?_
    rw [Event.stored, hmr]
    exact mem_singleton_self _
  · intro h event hevent entry hentry
    cases event with
    | tick d => cases hentry
    | exchange e =>
      obtain ⟨mr, hmr, rfl⟩ := mem_map.mp hentry
      exact Exchange.genuine_iff.mp (h e hevent) mr (mem_toList.mp hmr)

/-- Messages of two bytes, the transaction ID and the name. -/
def twoByteCodec : Codec Unit where
  pack m := some [.ofNat m.id, (m.question.head?.bind (·.name.head?)).getD 0]
  unpack
    | [id, name] => some ⟨id.toNat, [⟨[name], classINET, typeA⟩], rcodeSuccess, []⟩
    | _ => none
  readMsg
    | [id, name] => some ⟨id.toNat, [⟨[name], classINET, typeA⟩], rcodeSuccess, []⟩
    | _ => none
  unpack_of_readMsg h := h
  unpack_pack := by
    rintro b m b' hunpack hpack
    cases hpack
    split at hunpack
    · cases hunpack
      exact ⟨_, rfl, by simp, rfl, rfl⟩
    · cases hunpack

/-- Two queries for `a`, with the IDs 1 and 2; both get the reply to one for `b` with the ID 9. -/
theorem forged_replies_stored :
    let query (id : ℕ) : Msg Unit := ⟨id, [⟨bytes "a", classINET, typeA⟩], rcodeSuccess, []⟩
    let forged : Msg Unit := ⟨9, [⟨bytes "b", classINET, typeA⟩], rcodeSuccess, []⟩
    (run (step twoByteCodec addressTexts) {}
      [.exchange ⟨.resolver, query 1, false, some [9, 98], 0⟩,
        .exchange ⟨.handler, query 2, true, some [9, 98], 0⟩]).map (·.log) =
      some [(query 1, forged), (query 2, forged)] := by
  decide +kernel

end Store

end Resolver

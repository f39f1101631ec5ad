import Gost.Lib.TlsRecord
import Gost.Lib.TransitionSystem
import Mathlib.Data.List.TakeDrop

/-!
# The obfs-tls connection of the listener

`x/listener/obfs/tls/conn.go`: the first `Read` or `Write` does the handshake. It reads the client's
hello, whose session ticket is the first data of the client, and leaves the two records of the
answer in `wbuf`. The first `Write` of some data sends them together with its own record. Later
ones send a record for each part of at most `maxTLSDataLen` bytes.

`wbuf` is a buffer of bytes; here it is the list of the records written to it. The connection below
accepts all that is written to it.

`Session` is the connection with what was sent on it and what the callers of `Write` were told was
written. `Session.complete_iff` compares the two.
-/

namespace Obfs.Server

open List Option TlsRecord TransitionSystem

def maxTLSDataLen : ℕ := 16384

/-! ## The handshake -/

inductive Error
  | read
  | badType
  | decode
  | encodeTicket
deriving DecidableEq, Repr

/-- What the handshake needs of the `ClientHello`. -/
structure ClientHello where
  sessionID : Bytes
  -- the first session ticket extension, encoded; `some none` if that fails
  ticket : Option (Option Bytes)
deriving DecidableEq, Repr

/-- What the connection gives to a handshake. -/
inductive Incoming
  | readError
  -- with what its fragment decodes to
  | record (type : UInt8) (hello : Option ClientHello)
deriving DecidableEq, Repr

/-- The random of the hello: the time and 28 random bytes. -/
structure Random where
  bytes : Bytes
  length_eq : bytes.length = 32
deriving DecidableEq, Repr

structure Conn where
  rbuf : Bytes := []
  wbuf : List Record := []
  handshaked : Bool := false
deriving DecidableEq, Repr

def serverMsg (random : Random) (sessionID : Bytes) : ServerHello where
  version := versionTLS12
  random := random.bytes
  sessionID := sessionID
  cipherSuite := 0xcca8
  compressionMethod := 0x00
  extensions := [
    -- renegotiation info, extended master secret, EC point formats
    ⟨0xff01, [0x00]⟩, ⟨0x0017, []⟩, ⟨0x000b, [0x01, 0x00]⟩]

/-- The records that the handshake leaves to be sent. -/
def helloRecords (random : Random) (sessionID : Bytes) : List Record :=
  [⟨handshake, versionTLS10, (serverMsg random sessionID).encode⟩,
    ⟨changeCipherSpec, versionTLS12, [0x01]⟩]

namespace Conn

/-- `handshake`. -/
def handshake (c : Conn) (incoming : Incoming) (random : Random) : Except Error Unit × Conn :=
  match incoming with
  | .readError => (.error .read, c)
  | .record type hello =>
    if type ≠ TlsRecord.handshake then (.error .badType, c)
    else
      match hello with
      | none => (.error .decode, c)
      | some hello =>
        let records := helloRecords random hello.sessionID
        match hello.ticket with
        | some none => (.error .encodeTicket, c)
        | some (some b) => (.ok (), { c with rbuf := c.rbuf ++ b, wbuf := c.wbuf ++ records })
        | none => (.ok (), { c with wbuf := c.wbuf ++ records })

/-- `Handshake`. -/
def handshakeOnce (c : Conn) (incoming : Incoming) (random : Random) : Except Error Unit × Conn :=
  if c.handshaked then (.ok (), c)
  else
    match c.handshake incoming random with
    | (.error e, c) => (.error e, c)
    | (.ok (), c) => (.ok (), { c with handshaked := true })

/-! ## Reading and writing -/

/-- `Read` into `size` bytes, with the record that comes next if one is needed. -/
def read (c : Conn) (incoming : Incoming) (random : Random) (size : ℕ) (next : Option Record) :
    Except Error Bytes × Conn :=
  match c.handshakeOnce incoming random with
  | (.error e, c) => (.error e, c)
  | (.ok (), c) =>
    if c.rbuf ≠ [] then (.ok (c.rbuf.take size), { c with rbuf := c.rbuf.drop size })
    else
      match next with
      | none => (.error .read, c)
      | some record =>
        (.ok (record.fragment.take size), { c with rbuf := record.fragment.drop size })

/-- `Read` itself does not touch what is to be sent. -/
theorem read_snd (c : Conn) (incoming : Incoming) (random : Random) (size : ℕ)
    (next : Option Record) :
    (c.read incoming random size next).2.handshaked =
        (c.handshakeOnce incoming random).2.handshaked ∧
      (c.read incoming random size next).2.wbuf = (c.handshakeOnce incoming random).2.wbuf := by
  unfold read
  split
  next h => rw [h]; exact ⟨rfl, rfl⟩
  next h =>
    rw [h]
    split_ifs
    · exact ⟨rfl, rfl⟩
    · cases next <;> exact ⟨rfl, rfl⟩

/-- The loop of `Write`: the connection behind it and the records sent. A round takes at least one
byte, so there are at most as many as there are bytes. -/
def writeLoop : ℕ → Conn → Bytes → Conn × List Record
  | 0, c, _ => (c, [])
  | rounds + 1, c, b =>
    if b = [] then (c, [])
    else
      let data := b.take maxTLSDataLen
      if c.wbuf ≠ [] then
        -- the rest of `b` is not looked at
        ({ c with wbuf := [] }, c.wbuf ++ [⟨TlsRecord.handshake, versionTLS12, data⟩])
      else
        let (c, records) := writeLoop rounds c (b.drop maxTLSDataLen)
        (c, ⟨applicationData, versionTLS12, data⟩ :: records)

/-- `Write`: the number returned, the connection behind it and the records sent. -/
def write (c : Conn) (incoming : Incoming) (random : Random) (b : Bytes) :
    Except Error ℕ × Conn × List Record :=
  match c.handshakeOnce incoming random with
  | (.error e, c) => (.error e, c, [])
  | (.ok (), c) => (.ok b.length, c.writeLoop b.length b)

end Conn

/-! ## What one call does -/

/-- The session ID of a hello that the handshake takes. -/
def Incoming.sessionID : Incoming → Option Bytes
  | .record type (some hello) =>
    if type = handshake ∧ hello.ticket ≠ some none then some hello.sessionID else none
  | _ => none

variable {b : Bytes} {incoming : Incoming}

namespace Conn

variable (c : Conn) (incoming : Incoming) (random : Random)

/-- The records of the handshake are to be sent with the next data. -/
def Pending : Prop :=
  if c.handshaked then c.wbuf ≠ [] else incoming.sessionID ≠ none

instance : Decidable (c.Pending incoming) :=
  inferInstanceAs (Decidable (if c.handshaked then c.wbuf ≠ [] else incoming.sessionID ≠ none))

theorem pending_of_done (hdone : c.handshaked = true) : c.Pending incoming ↔ c.wbuf ≠ [] :=
  iff_of_eq (if_pos hdone)

theorem pending_of_not_done (hdone : c.handshaked = false) :
    c.Pending incoming ↔ incoming.sessionID ≠ none :=
  iff_of_eq (if_neg (hdone ▸ Bool.false_ne_true))

theorem handshake_of_none (h : incoming.sessionID = none) :
    ∃ e, c.handshake incoming random = (.error e, c) := by
  unfold handshake
  unfold Incoming.sessionID at h
  split
  · exact ⟨_, rfl⟩
  · split_ifs with htype
    · exact ⟨_, rfl⟩
    · split
      · exact ⟨_, rfl⟩
      · split
        · exact ⟨_, rfl⟩
        all_goals simp_all

theorem handshake_of_some {sessionID : Bytes} (h : incoming.sessionID = some sessionID) :
    ∃ rbuf, c.handshake incoming random =
      (.ok (), { c with rbuf, wbuf := c.wbuf ++ helloRecords random sessionID }) := by
  unfold Incoming.sessionID at h
  split at h
  next type hello =>
    split_ifs at h with haccept
    obtain ⟨htype, hticket⟩ := haccept
    rw [some.injEq] at h
    subst htype h
    cases hticket' : hello.ticket with
    | none => exact ⟨c.rbuf, by simp [handshake, hticket']⟩
    | some b =>
      cases b with
      | none => exact absurd hticket' hticket
      | some b => exact ⟨c.rbuf ++ b, by simp [handshake, hticket']⟩
  · cases h

/-- A handshake has nothing to do, fails, or leaves its records to be sent. -/
theorem handshakeOnce_cases :
    (c.handshaked = true ∧ c.handshakeOnce incoming random = (.ok (), c)) ∨
    (c.handshaked = false ∧ incoming.sessionID = none ∧
      ∃ e, c.handshakeOnce incoming random = (.error e, c)) ∨
    (c.handshaked = false ∧ ∃ sessionID rbuf, incoming.sessionID = some sessionID ∧
      c.handshakeOnce incoming random =
        (.ok (), ⟨rbuf, c.wbuf ++ helloRecords random sessionID, true⟩)) := by
  unfold handshakeOnce
  cases hdone : c.handshaked with
  | true => exact .inl ⟨rfl, rfl⟩
  | false =>
    right
    cases hid : incoming.sessionID with
    | none =>
      obtain ⟨e, he⟩ := c.handshake_of_none incoming random hid
      exact .inl ⟨rfl, rfl, e, by rw [he]; rfl⟩
    | some sessionID =>
      obtain ⟨rbuf, hok⟩ := c.handshake_of_some incoming random hid
      exact .inr ⟨rfl, sessionID, rbuf, rfl, by rw [hok]; rfl⟩

variable {c}

theorem writeLoop_nil (rounds : ℕ) : c.writeLoop rounds [] = (c, []) := by
  cases rounds <;> rfl

theorem take_ne_nil (hb : b ≠ []) : b.take maxTLSDataLen ≠ [] := by
  rw [Ne, take_eq_nil_iff, not_or]
  exact ⟨by decide, hb⟩

/-- With the handshake still to be sent, one record is all. -/
theorem writeLoop_pending (hwbuf : c.wbuf ≠ []) (hb : b ≠ []) :
    c.writeLoop b.length b = ({ c with wbuf := [] },
      c.wbuf ++ [⟨TlsRecord.handshake, versionTLS12, b.take maxTLSDataLen⟩]) := by
  obtain ⟨n, hn⟩ := Nat.exists_eq_succ_of_ne_zero (mt eq_nil_of_length_eq_zero hb)
  rw [hn, writeLoop, if_neg hb, if_pos hwbuf]

/-- Without it, the data is cut into parts. -/
theorem writeLoop_open (hwbuf : c.wbuf = []) {rounds : ℕ} (hb : b.length ≤ rounds) :
    ∃ payloads : List Bytes,
      c.writeLoop rounds b = (c, payloads.map (⟨applicationData, versionTLS12, ·⟩)) ∧
      payloads.flatten = b ∧ ∀ p ∈ payloads, p ≠ [] ∧ p.length ≤ maxTLSDataLen := by
  induction rounds generalizing b with
  | zero =>
    have hnil : b = [] := eq_nil_of_length_eq_zero (Nat.le_zero.mp hb)
    exact ⟨[], rfl, hnil.symm, nofun⟩
  | succ rounds ih =>
    by_cases hnil : b = []
    · exact ⟨[], by rw [hnil, writeLoop_nil]; rfl, hnil.symm, nofun⟩
    · have hrest : (b.drop maxTLSDataLen).length ≤ rounds := by
        rw [length_drop]
        exact Nat.sub_le_of_le_add (hb.trans (Nat.add_le_add_left (by decide) rounds))
      obtain ⟨payloads, hloop, hflatten, hpayloads⟩ := ih hrest
      refine ⟨b.take maxTLSDataLen :: payloads, ?_, ?_, forall_mem_cons.mpr ⟨?_, hpayloads⟩⟩
      · rw [writeLoop, if_neg hnil, if_neg (not_not.mpr hwbuf), hloop]
        rfl
      · rw [flatten_cons, hflatten, take_append_drop]
      · exact ⟨take_ne_nil hnil, length_take_le ..⟩

end Conn

/-! ## Sessions -/

inductive Op
  | read (incoming : Incoming) (random : Random) (size : ℕ) (next : Option Record)
  | write (incoming : Incoming) (random : Random) (b : Bytes)
deriving DecidableEq, Repr

structure Session where
  conn : Conn := {}
  -- on the connection below
  sent : List Record := []
  -- what `Write` returned without an error for
  accepted : Bytes := []
deriving DecidableEq, Repr

/-- The payloads of the records sent, without those of the handshake. -/
def sentPayload (sent : List Record) : Bytes := (sent.drop 2).flatMap (·.fragment)

namespace Session

def step (s : Session) : Op → Option Session
  | .read incoming random size next =>
    some { s with conn := (s.conn.read incoming random size next).2 }
  | .write incoming random b =>
    match s.conn.write incoming random b with
    | (.error _, conn, records) => some { s with conn, sent := s.sent ++ records }
    | (.ok n, conn, records) =>
      some { conn, sent := s.sent ++ records, accepted := s.accepted ++ b.take n }

/-- All that was accepted has been sent. -/
def Complete (s : Session) : Prop := sentPayload s.sent = s.accepted

instance (s : Session) : Decidable s.Complete := inferInstanceAs (Decidable (_ = _))

end Session

/-! ## The stages of a session -/

/-- The records of the data. The first one is of the type of the handshake. -/
def dataRecords : List Bytes → List Record
  | [] => []
  | p :: ps =>
    ⟨handshake, versionTLS12, p⟩ :: ps.map (⟨applicationData, versionTLS12, ·⟩)

/-- The three stages, each with `wbuf` and the records sent: before the handshake, with its records
to be sent, and behind them. `P` is known of the session IDs of the clients. -/
inductive Stage (P : Bytes → Prop) : Bool → List Record → List Record → Prop
  | fresh : Stage P false [] []
  | greeted (random : Random) {sessionID : Bytes} {wbuf : List Record} (hid : P sessionID)
      (hwbuf : wbuf = helloRecords random sessionID) : Stage P true wbuf []
  | flowing (random : Random) {sessionID : Bytes} (hid : P sessionID) {first : Bytes}
      {rest : List Bytes} (hvalid : ∀ p ∈ first :: rest, p ≠ [] ∧ p.length ≤ maxTLSDataLen) :
      Stage P true [] (helloRecords random sessionID ++ dataRecords (first :: rest))

section Stage

variable {P : Bytes → Prop} {c : Conn} {sent : List Record}

theorem dataRecords_append (first : Bytes) (rest payloads : List Bytes) :
    dataRecords (first :: rest) ++ payloads.map (⟨applicationData, versionTLS12, ·⟩) =
      dataRecords (first :: (rest ++ payloads)) := by
  rw [dataRecords, dataRecords, map_append, cons_append]

theorem flatMap_dataRecords (payloads : List Bytes) :
    (dataRecords payloads).flatMap (·.fragment) = payloads.flatten := by
  cases payloads with
  | nil => rfl
  | cons p ps => simp [dataRecords, flatMap_map, flatMap_id']

theorem sentPayload_helloRecords_append (random : Random) (sessionID : Bytes)
    (records : List Record) :
    sentPayload (helloRecords random sessionID ++ records) = records.flatMap (·.fragment) := rfl

theorem Stage.handshakeOnce (h : Stage P c.handshaked c.wbuf sent)
    (hid : ∀ id, incoming.sessionID = some id → P id) (random : Random) :
    Stage P (c.handshakeOnce incoming random).2.handshaked
      (c.handshakeOnce incoming random).2.wbuf sent := by
  rcases c.handshakeOnce_cases incoming random with
    ⟨_, heq⟩ | ⟨_, _, e, heq⟩ | ⟨hdone, id, rbuf, hsome, heq⟩
  · rwa [heq]
  · rwa [heq]
  · rw [heq]
    obtain ⟨_, wbuf, handshaked⟩ := c
    subst hdone
    cases h
    exact .greeted random (hid id hsome) (nil_append _)

/-- The records that the loop of `Write` sends for `b`. -/
theorem Stage.writeLoop (h : Stage P c.handshaked c.wbuf sent) (hdone : c.handshaked = true)
    (b : Bytes) :
    Stage P (c.writeLoop b.length b).1.handshaked (c.writeLoop b.length b).1.wbuf
        (sent ++ (c.writeLoop b.length b).2) ∧
      sentPayload (sent ++ (c.writeLoop b.length b).2) =
        sentPayload sent ++ if c.wbuf = [] then b else b.take maxTLSDataLen := by
  by_cases hb : b = []
  · subst hb
    rw [Conn.writeLoop_nil]
    exact ⟨by rwa [append_nil], by simp⟩
  · obtain ⟨rbuf, wbuf, handshaked⟩ := c
    subst hdone
    cases h with
    | @greeted random sessionID _ hid hwbuf =>
      subst hwbuf
      have hne : helloRecords random sessionID ≠ [] := cons_ne_nil _ _
      have hsent : (⟨rbuf, helloRecords random sessionID, true⟩ : Conn).writeLoop b.length b =
          (⟨rbuf, [], true⟩, helloRecords random sessionID ++ dataRecords [b.take maxTLSDataLen]) :=
        Conn.writeLoop_pending hne hb
      rw [hsent, nil_append, if_neg hne, sentPayload_helloRecords_append, flatMap_dataRecords]
      refine ⟨.flowing random hid ?_, append_nil _⟩
      exact forall_mem_singleton.mpr ⟨Conn.take_ne_nil hb, length_take_le ..⟩
    | @flowing random sessionID hid first rest hvalid =>
      obtain ⟨payloads, hloop, hflatten, hpayloads⟩ :=
        Conn.writeLoop_open (c := ⟨rbuf, [], true⟩) rfl (le_refl b.length)
      rw [hloop, append_assoc, dataRecords_append, if_pos rfl, sentPayload_helloRecords_append,
        sentPayload_helloRecords_append, flatMap_dataRecords, flatMap_dataRecords, ← hflatten]
      refine ⟨.flowing random hid fun p hp => ?_, ?_⟩
      · rw [← cons_append, mem_append] at hp
        exact hp.elim (hvalid p) (hpayloads p)
      · rw [← cons_append, flatten_append]

end Stage

/-! ## Runs -/

/-- The session IDs that an operation can bring satisfy `P`. -/
def Op.SessionID (P : Bytes → Prop) : Op → Prop
  | .read incoming .. => ∀ id, incoming.sessionID = some id → P id
  | .write incoming .. => ∀ id, incoming.sessionID = some id → P id

namespace Session

variable {P : Bytes → Prop} {s s' : Session}

/-- The stage of the session. -/
def At (P : Bytes → Prop) (s : Session) : Prop := Stage P s.conn.handshaked s.conn.wbuf s.sent

/-- With the handshake still to be sent, the data fits into one record. -/
def Fits (s : Session) : Op → Prop
  | .read .. => True
  | .write incoming _ b => s.conn.Pending incoming → b.length ≤ maxTLSDataLen

instance (s : Session) : ∀ op, Decidable (s.Fits op)
  | .read .. => .isTrue trivial
  | .write incoming _ b =>
    inferInstanceAs (Decidable (s.conn.Pending incoming → b.length ≤ maxTLSDataLen))

variable {random : Random} {op : Op}

theorem step_write_of_ok {c : Conn} (hok : s.conn.handshakeOnce incoming random = (.ok (), c))
    (b : Bytes) :
    s.step (.write incoming random b) =
      some ⟨(c.writeLoop b.length b).1, s.sent ++ (c.writeLoop b.length b).2,
        s.accepted ++ b⟩ := by
  simp only [step, Conn.write, hok, take_length]

theorem step_write_of_error {e : Error}
    (herror : s.conn.handshakeOnce incoming random = (.error e, s.conn)) (b : Bytes) :
    s.step (.write incoming random b) = some s := by
  simp only [step, Conn.write, herror, append_nil]

theorem step_write (hs : s.At P) (hid : ∀ id, incoming.sessionID = some id → P id)
    (h : s.step (.write incoming random b) = some s') :
    s'.At P ∧ (s' = s ∧ ¬ s.conn.Pending incoming ∨
      sentPayload s'.sent =
        sentPayload s.sent ++ (if s.conn.Pending incoming then b.take maxTLSDataLen else b) ∧
        s'.accepted = s.accepted ++ b) := by
  have hstage := hs.handshakeOnce hid random
  rcases s.conn.handshakeOnce_cases incoming random with
    ⟨hdone, heq⟩ | ⟨hdone, hnone, e, heq⟩ | ⟨hdone, id, rbuf, hsome, heq⟩
  · rw [step_write_of_ok heq, some.injEq] at h
    obtain ⟨hat, hpayload⟩ := hs.writeLoop hdone b
    subst h
    refine ⟨hat, .inr ⟨?_, rfl⟩⟩
    rw [hpayload]
    simp only [Conn.pending_of_done _ _ hdone, ite_not]
  · rw [step_write_of_error heq, some.injEq] at h
    subst h
    refine ⟨hs, .inl ⟨rfl, ?_⟩⟩
    rw [Conn.pending_of_not_done _ _ hdone]
    exact not_not.mpr hnone
  · rw [step_write_of_ok heq, some.injEq] at h
    rw [heq] at hstage
    obtain ⟨hat, hpayload⟩ := hstage.writeLoop rfl b
    subst h
    refine ⟨hat, .inr ⟨?_, rfl⟩⟩
    have hpending : s.conn.Pending incoming := by
      rw [Conn.pending_of_not_done _ _ hdone, hsome]
      exact some_ne_none id
    have hwbuf : s.conn.wbuf ++ helloRecords random id ≠ [] :=
      append_ne_nil_of_right_ne_nil _ (cons_ne_nil _ _)
    rw [hpayload, if_pos hpending, if_neg hwbuf]

theorem step_read (hs : s.At P) {size : ℕ} {next : Option Record}
    (hid : ∀ id, incoming.sessionID = some id → P id)
    (h : s.step (.read incoming random size next) = some s') :
    s'.At P ∧ s'.sent = s.sent ∧ s'.accepted = s.accepted := by
  cases h
  refine ⟨?_, rfl, rfl⟩
  have hstage := hs.handshakeOnce hid random
  obtain ⟨hhandshaked, hwbuf⟩ := s.conn.read_snd incoming random size next
  rw [At, hhandshaked, hwbuf]
  exact hstage

theorem step_at (hs : s.At P) (hop : op.SessionID P) (h : s.step op = some s') : s'.At P := by
  cases op with
  | read incoming random size next => exact (step_read hs hop h).1
  | write incoming random b => exact (step_write hs hop h).1

/-- Before a complete write all was sent, and so it is behind it if the data fits, and only then. -/
theorem step_complete_iff (hs : s.At P) (hop : op.SessionID P) (hc : s.Complete)
    (h : s.step op = some s') : s'.Complete ↔ s.Fits op := by
  cases op with
  | read incoming random size next =>
    obtain ⟨-, hsent, haccepted⟩ := step_read hs hop h
    rw [Complete, hsent, haccepted]
    exact iff_of_true hc trivial
  | write incoming random b =>
    rcases (step_write hs hop h).2 with ⟨rfl, hpending⟩ | ⟨hpayload, haccepted⟩
    · exact iff_of_true hc fun h => absurd h hpending
    · rw [Complete, hpayload, haccepted, hc, append_right_inj]
      by_cases hpending : s.conn.Pending incoming
      · rw [if_pos hpending, take_eq_self_iff]
        exact ⟨fun hlen _ => hlen, fun hfits => hfits hpending⟩
      · rw [if_neg hpending]
        exact iff_of_true rfl fun h => absurd h hpending

theorem exists_step (s : Session) (op : Op) : ∃ s', s.step op = some s' := by
  cases op with
  | read incoming random size next => exact ⟨_, rfl⟩
  | write incoming random b =>
    rw [step]
    split <;> exact ⟨_, rfl⟩

theorem sessionID_true (op : Op) : op.SessionID fun _ => True := by
  cases op <;> exact fun _ _ => trivial

theorem at_init : At P {} := Stage.fresh

/-- In every state of a run all that `Write` accepted has been sent, if and only if no `Write` that
sends the handshake has more data than one record takes. -/
theorem complete_iff (ops : List Op) :
    (∀ k s, run step {} (ops.take k) = some s → s.Complete) ↔ Along step Fits {} ops := by
  refine forall_run_take_iff (I := fun s : Session => s.At (fun _ => True) ∧ s.Complete)
    (fun s op _ hnone => ?_) (fun s hs => hs.2) (fun s op s' hs hfits h => ?_)
    (fun s op s' hs h hc => ?_) ⟨at_init, rfl⟩ ops
  · obtain ⟨s', hs'⟩ := exists_step s op
    exact absurd (hs'.symm.trans hnone) (some_ne_none s')
  · have hop := sessionID_true op
    exact ⟨step_at hs.1 hop h, (step_complete_iff hs.1 hop hs.2 h).mpr hfits⟩
  · exact (step_complete_iff hs.1 (sessionID_true op) hs.2 h).mp hc

/-- The first `Write` reports 16385 bytes written and has sent 16384 of them. -/
theorem first_write_cut :
    ∃ s, run step {} [.write (.record handshake (some ⟨List.replicate 32 0, none⟩))
        ⟨List.replicate 32 0, rfl⟩ (List.replicate 16385 7)] = some s ∧
      sentPayload s.sent = List.replicate 16384 7 ∧ s.accepted = List.replicate 16385 7 := by
  have hok : (({} : Session).conn.handshakeOnce
      (.record handshake (some ⟨List.replicate 32 0, none⟩)) ⟨List.replicate 32 0, rfl⟩) =
        (.ok (), ⟨[], helloRecords ⟨List.replicate 32 0, rfl⟩ (List.replicate 32 0), true⟩) := rfl
  have hstep := step_write_of_ok hok (List.replicate 16385 7)
  have hne : List.replicate 16385 (7 : UInt8) ≠ [] := mt (replicate_eq_nil_iff 7).mp nofun
  rw [Conn.writeLoop_pending (cons_ne_nil _ _) hne] at hstep
  refine ⟨_, run_cons_eq_some.mpr ⟨_, hstep, rfl⟩, ?_, nil_append _⟩
  rw [nil_append, sentPayload_helloRecords_append, flatMap_singleton, take_replicate]
  rfl

end Session

/-! ## The stream -/

/-- What the listener sends to a client whose session ID has 32 bytes, as that of the dialer has. -/
structure Stream where
  random : Random
  sessionID : Bytes
  length_sessionID : sessionID.length = 32
  payloads : List Bytes
  valid : ∀ p ∈ payloads, p ≠ [] ∧ p.length ≤ maxTLSDataLen

def Stream.records (s : Stream) : List Record :=
  helloRecords s.random s.sessionID ++ dataRecords s.payloads

/-- The records of every run with such clients are those of a stream. -/
theorem Session.sent_eq_records {ops : List Op} {s : Session}
    (hops : ∀ op ∈ ops, op.SessionID fun id => id.length = 32)
    (hrun : run step {} ops = some s) (hsent : s.sent ≠ []) :
    ∃ stream : Stream, s.sent = stream.records := by
  have hat : s.At fun id => id.length = 32 :=
    run_induction_along (fun _ _ _ hs hop h => step_at hs hop h) at_init
      (along_of_forall hops _) hrun
  obtain ⟨⟨rbuf, wbuf, handshaked⟩, sent, accepted⟩ := s
  cases (show Stage _ handshaked wbuf sent from hat) with
  | fresh => exact absurd rfl hsent
  | greeted => exact absurd rfl hsent
  | @flowing random sessionID hid first rest hvalid =>
    exact ⟨⟨random, sessionID, hid, first :: rest, hvalid⟩, rfl⟩

end Obfs.Server

import Gost.Lib.LengthPrefix
import Gost.Lib.TransitionSystem

/-!
# Datagrams over a stream

The connections of the router, tunnel and relay connectors and handlers that carry datagrams over a
stream, each with its length in two bytes: `packetConn`, `udpConn` and `bindUDPConn`. There are
seven of them, which write one format but differ in what they count. `framing_iff` says which of
them are honest: the frames are always read as they were written, but `Read` of the router connector
returns the length of the packet instead of what it has copied, and four of the `Write` methods
count the length field.
-/

namespace Framing

open Bytes LengthPrefix List Option TransitionSystem

/-! ## The implementations -/

inductive Impl
  | connectorRouterPacketConn
  | handlerRouterPacketConn
  | connectorTunnelUDPConn
  | connectorTunnelBindUDPConn
  | connectorRelayUDPConn
  | connectorRelayBindUDPConn
  | handlerRelayUDPConn
deriving DecidableEq, Repr

/-- What `Read` returns: the count and the bytes at the front of the buffer. -/
structure Result where
  n : ℕ
  data : Bytes
deriving DecidableEq, Repr

/-- A `Read` with a buffer of `len` bytes. `count` is what it returns for a packet that does not fit
into the buffer. -/
def readPacket (count : (len : ℕ) → (buf : Bytes) → ℕ) (len : ℕ) (wire : Bytes) :
    Option (Result × Bytes) :=
  (readFull 2 wire).bind fun (bb, wire) =>
    let dlen := bigEndian bb
    (readFull dlen wire).map fun (buf, wire) =>
      if dlen ≤ len then (⟨buf.length, buf⟩, wire) else (⟨count len buf, buf.take len⟩, wire)

/-- `n = copy(b, buf)`. -/
def copied (len : ℕ) (buf : Bytes) : ℕ := (buf.take len).length

/-- `n, err = io.ReadFull(c.Conn, buf)`. -/
def readBytes (_ : ℕ) (buf : Bytes) : ℕ := buf.length

/-- The count of `Read` for a packet that does not fit. -/
def Impl.count : Impl → (len : ℕ) → (buf : Bytes) → ℕ
  | .connectorRouterPacketConn => readBytes
  | .handlerRouterPacketConn => copied
  | .connectorTunnelUDPConn => copied
  | .connectorTunnelBindUDPConn => copied
  | .connectorRelayUDPConn => copied
  | .connectorRelayBindUDPConn => copied
  | .handlerRelayUDPConn => copied

/-- What `Write` does: the count, the bytes on the stream, and the header that is still cached. -/
structure Written where
  n : ℕ
  out : Bytes
  wbuf : Bytes
deriving DecidableEq, Repr

/-- The packet and its length in one buffer, whose size is returned. -/
def writeBuffer (wbuf b : Bytes) : Written := ⟨(frame 2 b).length, frame 2 b, wbuf⟩

/-- The length and the packet in two writes. -/
def writeTwice (wbuf b : Bytes) : Written := ⟨b.length, frame 2 b, wbuf⟩

/-- The same, behind the header that is cached in `wbuf`. -/
def writeCached (wbuf b : Bytes) : Written :=
  if wbuf ≠ [] then ⟨b.length, wbuf ++ frame 2 b, []⟩ else writeTwice wbuf b

def Impl.writeFrame : Impl → (wbuf b : Bytes) → Written
  | .connectorRouterPacketConn => writeBuffer
  | .handlerRouterPacketConn => writeBuffer
  | .connectorTunnelUDPConn => writeTwice
  | .connectorTunnelBindUDPConn => writeBuffer
  | .connectorRelayUDPConn => writeCached
  | .connectorRelayBindUDPConn => writeBuffer
  | .handlerRelayUDPConn => writeCached

/-- `Write`, or `none` for the error `write: data maximum exceeded`. -/
def Impl.write (i : Impl) (wbuf b : Bytes) : Option Written :=
  if 65535 < b.length then none else some (i.writeFrame wbuf b)

/-! ## Two ends of a stream -/

/-- A stream from a writer to a reader. The writer may have a header cached, the request of the
relay connector or the response of the relay handler, which the other side takes off the stream
before the first packet: `readResponse` in the first `Read` of `udpConn` of the relay connector, and
elsewhere the handler before it makes the connection. It waits for the whole header and takes no
more. -/
structure Link where
  writer : Impl
  reader : Impl
  header : Bytes
  takeHeader : Bytes → Option Bytes
  takeHeader_eq_some_iff : ∀ {wire rest}, takeHeader wire = some rest ↔ wire = header ++ rest
  -- only `udpConn` of the relay has `wbuf`
  header_eq_nil : writer ≠ .connectorRelayUDPConn → writer ≠ .handlerRelayUDPConn → header = []

/-- The state of both ends, the bytes between them, and what the calls so far have returned. -/
structure State where
  wbuf : Bytes
  wire : Bytes
  pending : Bool
  /-- the packets written, with what `Write` returned -/
  written : List (Bytes × ℕ)
  /-- the sizes of the buffers, with what `Read` returned -/
  received : List (ℕ × Result)
deriving DecidableEq, Repr

inductive Op
  | write (b : Bytes)
  | read (len : ℕ)
deriving DecidableEq, Repr

namespace Link

variable (l : Link)

def init : State := ⟨l.header, [], true, [], []⟩

/-- A write that is refused changes nothing. A read that has to wait is not enabled. -/
def step (s : State) : Op → Option State
  | .write b =>
    match l.writer.write s.wbuf b with
    | none => some s
    | some w =>
      some { s with wbuf := w.wbuf, wire := s.wire ++ w.out, written := s.written ++ [(b, w.n)] }
  | .read len =>
    (if s.pending then l.takeHeader s.wire else some s.wire).bind fun wire =>
      (readPacket l.reader.count len wire).map fun (r, wire) =>
        { s with wire := wire, pending := false, received := s.received ++ [(len, r)] }

end Link

/-- The packets written so far. -/
def State.packets (s : State) : List Bytes := s.written.map Prod.fst

/-- The packets that are not yet read. -/
def State.unread (s : State) : List Bytes := s.packets.drop s.received.length

/-! ## One frame -/

/-- What `Read` returns for a packet. -/
def Impl.result (i : Impl) (len : ℕ) (packet : Bytes) : Result :=
  if packet.length ≤ len then ⟨packet.length, packet⟩ else ⟨i.count len packet, packet.take len⟩

/-- What `Read` should return. -/
def honest (len : ℕ) (packet : Bytes) : Result := ⟨min len packet.length, packet.take len⟩

variable {packet b : Bytes} {rest : List Bytes}

theorem readPacket_frame (i : Impl) (len : ℕ) (rest : Bytes) (h : packet.length ≤ 65535) :
    readPacket i.count len (frame 2 packet ++ rest) = some (i.result len packet, rest) := by
  have hlength : bigEndian (putBigEndian 2 packet.length) = packet.length :=
    bigEndian_putBigEndian (by omega)
  rw [readPacket, readFull_frame, bind_some]
  simp only [hlength, readFull_append, map_some, Impl.result]
  split_ifs <;> rfl

theorem readPacket_nil (count : ℕ → Bytes → ℕ) (len : ℕ) : readPacket count len [] = none := by
  rw [readPacket, readFull_nil (by decide), bind_none]

/-- Only the router connector is wrong, for packets that do not fit. -/
theorem result_eq_honest_iff (i : Impl) (len : ℕ) (packet : Bytes) :
    i.result len packet = honest len packet ↔
      i ≠ .connectorRouterPacketConn ∨ packet.length ≤ len := by
  unfold Impl.result honest
  by_cases hfits : packet.length ≤ len
  · rw [if_pos hfits, min_eq_right hfits, take_of_length_le hfits]
    exact iff_of_true rfl (.inr hfits)
  · have hcopied : copied len packet = min len packet.length := length_take
    rw [if_neg hfits]
    cases i
    case connectorRouterPacketConn =>
      -- it counts the packet, not what was copied of it
      refine iff_of_false (fun heq => ?_) (by simpa using hfits)
      have hn : packet.length = min len packet.length := congrArg Result.n heq
      omega
    all_goals exact iff_of_true (by rw [Impl.count, hcopied]) (.inl (by decide))

/-- The implementations whose `Write` counts the packet only. -/
def Impl.CountsPacket (i : Impl) : Prop :=
  i = .connectorTunnelUDPConn ∨ i = .connectorRelayUDPConn ∨ i = .handlerRelayUDPConn

instance (i : Impl) : Decidable i.CountsPacket := inferInstanceAs (Decidable (_ ∨ _ ∨ _))

theorem n_writeFrame_eq_iff (i : Impl) (wbuf b : Bytes) :
    (i.writeFrame wbuf b).n = b.length ↔ i.CountsPacket := by
  have hbuffer : (writeBuffer wbuf b).n ≠ b.length := by
    show (frame 2 b).length ≠ b.length
    rw [frame, length_append, length_putBigEndian]
    exact (Nat.lt_add_of_pos_left (by decide)).ne'
  have hcached : (writeCached wbuf b).n = b.length := by
    unfold writeCached writeTwice
    split_ifs <;> rfl
  cases i
  case connectorTunnelUDPConn => exact iff_of_true rfl (by decide)
  case connectorRelayUDPConn => exact iff_of_true hcached (by decide)
  case handlerRelayUDPConn => exact iff_of_true hcached (by decide)
  all_goals exact iff_of_false hbuffer (by decide)

/-- The header is written with the first packet. -/
theorem writeFrame_spec {i : Impl} {wbuf : Bytes} (b : Bytes)
    (h : i ≠ .connectorRelayUDPConn → i ≠ .handlerRelayUDPConn → wbuf = []) :
    (i.writeFrame wbuf b).out = wbuf ++ frame 2 b ∧ (i.writeFrame wbuf b).wbuf = [] := by
  have hcached : (writeCached wbuf b).out = wbuf ++ frame 2 b ∧ (writeCached wbuf b).wbuf = [] := by
    unfold writeCached
    split_ifs with hne
    · exact ⟨rfl, rfl⟩
    · rw [not_not.mp hne]
      exact ⟨rfl, rfl⟩
  cases i
  case connectorRelayUDPConn => exact hcached
  case handlerRelayUDPConn => exact hcached
  all_goals
    rw [h (by decide) (by decide)]
    exact ⟨rfl, rfl⟩

/-! ## Runs -/

/-- The stream holds the packets that are not yet read, behind the header if none has been. -/
structure Framed (l : Link) (s : State) : Prop where
  length_le : s.received.length ≤ s.packets.length
  pending : s.pending = true ↔ s.received = []
  wbuf : s.wbuf = if s.packets = [] then l.header else []
  wire : s.wire = (if s.pending ∧ s.packets ≠ [] then l.header else []) ++
    s.unread.flatMap (frame 2)
  packet_le : ∀ packet ∈ s.packets, packet.length ≤ 65535
  received : ∀ (i : ℕ) len r, s.received[i]? = some (len, r) →
    ∃ packet, s.packets[i]? = some packet ∧ r = l.reader.result len packet
  written : ∀ b n, (b, n) ∈ s.written → ∃ wbuf, n = (l.writer.writeFrame wbuf b).n

variable {l : Link} {s s' : State}

theorem framed_init (l : Link) : Framed l l.init where
  length_le := le_rfl
  pending := iff_of_true rfl rfl
  wbuf := rfl
  wire := rfl
  packet_le := nofun
  received := nofun
  written := nofun

theorem Framed.wbuf_eq_nil (hs : Framed l s) (hconnector : l.writer ≠ .connectorRelayUDPConn)
    (hhandler : l.writer ≠ .handlerRelayUDPConn) : s.wbuf = [] := by
  rw [hs.wbuf, l.header_eq_nil hconnector hhandler, ite_self]

theorem Framed.pending_of_packets_eq_nil (hs : Framed l s) (h : s.packets = []) :
    s.pending = true := by
  rw [hs.pending, ← length_eq_zero_iff, ← Nat.le_zero]
  exact hs.length_le.trans_eq (by rw [h, length_nil])

/-- The state after a packet was written. -/
theorem Framed.step_write (hs : Framed l s) (hb : b.length ≤ 65535) :
    l.step s (.write b) = some ⟨[], s.wire ++ (s.wbuf ++ frame 2 b), s.pending,
      s.written ++ [(b, (l.writer.writeFrame s.wbuf b).n)], s.received⟩ := by
  obtain ⟨hout, hwbuf⟩ := writeFrame_spec b hs.wbuf_eq_nil
  rw [Link.step, Impl.write, if_neg (Nat.not_lt.mpr hb)]
  simp only [hout, hwbuf]

theorem Framed.write (hs : Framed l s) (hb : b.length ≤ 65535) (n : ℕ)
    (hn : n = (l.writer.writeFrame s.wbuf b).n) :
    Framed l
      ⟨[], s.wire ++ (s.wbuf ++ frame 2 b), s.pending, s.written ++ [(b, n)], s.received⟩ := by
  have hpackets : (s.written ++ [(b, n)]).map Prod.fst = s.packets ++ [b] := map_append
  have hne : s.packets ++ [b] ≠ [] := append_ne_nil_of_right_ne_nil _ (cons_ne_nil b [])
  have hunread : (s.packets ++ [b]).drop s.received.length = s.unread ++ [b] :=
    drop_append_of_le_length hs.length_le
  refine ⟨?_, hs.pending, ?_, ?_, ?_, ?_, ?_⟩
  · show s.received.length ≤ ((s.written ++ [(b, n)]).map Prod.fst).length
    rw [hpackets, length_append]
    exact hs.length_le.trans (Nat.le_add_right _ _)
  · show [] = if (s.written ++ [(b, n)]).map Prod.fst = [] then l.header else []
    rw [hpackets, if_neg hne]
  · show s.wire ++ (s.wbuf ++ frame 2 b) =
      (if s.pending ∧ (s.written ++ [(b, n)]).map Prod.fst ≠ [] then l.header else []) ++
        (((s.written ++ [(b, n)]).map Prod.fst).drop s.received.length).flatMap (frame 2)
    rw [hpackets, hunread, hs.wire, hs.wbuf, flatMap_append]
    by_cases hnil : s.packets = []
    · -- the header goes out with the first packet
      have hnone : s.unread = [] := by rw [State.unread, hnil, drop_nil]
      rw [hnone, if_pos hnil, if_neg fun h => h.2 hnil,
        if_pos ⟨hs.pending_of_packets_eq_nil hnil, hne⟩]
      simp
    · -- the header has gone out before, and may still be on the stream
      simp [hnil]
  · intro packet hmem
    change packet ∈ (s.written ++ [(b, n)]).map Prod.fst at hmem
    rw [hpackets, mem_append, mem_singleton] at hmem
    rcases hmem with hmem | rfl
    · exact hs.packet_le packet hmem
    · exact hb
  · intro i len r hr
    obtain ⟨packet, hpacket, hresult⟩ := hs.received i len r hr
    refine ⟨packet, ?_, hresult⟩
    show ((s.written ++ [(b, n)]).map Prod.fst)[i]? = some packet
    rw [hpackets, List.getElem?_append_left (List.getElem?_eq_some_iff.mp hpacket).1, hpacket]
  · intro b' n' hmem
    rcases mem_append.mp hmem with hmem | hmem
    · exact hs.written b' n' hmem
    · obtain ⟨rfl, rfl⟩ := Prod.mk.inj (mem_singleton.mp hmem)
      exact ⟨s.wbuf, hn⟩

/-- What is on the stream behind the header. -/
theorem Framed.stream (hs : Framed l s) {wire : Bytes}
    (h : (if s.pending then l.takeHeader s.wire else some s.wire) = some wire) :
    wire = s.unread.flatMap (frame 2) := by
  have hwire := hs.wire
  by_cases hpending : s.pending = true
  · rw [if_pos hpending, l.takeHeader_eq_some_iff] at h
    by_cases hnil : s.packets = []
    · -- nothing is there, not even the header
      rw [if_neg fun hne => hne.2 hnil, nil_append] at hwire
      have hnone : s.unread = [] := by rw [State.unread, hnil, drop_nil]
      rw [hnone, flatMap_nil] at hwire ⊢
      rw [hwire] at h
      exact (append_eq_nil_iff.mp h.symm).2
    · rw [if_pos ⟨hpending, hnil⟩, h] at hwire
      exact append_cancel_left hwire
  · rw [if_neg hpending, some.injEq] at h
    rw [← h, hwire, if_neg fun hne => hpending hne.1, nil_append]

theorem Framed.stream_of_unread (hs : Framed l s) (h : s.unread ≠ []) :
    (if s.pending then l.takeHeader s.wire else some s.wire) =
      some (s.unread.flatMap (frame 2)) := by
  have hne : s.packets ≠ [] := by
    intro hnil
    rw [State.unread, hnil, drop_nil] at h
    exact h rfl
  have hwire := hs.wire
  by_cases hpending : s.pending = true
  · rw [if_pos hpending, l.takeHeader_eq_some_iff, hwire, if_pos ⟨hpending, hne⟩]
  · rw [if_neg hpending, hwire, if_neg fun hne => hpending hne.1, nil_append]

theorem Framed.step_read_nil (hs : Framed l s) (h : s.unread = []) (len : ℕ) :
    l.step s (.read len) = none := by
  rw [Link.step, bind_eq_none_iff]
  intro wire hwire
  rw [hs.stream hwire, h, flatMap_nil, readPacket_nil, map_none]

/-- The state after a packet was read. -/
theorem Framed.step_read_cons (hs : Framed l s) (h : s.unread = packet :: rest) (len : ℕ) :
    l.step s (.read len) = some ⟨s.wbuf, rest.flatMap (frame 2), false, s.written,
      s.received ++ [(len, l.reader.result len packet)]⟩ := by
  have hmem : packet ∈ s.packets := mem_of_mem_drop (h ▸ mem_cons_self)
  rw [Link.step, hs.stream_of_unread (h ▸ cons_ne_nil _ _), bind_some, h,
    flatMap_cons, readPacket_frame _ _ _ (hs.packet_le packet hmem), map_some]

theorem Framed.read (hs : Framed l s) (h : s.unread = packet :: rest) (len : ℕ) :
    Framed l ⟨s.wbuf, rest.flatMap (frame 2), false, s.written,
      s.received ++ [(len, l.reader.result len packet)]⟩ := by
  have hpacket : s.packets[s.received.length]? = some packet := by
    rw [← head?_drop]
    exact congrArg head? h
  have hlt : s.received.length < s.packets.length := (List.getElem?_eq_some_iff.mp hpacket).1
  have hlength : (s.received ++ [(len, l.reader.result len packet)]).length =
      s.received.length + 1 := length_append
  refine ⟨?_, ?_, hs.wbuf, ?_, hs.packet_le, ?_, hs.written⟩
  · rw [hlength]
    exact hlt
  · exact iff_of_false Bool.false_ne_true
      (append_ne_nil_of_right_ne_nil _ (cons_ne_nil _ _))
  · show rest.flatMap (frame 2) = (if _ then l.header else []) ++
      (s.packets.drop (s.received ++ _).length).flatMap (frame 2)
    have hrest : s.packets.drop (s.received.length + 1) = rest := by
      rw [← drop_drop]
      exact congrArg (List.drop 1) h
    rw [hlength, hrest, if_neg fun hne => Bool.false_ne_true hne.1, nil_append]
  · intro i len' r hr
    rcases Nat.lt_or_ge i s.received.length with hi | hi
    · rw [getElem?_append_left hi] at hr
      exact hs.received i len' r hr
    · rw [getElem?_append_right hi, getElem?_singleton] at hr
      -- the new result belongs to the first packet that was not read
      split_ifs at hr with hzero
      cases hr
      obtain rfl : i = s.received.length := by omega
      exact ⟨packet, hpacket, rfl⟩

theorem Framed.step (hs : Framed l s) {op : Op} (hstep : l.step s op = some s') :
    Framed l s' := by
  cases op with
  | write b =>
    by_cases hb : b.length ≤ 65535
    · rw [hs.step_write hb, some.injEq] at hstep
      exact hstep ▸ hs.write hb _ rfl
    · rw [Link.step, Impl.write, if_pos (Nat.not_le.mp hb)] at hstep
      exact some.inj hstep ▸ hs
  | read len =>
    cases hunread : s.unread with
    | nil =>
      rw [hs.step_read_nil hunread] at hstep
      exact absurd hstep.symm (some_ne_none s')
    | cons packet rest =>
      rw [hs.step_read_cons hunread, some.injEq] at hstep
      exact hstep ▸ hs.read hunread len

theorem framed_run {ops : List Op} (hrun : run l.step l.init ops = some s) : Framed l s :=
  run_induction (fun _ _ _ hs hstep => hs.step hstep) (framed_init l) hrun

/-- A read returns exactly if a packet is there for it. -/
theorem Framed.isSome_read_iff (hs : Framed l s) (len : ℕ) :
    (l.step s (.read len)).isSome = true ↔ s.received.length < s.packets.length := by
  rw [← not_le, ← drop_eq_nil_iff]
  show _ ↔ ¬s.unread = []
  cases hunread : s.unread with
  | nil =>
    rw [hs.step_read_nil hunread]
    exact iff_of_false Bool.false_ne_true (not_not.mpr rfl)
  | cons packet rest =>
    rw [hs.step_read_cons hunread]
    exact iff_of_true rfl (cons_ne_nil _ _)

/-- The `i`-th read returns what it should of the `i`-th packet. -/
def Exact (s : State) : Prop :=
  ∀ (i : ℕ) len r, s.received[i]? = some (len, r) →
    ∃ packet, s.packets[i]? = some packet ∧ r = honest len packet

/-- Every write that is not refused returns the length of the packet. -/
def Counted (s : State) : Prop := ∀ b n, (b, n) ∈ s.written → n = b.length

theorem Framed.exact_iff (hs : Framed l s) :
    Exact s ↔ l.reader ≠ .connectorRouterPacketConn ∨
      ∀ (i : ℕ) len r packet, s.received[i]? = some (len, r) → s.packets[i]? = some packet →
        packet.length ≤ len := by
  constructor
  · intro hexact
    by_cases hreader : l.reader = .connectorRouterPacketConn
    · refine .inr fun i len r packet hr hpacket => ?_
      obtain ⟨packet', hpacket', hresult⟩ := hs.received i len r hr
      obtain ⟨packet'', hpacket'', hhonest⟩ := hexact i len r hr
      obtain rfl := some.inj (hpacket.symm.trans hpacket')
      obtain rfl := some.inj (hpacket.symm.trans hpacket'')
      have heq := (result_eq_honest_iff l.reader len packet).mp (hresult.symm.trans hhonest)
      exact heq.resolve_left (not_not.mpr hreader)
    · exact .inl hreader
  · intro hfits i len r hr
    obtain ⟨packet, hpacket, hresult⟩ := hs.received i len r hr
    refine ⟨packet, hpacket, hresult.trans ((result_eq_honest_iff _ _ _).mpr ?_)⟩
    exact hfits.imp_right fun h => h i len r packet hr hpacket

theorem Framed.counted_iff (hs : Framed l s) :
    Counted s ↔ l.writer.CountsPacket ∨ s.written = [] := by
  constructor
  · intro hcounted
    refine or_iff_not_imp_right.mpr fun hne => ?_
    obtain ⟨⟨b, n⟩, hmem⟩ := exists_mem_of_ne_nil _ hne
    obtain ⟨wbuf, hn⟩ := hs.written b n hmem
    exact (n_writeFrame_eq_iff l.writer wbuf b).mp (hn.symm.trans (hcounted b n hmem))
  · rintro (hcounts | hnil) b n hmem
    · obtain ⟨wbuf, hn⟩ := hs.written b n hmem
      exact hn.trans ((n_writeFrame_eq_iff l.writer wbuf b).mpr hcounts)
    · rw [hnil] at hmem
      exact absurd hmem not_mem_nil

/-- After every sequence of writes and reads: a read returns exactly if a packet is there for it.
The reads are exact if and only if the reader is not `packetConn` of the router connector or every
packet has fit into its buffer. The writes are counted right if and only if the writer is one of
those that count the packet only, or nothing was written. -/
theorem framing_iff (l : Link) (ops : List Op) (s : State)
    (hrun : run l.step l.init ops = some s) :
    (∀ len, (l.step s (.read len)).isSome = true ↔ s.received.length < s.packets.length) ∧
    (Exact s ↔ l.reader ≠ .connectorRouterPacketConn ∨
      ∀ (i : ℕ) len r packet, s.received[i]? = some (len, r) → s.packets[i]? = some packet →
        packet.length ≤ len) ∧
    (Counted s ↔ l.writer.CountsPacket ∨ s.written = []) :=
  ⟨(framed_run hrun).isSome_read_iff, (framed_run hrun).exact_iff, (framed_run hrun).counted_iff⟩

/-- A stream without a header. -/
def plainLink (writer reader : Impl) : Link where
  writer := writer
  reader := reader
  header := []
  takeHeader := some
  takeHeader_eq_some_iff := Option.some_inj
  header_eq_nil _ _ := rfl

/-- A packet of three bytes for a buffer of two, between the two ends of the relay. -/
theorem framing_relay :
    ∃ s, run (plainLink .connectorRelayUDPConn .handlerRelayUDPConn).step
        (plainLink .connectorRelayUDPConn .handlerRelayUDPConn).init
        [.write [1, 2, 3], .read 2] = some s ∧ Exact s ∧ Counted s := by
  refine ⟨_, rfl, ?_⟩
  have hiff := framing_iff (plainLink .connectorRelayUDPConn .handlerRelayUDPConn)
    [.write [1, 2, 3], .read 2] _ rfl
  exact ⟨hiff.2.1.mpr (.inl (by decide)), hiff.2.2.mpr (.inl (by decide))⟩

/-- The router handler says it has written five bytes of three, and the router connector that it has
read three bytes into a buffer of two. -/
theorem router_miscounts :
    ∃ s, run (plainLink .handlerRouterPacketConn .connectorRouterPacketConn).step
        (plainLink .handlerRouterPacketConn .connectorRouterPacketConn).init
        [.write [1, 2, 3], .read 2] = some s ∧
      s.written = [([1, 2, 3], 5)] ∧ s.received = [(2, ⟨3, [1, 2]⟩)] :=
  ⟨_, rfl, rfl, rfl⟩

end Framing

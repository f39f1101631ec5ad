import Gost.Lib.TransitionSystem
import Gost.Relay.Stream

/-!
# Relaying WebSocket frames in both directions

`sniffingWebsocketFrame` of the sniffer and of the HTTP handler. Two goroutines copy frames, one for
each direction, and record a sample of them. To record a payload its beginning is read into a
buffer, and the frame that is written is put together from the header, the buffer and the rest.

The two implementations have the same `copyWebsocketFrame`. They differ in how they call it: the
sniffer passes the writer first, `copyWebsocketDirection` of the handler takes the reader first but
is given its arguments in the order of the sniffer.

`relay_transparent_attribution`: both relays write exactly what they have read, and the frames are
attributed to the side they were read from by the sniffer only. A relay returns as soon as one
direction has ended; what the other has not read by then is not copied by either.
-/

namespace Relay.WebSocket

open Bytes List Option TransitionSystem

/-- The two ends of the relay: `rw` is the client, `cc` the server. -/
inductive Side
  | client
  | server
deriving DecidableEq, Repr

def Side.other : Side → Side
  | .client => .server
  | .server => .client

/-! ## What is recorded -/

/-- `recorder.Options`. -/
structure RecorderOptions where
  httpBody : Bool := false
  maxBodySize : ℤ := 0
deriving DecidableEq, Repr

/-- `DefaultBodySize`. -/
def defaultBodySize : ℤ := 64 * 1024

/-- `MaxBodySize`. -/
def maxBodySize : ℤ := 1024 * 1024

/-- `ClampBodySize`. -/
def clampBodySize : Option RecorderOptions → ℤ
  | none => 0
  | some opts =>
    if !opts.httpBody then 0
    else
      let size := if opts.maxBodySize ≤ 0 then defaultBodySize else opts.maxBodySize
      if maxBodySize < size then maxBodySize else size

/-- `RecordMode`. -/
inductive RecordMode
  | full
  | headers
  | off
deriving DecidableEq, Repr

structure Recorder where
  options : Option RecorderOptions := none
  mode : RecordMode := .full
deriving DecidableEq, Repr

/-- How much of a payload is read into the buffer. -/
def Recorder.bodySize (rec : Recorder) : ℕ :=
  if 0 < clampBodySize rec.options ∧ rec.mode ≠ .headers ∧ rec.mode ≠ .off then
    (clampBodySize rec.options).toNat
  else 0

/-- `WebsocketRecorderObject` with the byte counts of its frame. -/
structure Record where
  -- `From`
  sender : Side
  header : FrameHeader
  payload : Bytes
  inputBytes : ℕ
  outputBytes : ℕ
deriving DecidableEq, Repr

/-! ## The relay -/

/-- `copyWebsocketFrame`: what is written for the frame at the front of the stream, what is recorded
of it, and the stream behind it. -/
def copyFrame (bodySize : ℕ) (sender : Side) (s : Bytes) : Option (Bytes × Record × Bytes) :=
  (FrameHeader.readFrom s).map fun (header, behind) =>
    -- the limited reader over the payload, and what the buffer takes from it
    let data := behind.take header.payloadLength
    let buf := data.take bodySize
    let length := header.length + header.payloadLength
    (header.writeTo ++ (buf ++ data.drop bodySize),
      { sender
        header
        payload := buf
        inputBytes := if sender = .client then length else 0
        outputBytes := if sender = .client then 0 else length },
      behind.drop header.payloadLength)

/-- The arguments of a goroutine. -/
structure Direction where
  r : Side
  w : Side
  sender : Side
deriving DecidableEq, Repr

inductive Implementation
  | sniffer
  | handler
deriving DecidableEq, Repr

/-- The two goroutines. -/
def Implementation.directions : Implementation → List Direction
  -- `copyWebsocketFrame(cc, rw, buf, "client", ro)`, with the writer first
  | .sniffer =>
    [{ w := .server, r := .client, sender := .client },
      { w := .client, r := .server, sender := .server }]
  -- `copyWebsocketDirection(ctx, cc, rw, "client", ...)`, with the reader first
  | .handler =>
    [{ r := .server, w := .client, sender := .client },
      { r := .client, w := .server, sender := .server }]

structure State where
  -- what a side has sent and is not read yet
  unread : Side → Bytes
  -- what was written to a side
  written : Side → Bytes := fun _ => []
  -- the records, and the side that the frame was read from
  records : List (Side × Record) := []

def start (client server : Bytes) : State where
  unread
    | .client => client
    | .server => server

/-- One round of the loop of a goroutine; `sampled` is the answer of its rate limiter. -/
def step (impl : Implementation) (rec : Recorder) (s : State) (op : ℕ × Bool) : Option State :=
  impl.directions[op.1]?.bind fun d =>
    (copyFrame rec.bodySize d.sender (s.unread d.r)).map fun (out, record, rest) =>
      { unread := fun side => if side = d.r then rest else s.unread side
        written := fun side => if side = d.w then s.written side ++ out else s.written side
        records :=
          if op.2 && rec.mode != .off then s.records ++ [(d.r, record)] else s.records }

/-- The record names the side that the frame was read from, and counts it in its direction. -/
def Attributed (side : Side) (record : Record) : Prop :=
  record.sender = side ∧ (side = .client → record.outputBytes = 0) ∧
    (side = .server → record.inputBytes = 0)

/-! ## Frames on the wire -/

/-- A frame with any flags, opcode and mask, and a payload shorter than `2 ^ 63`. -/
structure Frame where
  -- FIN, RSV1, RSV2, RSV3 and the opcode
  first : UInt8
  mask : Option { key : Bytes // key.length = 4 }
  payload : Bytes
  payload_lt : payload.length < 2 ^ 63

namespace Frame

/-- The seven bits of the length. -/
def lengthByte (n : ℕ) : UInt8 :=
  if n ≤ 125 then UInt8.ofNat n else if n ≤ 65535 then 126 else 127

/-- The extended length. -/
def lengthBytes (n : ℕ) : Bytes :=
  if n ≤ 125 then [] else if n ≤ 65535 then putBigEndian 2 n else putBigEndian 8 n

def maskBytes (f : Frame) : Bytes := f.mask.elim [] Subtype.val

/-- The bytes of the frame, with its length encoded in the shortest way. -/
def encode (f : Frame) : Bytes :=
  f.first :: ((if f.mask.isSome then 0x80 else 0) ||| lengthByte f.payload.length) ::
    (lengthBytes f.payload.length ++ (f.maskBytes ++ f.payload))

end Frame

/-- The stream is a concatenation of frames. -/
def Framed (s : Bytes) : Prop := ∃ frames : List Frame, s = (frames.map Frame.encode).flatten

/-! ## Reading and writing a frame -/

section Frames

variable (f : Frame) (tail : Bytes)

theorem toNat_ofNat_small {n : ℕ} (h : n ≤ 125) : (UInt8.ofNat n).toNat = n :=
  UInt8.toNat_ofNat_of_lt' (lt_of_le_of_lt h (by decide))

theorem lengthByte_lt (n : ℕ) : Frame.lengthByte n < 128 := by
  unfold Frame.lengthByte
  split_ifs with h₁ h₂
  · rw [UInt8.lt_iff_toNat_lt, toNat_ofNat_small h₁]
    exact lt_of_le_of_lt h₁ (by decide)
  · decide
  · decide

/-- The mask bit and the seven bits of the length are told apart. -/
theorem lengthByte_bits {b : UInt8} (hb : b < 128) (masked : Bool) :
    (((if masked then 0x80 else 0) ||| b) &&& 0x7f = b) ∧
      ((((if masked then 0x80 else 0) ||| b) &&& 0x80 != 0) = masked) := by
  have hbits : ∀ b : UInt8, b < 128 →
      ((0x80 ||| b) &&& 0x7f = b ∧ ((0x80 ||| b) &&& 0x80 != 0) = true) ∧
      ((0 ||| b) &&& 0x7f = b ∧ ((0 ||| b) &&& 0x80 != 0) = false) :=
    forall_byte (P := fun b => b < 128 →
      ((0x80 ||| b) &&& 0x7f = b ∧ ((0x80 ||| b) &&& 0x80 != 0) = true) ∧
      ((0 ||| b) &&& 0x7f = b ∧ ((0 ||| b) &&& 0x80 != 0) = false)) (by decide +kernel)
  cases masked with
  | true => exact (hbits b hb).1
  | false => exact (hbits b hb).2

theorem readFull_append {buf : Bytes} {n : ℕ} (h : buf.length = n) (s : Bytes) :
    readFull n (buf ++ s) = some (buf, s) := by
  unfold readFull
  rw [if_neg (by rw [length_append]; omega), take_left' h, drop_left' h]

theorem readLength_encode {n : ℕ} (hn : n < 2 ^ 63) (s : Bytes) :
    readLength (Frame.lengthByte n) (Frame.lengthBytes n ++ s) = some (n, s) := by
  unfold readLength Frame.lengthByte Frame.lengthBytes
  by_cases h₁ : n ≤ 125
  · have hbyte := toNat_ofNat_small h₁
    have hlt : UInt8.ofNat n < 126 := by
      rw [UInt8.lt_iff_toNat_lt, hbyte]
      exact lt_of_le_of_lt h₁ (by decide)
    simp only [h₁, if_true, hlt, hbyte, nil_append]
  · by_cases h₂ : n ≤ 65535
    · simp only [h₁, h₂, if_true, if_false]
      have hread := readFull_append (length_putBigEndian 2 n) s
      have hvalue : bigEndian (putBigEndian 2 n) = n := bigEndian_putBigEndian (by omega)
      rw [if_neg (by decide), hread, bind_eq_bind, bind_some]
      rw [hvalue, if_pos hn]
    · simp only [h₁, h₂, if_false]
      have hread := readFull_append (length_putBigEndian 8 n) s
      have hvalue : bigEndian (putBigEndian 8 n) = n :=
        bigEndian_putBigEndian (hn.trans (by decide))
      rw [if_neg (by decide), if_neg (by decide), hread, bind_eq_bind, bind_some]
      rw [hvalue, if_pos hn]

theorem readMask_encode (s : Bytes) :
    ∃ key, readMask f.mask.isSome (f.maskBytes ++ s) = some (key, s) := by
  unfold readMask Frame.maskBytes
  cases f.mask with
  | none => exact ⟨0, rfl⟩
  | some key =>
    refine ⟨littleEndian key.1, ?_⟩
    show (readFull 4 (key.1 ++ s)).map _ = _
    rw [readFull_append key.2]
    rfl

/-- The header of a frame is found, and the length of the payload with it. -/
theorem readFrom_encode :
    ∃ header, FrameHeader.readFrom (f.encode ++ tail) = some (header, f.payload ++ tail) ∧
      header.payloadLength = f.payload.length ∧ header.masked = f.mask.isSome := by
  obtain ⟨key, hmask⟩ := readMask_encode f (f.payload ++ tail)
  obtain ⟨hlow, hhigh⟩ := lengthByte_bits (lengthByte_lt f.payload.length) f.mask.isSome
  have hlength := readLength_encode f.payload_lt (f.maskBytes ++ (f.payload ++ tail))
  have hs : f.encode ++ tail =
      f.first :: ((if f.mask.isSome then 0x80 else 0) ||| Frame.lengthByte f.payload.length) ::
        (Frame.lengthBytes f.payload.length ++ (f.maskBytes ++ (f.payload ++ tail))) := by
    simp only [Frame.encode, cons_append, append_assoc]
  rw [hs]
  unfold FrameHeader.readFrom
  dsimp only
  rw [hlow, hhigh, hlength, bind_eq_bind, bind_some]
  rw [hmask]
  exact ⟨_, rfl, rfl, rfl⟩

theorem length_lengthBytes (n : ℕ) : (Frame.lengthBytes n).length =
    if 65535 < n then 8 else if 125 < n then 2 else 0 := by
  unfold Frame.lengthBytes
  split_ifs <;> first | omega | simp

theorem length_maskBytes : f.maskBytes.length = if f.mask.isSome then 4 else 0 := by
  unfold Frame.maskBytes
  cases f.mask with
  | none => rfl
  | some key => exact key.2

/-- A frame is written as it was read, whatever part of its payload is recorded. -/
theorem copyFrame_encode (bodySize : ℕ) (sender : Side) :
    ∃ record, copyFrame bodySize sender (f.encode ++ tail) = some (f.encode, record, tail) ∧
      Attributed sender record := by
  obtain ⟨header, hread, hlen, hmasked⟩ := readFrom_encode f tail
  -- the header has the shortest length, so it is written back
  have hminimal : header.length + (f.payload ++ tail).length = (f.encode ++ tail).length := by
    unfold FrameHeader.length Frame.encode
    simp only [length_append, length_cons, length_lengthBytes, length_maskBytes, hlen, hmasked]
    omega
  have hwrite := (writeTo_of_readFrom hread).2 hminimal
  rw [← append_assoc] at hwrite
  have hheader : header.writeTo ++ f.payload = f.encode := append_cancel_right hwrite
  unfold copyFrame
  rw [hread, map_some]
  dsimp only
  rw [take_append_drop, hlen, take_left' rfl, drop_left' rfl, hheader]
  refine ⟨_, rfl, rfl, ?_, ?_⟩
  · intro hside
    exact if_pos hside
  · intro hside
    exact if_neg (by rw [hside]; decide)

end Frames

/-! ## Runs -/

/-- What a side has sent. -/
def sent (client server : Bytes) : Side → Bytes
  | .client => client
  | .server => server

/-- Everything that was read is written to the other side. -/
structure Inv (impl : Implementation) (client server : Bytes) (s : State) : Prop where
  framed : ∀ side, Framed (s.unread side)
  written : ∀ side, s.written side.other ++ s.unread side = sent client server side
  records : ∀ p ∈ s.records, if impl = .sniffer then Attributed p.1 p.2 else p.2.sender ≠ p.1

theorem Implementation.direction (impl : Implementation) {d : Direction}
    (h : d ∈ impl.directions) :
    d.w = d.r.other ∧ if impl = .sniffer then d.sender = d.r else d.sender ≠ d.r := by
  cases impl with
  | sniffer | handler =>
    rcases mem_pair.mp h with rfl | rfl
    · decide
    · decide

theorem Side.other_other (side : Side) : side.other.other = side := by
  cases side <;> rfl

section Runs

variable {impl : Implementation} {rec : Recorder} {client server : Bytes} {s s' : State}

/-- The frame at the front of what a direction has to read. -/
theorem exists_frame {t : Bytes} (ht : Framed t) (hne : t ≠ []) :
    ∃ f tail, t = Frame.encode f ++ tail ∧ Framed tail := by
  obtain ⟨frames, rfl⟩ := ht
  cases frames with
  | nil => exact absurd rfl hne
  | cons f frames => exact ⟨f, _, rfl, frames, rfl⟩

theorem inv_start (impl : Implementation) (hclient : Framed client) (hserver : Framed server) :
    Inv impl client server (start client server) where
  framed side := by
    cases side with
    | client => exact hclient
    | server => exact hserver
  written side := by
    cases side <;> rfl
  records := nofun

theorem Inv.step (hs : Inv impl client server s) {op : ℕ × Bool}
    (h : step impl rec s op = some s') : Inv impl client server s' := by
  obtain ⟨d, hd, hcopy⟩ := bind_eq_some_iff.mp h
  obtain ⟨⟨out, record, rest⟩, hframe, rfl⟩ := map_eq_some_iff.mp hcopy
  obtain ⟨hw, hsender⟩ := impl.direction (mem_of_getElem? hd)
  have hne : s.unread d.r ≠ [] := by
    intro hnil
    rw [hnil] at hframe
    cases hframe
  obtain ⟨f, tail, hunread, htail⟩ := exists_frame (hs.framed d.r) hne
  obtain ⟨record', hcopy', hattr⟩ := copyFrame_encode f tail rec.bodySize d.sender
  rw [hunread, hcopy', some.injEq, Prod.mk.injEq, Prod.mk.injEq] at hframe
  obtain ⟨rfl, rfl, rfl⟩ := hframe
  refine ⟨fun side => ?_, fun side => ?_, ?_⟩
  · show Framed (if side = d.r then tail else s.unread side)
    split_ifs
    · exact htail
    · exact hs.framed side
  · show (if side.other = d.w then _ else _) ++ (if side = d.r then tail else s.unread side) = _
    have hside := hs.written side
    by_cases hr : side = d.r
    · subst hr
      rw [if_pos hw.symm, if_pos rfl, append_assoc, ← hunread]
      exact hside
    · have hw' : side.other ≠ d.w := fun heq => hr (by
        rw [← side.other_other, heq, hw, d.r.other_other])
      rw [if_neg hw', if_neg hr]
      exact hside
  · have hrecord : if impl = .sniffer then Attributed d.r record' else record'.sender ≠ d.r := by
      split_ifs at hsender ⊢
      · exact hsender ▸ hattr
      · exact hattr.1 ▸ hsender
    intro p hp
    split_ifs at hp
    · rcases mem_append.mp hp with hp | hp
      · exact hs.records p hp
      · rw [mem_singleton.mp hp]
        exact hrecord
    · exact hs.records p hp

/-- A direction is not blocked before it has read everything. -/
theorem Inv.unread_eq_nil (hs : Inv impl client server s)
    (hstuck : ∀ op, WebSocket.step impl rec s op = none) (side : Side) : s.unread side = [] := by
  by_contra hne
  obtain ⟨i, d, hd, rfl⟩ : ∃ (i : ℕ) (d : Direction),
      impl.directions[i]? = some d ∧ d.r = side := by
    cases impl <;> cases side
    · exact ⟨0, _, rfl, rfl⟩
    · exact ⟨1, _, rfl, rfl⟩
    · exact ⟨1, _, rfl, rfl⟩
    · exact ⟨0, _, rfl, rfl⟩
  obtain ⟨f, tail, hunread, -⟩ := exists_frame (hs.framed d.r) hne
  obtain ⟨record, hcopy, -⟩ := copyFrame_encode f tail rec.bodySize d.sender
  have hmove := hstuck (i, true)
  unfold WebSocket.step at hmove
  rw [hd, bind_some, hunread, hcopy] at hmove
  cases hmove

end Runs

/-- Two streams of frames, any limit for recorded payloads, any sampling and any interleaving of the
two directions. At any time each side has been sent exactly what was read from the other, and in the
end all of it. Every recorded frame is attributed to the side it was read from if and only if the
relay is the sniffer's or nothing is recorded. -/
theorem relay_transparent_attribution (impl : Implementation) (rec : Recorder)
    {client server : Bytes} (hclient : Framed client) (hserver : Framed server)
    {ops : List (ℕ × Bool)} {s : State}
    (hrun : run (step impl rec) (start client server) ops = some s) :
    (∀ side, s.written side.other ++ s.unread side = sent client server side) ∧
    ((∀ op, step impl rec s op = none) → ∀ side, s.written side.other = sent client server side) ∧
    ((∀ p ∈ s.records, Attributed p.1 p.2) ↔ impl = .sniffer ∨ s.records = []) := by
  have hs : Inv impl client server s :=
    run_induction (fun _ _ _ hs h => hs.step h) (inv_start impl hclient hserver) hrun
  refine ⟨hs.written, fun hstuck side => ?_, ?_, ?_⟩
  · have hall := hs.written side
    rwa [hs.unread_eq_nil hstuck side, append_nil] at hall
  · intro hattr
    by_cases himpl : impl = .sniffer
    · exact .inl himpl
    · refine .inr (eq_nil_iff_forall_not_mem.mpr fun p hp => ?_)
      have hwrong := hs.records p hp
      rw [if_neg himpl] at hwrong
      exact hwrong (hattr p hp).1
  · rintro (himpl | hnone)
    · intro p hp
      have hright := hs.records p hp
      rwa [if_pos himpl] at hright
    · rw [hnone]
      exact nofun

theorem length_exampleKey : ([1, 2, 3, 4] : Bytes).length = 4 := rfl

theorem length_question_lt : ([0x10, 0x20] : Bytes).length < 2 ^ 63 := by decide

theorem length_answer_lt : ([0x30] : Bytes).length < 2 ^ 63 := by decide

/-- A masked text frame and its answer. -/
def question : Frame where
  first := 0x81
  mask := some ⟨[1, 2, 3, 4], length_exampleKey⟩
  payload := [0x10, 0x20]
  payload_lt := length_question_lt

def answer : Frame where
  first := 0x81
  mask := none
  payload := [0x30]
  payload_lt := length_answer_lt

theorem framed_encode (f : Frame) : Framed f.encode := ⟨[f], (append_nil _).symm⟩

theorem relay_transparent_sniffer :
    ∃ s, run (step .sniffer {}) (start question.encode answer.encode) [(0, true), (1, true)] =
      some s ∧ (∀ p ∈ s.records, Attributed p.1 p.2) ∧ s.records.length = 2 := by
  have hrun : run (step .sniffer {}) (start question.encode answer.encode)
      [(0, true), (1, true)] = some _ := rfl
  refine ⟨_, hrun, ?_, rfl⟩
  exact (relay_transparent_attribution .sniffer {} (framed_encode question) (framed_encode answer)
    hrun).2.2.mpr (.inl rfl)

/-- The handler records the answer of the server as a frame of the client. -/
theorem relay_misattributes_handler :
    ∃ s, run (step .handler {}) (start question.encode answer.encode) [(0, true)] = some s ∧
      s.written .client = answer.encode ∧
      ∃ record, s.records = [(.server, record)] ∧ record.sender = .client ∧
        record.inputBytes = answer.encode.length ∧ ¬Attributed .server record :=
  ⟨_, rfl, rfl, _, rfl, rfl, rfl, fun h => nomatch h.1⟩

end Relay.WebSocket

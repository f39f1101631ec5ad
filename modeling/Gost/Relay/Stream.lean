import Gost.Lib.Bytes
import Gost.Lib.Reader

/-!
# Copying a stream

The ways in which the relays copy bytes from one connection to another: `pipeHalf` of
`x/internal/net/pipe.go`, `CopyBuffer` of `x/internal/net/transport.go`, and frame by frame in
`sniffingWebsocketFrame`, with the frame headers of `x/internal/util/ws/frame.go`. What is recorded
of a frame is left out; the bytes that are written do not depend on it.
-/

namespace Relay

open Bytes List Option Reader

/-! ## The pipe -/

/-- `pipeHalf`: what is written to the destination, and the error that is returned. Data that comes
together with an error is not written. -/
def pipeHalf : List (ReadResult UInt8) → Bytes × Option ReadError
  | [] => ([], none)
  | r :: reads =>
    match r.err with
    | some .eof => ([], none)
    | some e => ([], some e)
    | none => (r.data ++ (pipeHalf reads).1, (pipeHalf reads).2)

theorem pipeHalf_append {init : List (ReadResult UInt8)} (hinit : ∀ r ∈ init, r.err = none)
    {last : ReadResult UInt8} (hlast : last.err = some .eof) :
    pipeHalf (init ++ [last]) = (received init, none) := by
  induction init with
  | nil =>
    rw [nil_append, pipeHalf, hlast]
    rfl
  | cons r init ih =>
    obtain ⟨hr, hinit⟩ := forall_mem_cons.mp hinit
    rw [cons_append, pipeHalf, hr, ih hinit]
    rfl

/-- `CopyBuffer`, which is `io.CopyBuffer`: a read is written before its error is looked at. -/
def copyBuffer : List (ReadResult UInt8) → Bytes × Option ReadError
  | [] => ([], none)
  | r :: reads =>
    match r.err with
    | some .eof => (r.data, none)
    | some e => (r.data, some e)
    | none => (r.data ++ (copyBuffer reads).1, (copyBuffer reads).2)

theorem copyBuffer_fst (reads : List (ReadResult UInt8)) :
    (copyBuffer reads).1 = received (untilError reads) := by
  induction reads with
  | nil => rfl
  | cons r reads ih =>
    rw [copyBuffer, untilError]
    split
    next h => simp [h]
    next h => simp [h]
    next h => simp [h, ih]

/-- The two return the same error; `pipeHalf` alone drops what comes together with it. A cancelled
context is a read of no data with an error, which is what `readDeadliner` makes of it. -/
theorem copyBuffer_eq_pipeHalf (reads : List (ReadResult UInt8)) :
    copyBuffer reads = ((pipeHalf reads).1 ++
      ((reads.find? (·.err.isSome)).elim [] (·.data)), (pipeHalf reads).2) := by
  induction reads with
  | nil => rfl
  | cons r reads ih =>
    rw [copyBuffer, pipeHalf]
    split
    next h => simp [h]
    next h => simp [h]
    next h => simp [h, ih]

/-- Everything that is read up to the first error is written, exactly if no data comes together with
that error. -/
theorem pipeHalf_complete_iff (reads : List (ReadResult UInt8)) :
    (pipeHalf reads).1 = received (untilError reads) ↔
      ∀ last, reads.find? (·.err.isSome) = some last → last.data = [] := by
  rw [← copyBuffer_fst, copyBuffer_eq_pipeHalf, self_eq_append_right]
  cases reads.find? (·.err.isSome) with
  | none => simp
  | some last => simp

/-- The last bytes of a source that returns them together with `io.EOF` are lost. -/
theorem pipeHalf_drops_last :
    (pipeHalf [⟨[1, 2], none⟩, ⟨[3], some .eof⟩]).1 = [1, 2] ∧
      received (untilError [⟨[1, 2], none⟩, ⟨[3], some .eof⟩]) = ([1, 2, 3] : Bytes) := by
  decide

/-! ## Frame headers -/

/-- `FrameHeader`. -/
structure FrameHeader where
  fin : Bool
  rsv1 : Bool
  rsv2 : Bool
  rsv3 : Bool
  opCode : UInt8
  payloadLength : ℕ
  masked : Bool
  maskKey : ℕ
deriving DecidableEq, Repr

/-- `io.ReadFull` of `n` bytes. -/
def readFull (n : ℕ) (s : Bytes) : Option (Bytes × Bytes) :=
  if s.length < n then none else some (s.take n, s.drop n)

/-- The payload length for the seven bits `b`; an error if it is negative as an `int64`. -/
def readLength (b : UInt8) (s : Bytes) : Option (ℕ × Bytes) :=
  if b < 126 then some (b.toNat, s)
  else do
    let (buf, s) ← readFull (if b = 126 then 2 else 8) s
    if bigEndian buf < 2 ^ 63 then some (bigEndian buf, s) else none

/-- The mask key of a masked frame. -/
def readMask (masked : Bool) (s : Bytes) : Option (ℕ × Bytes) :=
  if masked then (readFull 4 s).map fun p => (littleEndian p.1, p.2) else some (0, s)

namespace FrameHeader

/-- `FrameHeader.ReadFrom`: the header, and the bytes behind it. -/
def readFrom : Bytes → Option (FrameHeader × Bytes)
  | b :: b' :: s => do
    let (payloadLength, s) ← readLength (b' &&& 0x7f) s
    let (maskKey, s) ← readMask (b' &&& 0x80 != 0) s
    some ({
      fin := b &&& 0x80 != 0
      rsv1 := b &&& 0x40 != 0
      rsv2 := b &&& 0x20 != 0
      rsv3 := b &&& 0x10 != 0
      opCode := b &&& 0xf
      payloadLength
      masked := b' &&& 0x80 != 0
      maskKey }, s)
  | _ => none

/-- `FrameHeader.Length`. -/
def length (h : FrameHeader) : ℕ :=
  2 + (if 65535 < h.payloadLength then 8 else if 125 < h.payloadLength then 2 else 0) +
    if h.masked then 4 else 0

/-- A bit that is set if `b`. -/
def flag (b : Bool) (bit : UInt8) : UInt8 := if b then bit else 0

/-- `FrameHeader.WriteTo`. -/
def writeTo (h : FrameHeader) : Bytes :=
  let lengthByte : UInt8 :=
    if 65535 < h.payloadLength then 127
    else if 125 < h.payloadLength then 126
    else UInt8.ofNat h.payloadLength
  (flag h.fin 0x80 ||| flag h.rsv1 0x40 ||| flag h.rsv2 0x20 ||| flag h.rsv3 0x10 ||| h.opCode) ::
    (flag h.masked 0x80 ||| lengthByte) ::
      ((if 65535 < h.payloadLength then putBigEndian 8 h.payloadLength
        else if 125 < h.payloadLength then putBigEndian 2 h.payloadLength
        else []) ++
      if h.masked then putLittleEndian 4 h.maskKey else [])

theorem length_writeTo (h : FrameHeader) : h.writeTo.length = h.length := by
  unfold writeTo length
  split_ifs <;> simp

end FrameHeader

variable {n : ℕ} {s buf rest : Bytes} {b : UInt8}

theorem readFull_spec (h : readFull n s = some (buf, rest)) : s = buf ++ rest ∧ buf.length = n := by
  unfold readFull at h
  split_ifs at h with hlen
  cases h
  exact ⟨(take_append_drop n s).symm, length_take_of_le (not_lt.mp hlen)⟩

/-- The length is read from no, two or eight bytes behind the seven bits. -/
theorem readLength_spec (h : readLength b s = some (n, rest)) :
    ∃ buf, s = buf ++ rest ∧ (b < 126 ∧ buf = [] ∧ n = b.toNat ∨
      ¬b < 126 ∧ buf.length = (if b = 126 then 2 else 8) ∧ n = bigEndian buf) := by
  unfold readLength at h
  by_cases hb : b < 126
  · rw [if_pos hb] at h
    cases h
    exact ⟨[], rfl, .inl ⟨hb, rfl, rfl⟩⟩
  · rw [if_neg hb] at h
    obtain ⟨⟨buf, s'⟩, hbuf, hn⟩ := bind_eq_some_iff.mp h
    obtain ⟨rfl, hlen⟩ := readFull_spec hbuf
    dsimp only at hn
    split_ifs at hn
    cases hn
    exact ⟨buf, rfl, .inr ⟨hb, hlen, rfl⟩⟩

theorem readMask_spec {masked : Bool} {key : ℕ} (h : readMask masked s = some (key, rest)) :
    s = (if masked then putLittleEndian 4 key else []) ++ rest := by
  unfold readMask at h
  split_ifs at h ⊢
  · obtain ⟨⟨buf, s'⟩, hbuf, hkey⟩ := map_eq_some_iff.mp h
    obtain ⟨rfl, hlen⟩ := readFull_spec hbuf
    cases hkey
    rw [← hlen, putLittleEndian_littleEndian]
  · cases h
    rfl

theorem bigEndian_lt (h : s.length = n) : bigEndian s < 256 ^ n := by
  have := littleEndian_lt s.reverse
  rwa [length_reverse, h] at this

/-- The first byte of a header, from its bits. -/
theorem flags_eq (b : UInt8) :
    FrameHeader.flag (b &&& 0x80 != 0) 0x80 ||| FrameHeader.flag (b &&& 0x40 != 0) 0x40 |||
      FrameHeader.flag (b &&& 0x20 != 0) 0x20 ||| FrameHeader.flag (b &&& 0x10 != 0) 0x10 |||
      (b &&& 0xf) = b :=
  forall_byte (P := fun b => FrameHeader.flag (b &&& 0x80 != 0) 0x80 |||
    FrameHeader.flag (b &&& 0x40 != 0) 0x40 ||| FrameHeader.flag (b &&& 0x20 != 0) 0x20 |||
    FrameHeader.flag (b &&& 0x10 != 0) 0x10 ||| (b &&& 0xf) = b) (by decide +kernel) b

/-- The second byte, from the mask bit and the seven bits of the length. -/
theorem lengthByte_eq (b : UInt8) :
    FrameHeader.flag (b &&& 0x80 != 0) 0x80 ||| (b &&& 0x7f) = b ∧
      (¬(b &&& 0x7f) < 126 → (b &&& 0x7f) ≠ 126 → (b &&& 0x7f) = 127) :=
  forall_byte (P := fun b => FrameHeader.flag (b &&& 0x80 != 0) 0x80 ||| (b &&& 0x7f) = b ∧
    (¬(b &&& 0x7f) < 126 → (b &&& 0x7f) ≠ 126 → (b &&& 0x7f) = 127)) (by decide +kernel) b

/-- The length of a frame as it is written, compared with the seven bits `b` and the bytes `buf`
that it was read from. -/
theorem writeLength_of_readLength (hb : ¬b < 126 → b ≠ 126 → b = 127)
    (h : b < 126 ∧ buf = [] ∧ n = b.toNat ∨ ¬b < 126 ∧ buf.length = (if b = 126 then 2 else 8) ∧ n =
      bigEndian buf) :
    (if 65535 < n then 8 else if 125 < n then 2 else 0) ≤ buf.length ∧
      ((if 65535 < n then 8 else if 125 < n then 2 else 0) = buf.length →
        (if 65535 < n then (127 : UInt8) else if 125 < n then 126 else UInt8.ofNat n) = b ∧
          (if 65535 < n then putBigEndian 8 n else if 125 < n then putBigEndian 2 n else []) =
            buf) := by
  rcases h with ⟨hlt, rfl, rfl⟩ | ⟨hge, hlen, rfl⟩
  · have hsmall : b.toNat < 126 := UInt8.lt_iff_toNat_lt.mp hlt
    have hbig : ¬65535 < b.toNat ∧ ¬125 < b.toNat := by omega
    simp only [hbig, if_false]
    exact ⟨le_rfl, fun _ => ⟨UInt8.ofNat_toNat, trivial⟩⟩
  · have hput := putBigEndian_bigEndian buf
    by_cases h126 : b = 126
    · rw [if_pos h126] at hlen
      have hlt := bigEndian_lt hlen
      have hbig : ¬65535 < bigEndian buf := by omega
      rw [hlen] at hput ⊢
      split_ifs
      · exact ⟨le_rfl, fun _ => ⟨h126.symm, hput⟩⟩
      · exact ⟨by omega, fun h => absurd h (by decide)⟩
    · rw [if_neg h126] at hlen
      rw [hlen] at hput ⊢
      split_ifs
      · exact ⟨le_rfl, fun _ => ⟨(hb hge h126).symm, hput⟩⟩
      · exact ⟨by omega, fun h => absurd h (by decide)⟩
      · exact ⟨by omega, fun h => absurd h (by decide)⟩

/-- A header that was read is written back byte by byte, unless its length was not encoded in the
shortest way: then it takes less bytes. -/
theorem writeTo_of_readFrom {h : FrameHeader} (hread : FrameHeader.readFrom s = some (h, rest)) :
    h.length + rest.length ≤ s.length ∧
      (h.length + rest.length = s.length → h.writeTo ++ rest = s) := by
  match s, hread with
  | b :: b' :: s, hread =>
    obtain ⟨⟨n, s₁⟩, hlength, hread₁⟩ := bind_eq_some_iff.mp hread
    obtain ⟨⟨key, s₂⟩, hmask, hread₂⟩ := bind_eq_some_iff.mp hread₁
    obtain ⟨buf, rfl, hbuf⟩ := readLength_spec hlength
    have hs₁ := readMask_spec hmask
    obtain ⟨hle, heq⟩ := writeLength_of_readLength (lengthByte_eq b').2 hbuf
    obtain ⟨rfl, rfl⟩ := hread₂
    have hlen : (if (b' &&& 0x80 != 0) = true then putLittleEndian 4 key else []).length =
        if (b' &&& 0x80 != 0) = true then 4 else 0 := by
      split_ifs <;> simp
    subst hs₁
    unfold FrameHeader.length FrameHeader.writeTo
    simp only [length_cons, length_append, hlen]
    refine ⟨by omega, fun hsame => ?_⟩
    obtain ⟨hbyte, hext⟩ := heq (by omega)
    rw [hbyte, hext, flags_eq, (lengthByte_eq b').1, cons_append, cons_append, append_assoc]

/-! ## Frames -/

/-- `copyWebsocketFrame`: what is written for the frame at the front of the stream, and the stream
behind it. A payload that ends early is written as far as it goes. -/
def copyWebsocketFrame (s : Bytes) : Option (Bytes × Bytes) :=
  (FrameHeader.readFrom s).map fun p =>
    (p.1.writeTo ++ p.2.take p.1.payloadLength, p.2.drop p.1.payloadLength)

theorem copyWebsocketFrame_spec {out : Bytes} (h : copyWebsocketFrame s = some (out, rest)) :
    ∃ header behind, FrameHeader.readFrom s = some (header, behind) ∧
      out = header.writeTo ++ behind.take header.payloadLength ∧
      rest = behind.drop header.payloadLength := by
  obtain ⟨⟨header, behind⟩, hread, hcopy⟩ := map_eq_some_iff.mp h
  cases hcopy
  exact ⟨header, behind, hread, rfl, rfl⟩

/-- A frame does not get longer, and it takes something from the stream. -/
theorem length_of_copyWebsocketFrame {out : Bytes} (h : copyWebsocketFrame s = some (out, rest)) :
    out.length + rest.length ≤ s.length ∧ rest.length < s.length := by
  obtain ⟨header, behind, hread, rfl, rfl⟩ := copyWebsocketFrame_spec h
  have hle := (writeTo_of_readFrom hread).1
  have hpos : 2 ≤ header.length := by
    unfold FrameHeader.length
    omega
  simp only [length_append, header.length_writeTo, length_take, length_drop]
  omega

/-- One direction of `sniffingWebsocketFrame`: what is written until reading a frame fails. -/
def sniffingWebsocketFrame (s : Bytes) : Bytes :=
  match _h : copyWebsocketFrame s with
  | none => []
  | some (out, rest) => out ++ sniffingWebsocketFrame rest
termination_by s.length
decreasing_by exact (length_of_copyWebsocketFrame _h).2

/-- The stream is made of frames whose length is encoded in the shortest way; the last payload may
end early. -/
inductive WellFramed : Bytes → Prop
  | nil : WellFramed []
  | frame {s behind : Bytes} {header : FrameHeader} :
    FrameHeader.readFrom s = some (header, behind) →
    header.length + behind.length = s.length →
    WellFramed (behind.drop header.payloadLength) → WellFramed s

theorem length_sniffingWebsocketFrame_le (s : Bytes) :
    (sniffingWebsocketFrame s).length ≤ s.length := by
  fun_induction sniffingWebsocketFrame s with
  | case1 => exact Nat.zero_le _
  | case2 s out rest h ih =>
    have := (length_of_copyWebsocketFrame h).1
    rw [length_append]
    omega

/-- Copying frame by frame is transparent for well-framed streams only. -/
theorem sniffingWebsocketFrame_eq_self_iff (s : Bytes) :
    sniffingWebsocketFrame s = s ↔ WellFramed s := by
  fun_induction sniffingWebsocketFrame s with
  | case1 s h =>
    constructor
    · rintro rfl
      exact .nil
    · intro hs
      cases hs with
      | nil => rfl
      | frame hread =>
        rw [copyWebsocketFrame, hread] at h
        cases h
  | case2 s out rest h ih =>
    obtain ⟨header, behind, hread, rfl, rfl⟩ := copyWebsocketFrame_spec h
    obtain ⟨hle, hsame⟩ := writeTo_of_readFrom hread
    have hrest := length_sniffingWebsocketFrame_le (behind.drop header.payloadLength)
    constructor
    · intro hs
      have hlen := congrArg List.length hs
      simp only [length_append, header.length_writeTo, length_take] at hlen
      rw [length_drop] at hrest
      have hminimal : header.length + behind.length = s.length := by omega
      refine .frame hread hminimal (ih.mp ?_)
      rw [← hsame hminimal, append_assoc] at hs
      have htail := append_cancel_left hs
      nth_rewrite 3 [← take_append_drop header.payloadLength behind] at htail
      exact append_cancel_left htail
    · intro hs
      cases hs with
      | nil => cases hread
      | frame hread' hminimal hframed =>
        rw [hread] at hread'
        cases hread'
        rw [ih.mpr hframed, append_assoc, take_append_drop]
        exact hsame hminimal

end Relay

import Gost.Lib.Bytes

/-!
# Messages of the ICMP tunnel

`message` of `x/internal/util/icmp/conn.go`: a magic number, flags, a reserved field and the length
of the data in front of the data. `Decode` compares the length with the buffer as an `int`, but
slices with bounds of type `uint16`: from 65526 bytes on the upper bound wraps below the lower one,
and the slice expression panics.
-/

namespace Icmp

open Bytes List

def magicNumber : ℕ := 0x474F5354

def messageHeaderLen : ℕ := 10

inductive Error
  | invalidPacket
  | shortBuffer
deriving DecidableEq, Repr

/-- `message`. -/
structure Message where
  flags : UInt16
  data : Bytes
deriving DecidableEq, Repr

namespace Message

/-- The first ten bytes. The length is cut to two bytes. -/
def header (m : Message) : Bytes :=
  putBigEndian 4 magicNumber ++ (putBigEndian 2 m.flags.toNat ++
    (putBigEndian 2 0 ++ putBigEndian 2 m.data.length))

/-- `Encode`: `n` and the buffer afterwards. -/
def encode (m : Message) (b : Bytes) : Except Error (ℕ × Bytes) :=
  if b.length < messageHeaderLen + m.data.length then .error .shortBuffer
  else
    let n := messageHeaderLen + m.data.length
    .ok (n, m.header ++ (m.data ++ b.drop n))

/-- The length field. -/
def declared (b : Bytes) : UInt16 := UInt16.ofNat (bigEndian ((b.drop 8).take 2))

/-- `Decode`: the message afterwards and what is returned, `none` for an index out of range. -/
def decode (m : Message) (b : Bytes) : Option (Message × Except Error ℕ) :=
  if b.length < messageHeaderLen then some (m, .error .shortBuffer)
  else if bigEndian (b.take 4) ≠ magicNumber then some (m, .error .invalidPacket)
  else
    let m := { m with flags := UInt16.ofNat (bigEndian ((b.drop 4).take 2)) }
    let length := declared b
    if (b.drop messageHeaderLen).length < length.toNat then some (m, .error .shortBuffer)
    else
      -- the constant has the type of `length`, so the sum is taken modulo 65536
      let upper := (10 + length).toNat
      if messageHeaderLen ≤ upper ∧ upper ≤ b.length then
        some ({ m with data := (b.take upper).drop messageHeaderLen },
          .ok (messageHeaderLen + length.toNat))
      else none

/-- `Decode` gets to the slice expression with a length that wraps. -/
def Wraps (b : Bytes) : Prop :=
  bigEndian (b.take 4) = magicNumber ∧ 65525 < (declared b).toNat ∧
    messageHeaderLen + (declared b).toNat ≤ b.length

theorem length_header (m : Message) : m.header.length = 10 := by simp [header]

theorem toNat_upper (length : UInt16) :
    (10 + length).toNat = if length.toNat ≤ 65525 then 10 + length.toNat
      else length.toNat - 65526 := by
  have hlt := length.toNat_lt
  rw [UInt16.toNat_add, show (10 : UInt16).toNat = 10 from rfl]
  split_ifs <;> omega

theorem decode_eq_none_iff (m : Message) (b : Bytes) : decode m b = none ↔ Wraps b := by
  have hlt := (declared b).toNat_lt
  unfold decode Wraps messageHeaderLen
  simp only [toNat_upper, length_drop]
  split_ifs <;> simp <;> omega

/-- What is decoded stands in the buffer behind the header. -/
theorem eq_append_of_decode {m m' : Message} {b : Bytes} {n : ℕ}
    (h : decode m b = some (m', .ok n)) :
    n = messageHeaderLen + m'.data.length ∧
      ∃ front rest, front.length = messageHeaderLen ∧ b = front ++ (m'.data ++ rest) := by
  unfold decode at h
  dsimp only at h
  split_ifs at h with _ _ _ hupper
  all_goals simp only [Option.some.injEq, Prod.mk.injEq, Except.ok.injEq, reduceCtorEq,
    and_false] at h
  obtain ⟨rfl, rfl⟩ := h
  have hlt := (declared b).toNat_lt
  rw [toNat_upper] at hupper ⊢
  have hle : (declared b).toNat ≤ 65525 := by
    by_contra hwrap
    rw [if_neg hwrap, messageHeaderLen] at hupper
    omega
  rw [if_pos hle] at hupper ⊢
  constructor
  · rw [length_drop, length_take_of_le hupper.2, messageHeaderLen]
    omega
  · refine ⟨b.take messageHeaderLen, b.drop (10 + (declared b).toNat),
      length_take_of_le (hupper.1.trans hupper.2), ?_⟩
    have hfront : b.take messageHeaderLen =
        (b.take (10 + (declared b).toNat)).take messageHeaderLen := by
      rw [take_take, min_eq_left hupper.1]
    rw [hfront, ← append_assoc, take_append_drop, take_append_drop]

/-- The message that was encoded, if the length does not wrap. -/
theorem decode_header (m m' : Message) (rest : Bytes) (h : m.data.length ≤ 65535) :
    decode m' (m.header ++ (m.data ++ rest)) =
      if m.data.length ≤ 65525 then some (m, .ok (messageHeaderLen + m.data.length)) else none := by
  have hmagic : (m.header ++ (m.data ++ rest)).take 4 = putBigEndian 4 magicNumber := by
    simp [header]
  have hflags : ((m.header ++ (m.data ++ rest)).drop 4).take 2 = putBigEndian 2 m.flags.toNat := by
    simp [header]
  have hfield : ((m.header ++ (m.data ++ rest)).drop 8).take 2 = putBigEndian 2 m.data.length := by
    simp [header, drop_append, drop_eq_nil_of_le]
  have hlength : (declared (m.header ++ (m.data ++ rest))).toNat = m.data.length := by
    rw [declared, hfield, bigEndian_putBigEndian (by omega), UInt16.toNat_ofNat']
    omega
  unfold decode
  simp only [toNat_upper, hlength, hmagic, hflags,
    bigEndian_putBigEndian (show m.flags.toNat < 256 ^ 2 from m.flags.toNat_lt),
    bigEndian_putBigEndian (show magicNumber < 256 ^ 4 by decide), length_append, length_header,
    length_drop, messageHeaderLen, UInt16.ofNat_toNat]
  rw [if_neg (by omega), if_neg (by simp), if_neg (by omega)]
  split_ifs with hle hupper hupper
  · have hdata : ((m.header ++ (m.data ++ rest)).take (10 + m.data.length)).drop 10 = m.data := by
      simp [take_append, length_header]
    rw [hdata]
  · omega
  · omega
  · rfl

/-- A message is decoded from what it was encoded to, with anything behind it, exactly if its data
is no longer than 65525 bytes. An input makes `Decode` panic exactly if its length wraps; what is
decoded from others is a part of the input. -/
theorem message_codec (m : Message) (b : Bytes) :
    (∀ (m' : Message) (b' rest : Bytes) (n : ℕ), m.data.length ≤ 65535 →
      encode m b = .ok (n, b') →
      (decode m' (b'.take n ++ rest) = some (m, .ok n) ↔ m.data.length ≤ 65525)) ∧
    (decode m b = none ↔ Wraps b) ∧
    ∀ m' n, decode m b = some (m', .ok n) → n = messageHeaderLen + m'.data.length ∧
      ∃ front rest, front.length = messageHeaderLen ∧ b = front ++ (m'.data ++ rest) := by
  refine ⟨fun m' b' rest n hlen hencode => ?_, decode_eq_none_iff m b,
    fun m' n => eq_append_of_decode⟩
  unfold encode at hencode
  split_ifs at hencode with hshort
  obtain ⟨rfl, rfl⟩ := Prod.mk.inj (Except.ok.inj hencode)
  have htake : (m.header ++ (m.data ++ b.drop (messageHeaderLen + m.data.length))).take
      (messageHeaderLen + m.data.length) = m.header ++ m.data := by
    simp [take_append, take_of_length_le, length_header, messageHeaderLen]
  rw [htake, append_assoc, decode_header m m' rest hlen]
  split_ifs with hle <;> simp [hle]

/-- Data of 65526 bytes is encoded into a buffer of 65536 bytes, and decoding it panics. -/
theorem decode_long_panics :
    ∃ n b', encode ⟨0, replicate 65526 0⟩ (replicate 65536 0) = .ok (n, b') ∧
      decode ⟨0, []⟩ b' = none := by
  have hdata : (replicate 65526 (0 : UInt8)).length = 65526 := length_replicate
  have hbuffer : (replicate 65536 (0 : UInt8)).length = 65536 := length_replicate
  generalize replicate 65526 (0 : UInt8) = data at hdata
  refine ⟨_, _, if_neg (by rw [hdata, hbuffer, messageHeaderLen]; decide), ?_⟩
  exact (decode_header ⟨0, data⟩ _ _ (by rw [hdata]; decide)).trans (if_neg (by rw [hdata]; decide))

end Message

end Icmp

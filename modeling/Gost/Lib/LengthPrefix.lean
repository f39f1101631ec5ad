import Gost.Lib.Bytes

/-!
# Packets with a length in front

Packets in a byte stream, each with its length in front of it as a number of fixed width. A reader
takes the number off the stream, then as many bytes as it says.
-/

namespace LengthPrefix

open Bytes

/-- A packet with its length in `width` bytes. -/
def frame (width : ℕ) (packet : Bytes) : Bytes := putBigEndian width packet.length ++ packet

/-- `io.ReadFull` with a buffer of `n` bytes: what is read and what is left. It waits while there
are fewer bytes. -/
def readFull (n : ℕ) (s : Bytes) : Option (Bytes × Bytes) :=
  if n ≤ s.length then some (s.take n, s.drop n) else none

theorem readFull_append (a b : Bytes) : readFull a.length (a ++ b) = some (a, b) := by
  rw [readFull, if_pos (by rw [List.length_append]; omega), List.take_left, List.drop_left]

theorem readFull_nil {n : ℕ} (h : 0 < n) : readFull n [] = none :=
  if_neg (Nat.not_le.mpr h)

theorem readFull_frame (width : ℕ) (packet rest : Bytes) :
    readFull width (frame width packet ++ rest) =
      some (putBigEndian width packet.length, packet ++ rest) := by
  have happend := readFull_append (putBigEndian width packet.length) (packet ++ rest)
  rwa [length_putBigEndian, ← List.append_assoc] at happend

end LengthPrefix

import Gost.Lib.Bytes

/-!
# Base64, URL alphabet without padding

`base64.RawURLEncoding`: three bytes are four digits of six bits, a rest of one or two bytes is two
or three digits. `decode_encode` is the round trip.
-/

namespace Base64

open List

/-- The digits `A`–`Z`, `a`–`z`, `0`–`9`, `-` and `_`. -/
def digit (d : ℕ) : UInt8 :=
  if d < 26 then UInt8.ofNat (65 + d)
  else if d < 52 then UInt8.ofNat (97 + (d - 26))
  else if d < 62 then UInt8.ofNat (48 + (d - 52))
  else if d = 62 then 45
  else 95

/-- The value of a digit. -/
def value (c : UInt8) : Option ℕ :=
  if 65 ≤ c ∧ c ≤ 90 then some (c.toNat - 65)
  else if 97 ≤ c ∧ c ≤ 122 then some (c.toNat - 97 + 26)
  else if 48 ≤ c ∧ c ≤ 57 then some (c.toNat - 48 + 52)
  else if c = 45 then some 62
  else if c = 95 then some 63
  else none

/-- The digit values of the bytes. -/
def digits : Bytes → List ℕ
  | [] => []
  | [a] => [a.toNat / 4, a.toNat % 4 * 16]
  | [a, b] => [a.toNat / 4, a.toNat % 4 * 16 + b.toNat / 16, b.toNat % 16 * 4]
  | a :: b :: c :: rest =>
    a.toNat / 4 :: (a.toNat % 4 * 16 + b.toNat / 16) :: (b.toNat % 16 * 4 + c.toNat / 64) ::
      c.toNat % 64 :: digits rest

/-- `EncodeToString`. -/
def encode (s : Bytes) : Bytes := (digits s).map digit

/-- The bytes of digit values. A single digit left over is an error, bits left over are dropped. -/
def ofDigits : List ℕ → Option Bytes
  | [] => some []
  | [_] => none
  | [p, q] => some [UInt8.ofNat (p * 4 + q / 16)]
  | [p, q, r] => some [UInt8.ofNat (p * 4 + q / 16), UInt8.ofNat (q % 16 * 16 + r / 4)]
  | p :: q :: r :: s :: rest => do
    let tail ← ofDigits rest
    some (UInt8.ofNat (p * 4 + q / 16) :: UInt8.ofNat (q % 16 * 16 + r / 4) ::
      UInt8.ofNat (r % 4 * 64 + s) :: tail)

/-- `DecodeString`; line breaks are skipped. -/
def decode (s : Bytes) : Option Bytes :=
  ((s.filter fun c => c ≠ 10 ∧ c ≠ 13).mapM value).bind ofDigits

theorem lt_of_mem_digits {s : Bytes} {d : ℕ} (h : d ∈ digits s) : d < 64 := by
  fun_induction digits s with
  | case1 => cases h
  | case2 a =>
    have := a.toNat_lt
    simp only [mem_cons, not_mem_nil, or_false] at h
    omega
  | case3 a b =>
    have := a.toNat_lt
    have := b.toNat_lt
    simp only [mem_cons, not_mem_nil, or_false] at h
    omega
  | case4 a b c rest ih =>
    have := a.toNat_lt
    have := b.toNat_lt
    have := c.toNat_lt
    simp only [mem_cons] at h
    rcases h with h | h | h | h | h
    · omega
    · omega
    · omega
    · omega
    · exact ih h

theorem ofDigits_digits (s : Bytes) : ofDigits (digits s) = some s := by
  -- a byte is put together from the bits that were cut
  have hbyte : ∀ (a : UInt8) (n : ℕ), n = a.toNat → UInt8.ofNat n = a := by
    rintro a n rfl
    exact UInt8.ofNat_toNat
  fun_induction digits s with
  | case1 => rfl
  | case2 a =>
    rw [ofDigits, hbyte a _ (by omega)]
  | case3 a b =>
    have := b.toNat_lt
    rw [ofDigits, hbyte a _ (by omega), hbyte b _ (by omega)]
  | case4 a b c rest ih =>
    have := b.toNat_lt
    have := c.toNat_lt
    rw [ofDigits, ih, Option.bind_eq_bind, Option.bind_some, hbyte a _ (by omega),
      hbyte b _ (by omega), hbyte c _ (by omega)]

/-- The digits of the alphabet. -/
def alphabet : Bytes := (List.range 64).map digit

theorem mem_alphabet_of_mem_encode {s : Bytes} {c : UInt8} (h : c ∈ encode s) : c ∈ alphabet := by
  obtain ⟨d, hd, rfl⟩ := mem_map.mp h
  exact mem_map_of_mem (mem_range.mpr (lt_of_mem_digits hd))

theorem mapM_value {ds : List ℕ} (h : ∀ d ∈ ds, d < 64) : (ds.map digit).mapM value = some ds := by
  have hvalue : ∀ d ∈ List.range 64, value (digit d) = some d := by decide
  induction ds with
  | nil => rfl
  | cons d ds ih =>
    have hd := hvalue d (mem_range.mpr (h d mem_cons_self))
    rw [map_cons, mapM_cons, hd, ih fun e he => h e (mem_cons_of_mem _ he)]
    rfl

/-- Decoding inverts encoding. -/
theorem decode_encode (s : Bytes) : decode (encode s) = some s := by
  have hbreak : ∀ c ∈ alphabet, c ≠ 10 ∧ c ≠ 13 := Bytes.forall_mem_of_all (by decide +kernel)
  have hfilter : (encode s).filter (fun c => c ≠ 10 ∧ c ≠ 13) = encode s :=
    filter_eq_self.mpr fun c hc => decide_eq_true (hbreak c (mem_alphabet_of_mem_encode hc))
  rw [decode, hfilter, encode, mapM_value fun d hd => lt_of_mem_digits hd]
  exact ofDigits_digits s

end Base64

import Gost.Lib.Bytes

/-!
# DNS messages and their cache

`x/internal/util/resolver/cache.go`: the cache of the resolver and of the DNS handler. It is keyed
by the name, the class and the type of a question. An entry that has expired stays in the cache,
and `Load` gives it with a TTL that is not positive.

Time is in nanoseconds. The cache is the list of what was stored, the newest first, without a bound
on its size, as the resolver makes it.
-/

namespace Resolver

open List

/-! ## Messages -/

structure Question where
  name : Bytes
  qclass : ℕ
  qtype : ℕ
deriving DecidableEq, Repr

inductive RData (IP : Type*)
  | a (ip : IP)
  | aaaa (ip : IP)
  | other
deriving DecidableEq, Repr

structure RR (IP : Type*) where
  data : RData IP
  ttl : ℕ
deriving DecidableEq, Repr

/-- `dns.Msg`, as far as it is looked at. -/
structure Msg (IP : Type*) where
  id : ℕ
  question : List Question
  rcode : ℕ
  answer : List (RR IP)
deriving DecidableEq, Repr

variable {IP : Type*}

/-- `extractIPs`. -/
def extractIPs (m : Msg IP) : List IP :=
  m.answer.filterMap fun rr =>
    match rr.data with
    | .a ip => some ip
    | .aaaa ip => some ip
    | .other => none

def second : ℤ := 1000000000

/-- The message with other TTLs. -/
def Msg.mapTTL (f : ℕ → ℕ) (m : Msg IP) : Msg IP :=
  { m with answer := m.answer.map fun rr => { rr with ttl := f rr.ttl } }

@[simp]
theorem extractIPs_mapTTL (f : ℕ → ℕ) (m : Msg IP) : extractIPs (m.mapTTL f) = extractIPs m := by
  rw [extractIPs, Msg.mapTTL, filterMap_map]
  rfl

/-! ## Keys -/

def classINET : ℕ := 1

def typeA : ℕ := 1

def typeAAAA : ℕ := 28

/-- The texts that package `dns` has for classes and types. -/
structure Texts where
  classText : ℕ → Bytes
  typeText : ℕ → Bytes
  typeText_a : typeText typeA = bytes "A"
  typeText_aaaa : typeText typeAAAA = bytes "AAAA"

/-- The texts for the two types that the resolver asks for. -/
def addressTexts : Texts where
  classText _ := bytes "IN"
  typeText t := if t = typeAAAA then bytes "AAAA" else bytes "A"
  typeText_a := rfl
  typeText_aaaa := rfl

/-- `NewCacheKey`. -/
def Texts.key (texts : Texts) (q : Question) : Bytes :=
  q.name ++ texts.classText q.qclass ++ bytes "." ++ texts.typeText q.qtype

/-! ## The cache -/

structure Item (IP : Type*) where
  msg : Msg IP
  ts : ℤ
  ttl : ℤ
deriving DecidableEq, Repr

abbrev Cache (IP : Type*) := List (Bytes × Item IP)

def defaultTTL : ℤ := 60 * second

/-- The TTL of an entry, if none is configured: the least one of the answers. -/
def answerTTL (answer : List (RR IP)) : ℤ :=
  let ttl := answer.foldl (fun ttl rr =>
    let v := rr.ttl * second
    if ttl = 0 ∨ v < ttl then v else ttl) 0
  if ttl = 0 then defaultTTL else ttl

namespace Cache

/-- The message is a copy in which the TTLs of the answers are those that are left. -/
def load (c : Cache IP) (now : ℤ) (key : Bytes) : Option (Msg IP × ℤ) :=
  (c.lookup key).map fun item =>
    let elapsed := now - item.ts
    let d := (elapsed / second).toNat % 2 ^ 32
    (item.msg.mapTTL fun ttl => if d < ttl then ttl - d else 1, item.ttl - elapsed)

def store (c : Cache IP) (now : ℤ) (key : Bytes) (mr : Msg IP) (ttl : ℤ) : Cache IP :=
  if key = [] ∨ ttl < 0 then c
  else
    let ttl := if ttl = 0 then answerTTL mr.answer else ttl
    (key, ⟨mr.mapTTL fun _ => (ttl / second).toNat % 2 ^ 32, now, ttl⟩) :: c

end Cache

/-! ## What is stored -/

theorem answerTTL_pos (answer : List (RR IP)) : 0 < answerTTL answer := by
  have hfold : ∀ ttl : ℤ, 0 ≤ ttl → 0 ≤ answer.foldl (fun ttl rr =>
      let v := rr.ttl * second
      if ttl = 0 ∨ v < ttl then v else ttl) ttl := by
    induction answer with
    | nil => exact fun ttl h => h
    | cons rr answer ih =>
      intro ttl h
      refine ih _ ?_
      dsimp only
      split_ifs
      · exact Int.mul_nonneg (Int.natCast_nonneg _) (by decide)
      · exact h
  unfold answerTTL
  dsimp only
  split_ifs with hzero
  · decide
  · exact lt_of_le_of_ne (hfold 0 (le_refl 0)) (Ne.symm hzero)

namespace Cache

/-- There is an entry that has not expired. -/
def Fresh (c : Cache IP) (now : ℤ) (key : Bytes) : Prop :=
  ∃ item, c.lookup key = some item ∧ 0 < item.ttl - (now - item.ts)

variable {c : Cache IP} {now ttl : ℤ} {key key' : Bytes} {mr : Msg IP}

theorem lookup_store_of_ne (h : key' ≠ key) :
    (c.store now key mr ttl).lookup key' = c.lookup key' := by
  by_cases hskip : key = [] ∨ ttl < 0
  · rw [store, if_pos hskip]
  · rw [store, if_neg hskip, lookup_cons, beq_false_of_ne h]

/-- An entry behind `Store` is an old one or the message that was stored. -/
theorem lookup_store_eq_some {item : Item IP}
    (h : (c.store now key mr ttl).lookup key' = some item) :
    c.lookup key' = some item ∨
      (¬ ttl < 0 ∧ key' = key ∧ item.msg.id = mr.id ∧ item.msg.question = mr.question) := by
  by_cases hkey : key' = key
  · by_cases hskip : key = [] ∨ ttl < 0
    · rw [store, if_pos hskip] at h
      exact .inl h
    · rw [store, if_neg hskip, hkey, lookup_cons_self, Option.some.injEq] at h
      rw [← h]
      exact .inr ⟨fun httl => hskip (.inr httl), hkey, rfl, rfl⟩
  · rw [lookup_store_of_ne hkey] at h
    exact .inl h

theorem lookup_store_self (c : Cache IP) (now : ℤ) (mr : Msg IP) (hkey : key ≠ [])
    (httl : 0 ≤ ttl) :
    ∃ item, (c.store now key mr ttl).lookup key = some item ∧
      extractIPs item.msg = extractIPs mr ∧ 0 < item.ttl - (now - item.ts) := by
  have hstore : ¬ (key = [] ∨ ttl < 0) := not_or.mpr ⟨hkey, not_lt.mpr httl⟩
  rw [store, if_neg hstore, lookup_cons_self]
  refine ⟨_, rfl, extractIPs_mapTTL .., ?_⟩
  rw [sub_self, sub_zero]
  split_ifs with hzero
  · exact answerTTL_pos mr.answer
  · exact lt_of_le_of_ne httl (Ne.symm hzero)

end Cache

/-! ## Keys of different questions -/

theorem Texts.key_ne_nil (texts : Texts) (q : Question) : texts.key q ≠ [] := by
  intro h
  have hmem : (0x2e : UInt8) ∈ texts.key q := by
    rw [key]
    simp [show bytes "." = [0x2e] from by decide]
  rw [h] at hmem
  cases hmem

/-- The keys of questions for addresses tell the names apart, and the types. -/
theorem Texts.key_inj (texts : Texts) {name name' : Bytes} {qtype qtype' : ℕ}
    (ht : qtype = typeA ∨ qtype = typeAAAA) (ht' : qtype' = typeA ∨ qtype' = typeAAAA)
    (h : texts.key ⟨name, classINET, qtype⟩ = texts.key ⟨name', classINET, qtype'⟩) :
    name = name' ∧ qtype = qtype' := by
  have hlast : ∀ a b : Bytes, a ++ bytes "." ++ bytes "A" ≠ b ++ bytes "." ++ bytes "AAAA" := by
    intro a b heq
    -- compare the last two bytes
    have hrev := congrArg (fun s => s.reverse.take 2) heq
    simp [show bytes "." = [0x2e] from by decide, show bytes "A" = [0x41] from by decide,
      show bytes "AAAA" = [0x41, 0x41, 0x41, 0x41] from by decide] at hrev
  unfold key at h
  rcases ht with rfl | rfl <;> rcases ht' with rfl | rfl
  · exact ⟨append_cancel_right (append_cancel_right (append_cancel_right h)), rfl⟩
  · rw [texts.typeText_a, texts.typeText_aaaa] at h
    exact absurd h (hlast _ _)
  · rw [texts.typeText_a, texts.typeText_aaaa] at h
    exact absurd h.symm (hlast _ _)
  · exact ⟨append_cancel_right (append_cancel_right (append_cancel_right h)), rfl⟩

end Resolver

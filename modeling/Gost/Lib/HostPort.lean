import Gost.Lib.Bytes

/-!
# Host and port

`net.SplitHostPort` and `net.JoinHostPort`, `strings.Trim` for brackets, and what `net/url` takes
for host and port. A colon in a host name marks an IPv6 address, which stands in brackets in front
of a port.
-/

namespace HostPort

open Bytes List

/-- The text before the last `sep` and the text after it. -/
def cutLast (sep : UInt8) (s : Bytes) : Option (Bytes × Bytes) :=
  if sep ∈ s then some ((cut sep s.reverse).2.reverse, (cut sep s.reverse).1.reverse) else none

/-- `net.SplitHostPort`. Which error it is does not matter to its callers. -/
def splitHostPort (hostport : Bytes) : Option (Bytes × Bytes) :=
  match cutLast 58 hostport, hostport with
  | none, _ => none
  | some (_, port), 91 :: rest =>
    -- the first `]` stands right before the last colon
    let (host, tail) := cut 93 rest
    if tail = 58 :: port ∧ 91 ∉ rest ∧ 93 ∉ tail then some (host, port) else none
  | some (host, port), _ =>
    if 58 ∉ host ∧ 91 ∉ hostport ∧ 93 ∉ hostport then some (host, port) else none

/-- `net.JoinHostPort`. -/
def joinHostPort (host port : Bytes) : Bytes :=
  if 58 ∈ host then 91 :: (host ++ 93 :: 58 :: port) else host ++ 58 :: port

theorem joinHostPort_ne_nil (host port : Bytes) : joinHostPort host port ≠ [] := by
  unfold joinHostPort
  split_ifs <;> simp

def isBracket (c : UInt8) : Bool := c == 91 || c == 93

/-- `strings.Trim(s, "[]")`. -/
def trimBrackets (s : Bytes) : Bytes :=
  ((s.dropWhile isBracket).reverse.dropWhile isBracket).reverse

def isDigit (c : UInt8) : Bool := 48 ≤ c && c ≤ 57

/-- The text without the brackets around it. -/
def stripBrackets (s : Bytes) : Bytes :=
  if s.head? = some 91 ∧ s.getLast? = some 93 then (s.drop 1).dropLast else s

/-- `URL.Hostname` and `URL.Port`: a port has digits only, or nothing. -/
def hostnamePort (hostport : Bytes) : Bytes × Bytes :=
  match cutLast 58 hostport with
  | some (host, port) =>
    if port.all isDigit then (stripBrackets host, port) else (stripBrackets hostport, [])
  | none => (stripBrackets hostport, [])

example : splitHostPort (bytes "[::1]:80") = some (bytes "::1", bytes "80") ∧
    splitHostPort (bytes "a:80") = some (bytes "a", bytes "80") ∧
    splitHostPort (bytes "::1") = none ∧ splitHostPort (bytes "[::1]") = none := by decide

example : hostnamePort (bytes "[::1]:80") = (bytes "::1", bytes "80") ∧
    hostnamePort (bytes "a:") = (bytes "a", []) ∧
    hostnamePort (bytes "::1") = (bytes ":", bytes "1") ∧
    hostnamePort (bytes "[::1]") = (bytes "::1", []) := by decide

/-! ## The last colon -/

variable {sep : UInt8} {port s host : Bytes}

theorem cutLast_append (host : Bytes) (h : sep ∉ port) :
    cutLast sep (host ++ sep :: port) = some (host, port) := by
  have hreverse : (host ++ sep :: port).reverse = port.reverse ++ sep :: host.reverse := by simp
  rw [cutLast, if_pos (by simp), hreverse, cut_append _ (by simpa using h)]
  simp

theorem cutLast_eq_some_iff :
    cutLast sep s = some (host, port) ↔ s = host ++ sep :: port ∧ sep ∉ port := by
  constructor
  · intro h
    by_cases hmem : sep ∈ s
    · obtain ⟨a, b, hs, ha⟩ := eq_append_cons_of_mem (mem_reverse.mpr hmem)
      have hs' : s = b.reverse ++ sep :: a.reverse := by
        rw [← reverse_reverse s, hs]
        simp
      rw [hs', cutLast_append _ (by simpa using ha)] at h
      cases h
      exact ⟨hs', by simpa using ha⟩
    · rw [cutLast, if_neg hmem] at h
      cases h
  · rintro ⟨rfl, h⟩
    exact cutLast_append host h

/-- A joined address can be taken apart again. -/
theorem joinHostPort_inj {host' port' : Bytes} (hport : 58 ∉ port) (hport' : 58 ∉ port')
    (h : joinHostPort host port = joinHostPort host' port') : host = host' ∧ port = port' := by
  have hcut : ∀ {host port : Bytes}, 58 ∉ port → cutLast 58 (joinHostPort host port) =
      some (if 58 ∈ host then 91 :: (host ++ [93]) else host, port) := by
    intro host port hport
    refine cutLast_eq_some_iff.mpr ⟨?_, hport⟩
    unfold joinHostPort
    split_ifs <;> simp
  have hsame := (hcut hport).symm.trans ((congrArg _ h).trans (hcut hport'))
  rw [Option.some.injEq, Prod.mk.injEq] at hsame
  refine ⟨?_, hsame.2⟩
  have hhost := hsame.1
  split_ifs at hhost with hcolon hcolon'
  · exact append_cancel_right (List.cons.inj hhost).2
  · exact absurd (hhost ▸ mem_cons_of_mem 91 (mem_append_left [93] hcolon)) hcolon'
  next hcolon' =>
    exact absurd (hhost ▸ mem_cons_of_mem 91 (mem_append_left [93] hcolon')) hcolon
  · exact hhost

/-- What was joined is split again, if there are no brackets in it. -/
theorem splitHostPort_joinHostPort (hhost : 91 ∉ host ∧ 93 ∉ host)
    (hport : 58 ∉ port ∧ 91 ∉ port ∧ 93 ∉ port) :
    splitHostPort (joinHostPort host port) = some (host, port) := by
  unfold joinHostPort
  split_ifs with hcolon
  · have hcut : cutLast 58 (91 :: (host ++ 93 :: 58 :: port)) = some (91 :: (host ++ [93]), port) :=
      cutLast_eq_some_iff.mpr ⟨by simp, hport.1⟩
    unfold splitHostPort
    rw [hcut]
    simp [cut_append _ hhost.2, hhost.1, hport.2]
  · unfold splitHostPort
    rw [cutLast_append host hport.1]
    split
    next heq => cases heq
    next rest _ hrest =>
      -- the address does not start with a bracket
      have hmem : 91 ∈ host ++ 58 :: port := hrest ▸ mem_cons_self
      simp [hhost.1, hport.2.1] at hmem
    next heq _ =>
      cases heq
      simp [hcolon, hhost, hport.2]

/-! ## Brackets -/

theorem stripBrackets_bracketed (s : Bytes) : stripBrackets (91 :: (s ++ [93])) = s := by
  have hlast : (91 :: (s ++ [93])).getLast? = some 93 := by
    rw [← cons_append, getLast?_concat]
  rw [stripBrackets, if_pos ⟨rfl, hlast⟩, drop_one, tail_cons, dropLast_concat]

theorem stripBrackets_of_getLast (h : s.getLast? ≠ some 93) : stripBrackets s = s :=
  if_neg fun hs => h hs.2

/-- No colon is lost with the brackets. -/
theorem count_stripBrackets (s : Bytes) : (stripBrackets s).count 58 = s.count 58 := by
  unfold stripBrackets
  split_ifs with h
  · obtain ⟨rest, rfl⟩ := head?_eq_some_iff.mp h.1
    obtain ⟨front, hfront⟩ := getLast?_eq_some_iff.mp h.2
    cases front with
    | nil => cases hfront
    | cons c front =>
      obtain rfl : rest = front ++ [93] := (List.cons.inj hfront).2
      simp [count_append]
  · rfl

theorem count_trimBrackets (s : Bytes) : (trimBrackets s).count 58 = s.count 58 := by
  have hdrop : ∀ s : Bytes, (s.dropWhile isBracket).count 58 = s.count 58 := by
    intro s
    have hnone : (s.takeWhile isBracket).count 58 = 0 :=
      count_eq_zero.mpr fun hmem => absurd (mem_takeWhile_imp hmem) (by decide)
    conv_rhs => rw [← takeWhile_append_dropWhile (p := isBracket) (l := s)]
    rw [count_append, hnone, Nat.zero_add]
  rw [trimBrackets, count_reverse, hdrop, count_reverse, hdrop]

/-- Both ways of taking an address apart agree where `net.SplitHostPort` succeeds. -/
theorem cutLast_of_splitHostPort (h : splitHostPort s = some (host, port)) :
    93 ∉ port ∧ ∃ front, cutLast 58 s = some (front, port) ∧ stripBrackets front = host := by
  unfold splitHostPort at h
  split at h
  next => cases h
  next front port' rest hcut =>
    dsimp only at h
    split at h
    next hform =>
      cases h
      refine ⟨fun hmem => hform.2.2 (hform.1 ▸ mem_cons_of_mem 58 hmem), front, hcut, ?_⟩
      have hbracket : 93 ∈ rest := by
        by_contra hnone
        rw [cut_of_notMem hnone] at hform
        cases hform.1
      obtain ⟨host, tail, rfl, hhost⟩ := eq_append_cons_of_mem hbracket
      rw [cut_append _ hhost] at hform ⊢
      obtain ⟨hs, -⟩ := cutLast_eq_some_iff.mp hcut
      rw [show tail = 58 :: port from hform.1] at hs
      have hfront : 91 :: (host ++ [93]) = front := by
        rw [← append_left_inj (58 :: port), ← hs]
        simp
      rw [← hfront, stripBrackets_bracketed]
    next => cases h
  next front port' _ hcut =>
    split at h
    next hform =>
      cases h
      obtain ⟨hs, -⟩ := cutLast_eq_some_iff.mp hcut
      rw [hs] at hform
      refine ⟨fun hmem => hform.2.2 (mem_append_right _ (mem_cons_of_mem 58 hmem)), host,
        hcut, stripBrackets_of_getLast fun hlast => ?_⟩
      exact hform.2.2 (mem_append_left _ (mem_of_getLast? hlast))
    next => cases h

end HostPort

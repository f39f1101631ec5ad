import Gost.Lib.HostPort

/-!
# The address that is checked and the one that is dialed

The HTTP proxy asks the bypass for `normalizeHostPort` of the request's host, while
`http.Transport` dials the address that it takes from the URL itself. The two are the same for a
host with a port in digits, and for a host without a port if both add the same one.
-/

namespace Proxy

open Bytes HostPort List Option

/-- `normalizeHostPort`. -/
def normalizeHostPort (host defaultPort : Bytes) : Bytes :=
  if ((splitHostPort host).elim [] (·.2)) = [] then joinHostPort (trimBrackets host) defaultPort
  else host

/-- `canonicalAddr` of `http.Transport`, for the port of the scheme. The conversion of international
host names is left out. -/
def canonicalAddr (urlHost defaultPort : Bytes) : Bytes :=
  joinHostPort (hostnamePort urlHost).1
    (if (hostnamePort urlHost).2 = [] then defaultPort else (hostnamePort urlHost).2)

/-- A host with a port in digits. -/
def HasPort (host : Bytes) : Prop :=
  ∃ p ∈ splitHostPort host, p.2 ≠ [] ∧ p.2.all isDigit = true ∧ host = joinHostPort p.1 p.2

/-- A host without a port, in one pair of brackets at most. -/
def IsBare (host : Bytes) : Prop :=
  splitHostPort host = none ∧ (∀ p ∈ cutLast 58 host, p.2.all isDigit = false) ∧
    stripBrackets host = trimBrackets host

instance (host : Bytes) : Decidable (HasPort host) :=
  inferInstanceAs (Decidable (∃ p ∈ splitHostPort host, _))

instance (host : Bytes) : Decidable (IsBare host) := inferInstanceAs (Decidable (_ ∧ _ ∧ _))

example : HasPort (bytes "a:8080") ∧ HasPort (bytes "[::1]:80") ∧ IsBare (bytes "a") ∧
    IsBare (bytes "[::1]") ∧ ¬ HasPort (bytes "a:") ∧ ¬ IsBare (bytes "a:") := by decide +kernel

variable {host port defaultPort checkedPort : Bytes}

/-- Without a port in digits the transport adds one to the whole host. -/
theorem canonicalAddr_of_forall (h : ∀ p ∈ cutLast 58 host, p.2.all isDigit = false) :
    canonicalAddr host defaultPort = joinHostPort (stripBrackets host) defaultPort := by
  have hsplit : hostnamePort host = (stripBrackets host, []) := by
    unfold hostnamePort
    split
    next front port hcut => rw [if_neg (Bool.eq_false_iff.mp (h _ hcut))]
    next => rfl
  rw [canonicalAddr, hsplit]
  rfl

variable {front : Bytes}

/-- With a port in digits the transport takes the host in front of it. -/
theorem canonicalAddr_of_cutLast (hcut : cutLast 58 host = some (front, port))
    (hdigits : port.all isDigit = true) :
    canonicalAddr host defaultPort =
      joinHostPort (stripBrackets front) (if port = [] then defaultPort else port) := by
  have hsplit : hostnamePort host = (stripBrackets front, port) := by
    rw [hostnamePort, hcut]
    exact if_pos hdigits
  rw [canonicalAddr, hsplit]

/-- A port that was cut off is not what `normalizeHostPort` adds to the whole host. -/
theorem canonicalAddr_ne (hcut : cutLast 58 host = some (front, port))
    (hdigits : port.all isDigit = true) (hdefault : 58 ∉ defaultPort)
    (hchecked : 58 ∉ checkedPort) :
    canonicalAddr host defaultPort ≠ joinHostPort (trimBrackets host) checkedPort := by
  intro heq
  obtain ⟨hhost, hport⟩ := cutLast_eq_some_iff.mp hcut
  rw [canonicalAddr_of_cutLast hcut hdigits] at heq
  have hcolon : 58 ∉ if port = [] then defaultPort else port := by
    split
    · exact hdefault
    · exact hport
  -- the host that is joined has one colon less
  have hcount := congrArg (List.count 58) (joinHostPort_inj hcolon hchecked heq).1
  rw [count_stripBrackets, count_trimBrackets, hhost, count_append, count_cons_self] at hcount
  omega

/-- A port that is not in digits is taken for a part of the host. -/
theorem canonicalAddr_ne_self (hcut : cutLast 58 host = some (front, port)) (hnil : port ≠ [])
    (hbracket : 93 ∉ port) (hdigits : port.all isDigit = false) :
    canonicalAddr host defaultPort ≠ host := by
  obtain ⟨rfl, -⟩ := cutLast_eq_some_iff.mp hcut
  have hlast : (front ++ 58 :: port).getLast? ≠ some 93 := by
    rw [getLast?_append, getLast?_cons_of_ne_nil hnil, getLast?_eq_some_getLast hnil, some_or]
    exact fun h => hbracket (some.inj h ▸ getLast_mem hnil)
  rw [canonicalAddr_of_forall fun p hp => ?_, stripBrackets_of_getLast hlast]
  · intro heq
    have hlength := congrArg List.length heq
    rw [joinHostPort, if_pos (by simp)] at hlength
    simp only [length_cons, length_append] at hlength
    omega
  · rw [hcut, mem_some_iff] at hp
    exact hp ▸ hdigits

/-- When the transport dials the address that was checked. -/
theorem canonicalAddr_eq_iff (hdefault : 58 ∉ defaultPort) (hchecked : 58 ∉ checkedPort) :
    canonicalAddr host defaultPort = normalizeHostPort host checkedPort ↔
      HasPort host ∨ IsBare host ∧ defaultPort = checkedPort := by
  cases hsplit : splitHostPort host with
  | none =>
    have hport : ¬ HasPort host := fun ⟨p, hp, _⟩ => absurd (hsplit.symm.trans hp) nofun
    rw [or_iff_right hport, normalizeHostPort, hsplit, elim_none, if_pos rfl]
    by_cases hdigits : ∀ p ∈ cutLast 58 host, p.2.all isDigit = false
    · rw [canonicalAddr_of_forall hdigits]
      refine ⟨fun heq => ?_, fun h => by rw [h.1.2.2, h.2]⟩
      obtain ⟨hhost, hsame⟩ := joinHostPort_inj hdefault hchecked heq
      exact ⟨⟨hsplit, hdigits, hhost⟩, hsame⟩
    · refine iff_of_false ?_ fun h => hdigits h.1.2.1
      push Not at hdigits
      obtain ⟨⟨front, port⟩, hcut, hport⟩ := hdigits
      exact canonicalAddr_ne hcut (Bool.not_eq_false _ ▸ hport) hdefault hchecked
  | some p =>
    obtain ⟨name, port⟩ := p
    obtain ⟨hbracket, front, hcut, hfront⟩ := cutLast_of_splitHostPort hsplit
    have hbare : ¬ (IsBare host ∧ defaultPort = checkedPort) := fun h =>
      absurd (hsplit.symm.trans h.1.1) nofun
    have hport : HasPort host ↔
        port ≠ [] ∧ port.all isDigit = true ∧ host = joinHostPort name port := by
      unfold HasPort
      rw [hsplit]
      refine ⟨?_, fun h => ⟨(name, port), rfl, h⟩⟩
      rintro ⟨p, hp, h⟩
      cases hp
      exact h
    rw [or_iff_left hbare, hport, normalizeHostPort, hsplit, elim_some]
    by_cases hnil : port = []
    · rw [if_pos hnil]
      refine iff_of_false (canonicalAddr_ne hcut ?_ hdefault hchecked) fun h => h.1 hnil
      rw [hnil]
      rfl
    · rw [if_neg hnil]
      cases hdigits : port.all isDigit with
      | true =>
        rw [canonicalAddr_of_cutLast hcut hdigits, hfront, if_neg hnil]
        exact ⟨fun heq => ⟨hnil, rfl, heq.symm⟩, fun h => h.2.2.symm⟩
      | false =>
        refine iff_of_false (canonicalAddr_ne_self hcut hnil hbracket hdigits) fun h => ?_
        exact Bool.false_ne_true h.2.1

end Proxy

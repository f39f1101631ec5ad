import Gost.BBR.PacketQueue

/-!
# The queue refines a finite map

The slots of a queue stand for the entries that are present, each with its number: `present`. On
these lists the operations of the queue are those of `PacketMap`. Gaps that are filled and slots
that are dropped from the front add and remove nothing, so what is to be shown of the loops is that
they keep the list of present entries and end with a present slot at the front.

Packet numbers are natural numbers, or -1 for an invalid one. With other negative numbers the loop
of `RemoveUpTo` can come to the number -1, where it takes the queue for empty and stops:
`stops_at_invalid`.
-/

namespace BBR

open List Option
open RingBuffer (Represents)

variable {T : Type*}

/-! ## The entries that are present -/

/-- The entries of consecutive slots, with their numbers. -/
def present (first : ℤ) : List (EntryWrapper T) → List (ℤ × T)
  | [] => []
  | w :: slots =>
    if w.present then (first, w.entry) :: present (first + 1) slots else present (first + 1) slots

section Present

variable {first : ℤ} {slots : List (EntryWrapper T)} {w : EntryWrapper T}

theorem present_cons_of_present (first : ℤ) (slots : List (EntryWrapper T))
    (hw : w.present = true) :
    present first (w :: slots) = (first, w.entry) :: present (first + 1) slots := by
  rw [present, if_pos hw]

theorem present_cons_of_absent (first : ℤ) (slots : List (EntryWrapper T))
    (hw : w.present = false) : present first (w :: slots) = present (first + 1) slots := by
  rw [present, hw]
  rfl

theorem present_append (first : ℤ) (slots slots' : List (EntryWrapper T)) :
    present first (slots ++ slots') =
      present first slots ++ present (first + slots.length) slots' := by
  induction slots generalizing first with
  | nil => simp [present]
  | cons w slots ih =>
    have hfirst : first + (w :: slots).length = first + 1 + slots.length := by
      rw [length_cons]
      omega
    rw [hfirst, cons_append, present, present, ih]
    split_ifs <;> rfl

/-- The slots that fill a gap hold no entries. -/
theorem present_replicate [Inhabited T] (first : ℤ) (n : ℕ) :
    present first (List.replicate n (default : EntryWrapper T)) = [] := by
  induction n generalizing first with
  | zero => rfl
  | succ n ih => exact ih (first + 1)

theorem bounds_of_mem_present {e : ℤ × T} (he : e ∈ present first slots) :
    first ≤ e.1 ∧ e.1 < first + slots.length := by
  induction slots generalizing first with
  | nil => cases he
  | cons w slots ih =>
    rw [length_cons]
    have hrest : e ∈ present (first + 1) slots →
        first ≤ e.1 ∧ e.1 < first + ↑(slots.length + 1) := by
      intro he
      have := ih he
      omega
    unfold present at he
    split_ifs at he
    · rcases mem_cons.mp he with rfl | he
      · omega
      · exact hrest he
    · exact hrest he

theorem pairwise_present (first : ℤ) (slots : List (EntryWrapper T)) :
    (present first slots).Pairwise (·.1 < ·.1) := by
  induction slots generalizing first with
  | nil => exact List.Pairwise.nil
  | cons w slots ih =>
    unfold present
    split_ifs
    · refine List.Pairwise.cons (fun e he => ?_) (ih _)
      have := bounds_of_mem_present he
      omega
    · exact ih _

variable {n : ℤ}

/-- A number before the first has no entry. -/
theorem lookup_present_of_lt (hn : n < first) : (present first slots).lookup n = none := by
  rw [lookup_eq_none_iff]
  intro e he
  have := bounds_of_mem_present he
  simp only [bne_iff_ne, ne_eq]
  omega

theorem lookup_present (first : ℤ) (slots : List (EntryWrapper T)) (i : ℕ) :
    (present first slots).lookup (first + i) =
      slots[i]?.bind fun w => if w.present then some w.entry else none := by
  induction slots generalizing first i with
  | nil => simp [present]
  | cons w slots ih =>
    cases i with
    | zero =>
      unfold present
      split_ifs with hw
      · simp [hw]
      · simp [hw, lookup_present_of_lt (show first < first + 1 by omega)]
    | succ i =>
      have hnext : first + ↑(i + 1) = first + 1 + i := by omega
      have hne : (first + ↑(i + 1) == first) = false := by
        rw [beq_eq_false_iff_ne]
        omega
      rw [getElem?_cons_succ, ← ih, present]
      split_ifs
      · rw [lookup_cons, hne, hnext]
      · rw [hnext]

/-- An entry that is marked as not present is taken from the list. -/
theorem present_set (first : ℤ) (slots : List (EntryWrapper T)) (i : ℕ) (hw : w.present = false) :
    present first (slots.set i w) = (present first slots).filter (·.1 ≠ first + i) := by
  induction slots generalizing first i with
  | nil => rfl
  | cons w' slots ih =>
    cases i with
    | zero =>
      have hrest : (present (first + 1) slots).filter (·.1 ≠ first + ↑(0 : ℕ)) =
          present (first + 1) slots := by
        rw [filter_eq_self]
        intro e he
        have := bounds_of_mem_present he
        simp only [decide_eq_true_eq]
        omega
      rw [set_cons_zero, present_cons_of_absent _ _ hw, present]
      split_ifs
      · rw [filter_cons_of_neg (by simp), hrest]
      · rw [hrest]
    | succ i =>
      have hnext : first + ↑(i + 1) = first + 1 + i := by omega
      rw [set_cons_succ, present, present, ih, hnext]
      split_ifs
      · rw [filter_cons_of_pos]
        simp only [decide_eq_true_eq]
        omega
      · rfl

/-- With one entry less the list is shorter by one. -/
theorem length_present_set {i : ℕ} {w' : EntryWrapper T} (hi : slots[i]? = some w)
    (hw : w.present = true) (hw' : w'.present = false) :
    (present first slots).length = (present first (slots.set i w')).length + 1 := by
  induction slots generalizing first i with
  | nil => simp at hi
  | cons v slots ih =>
    cases i with
    | zero =>
      obtain rfl : v = w := by simpa using hi
      simp [present, hw, hw']
    | succ i =>
      have hrest : (present (first + 1) slots).length =
          (present (first + 1) (slots.set i w')).length + 1 := ih (by simpa using hi)
      simp only [set_cons_succ, present]
      split_ifs
      · simp [hrest]
      · exact hrest

/-- All entries from a number on, when the first slot is before it. -/
theorem filter_present_cons (hn : first < n) :
    (present first (w :: slots)).filter (n ≤ ·.1) =
      (present (first + 1) slots).filter (n ≤ ·.1) := by
  rw [present]
  split_ifs
  · rw [filter_cons_of_neg]
    simpa using hn
  · rfl

theorem filter_present_of_le (hn : n ≤ first) :
    (present first slots).filter (n ≤ ·.1) = present first slots := by
  rw [filter_eq_self]
  intro e he
  have := bounds_of_mem_present he
  simp only [decide_eq_true_eq]
  omega

end Present

/-! ## The loops -/

namespace PacketQueue

variable {p : PacketQueue T} {slots : List (EntryWrapper T)}

/-- The queue holds the slots `slots`, and counts those that are present. -/
structure Holds (p : PacketQueue T) (slots : List (EntryWrapper T)) : Prop where
  represents : Represents p.entries slots
  count : p.numberOfPresentEntries = (present p.firstPacket slots).length
  first : slots ≠ [] → 0 ≤ p.firstPacket

/-- The front slot is present. -/
def FrontPresent (slots : List (EntryWrapper T)) : Prop := ∀ w ∈ slots.head?, w.present = true

/-- Where there is a slot, there is an entry. -/
theorem FrontPresent.present_eq_nil_iff (h : FrontPresent slots) (first : ℤ) :
    present first slots = [] ↔ slots = [] := by
  cases slots with
  | nil => simp [present]
  | cons w slots => simp [present_cons_of_present first slots (h w rfl)]

theorem Holds.isEmpty_iff (h : p.Holds slots) (hfront : FrontPresent slots) :
    p.isEmpty = true ↔ slots = [] := by
  rw [← hfront.present_eq_nil_iff p.firstPacket, isEmpty, h.count, beq_iff_eq, ← length_eq_zero_iff]
  exact Int.natCast_eq_zero

variable {w : EntryWrapper T}

section Loops

variable [Inhabited T]

/-- Missing elements are added as slots that are not present. -/
theorem represents_pushMissing {entries : RingBuffer (EntryWrapper T)}
    (h : Represents entries slots) (gap : ℕ) :
    Represents (pushMissing gap entries) (slots ++ List.replicate gap default) := by
  induction gap generalizing entries slots with
  | zero => simpa [pushMissing] using h
  | succ gap ih =>
    simpa [pushMissing, replicate_succ] using ih (h.pushBack default)

/-- What both loops do to the queue when they drop its front slot. -/
theorem Holds.popFront (h : p.Holds (w :: slots)) :
    ∃ entries, p.entries.popFront = some (w, entries) ∧ Holds
      { entries
        numberOfPresentEntries :=
          if w.present then p.numberOfPresentEntries - 1 else p.numberOfPresentEntries
        firstPacket := p.firstPacket + 1 } slots := by
  obtain ⟨entries, hpop, hentries⟩ := h.represents.popFront
  refine ⟨entries, hpop, hentries, ?_, fun _ => ?_⟩
  · have hcount := h.count
    rw [present] at hcount
    split_ifs at hcount ⊢ with hw
    · show p.numberOfPresentEntries - 1 = (present (p.firstPacket + 1) slots).length
      rw [hcount, length_cons]
      omega
    · exact hcount
  · have := h.first (cons_ne_nil w slots)
    show 0 ≤ p.firstPacket + 1
    omega

/-- The slots that are not present are dropped from the front. -/
theorem clearFront_spec (h : p.Holds slots) (fuel : ℕ) (hfuel : slots.length ≤ fuel) :
    ∃ q slots', clearFront fuel p = some q ∧ q.Holds slots' ∧ FrontPresent slots' ∧
      present q.firstPacket slots' = present p.firstPacket slots ∧
      q.firstPacket + slots'.length = p.firstPacket + slots.length := by
  induction fuel generalizing p slots with
  | zero =>
    obtain rfl := length_eq_zero_iff.mp (Nat.le_zero.mp hfuel)
    exact ⟨p, [], rfl, h, nofun, rfl, rfl⟩
  | succ fuel ih =>
    unfold clearFront
    cases slots with
    | nil =>
      rw [h.represents.empty_iff.mpr rfl]
      exact ⟨p, [], rfl, h, nofun, rfl, rfl⟩
    | cons w slots =>
      rw [h.represents.empty_eq_false, h.represents.front_eq, head?_cons, bind_some]
      cases hw : w.present with
      | true =>
        refine ⟨p, w :: slots, rfl, h, fun v hv => ?_, rfl, rfl⟩
        cases hv
        exact hw
      | false =>
        obtain ⟨entries, hpop, hholds⟩ := h.popFront
        rw [hw] at hholds
        have hpresent := present_cons_of_absent p.firstPacket slots hw
        obtain ⟨q, slots', hq, hholds', hfront, hpresent', hlast⟩ :=
          ih hholds (Nat.le_of_succ_le_succ hfuel)
        refine ⟨q, slots', ?_, hholds', hfront, hpresent'.trans hpresent.symm, ?_⟩
        · rw [hpop]
          exact hq
        · rw [hlast, length_cons]
          show p.firstPacket + 1 + slots.length = p.firstPacket + ↑(slots.length + 1)
          omega

/-- `clearup` keeps the entries and ends with a present slot at the front. -/
theorem clearup_spec (h : p.Holds slots) :
    ∃ q slots', p.clearup = some q ∧ q.Holds slots' ∧ FrontPresent slots' ∧
      present q.firstPacket slots' = present p.firstPacket slots ∧
      (slots' ≠ [] → q.firstPacket + slots'.length = p.firstPacket + slots.length) := by
  obtain ⟨q, slots', hq, hholds, hfront, hpresent, hlast⟩ :=
    clearFront_spec h p.entries.len h.represents.len_eq.ge
  unfold clearup
  rw [hq, map_some]
  cases slots' with
  | nil =>
    rw [if_pos (hholds.represents.empty_iff.mpr rfl)]
    exact ⟨_, [], rfl, ⟨hholds.represents, hholds.count, nofun⟩, hfront, hpresent, nofun⟩
  | cons w slots' =>
    rw [hholds.represents.empty_eq_false]
    exact ⟨q, _, rfl, hholds, hfront, hpresent, fun _ => hlast⟩

/-- The loop of `RemoveUpTo` leaves the entries from the number on. -/
theorem dropUpTo_spec (h : p.Holds slots) (packetNumber : ℤ) (fuel : ℕ)
    (hfuel : slots.length ≤ fuel) :
    ∃ q slots', dropUpTo packetNumber fuel p = some q ∧ q.Holds slots' ∧
      present q.firstPacket slots' = (present p.firstPacket slots).filter (packetNumber ≤ ·.1) ∧
      q.firstPacket + slots'.length = p.firstPacket + slots.length := by
  induction fuel generalizing p slots with
  | zero =>
    obtain rfl := length_eq_zero_iff.mp (Nat.le_zero.mp hfuel)
    exact ⟨p, [], rfl, h, rfl, rfl⟩
  | succ fuel ih =>
    unfold dropUpTo
    cases slots with
    | nil =>
      rw [if_neg (by simp [h.represents.empty_iff.mpr rfl])]
      exact ⟨p, [], rfl, h, rfl, rfl⟩
    | cons w slots =>
      have hfirst := h.first (cons_ne_nil w slots)
      have hvalid : p.firstPacket ≠ invalidPacketNumber := by
        unfold invalidPacketNumber
        omega
      by_cases hlt : p.firstPacket < packetNumber
      · rw [if_pos ⟨h.represents.empty_eq_false, hvalid, hlt⟩, h.represents.front_eq]
        obtain ⟨entries, hpop, hholds⟩ := h.popFront
        obtain ⟨q, slots', hq, hholds', hpresent, hlast⟩ :=
          ih hholds (Nat.le_of_succ_le_succ hfuel)
        refine ⟨q, slots', ?_, hholds', ?_, ?_⟩
        · rw [head?_cons, bind_some, hpop, bind_some]
          exact hq
        · rw [hpresent, filter_present_cons hlt]
        · rw [hlast, length_cons]
          show p.firstPacket + 1 + slots.length = p.firstPacket + ↑(slots.length + 1)
          omega
      · rw [if_neg fun hcond => hlt hcond.2.2]
        exact ⟨p, _, rfl, h, (filter_present_of_le (not_lt.mp hlt)).symm, rfl⟩

end Loops

/-! ## The operations -/

/-- What `getEntryWraper` finds: the slot of an entry that is present, or nothing. -/
theorem getEntryWraper_spec (h : p.Holds slots) (hfront : FrontPresent slots) (packetNumber : ℤ) :
    (∃ (i : ℕ) (w : EntryWrapper T), packetNumber = p.firstPacket + i ∧ slots[i]? = some w ∧
      w.present = true ∧ p.getEntryWraper packetNumber = some (some (i, w))) ∨
    ((present p.firstPacket slots).lookup packetNumber = none ∧
      p.getEntryWraper packetNumber = some none) := by
  unfold getEntryWraper
  by_cases hempty : slots = []
  · rw [if_pos (.inr (.inl ((h.isEmpty_iff hfront).mpr hempty))), hempty]
    exact .inr ⟨rfl, rfl⟩
  · have hne : ¬p.isEmpty = true := fun h' => hempty ((h.isEmpty_iff hfront).mp h')
    by_cases hlt : packetNumber < p.firstPacket
    · rw [if_pos (.inr (.inr hlt))]
      exact .inr ⟨lookup_present_of_lt hlt, rfl⟩
    · obtain ⟨i, hi⟩ := Int.eq_ofNat_of_zero_le (show 0 ≤ packetNumber - p.firstPacket by omega)
      have hnumber : packetNumber = p.firstPacket + i := by omega
      have hvalid : packetNumber ≠ invalidPacketNumber := by
        have := h.first hempty
        unfold invalidPacketNumber
        omega
      have hlookup := lookup_present p.firstPacket slots i
      rw [if_neg (by simp [hvalid, hne, hlt])]
      dsimp only
      rw [h.represents.len_eq, h.represents.offset_eq, hi, Int.toNat_natCast]
      subst hnumber
      by_cases hlen : i < slots.length
      · rw [if_neg (not_le.mpr hlen)]
        rw [getElem?_eq_getElem hlen] at hlookup ⊢
        cases hw : slots[i].present with
        | true => exact .inl ⟨i, slots[i], rfl, getElem?_eq_getElem hlen, hw, by simp [hw]⟩
        | false => exact .inr ⟨by simpa [hw] using hlookup, by simp [hw]⟩
      · rw [if_pos (not_lt.mp hlen)]
        rw [getElem?_eq_none (not_lt.mp hlen)] at hlookup
        exact .inr ⟨hlookup, rfl⟩

/-- The queue holds the entries of the map, its front slot is present, and its last slot is that of
the last number. -/
structure Refines (p : PacketQueue T) (slots : List (EntryWrapper T)) (m : PacketMap T) : Prop where
  holds : p.Holds slots
  front : FrontPresent slots
  entries : m.entries = present p.firstPacket slots
  last : slots ≠ [] → m.last + 1 = p.firstPacket + slots.length

namespace Refines

variable {m : PacketMap T}

theorem isEmpty_iff (h : p.Refines slots m) : p.isEmpty = true ↔ m.entries.isEmpty = true := by
  rw [h.holds.isEmpty_iff h.front, List.isEmpty_iff, h.entries, h.front.present_eq_nil_iff]

theorem lookup (h : p.Refines slots m) (packetNumber : ℤ) :
    p.getEntry packetNumber = some (m.entries.lookup packetNumber) := by
  unfold getEntry
  rw [h.entries]
  rcases getEntryWraper_spec h.holds h.front packetNumber with
    ⟨i, w, rfl, hi, hw, hget⟩ | ⟨hnone, hget⟩
  · rw [hget, lookup_present, hi]
    simp [hw]
  · rw [hget, hnone]
    rfl

theorem lastPacket_eq (h : p.Refines slots m) (hslots : slots ≠ []) : p.lastPacket = m.last := by
  have hempty : ¬p.isEmpty = true := fun hempty =>
    hslots ((h.holds.isEmpty_iff h.front).mp hempty)
  have hlast := h.last hslots
  rw [PacketQueue.lastPacket, if_neg hempty, h.holds.represents.len_eq]
  omega

variable [Inhabited T] {packetNumber : ℤ}

/-- The first entry of an empty queue. -/
theorem first (h : p.Refines [] m) (hpos : 0 ≤ packetNumber) (entry : T) :
    Refines
      { entries := p.entries.pushBack ⟨true, entry⟩
        numberOfPresentEntries := 1
        firstPacket := packetNumber }
      [⟨true, entry⟩] ⟨m.entries ++ [(packetNumber, entry)], packetNumber⟩ := by
  refine ⟨⟨h.holds.represents.pushBack ⟨true, entry⟩, rfl, fun _ => hpos⟩, ?_, ?_, fun _ => rfl⟩
  · intro w hw
    rw [← some.inj hw]
  · rw [h.entries]
    rfl

/-- A number past the last one: the gap is filled, and the entry is added at the end. -/
theorem append (h : p.Refines slots m) (hslots : slots ≠ []) (hlt : m.last < packetNumber)
    (entry : T) :
    ∃ slots', Refines
      { p with
        entries := (pushMissing (packetNumber - p.firstPacket - p.entries.len).toNat
          p.entries).pushBack ⟨true, entry⟩
        numberOfPresentEntries := p.numberOfPresentEntries + 1 }
      slots' ⟨m.entries ++ [(packetNumber, entry)], packetNumber⟩ := by
  have hlast := h.last hslots
  obtain ⟨gap, hgap⟩ := Int.eq_ofNat_of_zero_le
    (show 0 ≤ packetNumber - p.firstPacket - slots.length by omega)
  rw [h.holds.represents.len_eq, hgap, Int.toNat_natCast]
  have hpresent : present p.firstPacket (slots ++ List.replicate gap default ++ [⟨true, entry⟩]) =
      m.entries ++ [(packetNumber, entry)] := by
    have hnumber :
        p.firstPacket + ↑(slots ++ List.replicate gap default).length = packetNumber := by
      rw [length_append, length_replicate]
      omega
    rw [present_append, present_append, present_replicate, hnumber, h.entries, append_nil]
    rfl
  refine ⟨slots ++ List.replicate gap default ++ [⟨true, entry⟩], ⟨?_, ?_, ?_⟩, ?_, hpresent.symm,
    fun _ => ?_⟩
  · exact (represents_pushMissing h.holds.represents gap).pushBack _
  · rw [hpresent, h.holds.count, h.entries, length_append]
    rfl
  · exact fun _ => h.holds.first hslots
  · intro w hw
    rw [append_assoc, head?_append_of_ne_nil slots hslots] at hw
    exact h.front w hw
  · show packetNumber + 1 = p.firstPacket + _
    rw [length_append, length_append, length_replicate, length_singleton]
    omega

theorem emplace (h : p.Refines slots m) (hnumber : -1 ≤ packetNumber) (entry : Option T) :
    (p.emplace packetNumber entry).1 = (m.emplace packetNumber entry).1 ∧
      ∃ slots',
        (p.emplace packetNumber entry).2.Refines slots' (m.emplace packetNumber entry).2 := by
  unfold PacketQueue.emplace PacketMap.emplace
  cases entry with
  | none => exact ⟨rfl, slots, h⟩
  | some entry =>
    dsimp only
    by_cases hvalid : packetNumber = invalidPacketNumber
    · rw [if_pos hvalid, if_neg fun hcond => hcond.1 hvalid]
      exact ⟨rfl, slots, h⟩
    · have hpos : 0 ≤ packetNumber := by
        unfold invalidPacketNumber at hvalid
        omega
      rw [if_neg hvalid]
      by_cases hempty : p.isEmpty = true
      · obtain rfl := (h.holds.isEmpty_iff h.front).mp hempty
        rw [if_pos hempty, if_pos ⟨hvalid, .inl (h.isEmpty_iff.mp hempty)⟩]
        exact ⟨rfl, _, h.first hpos entry⟩
      · have hslots : slots ≠ [] := fun hnil =>
          hempty ((h.holds.isEmpty_iff h.front).mpr hnil)
        have hmap : ¬m.entries.isEmpty = true := fun h' => hempty (h.isEmpty_iff.mpr h')
        rw [if_neg hempty, h.lastPacket_eq hslots]
        by_cases hle : packetNumber ≤ m.last
        · rw [if_pos hle, if_neg (by simp [hmap, hle])]
          exact ⟨rfl, slots, h⟩
        · rw [if_neg hle, if_pos ⟨hvalid, .inr (not_le.mp hle)⟩]
          exact ⟨rfl, h.append hslots (not_le.mp hle) entry⟩

omit [Inhabited T] in
/-- The queue with a slot marked, before its front is cleared. -/
theorem holds_mark (h : p.Refines slots m) {i : ℕ} (hi : slots[i]? = some w)
    (hw : w.present = true) :
    Holds
      { p with
        entries := p.entries.setOffset i { w with present := false }
        numberOfPresentEntries := p.numberOfPresentEntries - 1 }
      (slots.set i { w with present := false }) := by
  obtain ⟨hlen, -⟩ := List.getElem?_eq_some_iff.mp hi
  refine ⟨h.holds.represents.setOffset hlen _, ?_, fun _ => ?_⟩
  · have hcount : (present p.firstPacket slots).length =
        (present p.firstPacket (slots.set i { w with present := false })).length + 1 :=
      length_present_set hi hw rfl
    show p.numberOfPresentEntries - 1 = (present p.firstPacket _).length
    rw [h.holds.count, hcount]
    omega
  · exact h.holds.first (ne_nil_of_length_pos (Nat.zero_lt_of_lt hlen))

theorem remove (h : p.Refines slots m) (packetNumber : ℤ) :
    ∃ q slots', p.remove packetNumber = some (m.entries.lookup packetNumber, q) ∧
      q.Refines slots' { m with entries := m.entries.filter (·.1 ≠ packetNumber) } := by
  unfold PacketQueue.remove
  rcases getEntryWraper_spec h.holds h.front packetNumber with
    ⟨i, w, rfl, hi, hw, hget⟩ | ⟨hnone, hget⟩
  · have hlookup : m.entries.lookup (p.firstPacket + i) = some w.entry := by
      rw [h.entries, lookup_present, hi]
      simp [hw]
    obtain ⟨hlen, -⟩ := List.getElem?_eq_some_iff.mp hi
    have hpresent : present p.firstPacket (slots.set i { w with present := false }) =
        m.entries.filter (·.1 ≠ p.firstPacket + i) := by
      rw [present_set _ _ _ rfl, h.entries]
    have hholds := h.holds_mark hi hw
    have hlast := h.last (ne_nil_of_length_pos (Nat.zero_lt_of_lt hlen))
    rw [hget, bind_some, hlookup]
    dsimp only
    split_ifs with hfirst
    · obtain ⟨q, slots', hq, hholds', hfront, hpresent', hlast'⟩ := clearup_spec hholds
      refine ⟨q, slots', by rw [hq]; rfl, hholds', hfront, ?_, fun hne => ?_⟩
      · rw [hpresent', ← hpresent]
      · rw [hlast' hne, length_set]
        exact hlast
    · refine ⟨_, _, rfl, hholds, ?_, hpresent.symm, fun _ => ?_⟩
      · -- the slot is not the front one
        cases i with
        | zero => exact absurd (by simp) hfirst
        | succ i =>
          intro v hv
          cases slots with
          | nil => cases hv
          | cons u slots => exact h.front v hv
      · rw [length_set]
        exact hlast
  · rw [hget, h.entries, hnone]
    refine ⟨p, slots, rfl, h.holds, h.front, ?_, h.last⟩
    rw [filter_eq_self]
    intro e he
    have := lookup_eq_none_iff.mp hnone e he
    rw [bne_iff_ne] at this
    exact decide_eq_true fun heq => this heq.symm

theorem removeUpTo (h : p.Refines slots m) (packetNumber : ℤ) :
    ∃ q slots', p.removeUpTo packetNumber = some q ∧
      q.Refines slots' { m with entries := m.entries.filter (packetNumber ≤ ·.1) } := by
  obtain ⟨p', slots', hp', hholds', hpresent', hlast'⟩ :=
    dropUpTo_spec h.holds packetNumber p.entries.len h.holds.represents.len_eq.ge
  obtain ⟨q, slots'', hq, hholds, hfront, hpresent, hlast⟩ := clearup_spec hholds'
  refine ⟨q, slots'', ?_, hholds, hfront, ?_, fun hne => ?_⟩
  · unfold PacketQueue.removeUpTo
    rw [hp', bind_some, hq]
  · rw [hpresent, hpresent', h.entries]
  · have hslots : slots ≠ [] := by
      rintro rfl
      have hnil : present q.firstPacket slots'' = [] := by rw [hpresent, hpresent']; rfl
      exact hne ((hfront.present_eq_nil_iff _).mp hnil)
    rw [hlast hne, hlast']
    exact h.last hslots

/-- One operation. -/
theorem step (h : p.Refines slots m) (op : QueueOp T) (hop : -1 ≤ op.packetNumber) :
    ∃ q slots', p.step op = some ((m.step op).1, q) ∧ q.Refines slots' (m.step op).2 := by
  cases op with
  | emplace packetNumber entry =>
    obtain ⟨hok, slots', hrefines⟩ := h.emplace (show -1 ≤ packetNumber from hop) entry
    exact ⟨_, slots', by rw [PacketQueue.step, hok]; rfl, hrefines⟩
  | remove packetNumber =>
    obtain ⟨q, slots', hq, hrefines⟩ := h.remove packetNumber
    exact ⟨q, slots', by rw [PacketQueue.step, hq]; rfl, hrefines⟩
  | removeUpTo packetNumber =>
    obtain ⟨q, slots', hq, hrefines⟩ := h.removeUpTo packetNumber
    exact ⟨q, slots', by rw [PacketQueue.step, hq]; rfl, hrefines⟩
  | getEntry packetNumber =>
    exact ⟨p, slots, by rw [PacketQueue.step, h.lookup]; rfl, h⟩

/-- A sequence of operations. -/
theorem run (h : p.Refines slots m) (ops : List (QueueOp T))
    (hops : ∀ op ∈ ops, -1 ≤ op.packetNumber) :
    ∃ q slots', p.run ops = some ((m.run ops).1, q) ∧ q.Refines slots' (m.run ops).2 := by
  induction ops generalizing p slots m with
  | nil => exact ⟨p, slots, rfl, h⟩
  | cons op ops ih =>
    obtain ⟨p', slots', hp', hrefines⟩ := h.step op (hops op mem_cons_self)
    obtain ⟨q, slots'', hq, hrefines'⟩ :=
      ih hrefines fun op hop => hops op (mem_cons_of_mem _ hop)
    refine ⟨q, slots'', ?_, hrefines'⟩
    rw [PacketQueue.run, hp', bind_some, hq]
    rfl

theorem refines_new (size : ℕ) : (PacketQueue.new size : PacketQueue T).Refines [] .empty where
  holds := ⟨RingBuffer.represents_init size, rfl, nofun⟩
  front := nofun
  entries := rfl
  last := nofun

end Refines

end PacketQueue

/-! ## The queue and the map -/

/-- What can be seen of a queue is the map, whose entries have increasing numbers. -/
structure Agrees (p : PacketQueue T) (m : PacketMap T) : Prop where
  getEntry : ∀ packetNumber, p.getEntry packetNumber = some (m.entries.lookup packetNumber)
  count : p.numberOfPresentEntries = m.entries.length
  front : p.entries.empty = false → ∃ w, p.entries.front = some w ∧ w.present = true
  empty : p.entries.empty = true ↔ m.entries = []
  increasing : m.entries.Pairwise (·.1 < ·.1)

theorem PacketQueue.Refines.agrees {p : PacketQueue T} {slots : List (EntryWrapper T)}
    {m : PacketMap T} (h : p.Refines slots m) : Agrees p m where
  getEntry := h.lookup
  count := by rw [h.holds.count, h.entries]
  front hne := by
    cases slots with
    | nil =>
      rw [h.holds.represents.empty_iff.mpr rfl] at hne
      cases hne
    | cons w slots => exact ⟨w, h.holds.represents.front_eq, h.front w rfl⟩
  empty := by rw [h.holds.represents.empty_iff, h.entries, h.front.present_eq_nil_iff]
  increasing := h.entries ▸ pairwise_present _ _

/-- Three packets with a gap between them; the first is removed, and one is refused. -/
def gapOps : List (QueueOp ℕ) :=
  [.emplace 3 (some 30), .emplace 6 (some 60), .remove 3, .emplace 5 (some 50), .getEntry 6]

end BBR

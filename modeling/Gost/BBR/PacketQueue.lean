import Gost.BBR.AckHeight
import Gost.BBR.RingBuffer

/-!
# The packet number indexed queue

`packetNumberIndexedQueue` of `x/internal/util/congestion/bbr/packet_number_indexed_queue.go`: a
ring buffer of slots for consecutive packet numbers, each with a flag that says whether its entry is
present. Numbers may be left out when an entry is added, and entries are removed in any order; slots
at the front that are not present are dropped.

`PacketMap` says what the queue is for, a finite map to which entries are added in increasing order.
-/

namespace BBR

open RingBuffer (Represents)

/-- `entryWrapper`. -/
structure EntryWrapper (T : Type*) where
  present : Bool
  entry : T
deriving DecidableEq, Repr, Inhabited

/-- `packetNumberIndexedQueue`. -/
structure PacketQueue (T : Type*) where
  entries : RingBuffer (EntryWrapper T)
  numberOfPresentEntries : ℤ
  firstPacket : ℤ
deriving DecidableEq, Repr

variable {T : Type*}

namespace PacketQueue

/-- `newPacketNumberIndexedQueue`. -/
def new [Inhabited T] (size : ℕ) : PacketQueue T := ⟨.init size, 0, invalidPacketNumber⟩

/-- `IsEmpty`. -/
def isEmpty (p : PacketQueue T) : Bool := p.numberOfPresentEntries == 0

/-- `LastPacket`. -/
def lastPacket (p : PacketQueue T) : ℤ :=
  if p.isEmpty then invalidPacketNumber else p.firstPacket + (p.entries.len - 1)

/-- The missing elements before a new one. -/
def pushMissing [Inhabited T] :
    ℕ → RingBuffer (EntryWrapper T) → RingBuffer (EntryWrapper T)
  | 0, entries => entries
  | gap + 1, entries => pushMissing gap (entries.pushBack default)

/-- `Emplace`; the entry is a pointer that may be nil. -/
def emplace [Inhabited T] (p : PacketQueue T) (packetNumber : ℤ) (entry : Option T) :
    Bool × PacketQueue T :=
  match entry with
  | none => (false, p)
  | some entry =>
    if packetNumber = invalidPacketNumber then (false, p)
    else if p.isEmpty then (true, ⟨p.entries.pushBack ⟨true, entry⟩, 1, packetNumber⟩)
    else if packetNumber ≤ p.lastPacket then (false, p)
    else
      let gap := packetNumber - p.firstPacket - p.entries.len
      (true, { p with
        entries := (pushMissing gap.toNat p.entries).pushBack ⟨true, entry⟩
        numberOfPresentEntries := p.numberOfPresentEntries + 1 })

/-- `getEntryWraper`: the slot and its index. -/
def getEntryWraper (p : PacketQueue T) (packetNumber : ℤ) : Option (Option (ℕ × EntryWrapper T)) :=
  if packetNumber = invalidPacketNumber ∨ p.isEmpty ∨ packetNumber < p.firstPacket then some none
  else
    let offset := (packetNumber - p.firstPacket).toNat
    if offset ≥ p.entries.len then some none
    else (p.entries.offset offset).map fun ew => if ew.present then some (offset, ew) else none

/-- `GetEntry`. -/
def getEntry (p : PacketQueue T) (packetNumber : ℤ) : Option (Option T) :=
  (p.getEntryWraper packetNumber).map fun found => found.map fun slot => slot.2.entry

/-- The loop of `clearup`. -/
def clearFront [Inhabited T] : ℕ → PacketQueue T → Option (PacketQueue T)
  | 0, p => some p
  | fuel + 1, p =>
    if p.entries.empty then some p
    else
      p.entries.front.bind fun front =>
        if front.present then some p
        else
          p.entries.popFront.bind fun popped =>
            clearFront fuel { p with entries := popped.2, firstPacket := p.firstPacket + 1 }

/-- `clearup`. -/
def clearup [Inhabited T] (p : PacketQueue T) : Option (PacketQueue T) :=
  (clearFront p.entries.len p).map fun p =>
    if p.entries.empty then { p with firstPacket := invalidPacketNumber } else p

/-- `Remove`, with the entry that is passed to `f`. -/
def remove [Inhabited T] (p : PacketQueue T) (packetNumber : ℤ) :
    Option (Option T × PacketQueue T) :=
  (p.getEntryWraper packetNumber).bind fun
    | none => some (none, p)
    | some (offset, ew) =>
      let p := { p with
        entries := p.entries.setOffset offset { ew with present := false }
        numberOfPresentEntries := p.numberOfPresentEntries - 1 }
      (if packetNumber = p.firstPacket then p.clearup else some p).map fun p => (some ew.entry, p)

/-- The loop of `RemoveUpTo`. -/
def dropUpTo [Inhabited T] (packetNumber : ℤ) : ℕ → PacketQueue T → Option (PacketQueue T)
  | 0, p => some p
  | fuel + 1, p =>
    if p.entries.empty = false ∧ p.firstPacket ≠ invalidPacketNumber ∧
        p.firstPacket < packetNumber then
      p.entries.front.bind fun front =>
        p.entries.popFront.bind fun popped =>
          dropUpTo packetNumber fuel
            { entries := popped.2
              numberOfPresentEntries :=
                if front.present then p.numberOfPresentEntries - 1 else p.numberOfPresentEntries
              firstPacket := p.firstPacket + 1 }
    else some p

/-- `RemoveUpTo`. -/
def removeUpTo [Inhabited T] (p : PacketQueue T) (packetNumber : ℤ) : Option (PacketQueue T) :=
  (dropUpTo packetNumber p.entries.len p).bind clearup

end PacketQueue

/-! ## Operations -/

/-- The operations of the queue. -/
inductive QueueOp (T : Type*)
  | emplace (packetNumber : ℤ) (entry : Option T)
  | remove (packetNumber : ℤ)
  | removeUpTo (packetNumber : ℤ)
  | getEntry (packetNumber : ℤ)
deriving DecidableEq, Repr

/-- The packet number of an operation. -/
def QueueOp.packetNumber : QueueOp T → ℤ
  | .emplace packetNumber _ | .remove packetNumber | .removeUpTo packetNumber
  | .getEntry packetNumber => packetNumber

/-- What an operation returns. -/
inductive QueueResult (T : Type*)
  | emplaced (ok : Bool)
  -- the entry that was removed, which is also passed to the callback
  | removed (entry : Option T)
  | removedUpTo
  | entry (entry : Option T)
deriving DecidableEq, Repr

/-- One operation; `none` if it panics. -/
def PacketQueue.step [Inhabited T] (p : PacketQueue T) :
    QueueOp T → Option (QueueResult T × PacketQueue T)
  | .emplace packetNumber entry =>
    some (.emplaced (p.emplace packetNumber entry).1, (p.emplace packetNumber entry).2)
  | .remove packetNumber => (p.remove packetNumber).map fun r => (.removed r.1, r.2)
  | .removeUpTo packetNumber => (p.removeUpTo packetNumber).map fun p => (.removedUpTo, p)
  | .getEntry packetNumber => (p.getEntry packetNumber).map fun e => (.entry e, p)

/-- A sequence of operations, with what they return. -/
def PacketQueue.run [Inhabited T] (p : PacketQueue T) :
    List (QueueOp T) → Option (List (QueueResult T) × PacketQueue T)
  | [] => some ([], p)
  | op :: ops =>
    (p.step op).bind fun r => (r.2.run ops).map fun rest => (r.1 :: rest.1, rest.2)

/-- The entries that are present, in increasing order of their numbers, and the last number that was
inserted. -/
structure PacketMap (T : Type*) where
  entries : List (ℤ × T)
  last : ℤ
deriving DecidableEq, Repr

namespace PacketMap

/-- No entries. -/
def empty : PacketMap T := ⟨[], invalidPacketNumber⟩

/-- An entry is inserted if its number is valid and greater than the last one, or if there are no
entries. -/
def emplace (m : PacketMap T) (packetNumber : ℤ) (entry : Option T) : Bool × PacketMap T :=
  match entry with
  | none => (false, m)
  | some entry =>
    if packetNumber ≠ invalidPacketNumber ∧ (m.entries.isEmpty ∨ m.last < packetNumber) then
      (true, ⟨m.entries ++ [(packetNumber, entry)], packetNumber⟩)
    else (false, m)

/-- One operation on the map. -/
def step (m : PacketMap T) : QueueOp T → QueueResult T × PacketMap T
  | .emplace packetNumber entry =>
    (.emplaced (m.emplace packetNumber entry).1, (m.emplace packetNumber entry).2)
  | .remove packetNumber =>
    (.removed (m.entries.lookup packetNumber),
      { m with entries := m.entries.filter (·.1 ≠ packetNumber) })
  | .removeUpTo packetNumber =>
    (.removedUpTo, { m with entries := m.entries.filter (packetNumber ≤ ·.1) })
  | .getEntry packetNumber => (.entry (m.entries.lookup packetNumber), m)

def run (m : PacketMap T) : List (QueueOp T) → List (QueueResult T) × PacketMap T
  | [] => ([], m)
  | op :: ops => ((m.step op).1 :: ((m.step op).2.run ops).1, ((m.step op).2.run ops).2)

end PacketMap

end BBR

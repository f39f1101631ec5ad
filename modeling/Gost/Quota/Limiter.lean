import Mathlib.Algebra.Order.Ring.Int
import Gost.Lib.TransitionSystem

/-!
# The quota limiter

`Limiter` of `x/limiter/quota/limiter.go`. Calls of `AddIn`, `AddOut`, `Update` and `Close` and the
goroutine `run` work on the same atomic variables without a lock. Each is a thread here, and each
atomic load or store is a step; a reading of the clock belongs to the load that follows it. The
threads take their steps in any order.

The store is there and may fail to save. `notify` only wakes up waiters and is left out, as are the
log messages. `run` knows from the start whether the window is active, and may see further ticks
after `Close`.
-/

namespace Quota

inductive Direction
  | total
  | dirIn
  | dirOut
deriving DecidableEq, Repr

/-- `Record`. Times are in nanoseconds, 0 if they are not set. -/
structure Record where
  used : ℕ
  limit : ℕ
  startsAt : ℤ
  expiresAt : ℤ
  updatedAt : ℤ
deriving DecidableEq, Repr

/-- The variables of a limiter, with the clock and the store. -/
structure Limiter where
  direction : Direction
  used : ℕ
  limit : ℕ
  startsAt : ℤ
  expiresAt : ℤ
  blocked : Bool
  dirty : Bool := false
  closed : Bool := false
  -- local to `run`
  wasActive : Bool
  -- `time.Now()`
  now : ℤ
  -- `used` as it was restored
  restored : ℕ
  -- the last record that was saved
  saved : Option Record := none
deriving DecidableEq, Repr

/-- `Update`; a nil field is left unchanged. -/
structure Update where
  used : Option ℕ := none
  limit : Option ℕ := none
  startsAt : Option ℤ := none
  expiresAt : Option ℤ := none
deriving DecidableEq, Repr

/-- The time lies in the window. -/
def inWindow (startsAt expiresAt now : ℤ) : Bool :=
  ¬(startsAt ≠ 0 ∧ now < startsAt) ∧ ¬(expiresAt ≠ 0 ∧ expiresAt ≤ now)

namespace Limiter

/-- `active`, if nothing changes meanwhile. -/
def active (l : Limiter) : Bool := inWindow l.startsAt l.expiresAt l.now

/-- `enforcing`, if nothing changes meanwhile. -/
def enforcing (l : Limiter) : Bool := 0 < l.limit && l.active

/-- `Blocked`. -/
def isBlocked (l : Limiter) : Bool :=
  if l.closed || !l.blocked then false else l.enforcing

/-- The counter in the last record that was saved. As long as there is none, a restart finds what
this limiter was started with. -/
def savedUsed (l : Limiter) : ℕ := (l.saved.map (·.used)).getD l.restored

end Limiter

/-- `NewLimiter`, with the record found in the store. -/
def newLimiter (direction : Direction) (limit : ℕ) (startsAt expiresAt : ℤ) (rec : Option Record)
    (now : ℤ) : Limiter :=
  let used :=
    match rec with
    | some rec => if rec.startsAt = startsAt ∧ rec.expiresAt = expiresAt then rec.used else 0
    | none => 0
  let active := inWindow startsAt expiresAt now
  { direction, used, limit, startsAt, expiresAt, now
    blocked := 0 < limit && active && limit ≤ used
    wasActive := active
    restored := used }

/-- Where a thread is: at the load or store that the name says. -/
inductive Pc
  | done
  -- `add`
  | addClosed (n : ℕ)
  | addStartsAt (n : ℕ)
  | addExpiresAt (n : ℕ) (startsAt now : ℤ)
  | addUsed (n : ℕ)
  | addDirty (used : ℕ)
  | addLimit (used : ℕ)
  | addBlocked
  -- `Update`
  | updUsed (u : Update)
  | updLimit (u : Update)
  | updStartsAt (u : Update)
  | updExpiresAt (u : Update)
  -- `reevaluate`
  | evalEnforced
  | evalStartsAt (now : ℤ)
  | evalExpiresAt (startsAt now : ℤ)
  | evalUsed
  | evalLimit (used : ℕ)
  | evalBlocked (shouldBlock : Bool)
  -- `flushNow`
  | flushDirty
  -- `persist`
  | saveUsed
  | saveLimit (used : ℕ)
  | saveStartsAt (used limit : ℕ)
  | saveExpiresAt (used limit : ℕ) (startsAt : ℤ)
  | save (rec : Record)
  -- `Close`
  | closeClosed
  -- `run`, the flush ticker
  | tickDirty
  -- `run`, the ticker for the bounds of the window
  | boundStartsAt
  | boundExpiresAt (startsAt now : ℤ)
  | boundEnforced
  | boundUsed
  | boundLimit (used : ℕ)
  | boundBlocked (block : Bool)
deriving DecidableEq, Repr

/-- The next step of a thread; `ok` if it is a `Save` that succeeds. -/
def Pc.next (l : Limiter) (ok : Bool) : Pc → Option (Limiter × Pc)
  | .done => none
  | .addClosed n => some (l, if l.closed then .done else .addStartsAt n)
  | .addStartsAt n => some (l, .addExpiresAt n l.startsAt l.now)
  | .addExpiresAt n startsAt now =>
    some (l, if inWindow startsAt l.expiresAt now then .addUsed n else .done)
  | .addUsed n =>
    let used := (l.used + n) % 2 ^ 64
    some ({ l with used }, .addDirty used)
  | .addDirty used => some ({ l with dirty := true }, .addLimit used)
  | .addLimit used => some (l, if 0 < l.limit ∧ l.limit ≤ used then .addBlocked else .done)
  | .addBlocked => some ({ l with blocked := true }, .done)
  | .updUsed u => some ({ l with used := u.used.getD l.used }, .updLimit u)
  | .updLimit u => some ({ l with limit := u.limit.getD l.limit }, .updStartsAt u)
  | .updStartsAt u => some ({ l with startsAt := u.startsAt.getD l.startsAt }, .updExpiresAt u)
  | .updExpiresAt u => some ({ l with expiresAt := u.expiresAt.getD l.expiresAt }, .evalEnforced)
  | .evalEnforced => some (l, if 0 < l.limit then .evalStartsAt l.now else .evalBlocked false)
  | .evalStartsAt now => some (l, .evalExpiresAt l.startsAt now)
  | .evalExpiresAt startsAt now =>
    some (l, if inWindow startsAt l.expiresAt now then .evalUsed else .evalBlocked false)
  | .evalUsed => some (l, .evalLimit l.used)
  | .evalLimit used => some (l, .evalBlocked (l.limit ≤ used))
  | .evalBlocked shouldBlock => some ({ l with blocked := shouldBlock }, .flushDirty)
  | .flushDirty => some ({ l with dirty := false }, .saveUsed)
  | .saveUsed => some (l, .saveLimit l.used)
  | .saveLimit used => some (l, .saveStartsAt used l.limit)
  | .saveStartsAt used limit => some (l, .saveExpiresAt used limit l.startsAt)
  | .saveExpiresAt used limit startsAt =>
    some (l, .save ⟨used, limit, startsAt, l.expiresAt, l.now⟩)
  | .save rec => some (if ok then { l with saved := some rec } else l, .done)
  | .closeClosed => some ({ l with closed := true }, .flushDirty)
  | .tickDirty => some ({ l with dirty := false }, if l.dirty then .saveUsed else .done)
  | .boundStartsAt => some (l, .boundExpiresAt l.startsAt l.now)
  | .boundExpiresAt startsAt now =>
    let act := inWindow startsAt l.expiresAt now
    some ({ l with wasActive := act },
      if act = l.wasActive then .done else if act then .boundEnforced else .boundBlocked false)
  | .boundEnforced => some (l, if 0 < l.limit then .boundUsed else .boundBlocked false)
  | .boundUsed => some (l, .boundLimit l.used)
  | .boundLimit used => some (l, .boundBlocked (l.limit ≤ used))
  | .boundBlocked block => some ({ l with blocked := block }, .saveUsed)

/-- A limiter and its threads. The first one is `run`, the others are calls. -/
structure State where
  limiter : Limiter
  threads : List Pc := [.done]
  -- `closeOnce`
  closing : Bool := false
deriving DecidableEq, Repr

inductive Op
  -- time passes
  | tick (ns : ℕ)
  -- `AddIn` and `AddOut`
  | add (n : ℤ) (dir : Direction)
  | update (u : Update)
  | close
  -- the tickers of `run`
  | flushTick
  | boundTick
  -- a thread takes its next step
  | next (i : ℕ) (ok : Bool)
deriving DecidableEq, Repr

namespace State

def spawn (s : State) (pc : Pc) : State := { s with threads := s.threads ++ [pc] }

/-- `add`, up to its first load: the checks of the arguments. -/
def add (s : State) (n : ℤ) (dir : Direction) : State :=
  if n ≤ 0 then s.spawn .done
  else if s.limiter.direction ≠ .total ∧ dir ≠ s.limiter.direction then s.spawn .done
  else s.spawn (.addClosed n.toNat)

/-- A ticker fires. `run` notices when it is back in its loop. -/
def fire (s : State) (pc : Pc) : Option State :=
  if s.threads[0]? = some .done then some { s with threads := s.threads.set 0 pc } else none

def next (s : State) (i : ℕ) (ok : Bool) : Option State :=
  s.threads[i]?.bind fun pc => (pc.next s.limiter ok).map fun (limiter, pc) =>
    { s with limiter, threads := s.threads.set i pc }

def step (s : State) : Op → Option State
  | .tick ns => some { s with limiter := { s.limiter with now := s.limiter.now + ns } }
  | .add n dir => some (s.add n dir)
  | .update u => some (s.spawn (.updUsed u))
  | .close =>
    if s.closing then some (s.spawn .done)
    else some { s.spawn .closeClosed with closing := true }
  | .flushTick => s.fire .tickDirty
  | .boundTick => s.fire .boundStartsAt
  | .next i ok => s.next i ok

/-- No call of the limiter is in progress. -/
def NoCalls (s : State) : Prop := ∀ pc ∈ s.threads.tail, pc = .done

instance : DecidablePred NoCalls := fun s =>
  inferInstanceAs (Decidable (∀ pc ∈ s.threads.tail, pc = .done))

/-- No call is in progress, and `run` is between two rounds of its loop. -/
def Idle (s : State) : Prop := ∀ pc ∈ s.threads, pc = .done

instance : DecidablePred Idle := fun s =>
  inferInstanceAs (Decidable (∀ pc ∈ s.threads, pc = .done))

end State

/-- A limiter after `NewLimiter`. -/
def start (direction : Direction) (limit : ℕ) (startsAt expiresAt : ℤ) (rec : Option Record)
    (now : ℤ) : State :=
  { limiter := newLimiter direction limit startsAt expiresAt rec now }

end Quota

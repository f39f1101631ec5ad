import Mathlib.Data.List.Sort
import Gost.Lib.Bytes
import Gost.Lib.TransitionSystem

/-!
# The connection limiter

`x/limiter/conn` with its wrappers. A limiter counts the connections it has admitted. The limiters
of a client are found by its IP (its own rule, the first network that contains it, or the default
for all IPs, and the global rule) and combined into a group, which is cached until the next reload.
A reload builds all generators anew, and with them the limiters of the global and the single-IP
rules.

Any number of `Accept` and `Close` calls run concurrently. The lookup of the limiters and the end of
a reload are critical sections of `mu`. `Allow` works on the counters one atomic addition at a time;
each addition is a step here. A rule is a line after `parseLimit`. The `net` package and the
`cidranger` trie are parameters.
-/

namespace ConnLimit

variable {ι ν : Type}

/-- `llimiter`. -/
structure LLimiter where
  limit : ℤ
  current : ℤ := 0
deriving DecidableEq, Repr

/-- `ConnLimitGenerator`. -/
inductive Generator
  -- `connLimitSingleGenerator` with its limiter
  | single (limiter : Option ℕ)
  -- `connLimitGenerator`
  | each (n : ℤ)
deriving DecidableEq, Repr

/-- The functions of other packages. -/
structure Net (ι ν : Type) where
  parseIP : Bytes → Option ι
  parseCIDR : Bytes → Option ν
  -- `ContainingNetworks` of the networks inserted: which of them comes first
  containingNetworks : List ν → ι → Option ℕ

/-- `GlobalLimitKey`, `$`. -/
def globalLimitKey : Bytes := [0x24]

/-- `IPLimitKey`, `$$`. -/
def ipLimitKey : Bytes := [0x24, 0x24]

structure Rule where
  key : Bytes
  limit : ℤ
deriving DecidableEq, Repr

/-- `connLimiter`, and all limiters ever made; a limiter is named by its index. -/
structure ConnLimiter (ν : Type) where
  limiters : List LLimiter := []
  ipLimits : Bytes → Option Generator := fun _ => none
  cidrLimits : List (ν × Generator) := []
  limits : Bytes → Option (List ℕ) := fun _ => none

namespace ConnLimiter

variable (l : ConnLimiter ν)

/-- `Limit` of a limiter. -/
def limit (o : ℕ) : ℤ := (l.limiters[o]?.map (·.limit)).getD 0

/-- The counter of a limiter. -/
def current (o : ℕ) : ℤ := (l.limiters[o]?.map (·.current)).getD 0

/-- `atomic.AddInt64` on the counter of a limiter. -/
def add (o : ℕ) (n : ℤ) : ConnLimiter ν :=
  { l with limiters := l.limiters.modify o fun x => { x with current := x.current + n } }

/-- `NewLimiter`. -/
def newLimiter (n : ℤ) : ConnLimiter ν × ℕ :=
  ({ l with limiters := l.limiters ++ [{ limit := n }] }, l.limiters.length)

def setIPLimit (key : Bytes) (g : Generator) : ConnLimiter ν :=
  { l with ipLimits := fun k => if k = key then some g else l.ipLimits k }

/-- Files a `NewConnLimitSingleGenerator(n)` under a key. -/
def setSingle (key : Bytes) (n : ℤ) : ConnLimiter ν :=
  if 0 < n then (l.newLimiter n).1.setIPLimit key (.single (some (l.newLimiter n).2))
  else l.setIPLimit key (.single none)

/-- `Limiter` of a generator, if there is one. -/
def generate : Option Generator → ConnLimiter ν × Option ℕ
  | none => (l, none)
  | some (.single limiter) => (l, limiter)
  | some (.each n) => if n ≤ 0 then (l, none) else ((l.newLimiter n).1, some (l.newLimiter n).2)

/-- The next source of a limiter, if the one before has none. -/
def orElse : ConnLimiter ν × Option ℕ → (ConnLimiter ν → ConnLimiter ν × Option ℕ) →
    ConnLimiter ν × Option ℕ
  | (l, some o), _ => (l, some o)
  | (l, none), other => other l

/-- The generator of the first network that contains the IP. -/
def cidrLimit (net : Net ι ν) (ip : ι) : Option Generator :=
  ((net.containingNetworks (l.cidrLimits.map (·.1)) ip).bind (l.cidrLimits[·]?)).map (·.2)

/-- The limiter for the IP alone: of its own rule, or of a network. -/
def ownLimiter (net : Net ι ν) (key : Bytes) : ConnLimiter ν × Option ℕ :=
  match net.parseIP key with
  | none => (l, none)
  | some ip => orElse (l.generate (l.ipLimits key)) fun l => l.generate (l.cidrLimit net ip)

/-- The limiter for the IP, with the default for all IPs. -/
def clientLimiter (net : Net ι ν) (key : Bytes) : ConnLimiter ν × Option ℕ :=
  orElse (l.ownLimiter net key) fun l => l.generate (l.ipLimits ipLimitKey)

/-- The limiters for a client, `lims` of the source. -/
def collect (net : Net ι ν) (key : Bytes) : ConnLimiter ν × List ℕ :=
  let (l, own) := l.clientLimiter net key
  let (l, global) := l.generate (l.ipLimits globalLimitKey)
  (l, own.toList ++ global.toList)

/-- `newLimiterGroup`: the smallest limit first. -/
def newLimiterGroup (limiters : List ℕ) : List ℕ :=
  limiters.insertionSort fun o o' => l.limit o ≤ l.limit o'

/-- `Limiter`, `none` for nil. -/
def limiter (net : Net ι ν) (key : Bytes) : ConnLimiter ν × Option (List ℕ) :=
  match l.limits key with
  | some group => (l, some group)
  | none =>
    let (l, lims) := l.collect net key
    if lims = [] then (l, none)
    else
      let group := l.newLimiterGroup lims
      ({ l with limits := fun k => if k = key then some group else l.limits k }, some group)

/-- One pass of the loop of `reload`. -/
def addRule (net : Net ι ν) (r : Rule) : ConnLimiter ν :=
  if r.key = [] ∨ r.limit ≤ 0 then l
  else if r.key = globalLimitKey then l.setSingle r.key r.limit
  else if r.key = ipLimitKey then l.setIPLimit r.key (.each r.limit)
  else if (net.parseIP r.key).isSome then l.setSingle r.key r.limit
  else
    match net.parseCIDR r.key with
    | some ipNet => { l with cidrLimits := l.cidrLimits ++ [(ipNet, .each r.limit)] }
    | none => l

/-- `reload`: new maps, and an empty cache. -/
def reload (net : Net ι ν) (rules : List Rule) : ConnLimiter ν :=
  rules.foldl (fun l r => l.addRule net r) { limiters := l.limiters }

end ConnLimiter

/-- Where the `Accept` call of a connection is, or the connection it returned. -/
inductive Pc
  -- `Listener.Accept` has returned the connection
  | called
  -- in `Allow(1)`, at the addition for `o`; `held` have allowed the connection
  | adding (o : ℕ) (todo held : List ℕ)
  -- the addition for `o` went over the limit
  | undoing (o : ℕ) (held : List ℕ)
  -- giving back what the other limiters have allowed; the connection is refused
  | rollback (todo : List ℕ)
  -- returned by `Accept`
  | opened (held : List ℕ)
  -- returned by `Accept`, without any limiter
  | unlimited
  -- `Close` was called; the limiters that still count the connection
  | closing (todo : List ℕ)
deriving DecidableEq, Repr

namespace Pc

/-- `Allow(1)` begins. -/
def begin : Option (List ℕ) → Pc
  | none => .unlimited
  | some [] => .rollback []
  | some (o :: todo) => .adding o todo []

/-- The limiter has allowed the connection. -/
def allowed (o : ℕ) (held : List ℕ) : List ℕ → Pc
  | [] => .opened (held ++ [o])
  | o' :: todo => .adding o' todo (held ++ [o])

/-- The next addition to a counter, and where the call is afterwards. -/
def next (l : ConnLimiter ν) : Pc → Option (Pc × ℕ × ℤ)
  | .adding o todo held =>
    if l.current o + 1 > l.limit o then some (.undoing o held, o, 1)
    else some (allowed o held todo, o, 1)
  | .undoing o held => some (.rollback held, o, -1)
  | .rollback (o :: todo) => some (.rollback todo, o, -1)
  | .closing (o :: todo) => some (.closing todo, o, -1)
  | _ => none

/-- `Close`, up to its `CompareAndSwap`. -/
def close : Pc → Option Pc
  | .opened held => some (.closing held)
  | .unlimited => some (.closing [])
  | .closing todo => some (.closing todo)
  | _ => none

/-- `Accept` has returned the connection, and `Close` was not called. -/
def IsOpen : Pc → Prop
  | .opened _ | .unlimited => True
  | _ => False

/-- The connection is open, or in `Allow(1)` and not refused yet. -/
def Live : Pc → Prop
  | .adding _ _ _ | .opened _ | .unlimited => True
  | _ => False

instance : DecidablePred IsOpen := fun pc => by
  cases pc <;> unfold IsOpen <;> infer_instance

instance : DecidablePred Live := fun pc => by
  cases pc <;> unfold Live <;> infer_instance

end Pc

structure Conn where
  host : Bytes
  pc : Pc := .called
deriving DecidableEq, Repr

structure State (ν : Type) where
  limiter : ConnLimiter ν := {}
  conns : List Conn := []

inductive Op
  | reload
  -- a client connects
  | accept (host : Bytes)
  -- the next step of an `Accept` or `Close` call
  | next (i : ℕ)
  -- `Close` is called
  | close (i : ℕ)
deriving DecidableEq, Repr

namespace State

def setPc (s : State ν) (i : ℕ) (c : Conn) (pc : Pc) : State ν :=
  { s with conns := s.conns.set i { c with pc } }

/-- `Accept` looks up the limiters of the client. -/
def lookup (net : Net ι ν) (s : State ν) (i : ℕ) (c : Conn) : State ν :=
  let found := s.limiter.limiter net c.host
  { s with limiter := found.1 }.setPc i c (.begin found.2)

def next (net : Net ι ν) (s : State ν) (i : ℕ) (c : Conn) : Option (State ν) :=
  if c.pc = .called then some (s.lookup net i c)
  else
    (c.pc.next s.limiter).map fun (pc, o, n) =>
      { s with limiter := s.limiter.add o n }.setPc i c pc

def step (net : Net ι ν) (rules : List Rule) (s : State ν) : Op → Option (State ν)
  | .reload => some { s with limiter := s.limiter.reload net rules }
  | .accept host => some { s with conns := s.conns ++ [{ host }] }
  | .next i => s.conns[i]?.bind fun c => s.next net i c
  | .close i => s.conns[i]?.bind fun c => c.pc.close.map fun pc => s.setPc i c pc

end State

end ConnLimit

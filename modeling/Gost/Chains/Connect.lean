import Gost.Chains.Failover

/-!
# Setting up the connection of a chain

`chainRoute.connect` of `x/chain/route.go`: the connections that are obtained and closed on the way.
The markers are those of `connect`. The first node is dialed and every further one is connected to
through the node before it; each connection is a layer on the one before, and to close it closes the
layers below. A step that fails returns no connection.
-/

namespace Chains

open Function List

/-- How far it comes with a node. -/
inductive Outcome
  | resolveFails
  -- `Dial` of the first node, `Connect` of the node before
  | connectFails
  | handshakeFails
  | reached
deriving DecidableEq

/-- How many connections were obtained, and on which of them `Close` was called. -/
structure Conns where
  obtained : ℕ := 0
  closed : List ℕ := []
deriving DecidableEq

/-- What is obtained and closed at a node; `cn` is the connection to the node before. -/
def Outcome.next (c : Conns) (o : Outcome) : Conns :=
  let cn := if c.obtained = 0 then [] else [c.obtained - 1]
  match o with
  | .resolveFails => { c with closed := cn }
  | .connectFails => { c with closed := cn }
  | .handshakeFails => ⟨c.obtained + 1, c.obtained :: cn⟩
  | .reached => { c with obtained := c.obtained + 2 }

/-- The connections of `connect`. -/
def connectConns (c : Conns) : List Outcome → Conns
  | [] => c
  | o :: os => if o = .reached then connectConns (o.next c) os else o.next c

/-- A route as `connect` takes it. -/
def reaches (nodes : List (ℕ × Outcome)) : List (ℕ × Bool) :=
  nodes.map fun n => (n.1, n.2 = .reached)

/-- The connection is closed, or one of the layers on it. -/
def Conns.AllClosed (c : Conns) : Prop := ∀ i < c.obtained, ∃ j ∈ c.closed, i ≤ j

/-- The markers when the nodes `ids` have been reached. -/
def Marks.resets (w : Marks) (ids : List ℕ) : Marks :=
  { w with node := fun x => if x ∈ ids then (w.node x).reset else w.node x }

theorem connectNodes_append {before : List (ℕ × Outcome)} (h : ∀ n ∈ before, n.2 = .reached)
    (w : Marks) (nodes : List (ℕ × Bool)) :
    connectNodes w (reaches before ++ nodes) =
      connectNodes (w.resets (before.map Prod.fst)) nodes := by
  induction before generalizing w with
  | nil => simp [reaches, Marks.resets]
  | cons n before ih =>
    obtain ⟨hn, hbefore⟩ := forall_mem_cons.mp h
    have hresets : ({ w with node := update w.node n.1 (w.node n.1).reset } : Marks).resets
        (before.map Prod.fst) = w.resets ((n :: before).map Prod.fst) := by
      simp only [Marks.resets, map_cons, mem_cons, update_apply]
      congr 1
      funext x
      by_cases hx : x = n.1
      · simp [hx, Marker.reset]
      · simp only [hx, if_false, false_or]
    rw [reaches, map_cons, cons_append, hn, ← reaches, ← hresets, ← ih hbefore]
    rfl

theorem connectConns_append {before : List Outcome} (h : ∀ o ∈ before, o = .reached) (c : Conns)
    (os : List Outcome) : connectConns c (before ++ os) =
      connectConns { c with obtained := c.obtained + 2 * before.length } os := by
  induction before generalizing c with
  | nil => rfl
  | cons o before ih =>
    obtain ⟨rfl, hbefore⟩ := forall_mem_cons.mp h
    rw [cons_append, connectConns, if_pos rfl, ih hbefore, Outcome.next, length_cons, Nat.mul_add,
      Nat.add_assoc, Nat.add_comm 2]

theorem allClosed_next {o : Outcome} (ho : o ≠ .reached) {c : Conns} : (o.next c).AllClosed := by
  intro i hi
  cases o with
  | reached => exact absurd rfl ho
  | handshakeFails => exact ⟨_, mem_cons_self, Nat.le_of_lt_succ hi⟩
  | resolveFails | connectFails =>
    have hpos : c.obtained ≠ 0 := Nat.ne_zero_of_lt hi
    exact ⟨c.obtained - 1, by simp [Outcome.next, hpos], Nat.le_sub_one_of_lt hi⟩

end Chains

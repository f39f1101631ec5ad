import Gost.Lib.Bytes

/-!
# Rule trees and their compilation

`x/routing/rules/parser.go` turns a rule into a tree, and `addRule` of `x/routing/matcher.go` turns
the tree into a tree of matchers. A negation never stands in a tree: `notFunc` pushes it down to the
leaves. The matchers at the leaves are a parameter, as `matcherFuncs` is in the source.

A matcher that panics for a request has no value there, so the values are in `Option Bool`, and an
operator does not look at its right side if the left one decides.
-/

namespace Routing

open List

/-! ## Trees -/

inductive Operator
  | and
  | or
deriving DecidableEq, Repr

/-- The value that the left side decides with. -/
def Operator.absorbing : Operator → Bool
  | .and => false
  | .or => true

/-- `rules.Tree`: a leaf, or the matcher `and` or `or`. -/
inductive Tree (ν : Type*)
  | leaf (matcher : ν) (not : Bool) (value : List Bytes)
  | node (operator : Operator) (ruleLeft ruleRight : Tree ν)
deriving DecidableEq, Repr

variable {ν ε ρ : Type*}

/-- What the parser makes of the name of a matcher. -/
def matcherFunc (matcher : ν) (value : List Bytes) : Tree ν := .leaf matcher false value

/-- `andFunc`. A builder makes a new tree each time, so it is the tree. -/
def andFunc (left right : Tree ν) : Tree ν := .node .and left right

/-- `orFunc`. -/
def orFunc (left right : Tree ν) : Tree ν := .node .or left right

/-- `invert`. -/
def invert : Tree ν → Tree ν
  | .node .or left right => .node .and (invert left) (invert right)
  | .node .and left right => .node .or (invert left) (invert right)
  | .leaf matcher not value => .leaf matcher (!not) value

/-- `notFunc`. -/
def notFunc (elem : Tree ν) : Tree ν := invert elem

/-! ## Compilation -/

inductive RuleError (ν ε : Type*)
  | noArgs (matcher : ν)
  | emptyArgs (matcher : ν) (value : List Bytes)
  | matcher (e : ε)
  | checking (rule : ν) (e : RuleError ν ε)
  | adding (rule : ν ⊕ Operator) (e : RuleError ν ε)
deriving DecidableEq, Repr

/-- `CheckRule`. -/
def checkRule (matcher : ν) (value : List Bytes) : Except (RuleError ν ε) Unit :=
  if value = [] then .error (.noArgs matcher)
  else if value.any List.isEmpty then .error (.emptyArgs matcher value)
  else .ok ()

/-- A matcher as it is in the tree, `none` for a panic. -/
abbrev MatcherFunc (ρ : Type*) := ρ → Option Bool

/-- `matchersTree`. -/
inductive MatchersTree (ρ : Type*)
  | matcher (f : MatcherFunc ρ)
  | node (operator : Operator) (left right : MatchersTree ρ)

/-- `||` and `&&`. -/
def Operator.apply (op : Operator) (left right : Option Bool) : Option Bool :=
  left.bind fun b => if b = op.absorbing then some b else right

/-- `match`. -/
def MatchersTree.matchRequest (req : ρ) : MatchersTree ρ → Option Bool
  | .matcher f => f req
  | .node op left right => op.apply (left.matchRequest req) (right.matchRequest req)

/-- What `rule.Not` does to a matcher. -/
def negateIf (not : Bool) (f : MatcherFunc ρ) : MatcherFunc ρ :=
  if not then fun req => (f req).map (!·) else f

variable (funcs : ν → List Bytes → Except ε (MatcherFunc ρ))

/-- `addRule`. The error of the left side alone is wrapped. -/
def addRule : Tree ν → Except (RuleError ν ε) (MatchersTree ρ)
  | .node op ruleLeft ruleRight =>
    ((addRule ruleLeft).mapError (.adding (.inr op))).bind fun left =>
      (addRule ruleRight).map fun right => .node op left right
  | .leaf matcher not value =>
    ((checkRule matcher value).mapError (.checking matcher)).bind fun _ =>
      ((funcs matcher value).mapError fun e => .adding (.inl matcher) (.matcher e)).map fun f =>
        .matcher (negateIf not f)

/-! ## The meaning of a rule -/

/-- A rule. -/
inductive Expr (ν : Type*)
  | matcher (name : ν) (value : List Bytes)
  | and (left right : Expr ν)
  | or (left right : Expr ν)
  | not (elem : Expr ν)
deriving DecidableEq, Repr

namespace Expr

/-- The tree that the parser builds. -/
def build : Expr ν → Tree ν
  | matcher name value => matcherFunc name value
  | and left right => andFunc left.build right.build
  | or left right => orFunc left.build right.build
  | not elem => notFunc elem.build

/-- The matchers that occur in a rule. -/
def leaves : Expr ν → List (ν × List Bytes)
  | matcher name value => [(name, value)]
  | and left right => left.leaves ++ right.leaves
  | or left right => left.leaves ++ right.leaves
  | not elem => elem.leaves

/-- The truth value of a rule, of the truth values of its matchers. -/
def value (v : ν → List Bytes → Bool) : Expr ν → Bool
  | matcher name args => v name args
  | and left right => left.value v && right.value v
  | or left right => left.value v || right.value v
  | not elem => !elem.value v

end Expr

/-- A matcher that passes the checks, with its function. -/
structure Compiles (matcher : ν) (value : List Bytes) (f : MatcherFunc ρ) : Prop where
  value_ne_nil : value ≠ []
  nil_notMem : [] ∉ value
  funcs_eq : funcs matcher value = .ok f

namespace Expr

/-- All matchers pass the checks. -/
def Valid (e : Expr ν) : Prop := ∀ leaf ∈ e.leaves, ∃ f, Compiles funcs leaf.1 leaf.2 f

/-- The outcome of a rule for a request: operators from left to right, and `!` as the negation of
what it stands before. -/
def eval (req : ρ) : Expr ν → Option Bool
  | matcher name value =>
    match funcs name value with
    | .ok f => f req
    | .error _ => none
  | and left right => Operator.and.apply (left.eval req) (right.eval req)
  | or left right => Operator.or.apply (left.eval req) (right.eval req)
  | not elem => (elem.eval req).map (!·)

end Expr

/-! ## What compiles -/

variable {funcs} {matcher : ν} {value : List Bytes} {not : Bool} {m : MatchersTree ρ} {t : Tree ν}
  {req : ρ}

theorem checkRule_eq_ok_iff :
    checkRule (ε := ε) matcher value = .ok () ↔ value ≠ [] ∧ [] ∉ value := by
  have hany : value.any List.isEmpty = true ↔ [] ∈ value := by
    simp only [List.any_eq_true, List.isEmpty_iff, exists_eq_right]
  unfold checkRule
  split_ifs with hnil hempty
  · exact iff_of_false nofun fun h => h.1 hnil
  · exact iff_of_false nofun fun h => h.2 (hany.mp hempty)
  · exact iff_of_true rfl ⟨hnil, fun hmem => hempty (hany.mpr hmem)⟩

theorem addRule_leaf_eq_ok_iff :
    addRule funcs (.leaf matcher not value) = .ok m ↔
      ∃ f, Compiles funcs matcher value f ∧ m = .matcher (negateIf not f) := by
  rw [addRule]
  cases hcheck : checkRule (ε := ε) matcher value with
  | error e =>
    refine iff_of_false nofun ?_
    rintro ⟨f, ⟨hnil, hempty, -⟩, -⟩
    rw [checkRule_eq_ok_iff.mpr ⟨hnil, hempty⟩] at hcheck
    cases hcheck
  | ok _ =>
    obtain ⟨hnil, hempty⟩ := checkRule_eq_ok_iff.mp hcheck
    cases hfuncs : funcs matcher value with
    | error e =>
      refine iff_of_false nofun ?_
      rintro ⟨f, ⟨-, -, hf⟩, -⟩
      rw [hfuncs] at hf
      cases hf
    | ok f =>
      constructor
      · intro h
        cases h
        exact ⟨f, ⟨hnil, hempty, hfuncs⟩, rfl⟩
      · rintro ⟨f', ⟨-, -, hf'⟩, rfl⟩
        rw [hfuncs] at hf'
        cases hf'
        rfl

theorem addRule_node_eq_ok_iff {op : Operator} {ruleLeft ruleRight : Tree ν} :
    addRule funcs (.node op ruleLeft ruleRight) = .ok m ↔
      ∃ left right, addRule funcs ruleLeft = .ok left ∧ addRule funcs ruleRight = .ok right ∧
        m = .node op left right := by
  rw [addRule]
  cases addRule funcs ruleLeft with
  | error e => exact iff_of_false nofun fun ⟨_, _, h, _⟩ => nomatch h
  | ok left =>
    cases addRule funcs ruleRight with
    | error e => exact iff_of_false nofun fun ⟨_, _, _, h, _⟩ => nomatch h
    | ok right =>
      constructor
      · intro h
        cases h
        exact ⟨left, right, rfl, rfl, rfl⟩
      · rintro ⟨_, _, hleft, hright, rfl⟩
        cases hleft
        cases hright
        rfl

/-! ## Negation -/

theorem negateIf_not (not : Bool) (f : MatcherFunc ρ) (req : ρ) :
    negateIf (!not) f req = (negateIf not f req).map (!·) := by
  cases not with
  | false => rfl
  | true =>
    change f req = ((f req).map (!·)).map (!·)
    cases f req with
    | none => rfl
    | some b => exact congrArg some (Bool.not_not b).symm

/-- The operator that `invert` puts in the place of another one. -/
def Operator.dual : Operator → Operator
  | .and => .or
  | .or => .and

theorem invert_node (op : Operator) (ruleLeft ruleRight : Tree ν) :
    invert (.node op ruleLeft ruleRight) = .node op.dual (invert ruleLeft) (invert ruleRight) := by
  cases op <;> rfl

/-- De Morgan, also for what is not evaluated. -/
theorem Operator.apply_dual (op : Operator) (left right : Option Bool) :
    op.dual.apply (left.map (!·)) (right.map (!·)) = (op.apply left right).map (!·) := by
  cases left with
  | none => rfl -- a panic of the left side comes before the operator
  | some b => cases op <;> cases b <;> rfl

/-- The inverse of a tree compiles to the negation of what the tree compiles to. -/
theorem addRule_invert (h : addRule funcs t = .ok m) :
    ∃ m', addRule funcs (invert t) = .ok m' ∧
      ∀ req, m'.matchRequest req = (m.matchRequest req).map (!·) := by
  induction t generalizing m with
  | leaf matcher not value =>
    obtain ⟨f, hf, rfl⟩ := addRule_leaf_eq_ok_iff.mp h
    exact ⟨_, addRule_leaf_eq_ok_iff.mpr ⟨f, hf, rfl⟩, negateIf_not not f⟩
  | node op ruleLeft ruleRight ihLeft ihRight =>
    obtain ⟨left, right, hleft, hright, rfl⟩ := addRule_node_eq_ok_iff.mp h
    obtain ⟨left', hleft', hevalLeft⟩ := ihLeft hleft
    obtain ⟨right', hright', hevalRight⟩ := ihRight hright
    refine ⟨.node op.dual left' right', ?_, fun req => ?_⟩
    · rw [invert_node]
      exact addRule_node_eq_ok_iff.mpr ⟨left', right', hleft', hright', rfl⟩
    · simp only [MatchersTree.matchRequest, hevalLeft, hevalRight, Operator.apply_dual]

/-! ## Compilation preserves the meaning -/

namespace Expr

variable {left right e : Expr ν}

theorem Valid.and (h : (Expr.and left right).Valid funcs) : left.Valid funcs ∧ right.Valid funcs :=
  forall_mem_append.mp h

theorem Valid.or (h : (Expr.or left right).Valid funcs) : left.Valid funcs ∧ right.Valid funcs :=
  forall_mem_append.mp h

theorem addRule_build (h : e.Valid funcs) :
    ∃ m, addRule funcs e.build = .ok m ∧ ∀ req, m.matchRequest req = e.eval funcs req := by
  induction e with
  | matcher name value =>
    obtain ⟨f, hf⟩ := h (name, value) (mem_singleton_self _)
    refine ⟨_, addRule_leaf_eq_ok_iff.mpr ⟨f, hf, rfl⟩, fun req => ?_⟩
    rw [eval, hf.funcs_eq]
    rfl
  | and left right ihLeft ihRight =>
    obtain ⟨l, hl, hevalLeft⟩ := ihLeft h.and.1
    obtain ⟨r, hr, hevalRight⟩ := ihRight h.and.2
    refine ⟨_, addRule_node_eq_ok_iff.mpr ⟨l, r, hl, hr, rfl⟩, fun req => ?_⟩
    rw [MatchersTree.matchRequest, hevalLeft, hevalRight, eval]
  | or left right ihLeft ihRight =>
    obtain ⟨l, hl, hevalLeft⟩ := ihLeft h.or.1
    obtain ⟨r, hr, hevalRight⟩ := ihRight h.or.2
    refine ⟨_, addRule_node_eq_ok_iff.mpr ⟨l, r, hl, hr, rfl⟩, fun req => ?_⟩
    rw [MatchersTree.matchRequest, hevalLeft, hevalRight, eval]
  | not elem ih =>
    obtain ⟨m, hm, heval⟩ := ih h
    -- the parser has pushed the negation to the leaves of the tree
    obtain ⟨m', hm', hneg⟩ := addRule_invert hm
    refine ⟨m', hm', fun req => ?_⟩
    rw [hneg, heval, eval]

/-- Where every matcher has a value, the outcome is the truth value. -/
theorem eval_eq_value {v : ν → List Bytes → Bool}
    (h : ∀ leaf ∈ e.leaves, ∃ f, funcs leaf.1 leaf.2 = .ok f ∧ f req = some (v leaf.1 leaf.2)) :
    e.eval funcs req = some (e.value v) := by
  induction e with
  | matcher name value =>
    obtain ⟨f, hf, hv⟩ := h (name, value) (mem_singleton_self _)
    rw [eval, hf]
    exact hv
  | and left right ihLeft ihRight | or left right ihLeft ihRight =>
    obtain ⟨hleft, hright⟩ := forall_mem_append.mp h
    rw [eval, ihLeft hleft, ihRight hright, value]
    cases left.value v <;> rfl
  | not elem ih =>
    rw [eval, ih h, value]
    rfl

/-- A rule with valid matchers compiles. For every request the compiled matcher has the outcome of
the rule, and where the matchers have a value this is the truth value of the rule. -/
theorem compile_eval (funcs : ν → List Bytes → Except ε (MatcherFunc ρ)) (e : Expr ν)
    (h : e.Valid funcs) :
    ∃ m, addRule funcs e.build = .ok m ∧ ∀ req, m.matchRequest req = e.eval funcs req ∧
      ∀ v : ν → List Bytes → Bool,
        (∀ leaf ∈ e.leaves, ∃ f, funcs leaf.1 leaf.2 = .ok f ∧ f req = some (v leaf.1 leaf.2)) →
        m.matchRequest req = some (e.value v) := by
  obtain ⟨m, hm, heval⟩ := addRule_build h
  refine ⟨m, hm, fun req => ⟨heval req, fun v hv => ?_⟩⟩
  rw [heval req]
  exact eval_eq_value hv

/-- `!(Network(tcp) && !Network(udp))`, with the text itself as the request. -/
theorem compile_eval_nested :
    let funcs : Unit → List Bytes → Except Unit (MatcherFunc Bytes) :=
      fun _ value => .ok fun req => some (value == [req])
    let e : Expr Unit :=
      .not (.and (.matcher () [bytes "tcp"]) (.not (.matcher () [bytes "udp"])))
    e.Valid funcs ∧ ∃ m, addRule funcs e.build = .ok m ∧
      m.matchRequest (bytes "tcp") = some false ∧ m.matchRequest (bytes "udp") = some true := by
  intro funcs e
  have hvalid : e.Valid funcs := by
    intro leaf hleaf
    rcases mem_cons.mp hleaf with rfl | hleaf
    · exact ⟨_, cons_ne_nil _ _, by decide, rfl⟩
    · rw [mem_singleton.mp hleaf]
      exact ⟨_, cons_ne_nil _ _, by decide, rfl⟩
  obtain ⟨m, hm, heval⟩ := compile_eval funcs e hvalid
  exact ⟨hvalid, m, hm, (heval _).1.trans (by decide), (heval _).1.trans (by decide)⟩

end Expr

/-! ## What is evaluated -/

namespace Tree

variable (funcs) in
/-- The outcome of a tree for a request. -/
def outcome (req : ρ) : Tree ν → Option Bool
  | leaf matcher not value =>
    match funcs matcher value with
    | .ok f => negateIf not f req
    | .error _ => none
  | node op ruleLeft ruleRight => op.apply (ruleLeft.outcome req) (ruleRight.outcome req)

variable (funcs) in
/-- The matchers that are called for a request: those of the right side only if the left one does
not decide. -/
def visits (req : ρ) : Tree ν → List (ν × List Bytes)
  | leaf matcher _ value => [(matcher, value)]
  | node op ruleLeft ruleRight =>
    ruleLeft.visits req ++
      if ruleLeft.outcome funcs req = some (!op.absorbing) then ruleRight.visits req else []

theorem matchRequest_eq_outcome (h : addRule funcs t = .ok m) (req : ρ) :
    m.matchRequest req = t.outcome funcs req := by
  induction t generalizing m with
  | leaf matcher not value =>
    obtain ⟨f, hf, rfl⟩ := addRule_leaf_eq_ok_iff.mp h
    rw [outcome, hf.funcs_eq]
    rfl
  | node op ruleLeft ruleRight ihLeft ihRight =>
    obtain ⟨left, right, hleft, hright, rfl⟩ := addRule_node_eq_ok_iff.mp h
    rw [MatchersTree.matchRequest, ihLeft hleft, ihRight hright, outcome]

/-- The leaves of an accepted tree have been compiled. -/
theorem exists_compiles_of_mem_visits (h : addRule funcs t = .ok m)
    (hmem : (matcher, value) ∈ t.visits funcs req) : ∃ f, Compiles funcs matcher value f := by
  induction t generalizing m with
  | leaf matcher' not value' =>
    obtain ⟨f, hf, -⟩ := addRule_leaf_eq_ok_iff.mp h
    obtain ⟨rfl, rfl⟩ := Prod.mk.inj (mem_singleton.mp hmem)
    exact ⟨f, hf⟩
  | node op ruleLeft ruleRight ihLeft ihRight =>
    obtain ⟨left, right, hleft, hright, -⟩ := addRule_node_eq_ok_iff.mp h
    rcases mem_append.mp hmem with hmem | hmem
    · exact ihLeft hleft hmem
    · split_ifs at hmem
      · exact ihRight hright hmem
      · exact absurd hmem not_mem_nil

theorem negateIf_eq_none_iff {f : MatcherFunc ρ} : negateIf not f req = none ↔ f req = none := by
  cases not with
  | false => rfl
  | true => exact Option.map_eq_none_iff

/-- An accepted tree panics for a request exactly if a matcher that is called does. -/
theorem outcome_eq_none_iff (h : addRule funcs t = .ok m) (req : ρ) :
    t.outcome funcs req = none ↔
      ∃ leaf ∈ t.visits funcs req, ∃ f, Compiles funcs leaf.1 leaf.2 f ∧ f req = none := by
  induction t generalizing m with
  | leaf matcher not value =>
    obtain ⟨f, hf, rfl⟩ := addRule_leaf_eq_ok_iff.mp h
    have hout : (leaf matcher not value).outcome funcs req = negateIf not f req := by
      rw [outcome, hf.funcs_eq]
    rw [hout, negateIf_eq_none_iff, visits]
    constructor
    · exact fun hnone => ⟨_, mem_singleton_self _, f, hf, hnone⟩
    · rintro ⟨leaf, hleaf, f', hf', hnone⟩
      rw [mem_singleton.mp hleaf] at hf'
      have heq : f' = f := Except.ok.inj (hf'.funcs_eq.symm.trans hf.funcs_eq)
      rwa [← heq]
  | node op ruleLeft ruleRight ihLeft ihRight =>
    obtain ⟨left, right, hleft, hright, rfl⟩ := addRule_node_eq_ok_iff.mp h
    rw [visits, outcome]
    cases hout : ruleLeft.outcome funcs req with
    | none =>
      -- the left side panics, and the right one is not called
      rw [if_neg nofun, append_nil, ← ihLeft hleft]
      exact iff_of_true rfl hout
    | some b =>
      have hleftNone : ¬∃ leaf ∈ ruleLeft.visits funcs req,
          ∃ f, Compiles funcs leaf.1 leaf.2 f ∧ f req = none := by
        rw [← ihLeft hleft, hout]
        nofun
      by_cases hb : b = op.absorbing
      · -- the left side decides
        rw [if_neg (by rw [hb]; simp), append_nil]
        refine iff_of_false ?_ hleftNone
        rw [Operator.apply, Option.bind_some, if_pos hb]
        nofun
      · -- the outcome is that of the right side
        rw [if_pos (by rw [Bool.eq_not.mpr hb]), Operator.apply, Option.bind_some, if_neg hb,
          ihRight hright]
        simp only [mem_append, or_and_right, exists_or, hleftNone, false_or]

end Tree

end Routing

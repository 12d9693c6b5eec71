import Mathlib.Algebra.Ring.Nat
import ObjectQuery.Proofs.Grammar.Sound
import ObjectQuery.Proofs.Outcome
/-!
# Parameters of parse trees

How many expressions of a tree are parameters, wherever they stand: an index may be in the path of a
join, in the path of a collection and in the target of an assignment as well as in any other path.

In the tree of a text every test for membership in a list has at least one value to compare with,
because the rules have no empty list.
-/
namespace ObjectQuery.Grammar

mutual

/-- The number of parameters in an expression. -/
def Expr.parameterCount : Expr → Nat
  | .path route => pathParameters route
  | .literal _ _ => 0
  | .named _ _ | .positional _ _ => 1
  | .arithmetic _ _ left right => left.parameterCount + right.parameterCount
  | .negate _ operand => operand.parameterCount
  | .call _ _ _ argument => optionalParameters argument

/-- The number of parameters in the indices of a path. -/
def pathParameters : Path Expr → Nat
  | ⟨⟨_, index⟩, rest, _⟩ => optionalParameters index + partParameters rest

/-- The number of parameters in an index or argument. -/
def optionalParameters : Option Expr → Nat
  | none => 0
  | some expr => expr.parameterCount

/-- The number of parameters in the indices of parts of a path. -/
def partParameters : List (PathPart Expr) → Nat
  | [] => 0
  | ⟨_, index⟩ :: rest => optionalParameters index + partParameters rest

end

/-- The number of parameters in a select list. -/
def selectParameters (select : Option SelectClause) : Nat :=
  (((select.map (·.selections)).getD []).map (·.expr.parameterCount)).sum

mutual

/-- The number of parameters in a predicate. -/
def Predicate.parameterCount : Predicate → Nat
  | .and _ left right | .or _ left right => left.parameterCount + right.parameterCount
  | .not _ operand => operand.parameterCount
  | .compare _ _ left right => left.parameterCount + right.parameterCount
  | .inList _ test values _ => test.parameterCount + (values.map Expr.parameterCount).sum
  | .inQuery _ test query _ => test.parameterCount + queryParameters query
  | .memberOf _ element collection _ => element.parameterCount + pathParameters collection
  | .isNull _ operand _ => operand.parameterCount
  | .like _ operand pattern _ => operand.parameterCount + pattern.parameterCount
  | .between _ operand low high _ =>
    operand.parameterCount + low.parameterCount + high.parameterCount

/-- The number of parameters in a query. -/
def queryParameters : Query Predicate → Nat
  | ⟨select, ⟨spaces, _⟩, filter, _⟩ =>
    selectParameters select + spaceParameters spaces + filterParameters filter

/-- The number of parameters in the items of a from-clause. -/
def spaceParameters : List (FromSpace Predicate) → Nat
  | [] => 0
  | ⟨_, joins, _⟩ :: rest => joinParameters joins + spaceParameters rest

/-- The number of parameters in the paths and conditions of joins. -/
def joinParameters : List (Join Predicate) → Nat
  | [] => 0
  | ⟨_, _, target, _, predicate, _⟩ :: rest =>
    pathParameters target + filterParameters predicate + joinParameters rest

/-- The number of parameters in a condition that may be absent. -/
def filterParameters : Option Predicate → Nat
  | none => 0
  | some predicate => predicate.parameterCount

end

/-- The number of parameters in a statement. -/
def Statement.parameterCount : Statement → Nat
  | select query order => queryParameters query + (order.map (·.expr.parameterCount)).sum
  | update _ assignments filter => (assignments.map fun assignment =>
      pathParameters assignment.target + assignment.value.parameterCount).sum + filterParameters filter
  | delete _ filter => filterParameters filter

/-! ## Paths of joins -/

mutual

/-- No path of a join in the predicate has an index. -/
def Predicate.JoinsPlainly : Predicate → Prop
  | .and _ left right | .or _ left right => left.JoinsPlainly ∧ right.JoinsPlainly
  | .not _ operand => operand.JoinsPlainly
  | .inQuery _ _ query _ => QueryJoinsPlainly query
  | _ => True

/-- No path of a join in the query has an index. -/
def QueryJoinsPlainly : Query Predicate → Prop
  | ⟨_, ⟨spaces, _⟩, filter, _⟩ => SpacesJoinPlainly spaces ∧ FilterJoinsPlainly filter

/-- No path of a join in the items of a from-clause has an index. -/
def SpacesJoinPlainly : List (FromSpace Predicate) → Prop
  | [] => True
  | ⟨_, joins, _⟩ :: rest => JoinsArePlain joins ∧ SpacesJoinPlainly rest

/-- No path of the joins and in their conditions has an index. -/
def JoinsArePlain : List (Join Predicate) → Prop
  | [] => True
  | ⟨_, _, target, _, predicate, _⟩ :: rest =>
    target.isSimple = true ∧ FilterJoinsPlainly predicate ∧ JoinsArePlain rest

/-- No path of a join in a condition that may be absent has an index. -/
def FilterJoinsPlainly : Option Predicate → Prop
  | none => True
  | some predicate => predicate.JoinsPlainly

end

/-- No path of a join in the statement has an index. -/
def Statement.JoinsPlainly : Statement → Prop
  | select query _ => QueryJoinsPlainly query
  | update _ _ filter | delete _ filter => FilterJoinsPlainly filter

/-- Parts without an index hold no parameter. -/
theorem partParameters_of_plain : ∀ {parts : List (PathPart Expr)},
    parts.all (·.index.isNone) = true → partParameters parts = 0
  | [], _ => rfl
  | ⟨_, index⟩ :: rest, plain => by
    rw [List.all_cons, Bool.and_eq_true, Option.isNone_iff_eq_none] at plain
    simp only at plain
    rw [partParameters, plain.1, partParameters_of_plain plain.2]
    rfl

/-- A path without indices has no parameters. -/
theorem pathParameters_of_plain {path : Path Expr} (plain : path.isSimple = true) :
    pathParameters path = 0 := by
  obtain ⟨⟨name, index⟩, rest, span⟩ := path
  rw [pathParameters, ← partParameters]
  exact partParameters_of_plain plain

/-! ## Lists that are not empty -/

mutual

/-- Every list of values in the predicate has a value. -/
def Predicate.FillsLists : Predicate → Prop
  | .and _ left right | .or _ left right => left.FillsLists ∧ right.FillsLists
  | .not _ operand => operand.FillsLists
  | .inList _ _ values _ => values ≠ []
  | .inQuery _ _ query _ => QueryFillsLists query
  | _ => True

/-- Every list of values in the query has a value. -/
def QueryFillsLists : Query Predicate → Prop
  | ⟨_, ⟨spaces, _⟩, filter, _⟩ => SpacesFillLists spaces ∧ FilterFillsLists filter

/-- Every list of values in the items of a from-clause has a value. -/
def SpacesFillLists : List (FromSpace Predicate) → Prop
  | [] => True
  | ⟨_, joins, _⟩ :: rest => JoinsFillLists joins ∧ SpacesFillLists rest

/-- Every list of values in the conditions of joins has a value. -/
def JoinsFillLists : List (Join Predicate) → Prop
  | [] => True
  | ⟨_, _, _, _, predicate, _⟩ :: rest => FilterFillsLists predicate ∧ JoinsFillLists rest

/-- Every list of values in a condition that may be absent has a value. -/
def FilterFillsLists : Option Predicate → Prop
  | none => True
  | some predicate => predicate.FillsLists

end

/-- Every list of values in the statement has a value. -/
def Statement.FillsLists : Statement → Prop
  | select query _ => QueryFillsLists query
  | update _ _ filter | delete _ filter => FilterFillsLists filter

mutual

/-- Whether a predicate fills its lists does not depend on places. -/
theorem Predicate.fillsLists_unplaced : ∀ predicate : Predicate,
    predicate.unplaced.FillsLists ↔ predicate.FillsLists
  | .and _ left right | .or _ left right => by
    simp [Predicate.unplaced, Predicate.FillsLists, left.fillsLists_unplaced,
      right.fillsLists_unplaced]
  | .not _ operand => by
    simp [Predicate.unplaced, Predicate.FillsLists, operand.fillsLists_unplaced]
  | .inList _ test values negated => by simp [Predicate.unplaced, Predicate.FillsLists]
  | .inQuery _ test query negated => by
    simp [Predicate.unplaced, Predicate.FillsLists, queryFillsLists_unplaced query]
  | .compare .. | .memberOf .. | .isNull .. | .like .. | .between .. => by
    simp [Predicate.unplaced, Predicate.FillsLists]

/-- Whether a query fills its lists does not depend on places. -/
theorem queryFillsLists_unplaced : ∀ query : Query Predicate,
    QueryFillsLists (unplacedQuery query) ↔ QueryFillsLists query
  | ⟨select, ⟨spaces, _⟩, filter, _⟩ => by
    simp [unplacedQuery, QueryFillsLists, spacesFillLists_unplaced spaces,
      filterFillsLists_unplaced filter]

/-- Whether spaces fill their lists does not depend on places. -/
theorem spacesFillLists_unplaced : ∀ spaces : List (FromSpace Predicate),
    SpacesFillLists (unplacedSpaces spaces) ↔ SpacesFillLists spaces
  | [] => Iff.rfl
  | ⟨root, joins, _⟩ :: rest => by
    simp [unplacedSpaces, SpacesFillLists, joinsFillLists_unplaced joins,
      spacesFillLists_unplaced rest]

/-- Whether joins fill their lists does not depend on places. -/
theorem joinsFillLists_unplaced : ∀ joins : List (Join Predicate),
    JoinsFillLists (unplacedJoins joins) ↔ JoinsFillLists joins
  | [] => Iff.rfl
  | ⟨kind, fetch, target, label, predicate, _⟩ :: rest => by
    simp [unplacedJoins, JoinsFillLists, filterFillsLists_unplaced predicate,
      joinsFillLists_unplaced rest]

/-- Whether a filter fills its lists does not depend on places. -/
theorem filterFillsLists_unplaced : ∀ filter : Option Predicate,
    FilterFillsLists (unplacedFilter filter) ↔ FilterFillsLists filter
  | none => Iff.rfl
  | some predicate => by
    simp [unplacedFilter, FilterFillsLists, predicate.fillsLists_unplaced]

end

/-- Whether a statement fills its lists does not depend on places. -/
theorem Statement.fillsLists_unplaced (statement : Statement) :
    statement.unplaced.FillsLists ↔ statement.FillsLists := by
  cases statement with
  | select query order => exact queryFillsLists_unplaced query
  | update target assignments filter => exact filterFillsLists_unplaced filter
  | delete target filter => exact filterFillsLists_unplaced filter

/-- A list written with commas has at least one item. -/
theorem isSeparated_ne_nil {α : Type} {IsItem : Phrase α} {word : List Token} {items : List α}
    (separated : IsSeparated IsItem word items) : items ≠ [] := by
  cases separated <;> simp

mutual

/-- A derived alternative fills its lists. -/
theorem isPredicate_fills : ∀ {word : List Token} {predicate : Predicate},
    IsPredicate word predicate → predicate.FillsLists
  | _, _, .one single => isConjunction_fills single
  | _, _, .more first second => ⟨isPredicate_fills first, isConjunction_fills second⟩

/-- A derived conjunction fills its lists. -/
theorem isConjunction_fills : ∀ {word : List Token} {predicate : Predicate},
    IsConjunction word predicate → predicate.FillsLists
  | _, _, .one single => isNegation_fills single
  | _, _, .more first second => ⟨isConjunction_fills first, isNegation_fills second⟩

/-- A derived negation fills its lists. -/
theorem isNegation_fills : ∀ {word : List Token} {predicate : Predicate},
    IsNegation word predicate → predicate.FillsLists
  | _, _, .one single => isCondition_fills single
  | _, _, .not inside => by
    have fills := isNegation_fills inside
    exact fills

/-- A derived condition fills its lists. -/
theorem isCondition_fills : ∀ {word : List Token} {predicate : Predicate},
    IsCondition word predicate → predicate.FillsLists
  | _, _, .grouped inside => isPredicate_fills inside
  | _, _, .inQuery _ _ inside => isQuery_fills inside
  | _, _, .inList _ _ inside => isSeparated_ne_nil inside
  | _, _, .compare _ _ _ | _, _, .isNull _ _ | _, _, .memberOf _ _ _ _ | _, _, .like _ _ _
  | _, _, .between _ _ _ _ => trivial

/-- A derived query fills its lists. -/
theorem isQuery_fills : ∀ {word : List Token} {query : Query Predicate},
    IsQuery word query → QueryFillsLists query
  | _, _, .mk _ sources filters => ⟨isSpaces_fill sources, isWhere_fills filters⟩

/-- A derived filter fills its lists. -/
theorem isWhere_fills : ∀ {word : List Token} {filter : Option Predicate},
    IsWhere word filter → FilterFillsLists filter
  | _, _, .none => trivial
  | _, _, .some holds => isPredicate_fills holds

/-- Derived spaces fill their lists. -/
theorem isSpaces_fill : ∀ {word : List Token} {spaces : List (FromSpace Predicate)},
    IsSpaces word spaces → SpacesFillLists spaces
  | _, _, .one (.mk _ joined) => ⟨isJoins_fill joined, trivial⟩
  | _, _, .more (.mk _ joined) rest => ⟨isJoins_fill joined, isSpaces_fill rest⟩

/-- Derived joins fill their lists. -/
theorem isJoins_fill : ∀ {word : List Token} {joins : List (Join Predicate)},
    IsJoins word joins → JoinsFillLists joins
  | _, _, .nil => trivial
  | _, _, .cons (.mk _ _ _ _ conditioned) rest => ⟨isOn_fills conditioned, isJoins_fill rest⟩

/-- The derived condition of a join fills its lists. -/
theorem isOn_fills : ∀ {word : List Token} {filter : Option Predicate},
    IsOn word filter → FilterFillsLists filter
  | _, _, .none => trivial
  | _, _, .some _ holds => isPredicate_fills holds

end

/-- A derived statement fills its lists. -/
theorem isStatement_fills {word : List Token} {statement : Statement}
    (derived : IsStatement word statement) : statement.FillsLists := by
  cases derived with
  | select queried ordered => exact isQuery_fills queried
  | update targeted assigned filters => exact isWhere_fills filters
  | delete spelled targeted filters => exact isWhere_fills filters

/-- In the tree of a text every list of values has a value. -/
theorem parse_fillsLists {source : String} {tree : Statement}
    (parsed : Statement.parse source = .ok tree) : tree.FillsLists := by
  obtain ⟨lexemes, _, formed⟩ := except_bind_ok.mp parsed
  obtain ⟨rest, taken⟩ := ofLexemes_eq_ok.mp formed
  exact tree.fillsLists_unplaced.mp (isStatement_fills (statement_sound taken))

end ObjectQuery.Grammar

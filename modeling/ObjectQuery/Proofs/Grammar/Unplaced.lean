import ObjectQuery.Grammar.Tree
/-!
# Trees without places

`unplaced` takes the places off a parse tree and keeps the rest, so that two texts with the same
tokens have the same tree.
-/
namespace ObjectQuery

/-- Stands where a place has been taken off. -/
def Span.nowhere : Span := ⟨0, 0⟩

/-- The value without its place. -/
def Spanned.unplaced {α : Type} (given : Spanned α) : Spanned α := ⟨given.value, .nowhere⟩

namespace Grammar

mutual

/-- The expression without places. -/
def Expr.unplaced : Expr → Expr
  | .path route => .path (unplacedPath route)
  | .literal _ value => .literal .nowhere value
  | .named _ name => .named .nowhere name
  | .positional _ position => .positional .nowhere position
  | .arithmetic _ op left right => .arithmetic .nowhere op left.unplaced right.unplaced
  | .negate _ operand => .negate .nowhere operand.unplaced
  | .call _ name distinct argument =>
    .call .nowhere name.unplaced distinct (unplacedOptional argument)

/-- The path without places. -/
def unplacedPath : Path Expr → Path Expr
  | ⟨⟨name, index⟩, rest, _⟩ =>
    ⟨⟨name.unplaced, unplacedOptional index⟩, unplacedParts rest, .nowhere⟩

/-- The index or argument without places. -/
def unplacedOptional : Option Expr → Option Expr
  | none => none
  | some expr => some expr.unplaced

/-- The parts of a path without places. -/
def unplacedParts : List (PathPart Expr) → List (PathPart Expr)
  | [] => []
  | ⟨name, index⟩ :: rest => ⟨name.unplaced, unplacedOptional index⟩ :: unplacedParts rest

end

/-- The part of a path without places. -/
def PathPart.unplaced (part : PathPart Expr) : PathPart Expr :=
  ⟨part.name.unplaced, unplacedOptional part.index⟩

/-- The parts of a path lose their places one by one. -/
theorem unplacedParts_eq_map :
    ∀ parts : List (PathPart Expr), unplacedParts parts = parts.map PathPart.unplaced
  | [] => rfl
  | ⟨_, _⟩ :: rest => congrArg (_ :: ·) (unplacedParts_eq_map rest)

/-- The item of a select list without places. -/
def Selection.unplaced (selection : Selection) : Selection :=
  ⟨selection.expr.unplaced, selection.label.map Spanned.unplaced, .nowhere⟩

/-- The select list without places. -/
def SelectClause.unplaced (clause : SelectClause) : SelectClause :=
  ⟨clause.distinct, clause.selections.map Selection.unplaced, .nowhere⟩

/-- The entity and its name without places. -/
def RootRef.unplaced (root : RootRef) : RootRef :=
  ⟨root.entity.unplaced, root.label.map Spanned.unplaced, .nowhere⟩

mutual

/-- The predicate without places. -/
def Predicate.unplaced : Predicate → Predicate
  | .and _ left right => .and .nowhere left.unplaced right.unplaced
  | .or _ left right => .or .nowhere left.unplaced right.unplaced
  | .not _ operand => .not .nowhere operand.unplaced
  | .compare _ op left right => .compare .nowhere op left.unplaced right.unplaced
  | .inList _ test values negated =>
    .inList .nowhere test.unplaced (values.map Expr.unplaced) negated
  | .inQuery _ test query negated => .inQuery .nowhere test.unplaced (unplacedQuery query) negated
  | .memberOf _ element collection negated =>
    .memberOf .nowhere element.unplaced (unplacedPath collection) negated
  | .isNull _ operand negated => .isNull .nowhere operand.unplaced negated
  | .like _ operand pattern negated => .like .nowhere operand.unplaced pattern.unplaced negated
  | .between _ operand low high negated =>
    .between .nowhere operand.unplaced low.unplaced high.unplaced negated

/-- The query without places. -/
def unplacedQuery : Query Predicate → Query Predicate
  | ⟨select, ⟨spaces, _⟩, filter, _⟩ =>
    ⟨select.map SelectClause.unplaced, ⟨unplacedSpaces spaces, .nowhere⟩, unplacedFilter filter,
      .nowhere⟩

/-- The items of a from-clause without places. -/
def unplacedSpaces : List (FromSpace Predicate) → List (FromSpace Predicate)
  | [] => []
  | ⟨root, joins, _⟩ :: rest =>
    ⟨root.unplaced, unplacedJoins joins, .nowhere⟩ :: unplacedSpaces rest

/-- Joins without places. -/
def unplacedJoins : List (Join Predicate) → List (Join Predicate)
  | [] => []
  | ⟨kind, fetch, target, label, predicate, _⟩ :: rest =>
    ⟨kind, fetch, unplacedPath target, label.map Spanned.unplaced, unplacedFilter predicate,
      .nowhere⟩ :: unplacedJoins rest

/-- A condition that may be absent without places. -/
def unplacedFilter : Option Predicate → Option Predicate
  | none => none
  | some predicate => some predicate.unplaced

end

/-- The join without places. -/
def Join.unplaced (join : Join Predicate) : Join Predicate :=
  ⟨join.kind, join.fetch, unplacedPath join.target, join.label.map Spanned.unplaced,
    unplacedFilter join.predicate, .nowhere⟩

/-- The item of a from-clause without places. -/
def FromSpace.unplaced (space : FromSpace Predicate) : FromSpace Predicate :=
  ⟨space.root.unplaced, unplacedJoins space.joins, .nowhere⟩

/-- Joins lose their places one by one. -/
theorem unplacedJoins_eq_map :
    ∀ joins : List (Join Predicate), unplacedJoins joins = joins.map Join.unplaced
  | [] => rfl
  | ⟨_, _, _, _, _, _⟩ :: rest => congrArg (_ :: ·) (unplacedJoins_eq_map rest)

/-- Spaces lose their places one by one. -/
theorem unplacedSpaces_eq_map :
    ∀ spaces : List (FromSpace Predicate), unplacedSpaces spaces = spaces.map FromSpace.unplaced
  | [] => rfl
  | ⟨_, _, _⟩ :: rest => congrArg (_ :: ·) (unplacedSpaces_eq_map rest)

/-- The assignment without places. -/
def Assignment.unplaced (assignment : Assignment) : Assignment :=
  ⟨unplacedPath assignment.target, assignment.value.unplaced, .nowhere⟩

/-- The sort key without places. -/
def SortSpec.unplaced (key : SortSpec) : SortSpec := ⟨key.expr.unplaced, key.order, .nowhere⟩

/-- The statement without places. -/
def Statement.unplaced : Statement → Statement
  | .select query order => .select (unplacedQuery query) (order.map SortSpec.unplaced)
  | .update target assignments filter =>
    .update target.unplaced (assignments.map Assignment.unplaced) (unplacedFilter filter)
  | .delete target filter => .delete target.unplaced (unplacedFilter filter)

end Grammar
end ObjectQuery

import ObjectQuery.Proofs.Grammar.Written
import ObjectQuery.Proofs.Token.Respelled
/-!
# Trees with other names

The names of a parse tree in the order of the text are the identifiers of the text. `respelled` puts
names into a tree one after the other in this order, in the place of its own, and moves every place. An
entity takes as many names as its name has parts.
-/
namespace ObjectQuery.Grammar

/-- A way to build a value that takes names from the front of a list. -/
abbrev Naming (α : Type) := StateM (List String) α

namespace Naming

variable {α β : Type}

/-- Takes the next name, if there is one. -/
def next : Naming String := fun names => (names.headD "", names.tail)

/-- Takes a number of names. -/
def several (count : Nat) : Naming (List String) := fun names => (names.take count, names.drop count)

/-- Builds a value if there is one to be built. -/
def optional : Option (Naming α) → Naming (Option α)
  | none => pure none
  | some naming => do return some (← naming)

/-- Builds values one after the other. -/
def each : List (Naming α) → Naming (List α)
  | [] => pure []
  | naming :: rest => do
    let value ← naming
    let values ← each rest
    return value :: values

/-- The value is built from the names, and nothing behind them is looked at. -/
def Consumes (naming : Naming α) (names : List String) (value : α) : Prop :=
  ∀ more, naming (names ++ more) = (value, more)

/-- A value takes no name. -/
theorem Consumes.pure (value : α) : Consumes (Pure.pure value) [] value := fun _ => rfl

/-- Steps in a row take the names of both. -/
theorem Consumes.bind {naming : Naming α} {further : α → Naming β} {names more : List String} {value : α}
    {result : β} (first : Consumes naming names value) (second : Consumes (further value) more result) :
    Consumes (naming >>= further) (names ++ more) result := by
  intro rest
  change (match naming (names ++ more ++ rest) with | (value, left) => further value left) = _
  rw [List.append_assoc, first]
  exact second rest

/-- What a step takes does not depend on a change of its value. -/
theorem Consumes.map {naming : Naming α} {change : α → β} {names : List String} {value : α}
    (taken : Consumes naming names value) :
    Consumes (do let value ← naming; Pure.pure (change value)) names (change value) := by
  have whole : Consumes (naming >>= fun value => Pure.pure (change value)) (names ++ []) (change value) :=
    Consumes.bind taken (Consumes.pure (change value))
  rwa [List.append_nil] at whole

/-- One step takes one name. -/
theorem Consumes.next (name : String) : Consumes next [name] name := fun _ => rfl

/-- A step for several names takes as many. -/
theorem Consumes.several {count : Nat} {names : List String} (counted : names.length = count) :
    Consumes (several count) names names := by
  intro more
  rw [Naming.several, List.take_left' counted, List.drop_left' counted]

end Naming

variable (move : Span → Span)

/-- The value with the next name for it. -/
def respelledName (given : Spanned String) : Naming (Spanned String) := do
  return ⟨← Naming.next, move given.span⟩

mutual

/-- The expression with other names. -/
def Expr.respelled : Expr → Naming Expr
  | .path route => do return .path (← respelledPath route)
  | .literal span value => return .literal (move span) value
  | .named span _ => do return .named (move span) (← Naming.next)
  | .positional span position => return .positional (move span) position
  | .arithmetic span op left right => do
    let left ← left.respelled
    let right ← right.respelled
    return .arithmetic (move span) op left right
  | .negate span operand => do return .negate (move span) (← operand.respelled)
  | .call span name distinct argument => do
    let name ← respelledName move name
    let argument ← respelledOptional argument
    return .call (move span) name distinct argument

/-- The path with other names. -/
def respelledPath : Path Expr → Naming (Path Expr)
  | ⟨⟨name, index⟩, rest, span⟩ => do
    let name ← respelledName move name
    let index ← respelledOptional index
    let rest ← respelledParts rest
    return ⟨⟨name, index⟩, rest, move span⟩

/-- The index or argument with other names. -/
def respelledOptional : Option Expr → Naming (Option Expr)
  | none => return none
  | some expr => do return some (← expr.respelled)

/-- The parts of a path with other names. -/
def respelledParts : List (PathPart Expr) → Naming (List (PathPart Expr))
  | [] => return []
  | ⟨name, index⟩ :: rest => do
    let name ← respelledName move name
    let index ← respelledOptional index
    let rest ← respelledParts rest
    return ⟨name, index⟩ :: rest

end

/-- The name that a statement gives to something, respelled. -/
def respelledLabel (label : Option (Spanned String)) : Naming (Option (Spanned String)) :=
  Naming.optional (label.map (respelledName move))

/-- The item of a select list with other names. -/
def Selection.respelled (selection : Selection) : Naming Selection := do
  let expr ← selection.expr.respelled move
  let label ← respelledLabel move selection.label
  return ⟨expr, label, move selection.span⟩

/-- The select list with other names. -/
def SelectClause.respelled (clause : SelectClause) : Naming SelectClause := do
  let selections ← Naming.each (clause.selections.map (Selection.respelled move))
  return ⟨clause.distinct, selections, move clause.span⟩

/-- The entity with another name for each part of its own, and with another label. -/
def RootRef.respelled (root : RootRef) : Naming RootRef := do
  let parts ← Naming.several (entityNames root.entity.value).length
  let label ← respelledLabel move root.label
  return ⟨⟨".".intercalate parts, move root.entity.span⟩, label, move root.span⟩

mutual

/-- The predicate with other names. -/
def Predicate.respelled : Predicate → Naming Predicate
  | .and span left right => do
    let left ← left.respelled
    let right ← right.respelled
    return .and (move span) left right
  | .or span left right => do
    let left ← left.respelled
    let right ← right.respelled
    return .or (move span) left right
  | .not span operand => do return .not (move span) (← operand.respelled)
  | .compare span op left right => do
    let left ← left.respelled move
    let right ← right.respelled move
    return .compare (move span) op left right
  | .inList span test values negated => do
    let test ← test.respelled move
    let values ← Naming.each (values.map (Expr.respelled move))
    return .inList (move span) test values negated
  | .inQuery span test query negated => do
    let test ← test.respelled move
    let query ← respelledQuery query
    return .inQuery (move span) test query negated
  | .memberOf span element collection negated => do
    let element ← element.respelled move
    let collection ← respelledPath move collection
    return .memberOf (move span) element collection negated
  | .isNull span operand negated => do return .isNull (move span) (← operand.respelled move) negated
  | .like span operand pattern negated => do
    let operand ← operand.respelled move
    let pattern ← pattern.respelled move
    return .like (move span) operand pattern negated
  | .between span operand low high negated => do
    let operand ← operand.respelled move
    let low ← low.respelled move
    let high ← high.respelled move
    return .between (move span) operand low high negated

/-- The query with other names. -/
def respelledQuery : Query Predicate → Naming (Query Predicate)
  | ⟨select, ⟨spaces, clause⟩, filter, span⟩ => do
    let select ← Naming.optional (select.map (SelectClause.respelled move))
    let spaces ← respelledSpaces spaces
    let filter ← respelledFilter filter
    return ⟨select, ⟨spaces, move clause⟩, filter, move span⟩

/-- The items of a from-clause with other names. -/
def respelledSpaces : List (FromSpace Predicate) → Naming (List (FromSpace Predicate))
  | [] => return []
  | ⟨root, joins, span⟩ :: rest => do
    let root ← root.respelled move
    let joins ← respelledJoins joins
    let rest ← respelledSpaces rest
    return ⟨root, joins, move span⟩ :: rest

/-- Joins with other names. -/
def respelledJoins : List (Join Predicate) → Naming (List (Join Predicate))
  | [] => return []
  | ⟨kind, fetch, target, label, predicate, span⟩ :: rest => do
    let target ← respelledPath move target
    let label ← respelledLabel move label
    let predicate ← respelledFilter predicate
    let rest ← respelledJoins rest
    return ⟨kind, fetch, target, label, predicate, move span⟩ :: rest

/-- A condition that may be absent, with other names. -/
def respelledFilter : Option Predicate → Naming (Option Predicate)
  | none => return none
  | some predicate => do return some (← predicate.respelled)

end

/-- The assignment with other names. -/
def Assignment.respelled (assignment : Assignment) : Naming Assignment := do
  let target ← respelledPath move assignment.target
  let value ← assignment.value.respelled move
  return ⟨target, value, move assignment.span⟩

/-- The sort key with other names. -/
def SortSpec.respelled (key : SortSpec) : Naming SortSpec := do
  return ⟨← key.expr.respelled move, key.order, move key.span⟩

/-- The statement with other names, and the names that are left over. -/
def Statement.respelled : Statement → Naming Statement
  | .select query order => do
    let query ← respelledQuery move query
    let order ← Naming.each (order.map (SortSpec.respelled move))
    return .select query order
  | .update target assignments filter => do
    let target ← target.respelled move
    let assignments ← Naming.each (assignments.map (Assignment.respelled move))
    let filter ← respelledFilter move filter
    return .update target assignments filter
  | .delete target filter => do
    let target ← target.respelled move
    let filter ← respelledFilter move filter
    return .delete target filter

/-! ## Lists and options -/

/-- An index is spelled anew where it was given. -/
theorem respelledOptional_eq (index : Option Expr) :
    respelledOptional move index = Naming.optional (index.map (Expr.respelled move)) := by
  cases index <;> rfl

/-- The part of a path with other names. -/
def PathPart.respelled (part : PathPart Expr) : Naming (PathPart Expr) := do
  let name ← respelledName move part.name
  let index ← Naming.optional (part.index.map (Expr.respelled move))
  return ⟨name, index⟩

/-- The parts of a path are spelled anew one by one. -/
theorem respelledParts_eq (parts : List (PathPart Expr)) :
    respelledParts move parts = Naming.each (parts.map (PathPart.respelled move)) := by
  induction parts with
  | nil => rfl
  | cons part rest inductionHypothesis =>
    obtain ⟨name, index⟩ := part
    rw [respelledParts, inductionHypothesis, respelledOptional_eq]
    rfl

/-- A path is spelled anew from its first part on. -/
theorem respelledPath_eq (route : Path Expr) : respelledPath move route = (do
    let first ← route.first.respelled move
    let rest ← Naming.each (route.rest.map (PathPart.respelled move))
    return ⟨first, rest, move route.span⟩) := by
  obtain ⟨⟨name, index⟩, rest, span⟩ := route
  rw [respelledPath, respelledParts_eq move rest, respelledOptional_eq]
  rfl

/-- A filter is spelled anew where it was given. -/
theorem respelledFilter_eq (filter : Option Predicate) :
    respelledFilter move filter = Naming.optional (filter.map (Predicate.respelled move)) := by
  cases filter <;> rfl

/-- The join with other names. -/
def Join.respelled (join : Join Predicate) : Naming (Join Predicate) := do
  let target ← respelledPath move join.target
  let label ← respelledLabel move join.label
  let predicate ← Naming.optional (join.predicate.map (Predicate.respelled move))
  return ⟨join.kind, join.fetch, target, label, predicate, move join.span⟩

/-- Joins are spelled anew one by one. -/
theorem respelledJoins_eq (joins : List (Join Predicate)) :
    respelledJoins move joins = Naming.each (joins.map (Join.respelled move)) := by
  induction joins with
  | nil => rfl
  | cons join rest inductionHypothesis =>
    obtain ⟨_, _, _, _, predicate, _⟩ := join
    rw [respelledJoins, inductionHypothesis, respelledFilter_eq]
    rfl

/-- The item of a from-clause with other names. -/
def FromSpace.respelled (space : FromSpace Predicate) : Naming (FromSpace Predicate) := do
  let root ← space.root.respelled move
  let joins ← Naming.each (space.joins.map (Join.respelled move))
  return ⟨root, joins, move space.span⟩

/-- Spaces are spelled anew one by one. -/
theorem respelledSpaces_eq (spaces : List (FromSpace Predicate)) :
    respelledSpaces move spaces = Naming.each (spaces.map (FromSpace.respelled move)) := by
  induction spaces with
  | nil => rfl
  | cons space rest inductionHypothesis =>
    obtain ⟨_, joins, _⟩ := space
    rw [respelledSpaces, inductionHypothesis, respelledJoins_eq]
    rfl

/-! ## Places -/

/-- An expression spelled anew stands at its moved place. -/
theorem Expr.span_respelled (expr : Expr) (names : List String) :
    (expr.respelled move names).1.span = move expr.span := by
  cases expr with
  | path route =>
    obtain ⟨⟨name, index⟩, rest, span⟩ := route
    rfl
  | _ => rfl

/-- A predicate spelled anew stands at its moved place. -/
theorem Predicate.span_respelled (predicate : Predicate) (names : List String) :
    (predicate.respelled move names).1.span = move predicate.span := by
  cases predicate <;> rfl

end ObjectQuery.Grammar

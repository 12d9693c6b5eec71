import ObjectQuery.Lowering.Join
import ObjectQuery.Model.Catalog
/-!
# The table groups in scope

While a query is lowered, every source in it has its group of tables, and so has every association
that a path has gone through. Each query level has a scope of its own; the groups of the enclosing
levels stay visible. A group belongs to one of the spaces of its level, and an association joins its
group to the space of the group that it starts from.
-/
namespace ObjectQuery

open Sql

/-- A group in scope and the number of its space. -/
structure ScopedGroup where
  space : Nat
  group : TableGroup

/-- The spaces of one query level, and its groups by name, the latest first. -/
structure LoweringScope where
  spaces : List TableSpace
  groups : List (String × ScopedGroup)

namespace LoweringScope

/-- A level without sources. -/
def empty : LoweringScope := ⟨[], []⟩

/-- The group of that name. -/
def find? (scope : LoweringScope) (label : String) : Option ScopedGroup := scope.groups.lookup label

/-- The level with one more group in a space. -/
def addGroup (scope : LoweringScope) (space : Nat) (group : TableGroup) : LoweringScope :=
  { scope with groups := (group.label, ⟨space, group⟩) :: scope.groups }

/-- The level with one more space, which has the group for its root. -/
def addSpace (scope : LoweringScope) (root : TableGroup) : LoweringScope :=
  { scope.addGroup scope.spaces.length root with spaces := scope.spaces ++ [⟨root, []⟩] }

/-- The level with one more join at the end of a space. -/
def addJoin (scope : LoweringScope) (space : Nat) (join : GroupJoin) : LoweringScope :=
  { scope.addGroup space join.group with
    spaces := scope.spaces.modify space fun found => { found with joins := found.joins ++ [join] } }

/-- The number of joins of a space. -/
def joinCount (scope : LoweringScope) (space : Nat) : Nat :=
  ((scope.spaces[space]?).map (·.joins.length)).getD 0

/-- The level with one more join in a space, before all but the first `count` of the joins there. -/
def insertJoin (scope : LoweringScope) (space count : Nat) (join : GroupJoin) : LoweringScope :=
  { scope with
    spaces := scope.spaces.modify space fun found =>
      { found with joins := found.joins.take count ++ join :: found.joins.drop count } }

end LoweringScope

/-- The levels from the inside out, and how many index accesses have been joined. -/
structure LoweringState where
  scopes : List LoweringScope
  indexJoins : Nat

/-- A step of the lowering. -/
abbrev Lowering := StateT LoweringState (Except LoweringError)

/-- What a statement is lowered with. -/
structure LoweringContext where
  catalog : Catalog
  policy : JoinPolicy

namespace LoweringContext

/-- The tables of an entity. -/
def shape (context : LoweringContext) (entity : String) : Except LoweringError TableShape :=
  match context.catalog.shape? entity with
  | some shape => .ok shape
  | none => .error (.missingShape entity)

/-- The root table of an entity. -/
def rootTable (context : LoweringContext) (entity : String) : Except LoweringError MappedTable := do
  let shape ← context.shape entity
  match shape.root? with
  | some table => return table
  | none => throw (.missingShape entity)

/-- The mapping of a collection. -/
def collection (context : LoweringContext) (entity label : String) :
    Except LoweringError CollectionMapping := do
  let shape ← context.shape entity
  match shape.collection? label with
  | some mapping => return mapping
  | none => throw (.unmapped entity label)

/-- The group of tables of an entity under a name. The further tables are joined to the root on
their keys. -/
def tableGroup (context : LoweringContext) (label entity : String) :
    Except LoweringError TableGroup := do
  let shape ← context.shape entity
  let table ← context.rootTable entity
  let root : TableSpec := ⟨table.name, TableGroup.tableLabel label 0⟩
  let secondary ← (shape.secondary.zipIdx 1).mapM fun (further, position) =>
    let spec : TableSpec := ⟨further.name, TableGroup.tableLabel label position⟩
    let condition := Sql.Expr.equals (.tableColumn root.label table.keyColumn)
      (.tableColumn spec.label further.keyColumn)
    tableJoin (context.policy.joinKind further.optional further.identifying) spec (some condition)
  return {
    label := label
    entity := entity
    root := root
    keyColumn := table.keyColumn
    secondary := secondary
    columns := shape.tables.zipIdx.flatMap fun (further, position) =>
      further.columns.map fun column =>
        ⟨column.label, TableGroup.tableLabel label position, column.column⟩ }

end LoweringContext

namespace Lowering

/-- The group of that name with its level, counted from the inside, in the innermost level that has
one. -/
def locate? (scopes : List LoweringScope) (label : String) : Option (Nat × ScopedGroup) :=
  scopes.zipIdx.findSome? fun (scope, level) => (scope.find? label).map (level, ·)

/-- The group of that name. -/
def group (label : String) : Lowering TableGroup := do
  match locate? (← get).scopes label with
  | some (_, found) => return found.group
  | none => throw (.unknownLabel label)

/-- Whether there is a group of that name. -/
def isKnown (label : String) : Lowering Bool := do
  return (locate? (← get).scopes label).isSome

/-- Changes the innermost level. -/
def changeScope (change : LoweringScope → LoweringScope) : Lowering Unit := do
  let state ← get
  match state.scopes with
  | [] => throw (.unsupported .noScope)
  | scope :: outer => set { state with scopes := change scope :: outer }

/-- The innermost level. -/
def currentScope : Lowering LoweringScope := do
  match (← get).scopes with
  | [] => throw (.unsupported .noScope)
  | scope :: _ => return scope

/-- Joins a group at the end of the space of the group of that name. -/
def attach (owner : String) (join : GroupJoin) : Lowering Unit := do
  let state ← get
  match locate? state.scopes owner with
  | none => throw (.unknownLabel owner)
  | some (level, found) =>
    set { state with scopes := state.scopes.modify level (·.addJoin found.space join) }

/-- Opens a level, does what is to be done in it, and closes it. The result comes with the level as
it was left. -/
def inScope {α : Type} (scope : LoweringScope) (body : Lowering α) :
    Lowering (α × LoweringScope) := do
  modify fun state => { state with scopes := scope :: state.scopes }
  let result ← body
  let state ← get
  match state.scopes with
  | [] => throw (.unsupported .noScope)
  | closed :: outer =>
    set { state with scopes := outer }
    return (result, closed)

end Lowering
end ObjectQuery

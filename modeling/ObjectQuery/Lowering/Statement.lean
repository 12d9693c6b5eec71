import ObjectQuery.Lowering.Expression
import ObjectQuery.Resolved.Narrowing
/-!
# Lowering statements

A query opens a level, turns its sources into groups of tables and its expressions into SQL, and
takes the joins that the expressions have asked for along with those of its from-clause. A change has
a level with its one table, and nothing in the statement may have asked for a join to it.
-/
namespace ObjectQuery.Lowering

open Sql
open Resolved (FromNode)

/-- The group of a source, which has to be one entity. -/
def sourceGroup (context : LoweringContext) (node : FromNode) : Except LoweringError TableGroup :=
  match node.entity with
  | .concrete entity => context.tableGroup node.label entity.name
  | .polymorphic name _ => .error (.unsupported (.polymorphicSource name node.label))

/-- The condition that a join implies by the way it is written. -/
def impliedCondition (context : LoweringContext) (origin : FromOrigin) (target : TableGroup) :
    Lowering (Option Sql.Expr) := do
  match origin with
  | .pathJoin owner path plural =>
    let condition ← associationCondition context owner path plural target
    return some condition
  | .root | .entityJoin => return none

/-- The join of a group in SQL. An inner join needs a condition to be one, and an outer join without
a condition has one that always holds. -/
def joinOf (kind : JoinKind) (target : TableGroup) (condition : Option Sql.Expr) :
    Except LoweringError GroupJoin :=
  match kind, condition with
  | .cross, condition => groupJoin .cross target condition
  | .inner, none => groupJoin .cross target none
  | .inner, some condition => groupJoin .inner target (some condition)
  | .leftOuter, none => groupJoin .leftOuter target (some (.literal (.boolean true)))
  | .leftOuter, some condition => groupJoin .leftOuter target (some condition)

mutual

/-- Lowers a predicate. -/
def predicate (context : LoweringContext) : Resolved.Predicate → Lowering Sql.Expr
  | .and left right => do
    let left ← predicate context left
    let right ← predicate context right
    return .binary .and left right
  | .or left right => do
    let left ← predicate context left
    let right ← predicate context right
    return .binary .or left right
  | .not operand => do
    let operand ← predicate context operand
    return .not operand
  | .compare op left right => do
    let left ← expr context left
    let right ← expr context right
    return .binary (.comparison op) left right
  | .inList test values negated => do
    let test ← expr context test
    let values ← values.mapM (expr context)
    return .inList test values negated
  | .inQuery test query negated => do
    let test ← expr context test
    let select ← subQuery context query
    return .inQuery test select.toQuery negated
  | .memberOf element collection negated => memberOf context element collection negated
  | .isNull operand negated => do
    let operand ← expr context operand
    return .isNull operand negated
  | .like operand pattern negated => do
    let operand ← expr context operand
    let pattern ← expr context pattern
    return .like operand pattern negated
  | .between operand low high negated => do
    let operand ← expr context operand
    let low ← expr context low
    let high ← expr context high
    return .between operand low high negated

/-- Lowers a condition that may be absent. -/
def filter (context : LoweringContext) : Option Resolved.Predicate → Lowering (Option Sql.Expr)
  | none => return none
  | some condition => do
    let condition ← predicate context condition
    return some condition

/-- Joins groups to a space. What the condition of a join asks for is joined after it. -/
def joins (context : LoweringContext) (space : Nat) :
    List (Resolved.Join Resolved.Predicate) → Lowering Unit
  | [] => return ()
  | ⟨kind, _, node, condition⟩ :: rest => do
    let target ← sourceGroup context node
    let implied ← impliedCondition context node.origin target
    changeScope (·.addGroup space target)
    let before ← currentScope
    let written ← filter context condition
    let join ← joinOf kind target (Sql.Expr.conjunction (implied.toList ++ written.toList))
    changeScope (·.insertJoin space (before.joinCount space) join)
    joins context space rest

/-- Opens a space for each item of a from-clause. -/
def spaces (context : LoweringContext) :
    List (Resolved.FromSpace Resolved.Predicate) → Lowering Unit
  | [] => return ()
  | ⟨node, joined⟩ :: rest => do
    let root ← sourceGroup context node
    let before ← currentScope
    changeScope (·.addSpace root)
    joins context before.spaces.length joined
    spaces context rest

/-- Lowers a sub-query in a level of its own. -/
def subQuery (context : LoweringContext) :
    Resolved.Query Resolved.Predicate → Lowering Select
  | ⟨items, distinct, selections, condition⟩ => do
    let ((chosen, condition), scope) ← inScope .empty do
      spaces context items
      let chosen ← selections.mapM (innerSelection context)
      let condition ← filter context condition
      return (chosen.flatten, condition)
    return ⟨distinct, chosen, scope.spaces, condition, []⟩

end

/-- Lowers a sort key. -/
def sortKey (context : LoweringContext) (key : Resolved.SortKey) :
    Lowering (Sql.SortKey Sql.Expr) := do
  let value ← expr context key.expr
  return ⟨value, key.order⟩

/-- Lowers the query of a whole statement with its sort keys. -/
def select (context : LoweringContext) (query : Resolved.QuerySpec)
    (order : List Resolved.SortKey) : Lowering Select := do
  let ((chosen, condition, keys), scope) ← inScope .empty do
    spaces context query.spaces
    let chosen ← query.selections.mapM (topSelection context)
    let condition ← filter context query.filter
    let keys ← order.mapM (sortKey context)
    return (chosen.flatten, condition, keys)
  return ⟨query.distinct, chosen, scope.spaces, condition, keys⟩

/-- The group of the one table of a change, which goes by its own name. -/
def targetGroup (context : LoweringContext) (verb : BulkVerb) (target : FromNode) :
    Except LoweringError TableGroup := do
  let entity ← match target.entity with
    | .concrete entity => pure entity.name
    | .polymorphic name _ => throw (.unsupported (.polymorphicTarget verb name))
  let shape ← context.shape entity
  match shape.tables with
  | [table] =>
    if table.isDerived then throw (.unsupported (.derivedTarget verb entity))
    return {
      label := target.label
      entity := entity
      root := ⟨table.name, table.name⟩
      keyColumn := table.keyColumn
      secondary := []
      columns := table.columns.map fun column => ⟨column.label, table.name, column.column⟩ }
  | tables => throw (.unsupported (.manyTables verb entity tables.length))

/-- Does what is to be done in the level of a change and checks that nothing has been joined. -/
def inTargetScope {α : Type} (verb : BulkVerb) (group : TableGroup) (body : Lowering α) :
    Lowering α := do
  let (result, scope) ← inScope (LoweringScope.empty.addSpace group) body
  if scope.spaces.any (!·.joins.isEmpty) then throw (.unsupported (.joinedTarget verb))
  return result

/-- Lowers an assignment. -/
def assignment (context : LoweringContext) (given : Resolved.Assignment) :
    Lowering (String × Sql.Expr) := do
  let owner ← group given.target.source
  match owner.binding? given.target.last.label with
  | none => throw (.unmapped owner.entity given.target.last.label)
  | some binding =>
    let value ← expr context given.value
    return (binding.column, value)

/-- Lowers a statement whose root is one entity. -/
def statement (context : LoweringContext) : Resolved.Statement → Lowering Sql.Statement
  | .select query order => do
    let lowered ← select context query order
    return .select lowered
  | .update target assignments condition => do
    let group ← targetGroup context .update target
    inTargetScope .update group do
      let assignments ← assignments.mapM (assignment context)
      let condition ← filter context condition
      return .update ⟨group.root.name, assignments, condition⟩
  | .delete target condition => do
    let group ← targetGroup context .delete target
    inTargetScope .delete group do
      let condition ← filter context condition
      return .delete ⟨group.root.name, condition⟩

end ObjectQuery.Lowering

namespace ObjectQuery.Resolved

/-- The SQL form of a statement whose root is one entity. -/
def Statement.lower (context : LoweringContext) (statement : Statement) :
    Except LoweringError Sql.Statement :=
  (Lowering.statement context statement).run' ⟨[], 0⟩

/-- The SQL statements that a statement means, one for each implementor of its root. -/
def Statement.toSql (context : LoweringContext) (statement : Statement) :
    Except LoweringError (List Sql.Statement) :=
  statement.split.mapM (Statement.lower context)

end ObjectQuery.Resolved

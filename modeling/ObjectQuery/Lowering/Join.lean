import ObjectQuery.Lowering.Error
import ObjectQuery.Sql.Statement
/-!
# Joins of tables and groups

A cross join has no condition. Which kind of join the further tables of an entity get is a matter of
policy, except that the tables in which every entity has a row are always inner joined.
-/
namespace ObjectQuery

open Sql

/-- Refuses a condition on a cross join. -/
def checkJoin (kind : JoinKind) (label : String) (condition : Option Sql.Expr) :
    Except LoweringError Unit :=
  if kind = .cross ∧ condition.isSome then .error (.crossJoinCondition label) else .ok ()

/-- A join of a table to its group. -/
def tableJoin (kind : JoinKind) (table : TableSpec) (condition : Option Sql.Expr) :
    Except LoweringError TableJoin := do
  checkJoin kind table.label condition
  return ⟨kind, table, condition⟩

/-- A join of a group to its space. -/
def groupJoin (kind : JoinKind) (group : TableGroup) (condition : Option Sql.Expr) :
    Except LoweringError GroupJoin := do
  checkJoin kind group.label condition
  return ⟨kind, group, condition⟩

/-- How further tables are joined: always outer, always inner, or outer only if the model says that
rows may be missing. -/
inductive JoinPolicy where
  | outer
  | inner
  | mapped
  deriving DecidableEq, Repr

namespace JoinPolicy

/-- The word for a policy. -/
def text : JoinPolicy → String
  | outer => "outer"
  | inner => "inner"
  | mapped => "mapped"

/-- The policy that a word stands for. -/
def ofText? (word : String) : Option JoinPolicy :=
  [outer, inner, mapped].find? (·.text == word)

/-- The join of a further table. -/
def joinKind (policy : JoinPolicy) (optional identifying : Bool) : JoinKind :=
  if identifying then .inner
  else match policy with
    | outer => .leftOuter
    | inner => .inner
    | mapped => if optional then .leftOuter else .inner

end JoinPolicy
end ObjectQuery

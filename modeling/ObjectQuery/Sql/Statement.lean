import ObjectQuery.Document.Value
import ObjectQuery.Sql.Table
/-!
# Statements and plans

A statement is a query over spaces, or a change to the rows of one table, which has no other name
there than its own. A plan is what is needed to run a statement: its text and, for each placeholder,
the parameter to supply.
-/
namespace ObjectQuery.Sql

open Token
open Document (Value)

/-- Sets columns of the rows of a table. -/
structure Update where
  table : String
  assignments : List (String × Expr)
  filter : Option Expr
  deriving Repr

/-- The tokens of an update. -/
def Update.tokens (update : Update) : List Token :=
  [keyword .update, space, identifier update.table] ++ spaced .setKw ++
    separated (update.assignments.map fun (column, value) =>
      [identifier column, space, symbol .eq, space] ++ value.tokens) ++
    conditionTokens .whereKw update.filter

/-- Removes rows of a table. -/
structure Delete where
  table : String
  filter : Option Expr
  deriving Repr

/-- The tokens of a delete. -/
def Delete.tokens (delete : Delete) : List Token :=
  [keyword .deleteFrom, space, identifier delete.table] ++ conditionTokens .whereKw delete.filter

/-- A complete statement. -/
inductive Statement where
  | select (select : Select)
  | update (update : Update)
  | delete (delete : Delete)
  deriving Repr

/-- A parameter to supply for the placeholder at a position, counted from one. -/
structure Binder where
  parameter : ParameterKind
  position : Nat
  type : Option DataType
  deriving DecidableEq, Repr

/-- The text of a statement and what to supply to it. -/
structure Plan where
  sql : String
  binders : List Binder
  deriving DecidableEq, Repr

namespace Statement

/-- The tokens of a statement. -/
def tokens : Statement → List Token
  | select query => query.toQuery.tokens
  | update change => change.tokens
  | delete removal => removal.tokens

/-- The text of a statement. -/
def text (statement : Statement) : String := render statement.tokens

/-- The plan of a statement. -/
def plan (statement : Statement) : Plan :=
  ⟨statement.text, (Token.parameters statement.tokens).zipIdx 1 |>.map fun (parameter, position) =>
    ⟨parameter.kind, position, parameter.type⟩⟩

/-- The parameters of statements, each once, in the order of their first placeholders. -/
def bindings (statements : List Statement) : List Parameter :=
  Parameter.distinct (statements.flatMap fun statement => Token.parameters statement.tokens)

end Statement

/-- The binder as a document. -/
def Binder.toValue (binder : Binder) : Value :=
  .record (
    [("parameter", .text binder.parameter.text), ("position", .integer binder.position)] ++
    (binder.type.map fun type => ("ty", type.toValue)).toList)

/-- The plan as a document. -/
def Plan.toValue (plan : Plan) : Value :=
  .record [("sql", .text plan.sql), ("binders", .list (plan.binders.map (·.toValue)))]

end ObjectQuery.Sql

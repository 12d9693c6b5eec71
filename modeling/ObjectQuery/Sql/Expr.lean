import ObjectQuery.Grammar.Tree
import ObjectQuery.Sql.Token
/-!
# SQL expressions and queries

Expressions contain queries and queries contain expressions. The query types take the type of their
expressions as a parameter, and `Expr` is the one recursive type.

A query has one table after `from` and a list of joins. Conditions and values are not told apart, and
there is no node for parentheses: they are put where the operators need them.
-/
namespace ObjectQuery.Sql

/-- A table in a query, with the name it goes by there. A derived one is a query in parentheses. -/
structure TableRef where
  name : String
  label : Option String
  derived : Bool
  deriving DecidableEq, Repr

/-- One item of a select list. -/
structure Selection (ε : Type) where
  expr : ε
  label : Option String
  deriving Repr

/-- One join of a query. -/
structure Join (ε : Type) where
  kind : JoinKind
  table : TableRef
  condition : Option ε
  deriving Repr

/-- One sort key. -/
structure SortKey (ε : Type) where
  expr : ε
  order : SortOrder
  deriving Repr

/-- A query over expressions of type `ε`. -/
structure Query (ε : Type) where
  distinct : Bool
  selections : List (Selection ε)
  source : Option TableRef
  joins : List (Join ε)
  filter : Option ε
  order : List (SortKey ε)
  deriving Repr

/-- The operators between two operands. -/
inductive BinaryOp where
  | and
  | or
  | comparison (op : ComparisonOp)
  | arithmetic (op : ArithmeticOp)
  deriving DecidableEq, Repr

/-- An expression. The star stands only as the argument of a function. -/
inductive Expr where
  | column (table : Option String) (name : String)
  | literal (value : Literal)
  | parameter (parameter : Parameter)
  | binary (op : BinaryOp) (left right : Expr)
  | not (operand : Expr)
  | negate (operand : Expr)
  | call (name : String) (distinct : Bool) (arguments : List Expr)
  | inList (test : Expr) (values : List Expr) (negated : Bool)
  | inQuery (test : Expr) (query : Query Expr) (negated : Bool)
  | between (operand low high : Expr) (negated : Bool)
  | isNull (operand : Expr) (negated : Bool)
  | like (operand pattern : Expr) (negated : Bool)
  | star
  deriving Repr

namespace BinaryOp

/-- How tightly the operator binds. -/
def strength : BinaryOp → Nat
  | or => 1
  | and => 2
  | comparison _ => 3
  | arithmetic .add | arithmetic .subtract => 4
  | arithmetic .multiply | arithmetic .divide | arithmetic .modulo => 5

/-- Whether the grouping of a row of the operator does not matter. -/
def isAssociative : BinaryOp → Bool
  | and | or | arithmetic .add | arithmetic .multiply => true
  | _ => false

/-- The word or sign of the operator. -/
def token : BinaryOp → Token
  | and => .keyword .andKw
  | or => .keyword .orKw
  | comparison .eq => .symbol .eq
  | comparison .ne => .symbol .ne
  | comparison .lt => .symbol .lt
  | comparison .le => .symbol .le
  | comparison .gt => .symbol .gt
  | comparison .ge => .symbol .ge
  | arithmetic .add => .symbol .plus
  | arithmetic .subtract => .symbol .minus
  | arithmetic .multiply => .symbol .star
  | arithmetic .divide => .symbol .slash
  | arithmetic .modulo => .symbol .percent

end BinaryOp

namespace Expr

/-- A column of a table. -/
def tableColumn (table name : String) : Expr := column (some table) name

/-- Both operands are equal. -/
def equals (left right : Expr) : Expr := binary (.comparison .eq) left right

/-- Both operands hold. -/
def both (left right : Expr) : Expr := binary .and left right

/-- All conditions hold; there is none for no condition. -/
def conjunction : List Expr → Option Expr
  | [] => none
  | first :: rest => some (rest.foldl both first)

/-- The number of rows. -/
def countStar : Expr := call "COUNT" false [star]

end Expr
end ObjectQuery.Sql

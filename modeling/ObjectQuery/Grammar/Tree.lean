import ObjectQuery.Number.Binary64
import ObjectQuery.Source.Span
/-!
# Parse trees

What a query text says, before any name in it is looked up. Every node knows the span it was read
from; the parentheses around an expression or predicate belong to no span.

Sub-queries stand inside predicates and predicates inside queries. The query types therefore take
the type of their predicates as a parameter, and `Predicate` is the one recursive type that ties the
knot.
-/
namespace ObjectQuery

/-- A constant in a query. -/
inductive Literal where
  | integer (value : Int)
  | decimal (value : Number.Binary64)
  | text (content : String)
  | boolean (value : Bool)
  | null
  deriving DecidableEq, Repr

/-- The arithmetic operators. -/
inductive ArithmeticOp where
  | add | subtract | multiply | divide | modulo
  deriving DecidableEq, Repr

/-- The comparison operators. -/
inductive ComparisonOp where
  | eq | ne | lt | le | gt | ge
  deriving DecidableEq, Repr

/-- How an item of a from-clause is joined to those before it. -/
inductive JoinKind where
  | inner | leftOuter | cross
  deriving DecidableEq, Repr

/-- The two directions of a sort key. -/
inductive SortOrder where
  | ascending | descending
  deriving DecidableEq, Repr

namespace Grammar

/-- One name of a path, with the index expression in brackets after it if there is one. -/
structure PathPart (ε : Type) where
  name : Spanned String
  index : Option ε

/-- Names joined by dots; there is at least one. -/
structure Path (ε : Type) where
  first : PathPart ε
  rest : List (PathPart ε)
  span : Span

namespace Path

variable {ε : Type}

/-- All parts from left to right. -/
def parts (path : Path ε) : List (PathPart ε) := path.first :: path.rest

/-- The names joined by dots, with an empty pair of brackets after each indexed one. -/
def dotted (path : Path ε) : String :=
  ".".intercalate (path.parts.map fun part =>
    if part.index.isSome then part.name.value ++ "[]" else part.name.value)

/-- Whether no part is indexed. -/
def isSimple (path : Path ε) : Bool := path.parts.all (·.index.isNone)

end Path

/-- An expression. A call without argument is one of a star. -/
inductive Expr where
  | path (path : Path Expr)
  | literal (span : Span) (value : Literal)
  | named (span : Span) (name : String)
  | positional (span : Span) (position : Option Nat)
  | arithmetic (span : Span) (op : ArithmeticOp) (left right : Expr)
  | negate (span : Span) (operand : Expr)
  | call (span : Span) (name : Spanned String) (distinct : Bool) (argument : Option Expr)

/-- The place of an expression. -/
def Expr.span : Expr → Span
  | path route => route.span
  | literal span _ | named span _ | positional span _ | arithmetic span _ _ _ | negate span _
  | call span _ _ _ => span

/-- One item of a select list. -/
structure Selection where
  expr : Expr
  label : Option (Spanned String)
  span : Span

/-- The select list. -/
structure SelectClause where
  distinct : Bool
  selections : List Selection
  span : Span

/-- An entity, named in full, and the name by which the statement refers to it. -/
structure RootRef where
  entity : Spanned String
  label : Option (Spanned String)
  span : Span

/-- A join. The target is an association path or the name of an entity; which of them is for name
resolution to say. -/
structure Join (π : Type) where
  kind : JoinKind
  fetch : Bool
  target : Path Expr
  label : Option (Spanned String)
  predicate : Option π
  span : Span

/-- One item of a from-clause: an entity and the joins that follow it. -/
structure FromSpace (π : Type) where
  root : RootRef
  joins : List (Join π)
  span : Span

/-- The from-clause: items separated by commas. -/
structure FromClause (π : Type) where
  spaces : List (FromSpace π)
  span : Span

/-- A query over predicates of type `π`, as a statement or in parentheses after `in`. -/
structure Query (π : Type) where
  select : Option SelectClause
  sources : FromClause π
  filter : Option π
  span : Span

/-- A condition. -/
inductive Predicate where
  | and (span : Span) (left right : Predicate)
  | or (span : Span) (left right : Predicate)
  | not (span : Span) (operand : Predicate)
  | compare (span : Span) (op : ComparisonOp) (left right : Expr)
  | inList (span : Span) (test : Expr) (values : List Expr) (negated : Bool)
  | inQuery (span : Span) (test : Expr) (query : Query Predicate) (negated : Bool)
  | memberOf (span : Span) (element : Expr) (collection : Path Expr) (negated : Bool)
  | isNull (span : Span) (operand : Expr) (negated : Bool)
  | like (span : Span) (operand pattern : Expr) (negated : Bool)
  | between (span : Span) (operand low high : Expr) (negated : Bool)

/-- The place of a predicate. -/
def Predicate.span : Predicate → Span
  | and span _ _ | or span _ _ | not span _ | compare span _ _ _ | inList span _ _ _
  | inQuery span _ _ _ | memberOf span _ _ _ | isNull span _ _ | like span _ _ _
  | between span _ _ _ _ => span

/-- A query with its predicates. -/
abbrev QuerySpec := Query Predicate

/-- One assignment of an update. -/
structure Assignment where
  target : Path Expr
  value : Expr
  span : Span

/-- One sort key. -/
structure SortSpec where
  expr : Expr
  order : Option SortOrder
  span : Span

/-- A complete statement. -/
inductive Statement where
  | select (query : QuerySpec) (order : List SortSpec)
  | update (target : RootRef) (assignments : List Assignment) (filter : Option Predicate)
  | delete (target : RootRef) (filter : Option Predicate)

end Grammar
end ObjectQuery

import ObjectQuery.Grammar.Tree
import ObjectQuery.Parameter
import ObjectQuery.Resolution.FromIndex
/-!
# Resolved statements

A statement in which every name has been looked up: sources know their entity, paths know the source
they start from and the types along the way, and expressions know their type as far as it can be
known. Sources are referred to by name alone, so a resolved statement stands for itself.
-/
namespace ObjectQuery

/-- The functions of the query language. -/
inductive Function where
  | count | sum | avg | min | max | upper | lower | length | abs
  deriving DecidableEq, Repr

namespace Function

/-- The name in a statement. -/
def sqlName : Function → String
  | count => "COUNT"
  | sum => "SUM"
  | avg => "AVG"
  | min => "MIN"
  | max => "MAX"
  | upper => "UPPER"
  | lower => "LOWER"
  | length => "LENGTH"
  | abs => "ABS"

/-- Every function once. -/
def all : List Function := [count, sum, avg, min, max, upper, lower, length, abs]

/-- The function that a word names, in any ASCII case. -/
def ofName? (word : String) : Option Function :=
  all.find? fun function => function.sqlName.toList == word.toList.map Char.toUpper

/-- Whether the function combines the values of many rows. -/
def isAggregate : Function → Bool
  | count | sum | avg | min | max => true
  | _ => false

end Function

/-- The basic type of a literal. Integers of 32 bits have a type of their own. -/
def Literal.type? : Literal → Option BasicType
  | integer value =>
    if -2147483648 ≤ value ∧ value ≤ 2147483647 then some .integer else some .long
  | decimal _ => some .double
  | text _ => some .string
  | boolean _ => some .boolean
  | null => none

namespace Resolved

/-- One attribute on a path: its type in the model, an index if it has one, and the type after it, which
is that of the elements if there is an index. -/
structure Segment (ε : Type) where
  label : String
  declared : DataType
  index : Option ε
  type : DataType

/-- The type of the index, if there is one. -/
def Segment.indexType? {ε : Type} (segment : Segment ε) : Option DataType :=
  if segment.index.isSome then segment.declared.index? else none

/-- A path: the source it starts from, at least one attribute, the last of which is apart, and the type
of the path as a whole. -/
structure Reference (ε : Type) where
  source : String
  sourceType : DataType
  init : List (Segment ε)
  last : Segment ε
  type : DataType

namespace Reference

variable {ε : Type}

/-- All segments from left to right. -/
def segments (reference : Reference ε) : List (Segment ε) := reference.init ++ [reference.last]

/-- The names joined by dots, with an empty pair of brackets after each indexed one. -/
def dotted (reference : Reference ε) : String :=
  ".".intercalate (reference.source :: reference.segments.map fun segment =>
    if segment.index.isSome then segment.label ++ "[]" else segment.label)

end Reference

/-- An expression. A call without argument is one of a star. -/
inductive Expr where
  | path (reference : Reference Expr)
  /-- A source as a whole. -/
  | element (label : String) (type : DataType)
  | literal (value : Literal)
  | parameter (parameter : Parameter)
  | arithmetic (op : ArithmeticOp) (left right : Expr) (type : Option BasicType)
  | negate (operand : Expr)
  | call (function : Function) (distinct : Bool) (argument : Option Expr) (type : Option DataType)

/-- The type of an expression, as far as it is known. -/
def Expr.type? : Expr → Option DataType
  | path reference => some reference.type
  | element _ type => some type
  | literal value => value.type?.map .basic
  | parameter bound => bound.type
  | arithmetic _ _ _ type => type.map .basic
  | negate operand => operand.type?
  | call _ _ _ type => type

/-- A source of a statement. -/
structure FromNode where
  label : String
  generated : Bool
  entity : EntityReference
  origin : FromOrigin
  deriving DecidableEq, Repr

namespace FromNode

/-- The source that an element of a from-clause is. -/
def ofElement (element : FromElement) : FromNode :=
  ⟨element.label, element.generated, element.entity, element.origin⟩

/-- The source as a type. -/
def type (node : FromNode) : DataType := node.entity.type

end FromNode

/-- A join of a source to those before it. -/
structure Join (π : Type) where
  kind : JoinKind
  fetch : Bool
  target : FromNode
  predicate : Option π

/-- One item of a from-clause. -/
structure FromSpace (π : Type) where
  root : FromNode
  joins : List (Join π)

/-- One item of a select list. -/
structure Selection where
  expr : Expr
  label : Option String

/-- A query over predicates of type `π`. -/
structure Query (π : Type) where
  spaces : List (FromSpace π)
  distinct : Bool
  selections : List Selection
  filter : Option π

/-- All sources of a query in order. -/
def Query.elements {π : Type} (query : Query π) : List FromNode :=
  query.spaces.flatMap fun space => space.root :: space.joins.map (·.target)

/-- A condition. The collection of a membership test is a path to a collection. -/
inductive Predicate where
  | and (left right : Predicate)
  | or (left right : Predicate)
  | not (operand : Predicate)
  | compare (op : ComparisonOp) (left right : Expr)
  | inList (test : Expr) (values : List Expr) (negated : Bool)
  | inQuery (test : Expr) (query : Query Predicate) (negated : Bool)
  | memberOf (element : Expr) (collection : Reference Expr) (negated : Bool)
  | isNull (operand : Expr) (negated : Bool)
  | like (operand pattern : Expr) (negated : Bool)
  | between (operand low high : Expr) (negated : Bool)

/-- A query with its predicates. -/
abbrev QuerySpec := Query Predicate

/-- One sort key. -/
structure SortKey where
  expr : Expr
  order : SortOrder

/-- One assignment of an update. -/
structure Assignment where
  target : Reference Expr
  value : Expr

/-- A complete statement. -/
inductive Statement where
  | select (query : QuerySpec) (order : List SortKey)
  | update (target : FromNode) (assignments : List Assignment) (filter : Option Predicate)
  | delete (target : FromNode) (filter : Option Predicate)

/-- The root of a statement: the first source of a query, or the target of a change. -/
def Statement.root? : Statement → Option FromNode
  | select query _ => query.spaces.head?.map (·.root)
  | update target _ _ | delete target _ => some target

/-- The condition of a statement. -/
def Statement.filter? : Statement → Option Predicate
  | select query _ => query.filter
  | update _ _ filter | delete _ filter => filter

/-- The join, unless it is a cross join with a condition, be it written or implied by a path. -/
def Join.make (kind : JoinKind) (fetch : Bool) (target : FromNode) (predicate : Option Predicate) :
    Except ResolutionError (Join Predicate) :=
  if kind = .cross ∧ predicate.isSome then
    .error (.illegalUse (.crossJoinCondition target.label))
  else match kind, target.origin with
    | .cross, .pathJoin owner path _ => .error (.illegalUse (.crossJoinPath owner path))
    | _, _ => .ok ⟨kind, fetch, target, predicate⟩

/-- The parts of a select statement while they are put together. -/
structure SelectParts where
  query : Option QuerySpec
  order : Option (List SortKey)

namespace SelectParts

/-- No part is there. -/
def empty : SelectParts := ⟨none, none⟩

/-- Adds the query, once. -/
def withQuery (parts : SelectParts) (query : QuerySpec) : Except ResolutionError SelectParts :=
  if parts.query.isSome then .error (.misuse .repeatedQuery)
  else .ok { parts with query := some query }

/-- Adds the sort keys, once. -/
def withOrder (parts : SelectParts) (order : List SortKey) : Except ResolutionError SelectParts :=
  if parts.order.isSome then .error (.misuse .repeatedOrder)
  else .ok { parts with order := some order }

/-- The statement, which needs a query. -/
def build (parts : SelectParts) : Except ResolutionError Statement :=
  match parts.query with
  | none => .error (.misuse .noQuery)
  | some query => .ok (.select query (parts.order.getD []))

end SelectParts
end Resolved
end ObjectQuery

import ObjectQuery.Model.Entity
import ObjectQuery.Resolution.Error
/-!
# The sources of a statement

Before any expression is looked at, all sources of a statement are registered: the items of its
from-clause and of the from-clauses of its sub-queries. Each from-clause is a scope inside that of
the enclosing query. A name is visible in the scope that registered it and in the scopes inside that
one.

Scopes and elements are numbered in the order of their registration, and tables say which number
belongs to a name or to the span that something was read from. A scope lists the scopes inside it and
the elements of its spaces by their numbers. Three calls keep all of this up to date: one opens a
scope, one opens a space and one registers an element. A call that is refused is refused before it
has changed anything.
-/
namespace ObjectQuery

/-- How an element came into its from-clause. -/
inductive FromOrigin where
  /-- As the first of an item. -/
  | root
  /-- By a join that names an entity. -/
  | entityJoin
  /-- By a join along associations of another element, the last of which may be a collection. -/
  | pathJoin (owner : String) (path : List String) (plural : Bool)
  deriving DecidableEq, Repr

/-- An element of a from-clause. -/
structure FromElement where
  label : String
  generated : Bool
  entity : EntityReference
  origin : FromOrigin
  clause : Nat
  space : Nat
  span : Span
  deriving DecidableEq, Repr

namespace FromElement

/-- The element as a type. -/
def type (element : FromElement) : DataType := element.entity.type

/-- Whether the element has the attribute. -/
def exposes (element : FromElement) (name : String) : Bool :=
  (element.entity.attribute? name).isSome

end FromElement

/-- A from-clause: the scope around it, the scopes opened inside it, the elements of each of its items,
and its place. -/
structure FromScope where
  parent : Option Nat
  children : List Nat
  spaces : List (List Nat)
  span : Span
  deriving DecidableEq, Repr

/-- The scopes and elements registered so far, by number, and the tables that numbers are looked up in:
of elements by name, of scopes by place and of elements by place. An entry of a table hides those
behind it that have the same key. -/
structure FromIndex where
  scopes : List FromScope
  elements : List FromElement
  labels : List (String × Nat)
  scopePlaces : List (Span × Nat)
  elementPlaces : List (Span × Nat)
  deriving DecidableEq, Repr

/-- A call that changes an index. What it has changed before it is refused stays changed. -/
abbrev Indexing := ExceptT ResolutionError (StateM FromIndex)

namespace Indexing

/-- The scope of that number, which has to be there. -/
def scope (clause : Nat) : Indexing FromScope := do
  match (← get).scopes[clause]? with
  | some scope => return scope
  | none => throw (.misuse (.unknownClause clause))

/-- Opens a scope; its number is that of the scopes before it. The scope around it lists it. -/
def addScope (parent : Option Nat) (span : Span) : StateM FromIndex Nat := do
  let number := (← get).scopes.length
  modify fun index => { index with scopes := index.scopes ++ [⟨parent, [], [], span⟩] }
  if let some outer := parent then
    modify fun index => { index with
      scopes := index.scopes.modify outer fun scope =>
        { scope with children := scope.children ++ [number] } }
  modify fun index => { index with scopePlaces := (span, number) :: index.scopePlaces }
  return number

/-- Opens a space of a scope; its number is that of the spaces before it. -/
def addSpace (clause : Nat) : Indexing Nat := do
  let found ← scope clause
  modify fun index => { index with
    scopes := index.scopes.modify clause fun scope => { scope with spaces := scope.spaces ++ [[]] } }
  return found.spaces.length

/-- Enters an element and its number: in its space, under its name, under its place and in the list of
all elements. -/
def enter (element : FromElement) (number : Nat) : StateM FromIndex Unit := do
  modify fun index => { index with
    scopes := index.scopes.modify element.clause fun scope =>
      { scope with spaces := scope.spaces.modify element.space (· ++ [number]) } }
  modify fun index => { index with labels := (element.label, number) :: index.labels }
  modify fun index => { index with elementPlaces := (element.span, number) :: index.elementPlaces }
  modify fun index => { index with elements := index.elements ++ [element] }

/-- Registers an element in its space. No two elements of a statement have the same name. -/
def register (element : FromElement) : Indexing Nat := do
  let index ← get
  if (index.labels.lookup element.label).isSome then throw (.duplicateAlias element.label)
  let home ← scope element.clause
  unless element.space < home.spaces.length do throw (.misuse (.unknownSpace element.space))
  enter element index.elements.length
  return index.elements.length

/-- The index after a call and the number that the call returns, unless it is refused. -/
def on (call : Indexing Nat) (index : FromIndex) : Except ResolutionError (FromIndex × Nat) :=
  match call.run.run index with
  | (.ok number, after) => .ok (after, number)
  | (.error refusal, _) => .error refusal

end Indexing

namespace FromIndex

/-- Nothing is registered. -/
def empty : FromIndex := ⟨[], [], [], [], []⟩

/-- The index with one more scope, and the number of the scope. -/
def addScope (index : FromIndex) (parent : Option Nat) (span : Span) : FromIndex × Nat :=
  ((Indexing.addScope parent span).run index).swap

/-- The index with one more space in a scope, and the number of the space. -/
def addSpace (index : FromIndex) (clause : Nat) : Except ResolutionError (FromIndex × Nat) :=
  (Indexing.addSpace clause).on index

/-- The index with one more element, and the number of the element. -/
def register (index : FromIndex) (element : FromElement) :
    Except ResolutionError (FromIndex × Nat) :=
  (Indexing.register element).on index

/-- The element of that name, wherever it is registered. -/
def find? (index : FromIndex) (label : String) : Option FromElement :=
  (index.labels.lookup label).bind (index.elements[·]?)

/-- The scope of that number. -/
def scope? (index : FromIndex) (clause : Nat) : Option FromScope := index.scopes[clause]?

/-- The scope around a scope. -/
def parent? (index : FromIndex) (clause : Nat) : Option Nat :=
  (index.scope? clause).bind (·.parent)

/-- The scope, the one around it, and so on, at most `fuel` of them. -/
def enclosingWithin (index : FromIndex) : Nat → Nat → List Nat
  | 0, _ => []
  | fuel + 1, clause => clause :: match index.parent? clause with
    | none => []
    | some parent => enclosingWithin index fuel parent

/-- The scope and all scopes around it, from the inside out. A parent is registered before its
children, so there are no more than all scopes and the one to start from. -/
def enclosing (index : FromIndex) (clause : Nat) : List Nat :=
  index.enclosingWithin (index.scopes.length + 1) clause

/-- The element of that name, if it is visible in the scope. -/
def findVisible? (index : FromIndex) (clause : Nat) (label : String) : Option FromElement :=
  (index.find? label).filter fun element => (index.enclosing clause).contains element.clause

/-- The numbers of the elements of each space of a scope. -/
def spaces (index : FromIndex) (clause : Nat) : List (List Nat) :=
  ((index.scope? clause).map (·.spaces)).getD []

/-- The numbers of the scopes that have been opened inside a scope. -/
def children (index : FromIndex) (clause : Nat) : List Nat :=
  ((index.scope? clause).map (·.children)).getD []

/-- The elements of a scope, space by space. -/
def elementsOf (index : FromIndex) (clause : Nat) : List FromElement :=
  (index.spaces clause).flatten.filterMap (index.elements[·]?)

/-- The element that has the attribute in the innermost scope where one has it. If several there
have it, the name says too little. -/
def findExposing (index : FromIndex) (clause : Nat) (name : String) :
    Except ResolutionError (Option FromElement) :=
  let found := (index.enclosing clause).map fun scope =>
    (index.elementsOf scope).filter (·.exposes name)
  match found.find? (!·.isEmpty) with
  | none => .ok none
  | some [element] => .ok (some element)
  | some elements => .error (.ambiguousAttribute name (elements.map (·.label)))

/-- The number of the latest scope registered for a place. -/
def scopeAt? (index : FromIndex) (span : Span) : Option Nat := index.scopePlaces.lookup span

/-- The latest element registered for a place. -/
def elementAt? (index : FromIndex) (span : Span) : Option FromElement :=
  (index.elementPlaces.lookup span).bind (index.elements[·]?)

end FromIndex
end ObjectQuery

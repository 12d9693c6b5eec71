import ObjectQuery.Grammar.Tree
import ObjectQuery.Model.Catalog
import ObjectQuery.Resolution.FromIndex
/-!
# Registering the sources of a statement

One walk over a parse tree in the order of the text registers every from-clause, every item of it
and every join, sub-queries included. Nothing else is resolved. Sources without a name get one that
no text can spell.

The walk keeps what it has registered when it fails, so that the index shows how far it came.
-/
namespace ObjectQuery

open Grammar (RootRef Path PathPart)

/-- The name of the source without a name that has `number` such sources before it. -/
def generatedLabel (number : Nat) : String := "<gen:" ++ toString number ++ ">"

/-- Whether a name has the form of a generated one. -/
def isGeneratedLabel (label : String) : Bool :=
  "<gen:".toList.isPrefixOf label.toList && label.toList.getLast? == some '>'

/-- The index so far, and how many names have been generated. -/
structure Registry where
  index : FromIndex
  generated : Nat
  deriving DecidableEq, Repr

/-- Nothing is registered. -/
def Registry.empty : Registry := ⟨.empty, 0⟩

/-- A step of the walk. A failure keeps the registry. -/
abbrev Registering := ExceptT ResolutionError (StateM Registry)

namespace Registering

/-- Takes the next generated name. -/
def nextLabel : Registering String := do
  let registry ← get
  set { registry with generated := registry.generated + 1 }
  return generatedLabel registry.generated

/-- Makes a call that changes the index. -/
def changeIndex (call : Indexing Nat) : Registering Nat := do
  let registry ← get
  let (outcome, index) := call.run.run registry.index
  set { registry with index := index }
  match outcome with
  | .ok number => return number
  | .error refusal => throw refusal

/-- Opens a scope. -/
def addScope (parent : Option Nat) (span : Span) : Registering Nat :=
  changeIndex (liftM (Indexing.addScope parent span))

/-- Opens a space. -/
def addSpace (clause : Nat) : Registering Nat := changeIndex (Indexing.addSpace clause)

/-- Registers an element under the name it is given, or else under a generated one. -/
def addElement (label : Option (Spanned String)) (entity : EntityReference) (origin : FromOrigin)
    (clause space : Nat) (span : Span) : Registering Unit := do
  let (name, generated) ← match label with
    | some label => pure (label.value, false)
    | none => do
      let name ← nextLabel
      pure (name, true)
  let _ ← changeIndex (Indexing.register ⟨name, generated, entity, origin, clause, space, span⟩)

end Registering

namespace Sources

open Registering

/-- What the name of an entity stands for. -/
def resolveEntity (catalog : Catalog) (name : String) : Except ResolutionError EntityReference :=
  match catalog.resolve? name with
  | some entity => .ok entity
  | none => .error (.unresolvedType name)

/-- The entity that an attribute leads to, and whether it is a collection, which only the last of a
path may be. -/
def associationTarget (name : String) (isLast : Bool) :
    DataType → Except ResolutionError (String × Bool)
  | .simple (.entity target) => .ok (target, false)
  | .simple (.basic _) => .error (.illegalUse (.joinOfBasic name))
  | .collection _ element =>
    if isLast then match element with
      | .entity target => .ok (target, true)
      | .basic _ => .error (.illegalUse (.joinOfBasicCollection name))
    else .error (.illegalUse (.pluralInJoinPath name))

/-- Follows associations from an entity. The result says whether the last is a collection. -/
def follow (catalog : Catalog) :
    EntityReference → List String → Except ResolutionError (EntityReference × Bool)
  | current, [] => .ok (current, false)
  | current, name :: rest => do
    let some type := current.attribute? name
      | throw (.unresolvedAttribute name (some current.name))
    let (target, plural) ← associationTarget name rest.isEmpty type
    let entity ← resolveEntity catalog target
    if rest.isEmpty then return (entity, plural) else follow catalog entity rest

/-- The names of the parts of a path. -/
def partNames (parts : List (PathPart Grammar.Expr)) : List String := parts.map (·.name.value)

/-- The entity that a join leads to and how. A path whose first name is a visible source is one of
associations; any other is the name of an entity. -/
def joinTarget (catalog : Catalog) (index : FromIndex) (clause : Nat)
    (path : Path Grammar.Expr) : Except ResolutionError (EntityReference × FromOrigin) := do
  unless path.isSimple do throw (.illegalUse (.indexInJoinPath path.dotted))
  let owner := if path.rest.isEmpty then none
    else index.findVisible? clause path.first.name.value
  match owner with
  | some owner =>
    let (entity, plural) ← follow catalog owner.entity (partNames path.rest)
    return (entity, .pathJoin owner.label (partNames path.rest) plural)
  | none =>
    let entity ← resolveEntity catalog path.dotted
    return (entity, .entityJoin)

/-- Registers the first source of an item of a from-clause. -/
def addRoot (catalog : Catalog) (clause space : Nat) (root : RootRef) : Registering Unit := do
  let entity ← liftExcept (resolveEntity catalog root.entity.value)
  addElement root.label entity .root clause space root.span
where
  /-- A result that needs no registry. -/
  liftExcept {α : Type} (result : Except ResolutionError α) : Registering α :=
    ExceptT.mk (pure result)

/-- Registers a join. -/
def addJoin (catalog : Catalog) (clause space : Nat) (target : Path Grammar.Expr)
    (label : Option (Spanned String)) (span : Span) : Registering Unit := do
  let registry ← get
  let (entity, origin) ← addRoot.liftExcept (joinTarget catalog registry.index clause target)
  addElement label entity origin clause space span

mutual

/-- Registers the sources of a query inside the scope of the enclosing one. -/
def addQuery (catalog : Catalog) (parent : Option Nat) :
    Grammar.Query Grammar.Predicate → Registering Unit
  | ⟨_, ⟨spaces, span⟩, filter, _⟩ => do
    let clause ← addScope parent span
    addSpaces catalog clause spaces
    addFilter catalog clause filter

/-- Registers the sources of the items of a from-clause. -/
def addSpaces (catalog : Catalog) (clause : Nat) :
    List (Grammar.FromSpace Grammar.Predicate) → Registering Unit
  | [] => pure ()
  | ⟨root, joins, _⟩ :: rest => do
    let space ← addSpace clause
    addRoot catalog clause space root
    addJoins catalog clause space joins
    addSpaces catalog clause rest

/-- Registers the sources of joins and of the sub-queries in their conditions. -/
def addJoins (catalog : Catalog) (clause space : Nat) :
    List (Grammar.Join Grammar.Predicate) → Registering Unit
  | [] => pure ()
  | ⟨_, _, target, label, predicate, span⟩ :: rest => do
    addJoin catalog clause space target label span
    addFilter catalog clause predicate
    addJoins catalog clause space rest

/-- Registers the sources of the sub-queries of a condition that may be absent. -/
def addFilter (catalog : Catalog) (clause : Nat) : Option Grammar.Predicate → Registering Unit
  | none => pure ()
  | some predicate => addPredicate catalog clause predicate

/-- Registers the sources of the sub-queries of a predicate. -/
def addPredicate (catalog : Catalog) (clause : Nat) : Grammar.Predicate → Registering Unit
  | .and _ left right | .or _ left right => do
    addPredicate catalog clause left
    addPredicate catalog clause right
  | .not _ operand => addPredicate catalog clause operand
  | .inQuery _ _ query _ => addQuery catalog (some clause) query
  | _ => pure ()

end

/-- Registers the target of a change, which is the only element of its scope. -/
def addTarget (catalog : Catalog) (target : RootRef) : Registering Nat := do
  let clause ← addScope none target.span
  let space ← addSpace clause
  addRoot catalog clause space target
  return clause

/-- Registers the sources of a statement. -/
def addStatement (catalog : Catalog) : Grammar.Statement → Registering Unit
  | .select query _ => addQuery catalog none query
  | .update target _ filter | .delete target filter => do
    let clause ← addTarget catalog target
    addFilter catalog clause filter

/-- The outcome of registering the sources of a statement, and what has been registered. -/
def register (catalog : Catalog) (statement : Grammar.Statement) :
    Except ResolutionError Unit × Registry :=
  (addStatement catalog statement).run.run Registry.empty

/-- The sources of a statement. -/
def ofStatement (catalog : Catalog) (statement : Grammar.Statement) :
    Except ResolutionError FromIndex :=
  match register catalog statement with
  | (.ok (), registry) => .ok registry.index
  | (.error error, _) => .error error

end Sources
end ObjectQuery

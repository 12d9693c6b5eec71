import ObjectQuery.Resolution.Sources
import ObjectQuery.Resolved.Tree
/-!
# Resolving expressions

A path starts with the name of a visible source or else with an attribute that exactly one source of
the innermost possible scope has. Every further name is an attribute of what the names before it lead
to. Operands of arithmetic have to be numbers as far as their types are known.

Parameters without a position are numbered in the order in which they are met, so a statement may not
also give positions.
-/
namespace ObjectQuery

/-- What is known about the positions of parameters: nothing yet, the last position counted, or that
the statement gives them. -/
inductive Numbering where
  | unused
  | counted (last : Nat)
  | given
  deriving DecidableEq, Repr

/-- A step of the resolution. -/
abbrev Resolving := StateT Numbering (Except ResolutionError)

namespace Resolution

open Resolved (Segment Reference)

/-- What names are looked up in. -/
structure Names where
  catalog : Catalog
  index : FromIndex

/-- A parameter whose type is not known. -/
def untyped (kind : ParameterKind) : Resolved.Expr := .parameter ⟨kind, none⟩

/-- A parameter with a position of its own or with the next one. -/
def positional : Option Nat → Resolving Resolved.Expr
  | some position => do
    if let .counted _ := ← get then throw (.illegalUse .mixedParameters)
    set Numbering.given
    return untyped (.positional position)
  | none => do
    let position ← match ← get with
      | .unused => pure 1
      | .counted last => pure (last + 1)
      | .given => throw (.illegalUse .mixedParameters)
    set (Numbering.counted position)
    return untyped (.positional position)

/-- The type of a numeric operand, if it is known. -/
def numericOperand (operation : String) (operand : Resolved.Expr) :
    Except ResolutionError (Option BasicType) :=
  match operand.type? with
  | none => .ok none
  | some type => match type.basic?.filter BasicType.isNumeric with
    | some basic => .ok (some basic)
    | none => .error (.illegalUse (.notNumeric operation type.text))

/-- The order of numeric types by what they can hold. -/
def rank : BasicType → Nat
  | .integer => 0
  | .long => 1
  | .decimal => 2
  | _ => 3

/-- The wider of two numeric types. -/
def wider (left right : BasicType) : BasicType := if rank right ≤ rank left then left else right

/-- The type of an operation on numbers. -/
def arithmeticType (left right : Resolved.Expr) : Except ResolutionError (Option BasicType) := do
  let leftType ← numericOperand "arithmetic" left
  let rightType ← numericOperand "arithmetic" right
  match leftType, rightType with
  | some leftType, some rightType => return some (wider leftType rightType)
  | known, none => return known
  | none, known => return known

/-- Checks that the argument is a number as far as its type is known. -/
def checkNumeric (operation : String) : Option Resolved.Expr → Except ResolutionError Unit
  | none => .ok ()
  | some argument => do let _ ← numericOperand operation argument

/-- The type of a call. -/
def callType (function : Function) (argument : Option Resolved.Expr) :
    Except ResolutionError (Option DataType) := do
  let argumentType := argument.bind Resolved.Expr.type?
  match function with
  | .count => return some (.basic .long)
  | .avg =>
    checkNumeric "avg" argument
    return some (.basic .double)
  | .sum | .abs =>
    checkNumeric function.sqlName argument
    return argumentType
  | .min | .max => return argumentType
  | .upper | .lower => return some (.basic .string)
  | .length => return some (.basic .integer)

/-- What an attribute is looked up in: a source, or what a path leads to so far. -/
inductive Owner where
  | source (element : FromElement)
  | type (type : DataType)

/-- The type of the owner. -/
def Owner.dataType : Owner → DataType
  | source element => element.type
  | type known => known

/-- The attribute of an owner, if it has one. -/
def Owner.attribute? (names : Names) (owner : Owner) (name : String) :
    Except ResolutionError (Option DataType) :=
  match owner with
  | source element => .ok (element.entity.attribute? name)
  | type (.simple (.entity entity)) => do
    let reference ← Sources.resolveEntity names.catalog entity
    return reference.attribute? name
  | type (.simple (.basic _)) => .ok none
  | type (.collection kind element) =>
    .error (.illegalUse (.throughPlural name (DataType.collection kind element).text))

/-- The type of an attribute, which the owner has to have. -/
def attributeType (names : Names) (owner : Owner) (name : String) :
    Except ResolutionError DataType := do
  match ← owner.attribute? names name with
  | some type => return type
  | none => throw (.unresolvedAttribute name (some owner.dataType.text))

/-- The type after an attribute. With an index, which only an indexed collection may have, it is that of
the elements. -/
def typeAfter (name : String) (declared : DataType) (indexed : Bool) :
    Except ResolutionError DataType :=
  if indexed then
    match declared.element?.filter fun _ => declared.isIndexed with
    | some element => .ok element
    | none => .error (.illegalUse (.notIndexed name declared.text))
  else .ok declared

/-- The source that a path starts from, and whether the first name is the source itself rather than
an attribute of it. -/
def pathSource (names : Names) (clause : Nat) (name : String) (indexed : Bool) :
    Except ResolutionError (FromElement × Bool) :=
  match names.index.findVisible? clause name with
  | some source =>
    if indexed then .error (.illegalUse (.indexOnAlias source.label)) else .ok (source, true)
  | none => do
    match ← names.index.findExposing clause name with
    | some source => return (source, false)
    | none => throw (.unresolvedAttribute name none)

/-- The path along segments of a source, or the source itself if there are none. -/
def pathOf (source : FromElement) (segments : List (Segment Resolved.Expr)) : Resolved.Expr :=
  match segments.getLast? with
  | none => .element source.label source.type
  | some last => .path ⟨source.label, source.type, segments.dropLast, last, last.type⟩

/-- The function of a call. -/
def functionOf (name : String) : Except ResolutionError Function :=
  match Function.ofName? name with
  | some function => .ok function
  | none => .error (.illegalUse (.unknownFunction name))

/-- Checks that only a count has a star for an argument. -/
def checkStar (function : Function) (name : String) (isStar : Bool) : Except ResolutionError Unit :=
  if isStar && function != .count then .error (.illegalUse (.starArgument name)) else .ok ()

mutual

/-- Resolves an expression in a scope. -/
def expr (names : Names) (clause : Nat) : Grammar.Expr → Resolving Resolved.Expr
  | .path route => path names clause route
  | .literal _ value => return .literal value
  | .named _ name => return untyped (.named name)
  | .positional _ position => positional position
  | .arithmetic _ op left right => do
    let left ← expr names clause left
    let right ← expr names clause right
    let type ← arithmeticType left right
    return .arithmetic op left right type
  | .negate _ operand => do
    let operand ← expr names clause operand
    let _ ← numericOperand "negation" operand
    return .negate operand
  | .call _ name distinct argument => do
    let function ← functionOf name.value
    checkStar function name.value argument.isNone
    let argument ← optional names clause argument
    let type ← callType function argument
    return .call function distinct argument type

/-- Resolves an index or an argument that may be absent. -/
def optional (names : Names) (clause : Nat) :
    Option Grammar.Expr → Resolving (Option Resolved.Expr)
  | none => return none
  | some index => do
    let index ← expr names clause index
    return some index

/-- Resolves a path in a scope. -/
def path (names : Names) (clause : Nat) : Grammar.Path Grammar.Expr → Resolving Resolved.Expr
  | ⟨first, rest, _⟩ => do
    let (source, isSource) ← pathSource names clause first.name.value first.index.isSome
    if isSource then
      let segments ← parts names clause (.source source) rest
      return pathOf source segments
    else
      let segment ← part names clause (.source source) first
      let segments ← parts names clause (.type segment.type) rest
      return pathOf source (segment :: segments)

/-- Resolves one part of a path. -/
def part (names : Names) (clause : Nat) (owner : Owner) :
    Grammar.PathPart Grammar.Expr → Resolving (Segment Resolved.Expr)
  | ⟨name, index⟩ => do
    let declared ← attributeType names owner name.value
    let type ← typeAfter name.value declared index.isSome
    let index ← optional names clause index
    return ⟨name.value, declared, index, type⟩

/-- Resolves parts of a path one after the other. -/
def parts (names : Names) (clause : Nat) (owner : Owner) :
    List (Grammar.PathPart Grammar.Expr) → Resolving (List (Segment Resolved.Expr))
  | [] => return []
  | first :: rest => do
    let segment ← part names clause owner first
    let segments ← parts names clause (.type segment.type) rest
    return segment :: segments

end

end Resolution
end ObjectQuery

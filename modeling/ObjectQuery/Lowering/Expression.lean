import ObjectQuery.Lowering.Path
/-!
# Lowering expressions

Every expression has a counterpart of the same shape. A source as a whole stands for its key, and so
does an element of a collection; any other path stands for the column of its last attribute.
-/
namespace ObjectQuery.Lowering

open Sql
open Resolved (Segment Reference)

/-- A literal, which has to be a number that can be written. -/
def literal (value : Literal) : Except LoweringError Sql.Expr :=
  match value with
  | .decimal number =>
    if number.isFinite then .ok (.literal value) else .error (.unsupported (.nonFinite number))
  | _ => .ok (.literal value)

/-- The value of the last attribute of a path, which is no collection. -/
def columnValue (dotted owner label : String) (type : DataType) : Lowering Sql.Expr := do
  if type.isPlural then throw (.unsupported (.collectionAsValue dotted))
  let ownerGroup ← group owner
  columnOf ownerGroup label

/-- A call. Only a count has a star for an argument. -/
def call (function : Function) (distinct : Bool) : Option Sql.Expr → Except LoweringError Sql.Expr
  | some argument => .ok (.call function.sqlName distinct [argument])
  | none =>
    if function = .count then .ok Sql.Expr.countStar
    else .error (.unsupported (.missingArgument function.sqlName))

mutual

/-- Lowers an expression. -/
def expr (context : LoweringContext) : Resolved.Expr → Lowering Sql.Expr
  | .path ⟨source, sourceType, init, ⟨label, declared, index, after⟩, type⟩ => do
    let owner ← navigate context init source
    match ← optional context index with
    | some value =>
      let element ← indexJoin context owner label declared value
      let elementGroup ← group element
      return elementGroup.key
    | none =>
      let reference : Reference Resolved.Expr :=
        ⟨source, sourceType, init, ⟨label, declared, index, after⟩, type⟩
      columnValue reference.dotted owner label declared
  | .element label _ => do
    let source ← group label
    return source.key
  | .literal value => literal value
  | .parameter bound => return .parameter bound
  | .arithmetic op left right _ => do
    let left ← expr context left
    let right ← expr context right
    return .binary (.arithmetic op) left right
  | .negate operand => do
    let operand ← expr context operand
    return .negate operand
  | .call function distinct argument _ => do
    let argument ← optional context argument
    call function distinct argument

/-- Lowers an index or an argument that may be absent. -/
def optional (context : LoweringContext) : Option Resolved.Expr → Lowering (Option Sql.Expr)
  | none => return none
  | some index => do
    let index ← expr context index
    return some index

/-- Joins segment after segment, and gives the name of the group that the last one leads to. -/
def navigate (context : LoweringContext) : List (Segment Resolved.Expr) → String → Lowering String
  | [], owner => return owner
  | ⟨label, declared, index, _⟩ :: rest, owner => do
    let index ← optional context index
    let next ← step context owner label declared index
    navigate context rest next

end

/-- The group that a whole path leads to. -/
def pathGroup (context : LoweringContext) (reference : Reference Resolved.Expr) :
    Lowering TableGroup := do
  let owner ← navigate context reference.init reference.source
  let index ← optional context reference.last.index
  let target ← step context owner reference.last.label reference.last.declared index
  group target

/-- Lowers an item of the select list of a whole statement, where an entity stands for all its
columns. -/
def topSelection (context : LoweringContext) (selection : Resolved.Selection) :
    Lowering (List (Sql.Selection Sql.Expr)) := do
  match selection.expr with
  | .element label _ => columns (← group label)
  | .path reference =>
    if reference.type.entity?.isSome then columns (← pathGroup context reference) else single
  | _ => single
where
  /-- All columns of a group. -/
  columns (group : TableGroup) : Lowering (List (Sql.Selection Sql.Expr)) :=
    return group.allColumns.map fun column => ⟨column, none⟩
  /-- The item itself. -/
  single : Lowering (List (Sql.Selection Sql.Expr)) := do
    let value ← expr context selection.expr
    return [⟨value, selection.label⟩]

/-- Lowers an item of the select list of a sub-query. -/
def innerSelection (context : LoweringContext) (selection : Resolved.Selection) :
    Lowering (List (Sql.Selection Sql.Expr)) := do
  let value ← expr context selection.expr
  return [⟨value, selection.label⟩]

/-- Lowers a test for membership in a collection, which is a query for the keys of its elements. -/
def memberOf (context : LoweringContext) (element : Resolved.Expr)
    (collection : Reference Resolved.Expr) (negated : Bool) : Lowering Sql.Expr := do
  let test ← expr context element
  let owner ← navigate context collection.init collection.source
  let some entity := collection.last.declared.element?.bind DataType.entity?
    | throw (.unsupported (.notCollection collection.dotted))
  let ownerGroup ← group owner
  let mapping ← context.collection ownerGroup.entity collection.last.label
  let elementTable ← context.rootTable entity
  let table : TableSpec :=
    ⟨elementTable.name, TableGroup.tableLabel (owner ++ "." ++ collection.last.label) 0⟩
  let query : Sql.Query Sql.Expr := {
    distinct := false
    selections := [⟨.tableColumn table.label elementTable.keyColumn, none⟩]
    source := some table.toRef
    joins := []
    filter := some (Sql.Expr.equals (.tableColumn table.label mapping.ownerColumn) ownerGroup.key)
    order := [] }
  return .inQuery test query negated

end ObjectQuery.Lowering

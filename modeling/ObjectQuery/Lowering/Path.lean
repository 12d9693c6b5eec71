import ObjectQuery.Lowering.Scope
import ObjectQuery.Resolved.Tree
/-!
# Joins along a path

A path that goes through a to-one association joins the group of the entity it leads to, once for
all paths that begin the same way. A path that goes through an index joins the group of the selected
element, each time anew, because the index may differ.
-/
namespace ObjectQuery.Lowering

open Sql
open Resolved (Segment)

/-- The entity that a to-one association leads to. -/
def associationEntity (context : LoweringContext) (owner : TableGroup) (label : String) :
    Except LoweringError String :=
  match ((context.catalog.entity? owner.entity).bind (·.attribute? label)).bind DataType.entity? with
  | some entity => .ok entity
  | none => .error (.unmapped owner.entity label)

/-- The column of an attribute of a group. -/
def columnOf (owner : TableGroup) (label : String) : Except LoweringError Sql.Expr :=
  match owner.column? label with
  | some column => .ok column
  | none => .error (.unmapped owner.entity label)

/-- The group of a to-one association, which is joined when it is first used. -/
def toOneJoin (context : LoweringContext) (owner label : String) : Lowering String := do
  let name := owner ++ "." ++ label
  if ← isKnown name then return name
  let ownerGroup ← group owner
  let entity ← associationEntity context ownerGroup label
  let foreignKey ← columnOf ownerGroup label
  let target ← context.tableGroup name entity
  let join ← groupJoin .inner target (some (foreignKey.equals target.key))
  attach owner join
  return name

/-- The entity that the elements of a collection are. -/
def elementEntity (label : String) (type : DataType) : Except LoweringError String :=
  match type.element?.bind DataType.entity? with
  | some entity => .ok entity
  | none => .error (.unsupported (.notEntityCollection label))

/-- The column that holds the index of a collection. -/
def indexColumn (entity label : String) (mapping : CollectionMapping) :
    Except LoweringError String :=
  match mapping.indexColumn with
  | some column => .ok column
  | none => .error (.unsupported (.noIndexColumn entity label))

/-- The next number for an index access. -/
def nextIndexJoin : Lowering Nat := do
  let state ← get
  set { state with indexJoins := state.indexJoins + 1 }
  return state.indexJoins

/-- The group of the element of a collection that has the given index. -/
def indexJoin (context : LoweringContext) (owner label : String) (type : DataType)
    (index : Sql.Expr) : Lowering String := do
  let entity ← elementEntity label type
  let number ← nextIndexJoin
  let name := owner ++ "." ++ label ++ "[" ++ toString number ++ "]"
  let ownerGroup ← group owner
  let mapping ← context.collection ownerGroup.entity label
  let column ← indexColumn ownerGroup.entity label mapping
  let target ← context.tableGroup name entity
  let condition := Sql.Expr.both
    (ownerGroup.key.equals (.tableColumn target.root.label mapping.ownerColumn))
    (Sql.Expr.equals (.tableColumn target.root.label column) index)
  let join ← groupJoin .inner target (some condition)
  attach owner join
  return name

/-- The group that a segment leads to from its owner, given its index in SQL. -/
def step (context : LoweringContext) (owner label : String) (type : DataType) :
    Option Sql.Expr → Lowering String
  | some index => indexJoin context owner label type index
  | none => toOneJoin context owner label

/-- The condition that a join along associations implies for its target. -/
def associationCondition (context : LoweringContext) (owner : String) (path : List String)
    (plural : Bool) (target : TableGroup) : Lowering Sql.Expr := do
  match path.getLast? with
  | none => throw (.unsupported (.emptyJoinPath owner))
  | some last =>
    let owner ← path.dropLast.foldlM (toOneJoin context) owner
    let ownerGroup ← group owner
    if plural then
      let mapping ← context.collection ownerGroup.entity last
      return ownerGroup.key.equals (.tableColumn target.root.label mapping.ownerColumn)
    else
      let foreignKey ← columnOf ownerGroup last
      return foreignKey.equals target.key

end ObjectQuery.Lowering

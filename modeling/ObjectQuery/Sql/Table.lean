import ObjectQuery.Model.Table
import ObjectQuery.Sql.Rendering
/-!
# Tables of a query

Each source of a query is an entity, and an entity may span several tables. They form a group: the
root table and the tables joined to it, all named after the source. Groups that are joined to one
another form a space, one for each item of a from-clause. `Select.toQuery` puts all of them into one
list of joins.
-/
namespace ObjectQuery.Sql

/-- A table with the name it goes by in the statement. -/
structure TableSpec where
  name : String
  label : String
  deriving DecidableEq, Repr

namespace TableSpec

/-- Whether the table is a query in parentheses. -/
def isDerived (table : TableSpec) : Bool := isDerivedTable table.name

/-- The table as it stands in a query. Blanks around a derived table are left out. -/
def toRef (table : TableSpec) : TableRef :=
  if table.isDerived then ⟨Text.trim table.name, some table.label, true⟩
  else ⟨table.name, some table.label, false⟩

end TableSpec

/-- A table joined to the root of its group. -/
structure TableJoin where
  kind : JoinKind
  table : TableSpec
  condition : Option Expr
  deriving Repr

/-- The join as it stands in a query. -/
def TableJoin.toJoin (join : TableJoin) : Join Expr := ⟨join.kind, join.table.toRef, join.condition⟩

/-- Where an attribute of a group is stored. -/
structure ColumnBinding where
  label : String
  table : String
  column : String
  deriving DecidableEq, Repr

/-- The column as an expression. -/
def ColumnBinding.expr (binding : ColumnBinding) : Expr :=
  .tableColumn binding.table binding.column

/-- The tables of one source of a query. -/
structure TableGroup where
  label : String
  entity : String
  root : TableSpec
  keyColumn : String
  secondary : List TableJoin
  columns : List ColumnBinding
  deriving Repr

namespace TableGroup

/-- The name of the table at a position of the group. -/
def tableLabel (label : String) (position : Nat) : String := label ++ "_" ++ toString position

/-- The key, a column of the root table. -/
def key (group : TableGroup) : Expr := .tableColumn group.root.label group.keyColumn

/-- Where an attribute is stored. -/
def binding? (group : TableGroup) (name : String) : Option ColumnBinding :=
  group.columns.find? (·.label == name)

/-- The column of an attribute. -/
def column? (group : TableGroup) (name : String) : Option Expr :=
  (group.binding? name).map (·.expr)

/-- The key and every other column, which together are the whole entity. -/
def allColumns (group : TableGroup) : List Expr :=
  group.key :: (group.columns.filter fun binding =>
    !(binding.table == group.root.label && binding.column == group.keyColumn)).map (·.expr)

/-- All tables, the root first. -/
def tables (group : TableGroup) : List TableSpec := group.root :: group.secondary.map (·.table)

end TableGroup

/-- A group joined to those before it. -/
structure GroupJoin where
  kind : JoinKind
  group : TableGroup
  condition : Option Expr
  deriving Repr

/-- The joins of a group: that of its root and those of its further tables. A row that an outer join
has filled with nulls survives the further tables only if they are outer joined as well. -/
def GroupJoin.toJoins (join : GroupJoin) : List (Join Expr) :=
  ⟨join.kind, join.group.root.toRef, join.condition⟩ ::
    join.group.secondary.map fun table =>
      if join.kind = .leftOuter then { table.toJoin with kind := .leftOuter } else table.toJoin

/-- The tables of one item of a from-clause. -/
structure TableSpace where
  root : TableGroup
  joins : List GroupJoin
  deriving Repr

namespace TableSpace

/-- All groups, the root first. -/
def groups (space : TableSpace) : List TableGroup := space.root :: space.joins.map (·.group)

/-- The joins that follow the root table. -/
def toJoins (space : TableSpace) : List (Join Expr) :=
  space.root.secondary.map (·.toJoin) ++ space.joins.flatMap (·.toJoins)

end TableSpace

/-- A query over spaces. -/
structure Select where
  distinct : Bool
  selections : List (Selection Expr)
  spaces : List TableSpace
  filter : Option Expr
  order : List (SortKey Expr)
  deriving Repr

namespace Select

/-- The joins of all spaces after the first table. Later spaces are cross joined. -/
def joins : List TableSpace → List (Join Expr)
  | [] => []
  | first :: rest => first.toJoins ++ rest.flatMap fun space =>
      ⟨.cross, space.root.root.toRef, none⟩ :: space.toJoins

/-- The query with all spaces in one list of joins. -/
def toQuery (select : Select) : Query Expr where
  distinct := select.distinct
  selections := select.selections
  source := select.spaces.head?.map (·.root.root.toRef)
  joins := joins select.spaces
  filter := select.filter
  order := select.order

end Select
end ObjectQuery.Sql

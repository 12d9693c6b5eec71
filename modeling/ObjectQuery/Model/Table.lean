import ObjectQuery.Text.Ranges
/-!
# Tables of an entity

The attributes of an entity are stored in the columns of one or more tables with a common key, the
first of which is the root. Collections are stored with their elements: a column of the element's
root table holds the key of the owner.
-/
namespace ObjectQuery

/-- An attribute and the column that stores it. -/
structure MappedColumn where
  label : String
  column : String
  deriving DecidableEq, Repr

/-- One table of an entity. -/
structure MappedTable where
  name : String
  keyColumn : String
  columns : List MappedColumn
  /-- Some entities may have no row in the table. -/
  optional : Bool
  /-- The table was declared as the own table of the entity or of an ancestor, so that every entity
  has a row in it. -/
  identifying : Bool
  deriving DecidableEq, Repr

/-- Whether a table name is a query in parentheses. -/
def isDerivedTable (name : String) : Bool :=
  match Text.trimBlanks name.toList with
  | '(' :: rest => rest.getLast? == some ')'
  | _ => false

namespace MappedTable

/-- Whether the table is a query. -/
def isDerived (table : MappedTable) : Bool := isDerivedTable table.name

/-- The column of an attribute. -/
def column? (table : MappedTable) (name : String) : Option String :=
  (table.columns.find? (·.label == name)).map (·.column)

end MappedTable

/-- How a collection is stored: the column that holds the owner's key and the column of the index,
both in the root table of the elements. -/
structure CollectionMapping where
  label : String
  ownerColumn : String
  indexColumn : Option String
  deriving DecidableEq, Repr

/-- All tables of an entity, the root first, and its collections. -/
structure TableShape where
  tables : List MappedTable
  collections : List CollectionMapping
  deriving DecidableEq, Repr

namespace TableShape

/-- The root table. -/
def root? (shape : TableShape) : Option MappedTable := shape.tables.head?

/-- The tables after the root. -/
def secondary (shape : TableShape) : List MappedTable := shape.tables.tail

/-- The position of the first table that has the attribute, and the column there. -/
def locate? (shape : TableShape) (name : String) : Option (Nat × String) :=
  shape.tables.zipIdx.findSome? fun (table, position) =>
    (table.column? name).map (position, ·)

/-- The mapping of a collection. -/
def collection? (shape : TableShape) (name : String) : Option CollectionMapping :=
  shape.collections.find? (·.label == name)

end TableShape
end ObjectQuery

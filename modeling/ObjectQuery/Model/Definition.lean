import ObjectQuery.Document.Value
/-!
# Model definitions

What a model says about its entities, as it is written down: nothing is checked here, and what is
inherited is not yet filled in. A definition can be read from a document and written as one.
-/
namespace ObjectQuery

open Document

/-- The key column of a table that names none. -/
def defaultKeyColumn : String := "id"

/-- An attribute as written. Its type is still a text. -/
structure AttributeDefinition where
  name : String
  type : String
  column : Option String
  /-- The column of the elements that holds the owner's key, for a collection. -/
  foreignKey : Option String
  /-- The column of the elements that holds the index, for a list or map. -/
  indexColumn : Option String
  deriving DecidableEq, Repr

/-- A further table of an entity, with the attributes that it stores. -/
structure SecondaryTableDefinition where
  name : String
  keyColumn : String
  attributes : List String
  optional : Bool
  deriving DecidableEq, Repr

/-- An entity as written. Without a table of its own it uses that of the entity it extends. -/
structure EntityDefinition where
  name : String
  className : Option String := none
  superType : Option String := none
  interfaces : List String := []
  table : Option String := none
  keyColumn : String := defaultKeyColumn
  attributes : List AttributeDefinition := []
  secondaryTables : List SecondaryTableDefinition := []
  deriving DecidableEq, Repr

namespace AttributeDefinition

/-- The fields of an attribute in a document. -/
def fieldNames : List String := ["name", "type", "column", "foreign_key", "index_column"]

/-- The attribute that a document describes. -/
def ofValue? (format : Format) (value : Value) : Option AttributeDefinition := do
  let fields ← value.fields? format fieldNames
  return {
    name := ← fields.required "name" Value.text?
    type := ← fields.required "type" Value.text?
    column := ← fields.optionalText "column"
    foreignKey := ← fields.optionalText "foreign_key"
    indexColumn := ← fields.optionalText "index_column" }

end AttributeDefinition

/-- A member for a text that may be absent; an absent one has none. -/
def optionalMember (name : String) (content : Option String) : List (String × Value) :=
  (content.map fun content => (name, Value.text content)).toList

/-- The attribute as a document. -/
def AttributeDefinition.toValue (definition : AttributeDefinition) : Value :=
  .record (
    [("name", .text definition.name), ("type", .text definition.type)] ++
    optionalMember "column" definition.column ++
    optionalMember "foreign_key" definition.foreignKey ++
    optionalMember "index_column" definition.indexColumn)

namespace SecondaryTableDefinition

/-- The fields of a further table in a document. -/
def fieldNames : List String := ["name", "key_column", "attributes", "optional"]

/-- The table that a document describes. -/
def ofValue? (format : Format) (value : Value) : Option SecondaryTableDefinition := do
  let fields ← value.fields? format fieldNames
  return {
    name := ← fields.required "name" Value.text?
    keyColumn := ← fields.withDefault "key_column" defaultKeyColumn Value.text?
    attributes := ← fields.required "attributes" fun items => items.list?.bind (·.mapM Value.text?)
    optional := ← fields.withDefault "optional" false Value.boolean? }

/-- The table as a document. -/
def toValue (definition : SecondaryTableDefinition) : Value :=
  .record
    [("name", .text definition.name), ("key_column", .text definition.keyColumn),
     ("attributes", .list (definition.attributes.map .text)),
     ("optional", .boolean definition.optional)]

end SecondaryTableDefinition

namespace EntityDefinition

/-- The fields of an entity in a document. -/
def fieldNames : List String :=
  ["name", "class", "extends", "implements", "table", "key_column", "attribute", "secondary_table"]

/-- The entity that a document describes. -/
def ofValue? (format : Format) (value : Value) : Option EntityDefinition := do
  let fields ← value.fields? format fieldNames
  return {
    name := ← fields.required "name" Value.text?
    className := ← fields.optionalText "class"
    superType := ← fields.optionalText "extends"
    interfaces := ← fields.listOf "implements" Value.text?
    table := ← fields.optionalText "table"
    keyColumn := ← fields.withDefault "key_column" defaultKeyColumn Value.text?
    attributes := ← fields.listOf "attribute" (AttributeDefinition.ofValue? format)
    secondaryTables := ← fields.listOf "secondary_table"
      (SecondaryTableDefinition.ofValue? format) }

/-- The entity as a document. -/
def toValue (definition : EntityDefinition) : Value :=
  .record (
    [("name", .text definition.name)] ++
    optionalMember "class" definition.className ++
    optionalMember "extends" definition.superType ++
    [("implements", .list (definition.interfaces.map .text))] ++
    optionalMember "table" definition.table ++
    [("key_column", .text definition.keyColumn),
     ("attribute", .list (definition.attributes.map (·.toValue))),
     ("secondary_table", .list (definition.secondaryTables.map (·.toValue)))])

/-- The definition with one more attribute. -/
def addAttribute (definition : EntityDefinition) (added : AttributeDefinition) : EntityDefinition :=
  { definition with attributes := definition.attributes ++ [added] }

/-- The definition with one more interface. -/
def addInterface (definition : EntityDefinition) (name : String) : EntityDefinition :=
  { definition with interfaces := definition.interfaces ++ [name] }

/-- The definition with one more table. -/
def addSecondaryTable (definition : EntityDefinition) (added : SecondaryTableDefinition) :
    EntityDefinition :=
  { definition with secondaryTables := definition.secondaryTables ++ [added] }

end EntityDefinition

/-- A model as written: its entities in order. -/
structure ModelDefinition where
  entities : List EntityDefinition
  deriving DecidableEq, Repr

namespace ModelDefinition

/-- The model that a document describes. -/
def ofValue? (format : Format) (value : Value) : Option ModelDefinition := do
  let fields ← value.fields? format ["entity"]
  return { entities := ← fields.listOf "entity" (EntityDefinition.ofValue? format) }

/-- The model as a document. -/
def toValue (definition : ModelDefinition) : Value :=
  .record [("entity", .list (definition.entities.map (·.toValue)))]

end ModelDefinition
end ObjectQuery

import ObjectQuery.Document.Toml.Reader
import ObjectQuery.Model.Definition
import ObjectQuery.Model.DerivedTable
import ObjectQuery.Model.Entity
/-!
# From definitions to a model

Every definition is taken together with the definitions it extends, topmost first. The attributes
and interfaces of an entity are those of the whole chain, and so are its tables. Anything that a
query could later stumble over is refused here.

Derived tables are checked with a parser of SQL, which `Model.build` is given.
-/
namespace ObjectQuery

open Document (Format)

/-- Why there is no model. -/
inductive ModelError where
  | duplicateEntity (name : String)
  | duplicateAttribute (entity label : String)
  | unknownSuperType (entity superType : String)
  | inheritanceCycle (entity : String)
  | invalidType (entity label type : String)
  | unknownEntity (entity label target : String)
  | invalidCollection (entity label reason : String)
  | invalidDerivedTable (entity : String) (fault : DerivedTable.Fault)
  | missingTable (entity : String)
  | unreadable (reason : String)
  | malformed (format : Format)
  | unsupportedFormat (path : String)
  deriving DecidableEq, Repr

/-- The text for an error. -/
def ModelError.message : ModelError → String
  | duplicateEntity name => "Entity '" ++ name ++ "' is defined more than once"
  | duplicateAttribute entity label =>
    "Attribute '" ++ label ++ "' is defined more than once on '" ++ entity ++ "'"
  | unknownSuperType entity superType =>
    "Entity '" ++ entity ++ "' extends unknown type '" ++ superType ++ "'"
  | inheritanceCycle entity => "Inheritance cycle through '" ++ entity ++ "'"
  | invalidType entity label type =>
    "Invalid type '" ++ type ++ "' for attribute '" ++ entity ++ "." ++ label ++ "'"
  | unknownEntity entity label target =>
    "Attribute '" ++ entity ++ "." ++ label ++ "' refers to unknown entity '" ++ target ++ "'"
  | invalidCollection entity label reason =>
    "Collection '" ++ entity ++ "." ++ label ++ "' is not mappable: " ++ reason
  | invalidDerivedTable entity fault =>
    "Derived table for '" ++ entity ++ "' is not a valid SELECT: " ++ fault.message
  | missingTable entity => "Entity '" ++ entity ++ "' has no table"
  | unreadable reason => "Failed to read model file: " ++ reason
  | malformed _ => "Failed to parse model file: "
  | unsupportedFormat path => "Unsupported model file format: " ++ path

/-- An entity of a model with its tables. -/
structure MappedEntity where
  entity : EntityType
  shape : TableShape
  deriving DecidableEq, Repr

/-- A model: its entities in the order of their definitions. -/
structure Model where
  entities : List MappedEntity
  deriving DecidableEq, Repr

namespace Model

/-- The definition of an entity. -/
def definition? (definitions : List EntityDefinition) (name : String) : Option EntityDefinition :=
  definitions.find? (·.name == name)

/-- The definition with those it extends, nearest first, given the names already on the way. Names
do not repeat, so the fuel of a chain is the number of definitions. -/
def ancestryWithin (definitions : List EntityDefinition) (start : String) :
    Nat → List String → EntityDefinition → Except ModelError (List EntityDefinition)
  | 0, _, _ => .error (.inheritanceCycle start)
  | fuel + 1, seen, current => match current.superType with
    | none => .ok [current]
    | some superType => match definition? definitions superType with
      | none => .error (.unknownSuperType current.name superType)
      | some parent =>
        if seen.contains parent.name then .error (.inheritanceCycle start)
        else (ancestryWithin definitions start fuel (parent.name :: seen) parent).map (current :: ·)

/-- The definition and all those it extends, topmost first. -/
def chain (definitions : List EntityDefinition) (definition : EntityDefinition) :
    Except ModelError (List EntityDefinition) :=
  (ancestryWithin definitions definition.name definitions.length [definition.name] definition).map
    List.reverse

/-- The type of an attribute. Entities in it must have a definition, and the elements of a
collection must be entities. -/
def attributeType (definitions : List EntityDefinition) (entity : String)
    (label : AttributeDefinition) : Except ModelError DataType := do
  let some type := DataType.ofText? label.type
    | throw (.invalidType entity label.name label.type)
  match type with
  | .simple (.basic _) => return type
  | .collection _ (.basic _) =>
    throw (.invalidCollection entity label.name "collection elements must be entities")
  | .simple (.entity target) | .collection _ (.entity target) =>
    if (definition? definitions target).isSome then return type
    else throw (.unknownEntity entity label.name target)

/-- Adds the attribute that `owner` declares to those of `entity`. -/
def addAttribute (definitions : List EntityDefinition) (entity owner : String)
    (attributes : List Attribute) (label : AttributeDefinition) :
    Except ModelError (List Attribute) := do
  if attributes.any (·.name == label.name) then
    throw (.duplicateAttribute entity label.name)
  let type ← attributeType definitions owner label
  return attributes ++ [⟨label.name, type⟩]

/-- All attributes of `entity`, given its chain. -/
def attributes (definitions : List EntityDefinition) (entity : String)
    (chain : List EntityDefinition) : Except ModelError (List Attribute) :=
  chain.foldlM (fun attributes owner =>
    owner.attributes.foldlM (addAttribute definitions entity owner.name) attributes) []

/-- All interfaces of an entity, each once. -/
def interfaces (chain : List EntityDefinition) : List String :=
  (chain.flatMap (·.interfaces)).foldl (fun names name =>
    if names.contains name then names else names ++ [name]) []

/-- The entity that a definition describes, given its chain. -/
def entityType (definitions : List EntityDefinition) (definition : EntityDefinition)
    (chain : List EntityDefinition) : Except ModelError EntityType := do
  return {
    name := definition.name
    className := definition.className
    superType := definition.superType
    interfaces := interfaces chain
    attributes := ← attributes definitions definition.name chain }

/-- Checks the name of a table of `entity`. -/
def checkTable (parser : SqlParser) (entity name : String) : Except ModelError Unit :=
  (DerivedTable.checkName parser name).mapError (.invalidDerivedTable entity)

/-- The column of an attribute that is no collection. Without a name of its own it is called after
the attribute, and after its key if the attribute is an entity. -/
def columnName (label : AttributeDefinition) (type : DataType) : String :=
  label.column.getD (if type.entity?.isSome then label.name ++ "_id" else label.name)

/-- The mapping of a collection, which needs the owner's key and, if it has an index, the index. -/
def collectionMapping (entity : String) (label : AttributeDefinition) (type : DataType) :
    Except ModelError CollectionMapping := do
  let some ownerColumn := label.foreignKey
    | throw (.invalidCollection entity label.name "missing foreign_key")
  if type.isIndexed && label.indexColumn.isNone then
    throw (.invalidCollection entity label.name "indexed collection needs index_column")
  return ⟨label.name, ownerColumn, label.indexColumn⟩

/-- Tables with one more column in the table at `position`. -/
def addColumn (tables : List MappedTable) (position : Nat) (column : MappedColumn) :
    List MappedTable :=
  tables.modify position fun table => { table with columns := table.columns ++ [column] }

/-- The position of the last of the tables that lists an attribute; the first of them stands at
`start`. -/
def listedAt? (tables : List SecondaryTableDefinition) (start : Nat) (name : String) : Option Nat :=
  (tables.zipIdx start).reverse.findSome? fun (table, position) =>
    if table.attributes.contains name then some position else none

/-- Adds what `owner` says about one attribute to a shape. Columns go to the table that lists the
attribute and otherwise to `home`. -/
def mapAttribute (entity : EntityType) (owner : EntityDefinition) (home firstSecondary : Nat)
    (shape : TableShape) (label : AttributeDefinition) : Except ModelError TableShape := do
  let some type := entity.attribute? label.name
    | throw (.invalidType owner.name label.name label.type)
  if type.isPlural then
    let mapping ← collectionMapping owner.name label type
    return { shape with collections := shape.collections ++ [mapping] }
  else
    let position := (listedAt? owner.secondaryTables firstSecondary label.name).getD home
    let column : MappedColumn := ⟨label.name, columnName label type⟩
    return { shape with tables := addColumn shape.tables position column }

/-- A shape in the making, with the position of the table for attributes that no table lists. -/
structure Mapping where
  shape : TableShape
  home : Option Nat

/-- Adds the tables and attributes that one definition of the chain declares. -/
def mapDefinition (parser : SqlParser) (entity : EntityType) (mapping : Mapping)
    (owner : EntityDefinition) : Except ModelError Mapping := do
  let (tables, home) ← match owner.table with
    | some name => do
      checkTable parser owner.name name
      pure (mapping.shape.tables ++ [⟨name, owner.keyColumn, [], false, true⟩],
        some mapping.shape.tables.length)
    | none => pure (mapping.shape.tables, mapping.home)
  let some position := home | throw (.missingTable owner.name)
  owner.secondaryTables.forM fun table => checkTable parser owner.name table.name
  let secondary : List MappedTable := owner.secondaryTables.map fun table =>
    ⟨table.name, table.keyColumn, [], table.optional, false⟩
  let shape ← owner.attributes.foldlM (mapAttribute entity owner position tables.length)
    { mapping.shape with tables := tables ++ secondary }
  return ⟨shape, home⟩

/-- Checks that the elements of a collection have a table, their own or an inherited one. -/
def checkElement (definitions : List EntityDefinition) (entity : EntityType)
    (mapping : CollectionMapping) : Except ModelError Unit :=
  match ((entity.attribute? mapping.label).bind DataType.element?).bind DataType.entity? with
  | none => .ok ()
  | some element =>
    if (definition? definitions element).any fun d => d.table.isSome || d.superType.isSome
    then .ok () else .error (.missingTable element)

/-- The tables of an entity, given its chain. -/
def tableShape (parser : SqlParser) (definitions : List EntityDefinition) (entity : EntityType)
    (chain : List EntityDefinition) : Except ModelError TableShape := do
  let mapping ← chain.foldlM (mapDefinition parser entity) ⟨⟨[], []⟩, none⟩
  mapping.shape.collections.forM (checkElement definitions entity)
  return mapping.shape

/-- The entity and the tables that a definition describes. -/
def mappedEntity (parser : SqlParser) (definitions : List EntityDefinition)
    (definition : EntityDefinition) : Except ModelError MappedEntity := do
  let chain ← chain definitions definition
  let entity ← entityType definitions definition chain
  let shape ← tableShape parser definitions entity chain
  return ⟨entity, shape⟩

/-- Adds an entity, unless its class name is taken. -/
def addEntity (parser : SqlParser) (definitions : List EntityDefinition) (model : Model)
    (definition : EntityDefinition) : Except ModelError Model := do
  let mapped ← mappedEntity parser definitions definition
  if let some className := mapped.entity.className then
    if model.entities.any (·.entity.className == some className) then
      throw (.duplicateEntity className)
  return ⟨model.entities ++ [mapped]⟩

/-- The first name that an earlier definition has as well. -/
def repeated? : List EntityDefinition → List String → Option String
  | [], _ => none
  | definition :: rest, seen =>
    if seen.contains definition.name then some definition.name
    else repeated? rest (definition.name :: seen)

/-- The model that definitions describe, if the parser finds one query in each derived table. -/
def build (parser : SqlParser) (definitions : List EntityDefinition) : Except ModelError Model := do
  if let some name := repeated? definitions [] then
    throw (.duplicateEntity name)
  definitions.foldlM (addEntity parser definitions) ⟨[]⟩

/-- The model that definitions describe, with derived tables judged by their outlines. -/
def ofDefinitions (definitions : List EntityDefinition) : Except ModelError Model :=
  build DerivedTable.outlineParser definitions

/-- The definitions in a text. -/
def readDefinitions (format : Format) (text : String) : Except ModelError ModelDefinition :=
  match (format.read? text).bind (ModelDefinition.ofValue? format) with
  | some definition => .ok definition
  | none => .error (.malformed format)

/-- The model that a text describes. -/
def read (format : Format) (text : String) : Except ModelError Model := do
  let definition ← readDefinitions format text
  ofDefinitions definition.entities

end Model
end ObjectQuery

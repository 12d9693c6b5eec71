import ObjectQuery.Model.Build
/-!
# Catalogs

What the analysis of a query needs to know about a model is the answer to three questions, and a
catalog is any way to answer them. A model answers them from its entities.
-/
namespace ObjectQuery

/-- The answers about a model that a query can depend on. -/
structure Catalog where
  /-- What a name in a query stands for. -/
  resolve? : String → Option EntityReference
  /-- The entity of a name. -/
  entity? : String → Option EntityType
  /-- The tables of an entity. -/
  shape? : String → Option TableShape

namespace Model

/-- The entity of that name with its tables. -/
def mapped? (model : Model) (name : String) : Option MappedEntity :=
  model.entities.find? (·.entity.name == name)

/-- The entity of that name. -/
def entity? (model : Model) (name : String) : Option EntityType :=
  (model.mapped? name).map (·.entity)

/-- The tables of the entity of that name. -/
def shape? (model : Model) (name : String) : Option TableShape :=
  (model.mapped? name).map (·.shape)

/-- The entity of that name or, if there is none, of that class name. -/
def lookup? (model : Model) (name : String) : Option EntityType :=
  model.entity? name <|>
    (model.entities.find? (·.entity.className == some name)).map (·.entity)

/-- The names of the entities that an entity extends, nearest first. An entity extends fewer entities
than there are. -/
def superTypesWithin (model : Model) : Nat → EntityType → List String
  | 0, _ => []
  | fuel + 1, entity => match entity.superType with
    | none => []
    | some name => name :: match model.lookup? name with
      | none => []
      | some parent => superTypesWithin model fuel parent

/-- The names of the entities that an entity extends, nearest first. -/
def superTypes (model : Model) (entity : EntityType) : List String :=
  model.superTypesWithin model.entities.length entity

/-- The entities that implement an interface. -/
def implementors (model : Model) (interface : String) : List EntityType :=
  (model.entities.map (·.entity)).filter (·.interfaces.contains interface)

/-- The implementors of an interface that extend no other implementor. -/
def rootImplementors (model : Model) (interface : String) : List EntityType :=
  let implementors := model.implementors interface
  implementors.filter fun entity =>
    !implementors.any fun other => (model.superTypes entity).contains other.name

/-- What a name stands for: an entity by its own or its class name, or else the topmost entities
that implement it, in the order of their definitions. -/
def resolve? (model : Model) (name : String) : Option EntityReference :=
  match model.lookup? name with
  | some entity => some (.concrete entity)
  | none => match model.rootImplementors name with
    | [] => none
    | [entity] => some (.concrete entity)
    | roots => some (.polymorphic name roots)

/-- The answers that a model gives. -/
def catalog (model : Model) : Catalog := ⟨model.resolve?, model.entity?, model.shape?⟩

end Model
end ObjectQuery

import ObjectQuery.Model.Type
/-!
# Entities

A query ranges over entities. A name in a query may also stand for several entities at once, when no
entity has it but several unrelated ones implement it; what can then be said about them is what they
have in common.
-/
namespace ObjectQuery

/-- A property of an entity. -/
structure Attribute where
  name : String
  type : DataType
  deriving DecidableEq, Repr

/-- The type of the attribute of that name. -/
def Attribute.typeIn? (attributes : List Attribute) (name : String) : Option DataType :=
  (attributes.find? (·.name == name)).map (·.type)

/-- An entity with everything it inherits: the interfaces and the attributes of its ancestors come
before its own. -/
structure EntityType where
  name : String
  className : Option String
  superType : Option String
  interfaces : List String
  attributes : List Attribute
  deriving DecidableEq, Repr

namespace EntityType

/-- The type of an attribute. -/
def attribute? (entity : EntityType) (name : String) : Option DataType :=
  Attribute.typeIn? entity.attributes name

/-- The entity as a type. -/
def type (entity : EntityType) : DataType := .entity entity.name

end EntityType

/-- What a name in a query stands for: one entity, or a name that several implement. -/
inductive EntityReference where
  | concrete (entity : EntityType)
  | polymorphic (name : String) (implementors : List EntityType)
  deriving DecidableEq, Repr

/-- The attributes of the first entity that all others have with the same type. -/
def commonAttributes : List EntityType → List Attribute
  | [] => []
  | first :: others => first.attributes.filter fun attr =>
      others.all fun other => other.attribute? attr.name == some attr.type

namespace EntityReference

/-- The name of the entity or the name that several implement. -/
def name : EntityReference → String
  | concrete entity => entity.name
  | polymorphic name _ => name

/-- The attributes that a query may use. -/
def attributes : EntityReference → List Attribute
  | concrete entity => entity.attributes
  | polymorphic _ implementors => commonAttributes implementors

/-- The type of an attribute. -/
def attribute? (reference : EntityReference) (name : String) : Option DataType :=
  Attribute.typeIn? reference.attributes name

/-- Whether several entities are meant. -/
def isPolymorphic : EntityReference → Bool
  | concrete _ => false
  | polymorphic _ _ => true

/-- The one entity that is meant. -/
def entity? : EntityReference → Option EntityType
  | concrete entity => some entity
  | polymorphic _ _ => none

/-- The reference as a type. -/
def type (reference : EntityReference) : DataType := .entity reference.name

end EntityReference
end ObjectQuery

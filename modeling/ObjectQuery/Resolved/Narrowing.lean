import ObjectQuery.Resolved.Visit
/-!
# Splitting statements over implementors

A statement whose root stands for several entities means one statement for each of them. In each the
root is one entity, whose type is recorded for it, and the first attributes of the paths that start
from the root are looked up again in that entity.
-/
namespace ObjectQuery.Resolved

/-- Records the type of an entity for the source of that name, and its attributes for the paths that
start from there. -/
def narrowing (label : String) (entity : EntityType) : Retyping where
  parameter := Parameter.type
  source name type := if name = label then entity.type else type
  entity? name := if name = label then some entity else none
  element name type := if name = label then entity.type else type

/-- The source with another entity. -/
def FromNode.withEntity (node : FromNode) (entity : EntityType) : FromNode :=
  { node with entity := .concrete entity }

/-- The statement with another entity for its root. -/
def Statement.withRoot (entity : EntityType) : Statement → Statement
  | .select ⟨⟨root, joins⟩ :: rest, distinct, selections, filter⟩ order =>
    .select ⟨⟨root.withEntity entity, joins⟩ :: rest, distinct, selections, filter⟩ order
  | .select query order => .select query order
  | .update target assignments filter =>
    .update (target.withEntity entity)
      (assignments.map fun assignment =>
        { assignment with target := { assignment.target with sourceType := entity.type } }) filter
  | .delete target filter => .delete (target.withEntity entity) filter

/-- The statement with the attributes that it assigns looked up in the entity. -/
def Statement.withTargets (entity : EntityType) : Statement → Statement
  | .update target assignments filter => .update target
      (assignments.map fun assignment =>
        { assignment with target := assignment.target.retarget entity }) filter
  | other => other

/-- The statement with its root, which has that name, narrowed to one entity. -/
def Statement.narrow (label : String) (entity : EntityType) (statement : Statement) : Statement :=
  ((statement.retype (narrowing label entity)).withTargets entity).withRoot entity

/-- The statements that a statement means, one for each implementor of its root, or itself. -/
def Statement.split (statement : Statement) : List Statement :=
  match statement.root? with
  | some ⟨label, _, .polymorphic _ implementors, _⟩ =>
    implementors.map fun entity => statement.narrow label entity
  | _ => [statement]

end ObjectQuery.Resolved

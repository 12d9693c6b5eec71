import ObjectQuery.Proofs.Resolved.Retyped
/-!
# Statements with an entity recorded for their root

A statement whose root is narrowed to one entity has the first attributes of its paths looked up again
in that entity. If the entity has these attributes with the types that the paths have for them, the
looking up changes nothing. What is left of the narrowing is that the entity is recorded for the root.
-/
namespace ObjectQuery.Resolved

/-- The assignments of an update. -/
def Statement.assignments : Statement → List Assignment
  | .update _ assignments _ => assignments
  | _ => []

/-- Records the type of an entity for the source of that name, and nothing else. -/
def recording (label : String) (entity : EntityType) : Retyping where
  parameter := Parameter.type
  source name type := if name = label then entity.type else type
  entity? _ := none
  element name type := if name = label then entity.type else type

/-- No attribute is looked up again when a type is recorded. -/
@[simp] theorem entity?_recording (label : String) (entity : EntityType) :
    (recording label entity).entity? = fun _ => none := rfl

/-- The statement with the entity recorded for its root, which has that name: it is the entity of the
root, and its type is that of the root where the root stands as a whole, where a path starts from it
and where an attribute of it is assigned. -/
def Statement.recorded (label : String) (entity : EntityType) (statement : Statement) : Statement :=
  (statement.retype (recording label entity)).withRoot entity

/-- The entity has the first attribute of the path, with the type that the path has for it. Without an
index that is the type after the attribute, and the type after the last attribute is that of the path. -/
structure Reference.BeginsIn (entity : EntityType) (reference : Reference Expr) : Prop where
  begins : entity.attribute? reference.first.label = some reference.first.declared
  after : reference.first.index.isNone → reference.first.type = reference.first.declared
  type : reference.type = reference.last.type

/-- A path from the source of that name begins in the entity. -/
def Expr.BeginsIn (label : String) (entity : EntityType) : Expr → Prop
  | .path reference => reference.source = label → reference.BeginsIn entity
  | _ => True

/-- The paths of the statement from the source of that name begin in the entity, and so does whatever
it assigns. -/
structure Statement.BeginsIn (label : String) (entity : EntityType) (statement : Statement) :
    Prop where
  paths : ∀ expr ∈ statement.nodes, expr.BeginsIn label entity
  targets : ∀ assignment ∈ statement.assignments, assignment.target.BeginsIn entity

/-- What begins at the root of the statement begins in each entity that the root stands for. -/
def Statement.SharesRoot (statement : Statement) : Prop :=
  ∀ ⦃node name implementors⦄, statement.root? = some node →
    node.entity = .polymorphic name implementors →
      ∀ entity ∈ implementors, statement.BeginsIn node.label entity

variable {label : String} {entity : EntityType} {statement part : Statement}

/-- Looking an attribute up in the entity changes nothing if the entity has it with its type. -/
theorem Segment.retarget_eq_self {segment : Segment Expr}
    (begins : entity.attribute? segment.label = some segment.declared)
    (after : segment.index.isNone → segment.type = segment.declared) :
    segment.retarget entity = segment := by
  have kept : (if segment.index.isNone then segment.declared else segment.type) = segment.type := by
    split
    · exact (after ‹_›).symm
    · rfl
  rw [Segment.retarget, begins]
  exact congrArg (Segment.mk segment.label segment.declared segment.index) kept

/-- Looking the first attribute up in the entity changes nothing. -/
theorem Reference.BeginsIn.retarget {reference : Reference Expr} (begins : reference.BeginsIn entity) :
    reference.retarget entity = reference := by
  obtain ⟨begins, after, ends⟩ := begins
  have kept := Segment.retarget_eq_self begins after
  obtain ⟨source, sourceType, _ | ⟨first, rest⟩, last, type⟩ := reference
  · obtain rfl : type = last.type := ends
    rw [Reference.retarget, show last.retarget entity = last from kept]
  · obtain rfl : type = last.type := ends
    rw [Reference.retarget, show first.retarget entity = first from kept]

/-- Narrowing gives to what the expression records itself what recording gives to it. -/
theorem Expr.BeginsIn.sameOwn {expr : Expr} (begins : expr.BeginsIn label entity) :
    expr.SameOwn (narrowing label entity) (recording label entity) := by
  cases expr with
  | path reference =>
    refine ⟨rfl, ?_⟩
    by_cases atRoot : reference.source = label
    · have same : reference.retarget entity = reference := (begins atRoot).retarget
      simp [narrowing, atRoot, Reference.retargetTo, same]
    · simp [narrowing, atRoot]
  | element label type => rfl
  | parameter bound => rfl
  | literal value => trivial
  | arithmetic op left right type => trivial
  | negate operand => trivial
  | call function distinct argument type => trivial

/-- New types leave what is assigned to. -/
theorem Statement.assignments_retype (new : Retyping) (statement : Statement) :
    (statement.retype new).assignments.map (·.target) = statement.assignments.map (·.target) := by
  cases statement with
  | update target assignments filter => simp [Statement.retype, Statement.assignments]
  | _ => rfl

/-- Looking up what is assigned to changes nothing if the entity has it. -/
theorem Statement.withTargets_eq_self
    (kept : ∀ target ∈ statement.assignments.map (·.target), target.BeginsIn entity) :
    statement.withTargets entity = statement := by
  cases statement with
  | update target assignments filter =>
    have same : assignments.map (fun assignment =>
        { assignment with target := assignment.target.retarget entity }) =
          assignments.map id := by
      refine List.map_congr_left fun assignment listed => ?_
      rw [(kept assignment.target (List.mem_map_of_mem listed)).retarget]
      rfl
    rw [withTargets, same, List.map_id]
  | _ => rfl

/-- Narrowing to an entity that has the attributes in use records the entity and does nothing else. -/
theorem Statement.BeginsIn.narrow (begins : statement.BeginsIn label entity) :
    statement.narrow label entity = statement.recorded label entity := by
  have same : statement.retype (narrowing label entity) = statement.retype (recording label entity) :=
    retype_congr fun expr listed => (begins.paths expr listed).sameOwn
  rw [Statement.narrow, same, Statement.recorded, withTargets_eq_self]
  rw [assignments_retype]
  exact List.forall_mem_map.mpr begins.targets

/-- A statement is split into one statement for each entity that its root stands for, with that entity
recorded. -/
theorem Statement.SharesRoot.split (shares : statement.SharesRoot) {node : FromNode} {name : String}
    {implementors : List EntityType} (rooted : statement.root? = some node)
    (several : node.entity = .polymorphic name implementors) :
    statement.split = implementors.map fun entity => statement.recorded node.label entity := by
  have narrowed : statement.split =
      implementors.map fun entity => statement.narrow node.label entity := by
    obtain ⟨label, generated, reference, origin⟩ := node
    obtain rfl : reference = .polymorphic name implementors := several
    rw [Statement.split, rooted]
  rw [narrowed]
  exact List.map_congr_left fun entity listed => (shares rooted several entity listed).narrow

end ObjectQuery.Resolved

import ObjectQuery.Proofs.Polymorphic
/-!
# Splitting a statement

A statement whose root stands for several entities is split into one statement for each of them, in
their order. Each of the statements is the given one with its entity recorded for the root. The first
attributes of paths are looked up once more, but whatever can be used of the root has the same type in
each entity, so that nothing else changes. The root of such a statement stands for itself alone, and
splitting the statement again gives it back.
-/
namespace ObjectQuery

namespace Resolved

variable {label : String} {entity : EntityType}

/-- If the expression refers to the source of that name, as a whole or with a path from it, then it
records the type for the source. -/
def Expr.Records (label : String) (type : DataType) : Expr → Prop
  | .path reference => reference.source = label → reference.sourceType = type
  | .element name recorded => name = label → recorded = type
  | _ => True

/-- What a path follows: its attributes, each with its type, the type after it and whether there is an
index, and with these the type of the path. -/
def Expr.route? : Expr → Option (List (Segment Unit) × DataType)
  | .path reference => some (reference.segments.map Segment.outline, reference.type)
  | _ => none

/-- The part is the statement with the entity for its root, which is the given source, and with
nothing else changed. -/
structure Statement.NarrowsTo (statement : Statement) (node : FromNode) (entity : EntityType)
    (part : Statement) : Prop where
  /-- Only what is recorded about the root differs. -/
  recorded : part = statement.recorded node.label entity
  root : part.root? = some (node.withEntity entity)
  /-- The paths follow the same attributes with the same types, those from the root as well. -/
  routes : part.nodes.map Expr.route? = statement.nodes.map Expr.route?
  /-- The type of the entity is recorded wherever an expression refers to the root. -/
  references : ∀ expr ∈ part.nodes, expr.Records node.label entity.type
  /-- Whatever is assigned belongs to the root, and the type of the entity is recorded there as well. -/
  targets : ∀ assignment ∈ part.assignments,
    assignment.target.source = node.label ∧ assignment.target.sourceType = entity.type
  /-- The part cannot be split any further. -/
  alone : part.split = [part]

/-- Recording a type leaves what a path follows. -/
theorem Expr.route?_retype (expr : Expr) : (expr.retype (recording label entity)).route? = expr.route? := by
  cases expr with
  | path reference =>
    rw [Expr.retype_path, Reference.retype, entity?_recording, Reference.retargetTo_none]
    have same := outline_retyped (recording label entity) reference
    exact congrArg (fun segments => some (segments, reference.type)) same
  | _ => rfl

/-- The paths of a statement with a recorded root follow what they followed before. -/
theorem Statement.routes_recorded (statement : Statement) :
    (statement.recorded label entity).nodes.map Expr.route? = statement.nodes.map Expr.route? := by
  rw [Statement.recorded, Statement.nodes_withRoot, Statement.nodes_retype, List.map_map]
  exact List.map_congr_left fun expr _ => expr.route?_retype

/-- Recording a type for a label writes it in every path from the label. -/
theorem Expr.records_retype (expr : Expr) :
    (expr.retype (recording label entity)).Records label entity.type := by
  cases expr with
  | path reference =>
    obtain ⟨source, sourceType, init, last, type⟩ := reference
    rw [Expr.retype, entity?_recording, Reference.retargetTo_none]
    exact fun atRoot => if_pos atRoot
  | element name type => exact fun atRoot => if_pos atRoot
  | _ => trivial

/-- Every path of a recorded statement records the type. -/
theorem Statement.references_recorded (statement : Statement) :
    ∀ expr ∈ (statement.recorded label entity).nodes, expr.Records label entity.type := by
  rw [Statement.recorded, Statement.nodes_withRoot, Statement.nodes_retype]
  exact List.forall_mem_map.mpr fun expr _ => expr.records_retype

/-- Retyping leaves the root of a statement. -/
theorem Statement.root?_retype (new : Retyping) (statement : Statement) :
    (statement.retype new).root? = statement.root? := by
  cases statement with
  | select query order =>
    obtain ⟨_ | ⟨space, rest⟩, distinct, selections, filter⟩ := query <;> rfl
  | update target assignments filter => rfl
  | delete target filter => rfl

/-- The targets of a recorded statement start at the recorded type. -/
theorem Statement.targets_recorded (statement : Statement) :
    (statement.recorded label entity).assignments.map (·.target) =
      statement.assignments.map fun assignment => { assignment.target with sourceType := entity.type } := by
  cases statement with
  | select query order =>
    obtain ⟨_ | ⟨space, rest⟩, distinct, selections, filter⟩ := query <;> rfl
  | update target assignments filter =>
    simp [Statement.recorded, Statement.retype, Statement.withRoot, Statement.assignments]
  | delete target filter => rfl

/-- Recording an entity for the root narrows the statement to that entity. -/
theorem Statement.narrowsTo_recorded {statement : Statement} {node : FromNode}
    (rooted : statement.root? = some node)
    (own : ∀ assignment ∈ statement.assignments, assignment.target.source = node.label) :
    statement.NarrowsTo node entity (statement.recorded node.label entity) := by
  have root : (statement.recorded node.label entity).root? = some (node.withEntity entity) := by
    rw [Statement.recorded, Statement.root?_withRoot, Statement.root?_retype, rooted]
    rfl
  refine ⟨rfl, root, statement.routes_recorded, statement.references_recorded, ?_,
    Statement.split_concrete root rfl⟩
  intro assignment listed
  have target := List.mem_map_of_mem (f := (·.target)) listed
  rw [statement.targets_recorded] at target
  obtain ⟨given, member, same⟩ := List.mem_map.mp target
  rw [← same]
  exact ⟨own given member, rfl⟩

end Resolved

variable {parser : SqlParser} {definitions : List EntityDefinition} {model : Model} {source : String}
  {statement : Resolved.Statement}

/-- A statement whose root stands for several entities is split into its narrowings to these, one for
each and in their order. -/
theorem split_narrows_root {node : Resolved.FromNode} {name : String} {implementors : List EntityType}
    (accepted : Model.build parser definitions = .ok model)
    (interpreted : interpret model.catalog source = .ok statement)
    (rooted : statement.root? = some node) (several : node.entity = .polymorphic name implementors) :
    List.Forall₂ (statement.NarrowsTo node) implementors statement.split := by
  rw [(interpret_sharesRoot accepted interpreted).split rooted several, List.forall₂_map_right_iff]
  -- An update assigns to its root alone, so the targets that are given the new type start from there.
  refine List.forall₂_same.mpr fun entity _ => Resolved.Statement.narrowsTo_recorded rooted ?_
  intro assignment listed
  exact (Resolved.Statement.target_startsFrom (interpret_isScoped interpreted) rooted listed).source

/-- Whether the definitions make a model in which the text means a statement whose root stands for
the entities of these names. -/
def hasRootOver (definitions : List EntityDefinition) (source : String) (names : List String) : Bool :=
  match Model.ofDefinitions definitions with
  | .error _ => false
  | .ok model =>
    match interpret model.catalog source with
    | .error _ => false
    | .ok statement =>
      match statement.root? with
      | some ⟨_, _, .polymorphic _ implementors, _⟩ => implementors.map (·.name) == names
      | _ => false

/-- The check on a text finds its root and the entities it stands for. -/
theorem exists_of_hasRootOver {names : List String}
    (passed : hasRootOver definitions source names = true) :
    ∃ model statement node name implementors, Model.ofDefinitions definitions = .ok model ∧
      interpret model.catalog source = .ok statement ∧ statement.root? = some node ∧
      node.entity = .polymorphic name implementors ∧ implementors.map (·.name) = names := by
  unfold hasRootOver at passed
  split at passed
  · cases passed
  · rename_i model accepted
    split at passed
    · cases passed
    · rename_i statement interpreted
      split at passed
      · rename_i label generated name implementors origin rooted
        exact ⟨model, statement, _, name, implementors, accepted, interpreted, rooted, rfl,
          beq_iff_eq.mp passed⟩
      · cases passed

/-- A text that changes a root which it also uses as a whole, through an index and in a query. -/
def renamesParty : String :=
  "update Party p set p.name = :name where p.offices[:k].city in " ++
  "(select a.city from Address a where a = p.home) or p is null"

/-- The text that renames parties is narrowed to persons and to companies. -/
theorem split_narrows_root_renamesParty : ∃ model statement node name implementors,
    Model.ofDefinitions parties = .ok model ∧
    interpret model.catalog renamesParty = .ok statement ∧ statement.root? = some node ∧
    node.entity = .polymorphic name implementors ∧
    implementors.map (·.name) = ["Person", "Company"] ∧
    List.Forall₂ (statement.NarrowsTo node) implementors statement.split := by
  have checked : hasRootOver parties renamesParty ["Person", "Company"] = true := by decide +kernel
  obtain ⟨model, statement, node, name, implementors, accepted, interpreted, rooted, several, named⟩ :=
    exists_of_hasRootOver checked
  exact ⟨model, statement, node, name, implementors, accepted, interpreted, rooted, several, named,
    split_narrows_root accepted interpreted rooted several⟩

end ObjectQuery

import ObjectQuery.Proofs.IndexTypes
import ObjectQuery.Proofs.Lowering.Spared
/-!
# Changes of one table

An update or a delete is made to one table, and its SQL form has no place for a join. What its paths
would need is nevertheless joined to the target first, and refused only in the end. So no path leaves
the target of a change that compiles, wherever it stands, and all that remains is the table of the
target with the columns of its attributes.
-/
namespace ObjectQuery

open Sql
open Resolved (FromNode)

/-! ## The names that are assigned -/

/-- The last part of a path. -/
def Grammar.Path.last {ε : Type} (path : Grammar.Path ε) : Grammar.PathPart ε :=
  path.rest.getLastD path.first

/-- The last name of a path is that of its last further part, or of the first. -/
theorem Grammar.Path.last_name {ε : Type} (path : Grammar.Path ε) : path.last.name.value =
    (path.rest.map (·.name.value)).getLast?.getD path.first.name.value := by
  rw [Grammar.Path.last, List.getLastD_eq_getLast?, List.getLast?_map]
  cases path.rest.getLast? <;> rfl

/-- The names of the attributes that a text assigns, in order. -/
def Grammar.Statement.assigned : Grammar.Statement → List String
  | .update _ assignments _ => assignments.map (·.target.last.name.value)
  | _ => []

/-- The names of the attributes that are assigned. -/
def Resolved.Statement.assigned (statement : Resolved.Statement) : List String :=
  statement.assignments.map (·.target.last.label)

namespace Resolution

variable (names : Names) (clause : Nat)

/-- One part of a path is resolved to a segment of its name. -/
theorem part_label (owner : Owner) (given : Grammar.PathPart Grammar.Expr) :
    Ensures (part names clause owner given) fun segment => segment.label = given.name.value := by
  rw [part]
  exact .skip fun _ => .skip fun _ => .skip fun _ => .pure rfl

/-- The parts of a path are resolved to segments of their names. -/
theorem parts_labels : ∀ (given : List (Grammar.PathPart Grammar.Expr)) (owner : Owner),
    Ensures (parts names clause owner given) fun segments =>
      segments.map (·.label) = given.map (·.name.value)
  | [], owner => by
    rw [parts]
    exact .pure rfl
  | first :: rest, owner => by
    rw [parts]
    refine .bind (part_label names clause owner first) fun segment label =>
      .bind (parts_labels rest _) fun segments labels => .pure ?_
    rw [List.map_cons, List.map_cons, label, labels]

/-- The attribute that a path along the segments ends with. -/
theorem pathOf_last {source : FromElement} {segments : List (Resolved.Segment Resolved.Expr)}
    {reference : Resolved.Reference Resolved.Expr} (same : pathOf source segments = .path reference) :
    (segments.map (·.label)).getLast? = some reference.last.label := by
  unfold pathOf at same
  split at same
  · cases same
  · rename_i last found
    obtain rfl := Resolved.Expr.path.inj same
    rw [List.getLast?_map, found]
    rfl

/-- A path ends with the attribute that the text ends it with. -/
theorem path_last (route : Grammar.Path Grammar.Expr) : Ensures (path names clause route) fun found =>
    ∀ reference, found = .path reference → reference.last.label = route.last.name.value := by
  obtain ⟨⟨name, index⟩, rest, span⟩ := route
  rw [path]
  refine .skip fun start => ?_
  obtain ⟨source, isSource⟩ := start
  cases isSource with
  | true =>
    refine .bind (parts_labels names clause rest _) fun segments labels => .pure ?_
    intro reference same
    have last := pathOf_last same
    rw [labels] at last
    rw [Grammar.Path.last_name, last, Option.getD_some]
  | false =>
    refine .bind (part_label names clause _ _) fun segment label =>
      .bind (parts_labels names clause rest _) fun segments labels => .pure ?_
    intro reference same
    have last := pathOf_last same
    rw [List.map_cons, label, labels, List.getLast?_cons] at last
    rw [Grammar.Path.last_name]
    exact (Option.some.inj last).symm

/-- A statement assigns to the attributes it is written to assign to. -/
theorem statement_assigned : ∀ given : Grammar.Statement, Ensures (statement names given) fun found =>
    found.assigned = given.assigned
  | .select query order => by
    rw [statement]
    exact .skip fun _ => .skip fun _ => .pure rfl
  | .update target assignments condition => by
    have each (clause : Nat) (node : FromNode) (given : Grammar.Assignment) :
        Ensures (assignment names clause node given) fun found =>
          found.target.last.label = given.target.last.name.value := by
      rw [assignment]
      refine .bind (path_last names clause given.target) fun found last => ?_
      split
      · split
        · exact .skip fun _ => .pure (last _ rfl)
        · exact .throw
      · exact .throw
    rw [statement]
    exact .skip fun clause => .skip fun node => .bind (.mapM (each clause node) assignments)
      fun found paired => .skip fun _ => .pure (map_of_forall₂ paired)
  | .delete target condition => by
    rw [statement]
    exact .skip fun _ => .skip fun _ => .skip fun _ => .pure rfl

end Resolution

/-! ## The parts of a change -/

namespace Resolved

/-- Taking the types off leaves what a statement assigns to. -/
theorem Statement.assigned_stripped (statement : Statement) :
    statement.stripped.assigned = statement.assigned := by
  cases statement <;> simp [Statement.assigned, Statement.assignments]

/-- Another root leaves what a statement assigns to. -/
theorem Statement.assigned_withRoot (entity : EntityType) (statement : Statement) :
    (statement.withRoot entity).assigned = statement.assigned := by
  cases statement with
  | select query order =>
    obtain ⟨_ | ⟨⟨root, joins⟩, rest⟩, distinct, selections, filter⟩ := query <;> rfl
  | update target assignments filter =>
    simp [Statement.withRoot, Statement.assigned, Statement.assignments]
  | delete target filter => rfl

/-- The parts of a change assign to the same attributes. -/
theorem Statement.assigned_of_split {statement part : Statement} (shares : statement.infer.SharesRoot)
    (member : part ∈ statement.infer.split) : part.assigned = statement.assigned := by
  have same := congrArg (List.map fun target : Reference Expr => target.last.label) statement.targets_infer
  rw [List.map_map, List.map_map] at same
  refine Eq.trans ?_ same
  exact Statement.eq_of_mem_split Statement.assigned_stripped Statement.assigned_withRoot shares member

/-- An assignment to a basic attribute follows no step. -/
theorem Statement.AssignsBasic.direct {statement : Statement} (basic : statement.AssignsBasic) :
    ∀ assignment ∈ statement.assignments, assignment.target.init = [] := by
  intro assignment listed
  cases statement with
  | select query order => cases listed
  | update target assignments filter => exact (basic assignment listed).1
  | delete target filter => cases listed

/-- The target of a change is its root. -/
theorem Statement.root?_of_target? {statement : Statement} {node : FromNode}
    (targeted : statement.target? = some node) : statement.root? = some node := by
  cases statement with
  | select query order => cases targeted
  | update target assignments filter => exact targeted
  | delete target filter => exact targeted

/-- The targets of the parts of a change have the name of its target. -/
theorem Statement.target?_of_split {statement part : Statement} {node : FromNode}
    (targeted : statement.target? = some node) (member : part ∈ statement.split) :
    ∃ own, part.target? = some own ∧ own.label = node.label := by
  unfold split at member
  split at member
  · obtain ⟨entity, _, rfl⟩ := List.mem_map.mp member
    cases statement with
    | select query order => cases targeted
    | update target assignments filter | delete target filter =>
      obtain rfl := Option.some.inj targeted
      exact ⟨_, rfl, rfl⟩
  · obtain rfl := List.mem_singleton.mp member
    exact ⟨node, targeted, rfl⟩

end Resolved

/-! ## Compiled changes -/

variable {parser : SqlParser} {definitions : List EntityDefinition} {model : Model}
  {policy : JoinPolicy} {source : String} {tree : Grammar.Statement} {given : Resolved.Statement}
  {node : FromNode} {statements : List Sql.Statement}

/-- The statement is what the part of a change is lowered to, whose target is the entity with the one
table. -/
structure ChangesTable (context : LoweringContext) (assigned : List String) (entity : EntityType)
    (table : MappedTable) (part : Resolved.Statement) (statement : Sql.Statement) : Prop where
  target : part.target?.map (·.entity) = some (.concrete entity)
  single : (context.catalog.shape? entity.name).map (·.tables) = some [table]
  stored : table.isDerived = false
  addressed : statement.table? = some table.name
  /-- All columns outside of sub-selects are qualified with the name of the table. -/
  qualified : statement.QualifiesTarget
  /-- The columns that are set are those of the assigned attributes, in order. -/
  columns : statement.assignments.map (fun set => some set.1) = assigned.map table.column?
  values : List.Forall₂ (fun assignment set => ∃ before after,
    Lowering.Yields (Lowering.expr context assignment.value) before set.2 after)
      part.assignments statement.assignments

/-- What a text assigns is one attribute of the target. -/
theorem direct_of_interpret (accepted : Model.build parser definitions = .ok model)
    (interpreted : interpret model.catalog source = .ok given) (targeted : given.target? = some node) :
    ∀ assignment ∈ given.assignments, assignment.target.source = node.label ∧
      assignment.target.init = [] ∧ assignment.target.last.index = none := by
  obtain ⟨tree, index, resolved, after, parsed, registered, ran, rfl⟩ := interpret_ok interpreted
  have within := (resolved_of_parsed parsed registered ran).1
  obtain ⟨_, _, basic⟩ := Resolution.statement_counts _ tree (Sources.ofStatement_admits registered).1
    (Grammar.parse_fillsLists (mapError_ok parsed)) ran
  have plain := targets_of_parsed accepted parsed registered ran
  have rooted : resolved.root? = some node := by
    rw [← resolved.root?_infer]
    exact Resolved.Statement.root?_of_target? targeted
  have direct : ∀ target ∈ resolved.assignments.map (·.target), target.source = node.label ∧
      target.init = [] ∧ target.last.index = none := by
    refine List.forall_mem_map.mpr fun assignment listed =>
      ⟨?_, Resolved.Statement.AssignsBasic.direct basic assignment listed, ?_⟩
    · exact (Resolved.Statement.target_startsFrom within rooted listed).source
    · exact plain _ (List.mem_map_of_mem listed) _ (List.mem_append_right _ (List.mem_singleton_self _))
  rw [← resolved.targets_infer] at direct
  exact List.forall_mem_map.mp direct

/-- A part of a change is lowered to a change of one table, which is not left by any path. -/
theorem changesTable_of_run (accepted : Model.build parser definitions = .ok model)
    (parsed : parse source = .ok tree) (interpreted : interpret model.catalog source = .ok given)
    (targeted : given.target? = some node) {part : Resolved.Statement} (member : part ∈ given.split)
    {statement : Sql.Statement} {after : LoweringState}
    (run : Lowering.Yields (Lowering.statement ⟨model.catalog, policy⟩ part) ⟨[], 0⟩ statement after) :
    node.label ∉ part.departures ∧ ∃ entity table,
      ChangesTable ⟨model.catalog, policy⟩ tree.assigned entity table part statement := by
  have shares := interpret_sharesRoot accepted interpreted
  obtain ⟨_, ready⟩ := ready_of_mem_split accepted interpreted member policy
  have assigned : part.assigned = tree.assigned := by
    obtain ⟨other, index, resolved, _, same, registered, ran, rfl⟩ := interpret_ok interpreted
    obtain rfl := Except.ok.inj (parsed.symm.trans same)
    rw [Resolved.Statement.assigned_of_split shares member]
    exact Resolution.statement_assigned _ tree ran
  have writes : part.WritesAll := by
    obtain ⟨_, resolved, _, rfl, writes, _⟩ := interpret_keeps accepted interpreted
    exact (Resolved.Statement.writesAll_of_split member).mpr writes
  obtain ⟨own, ownTarget, named⟩ := Resolved.Statement.target?_of_split targeted member
  obtain ⟨verb, target, built, changes⟩ := Lowering.statement_changes ownTarget
    ready.coming.plain
    (by simpa using ready.coming.distinct) writes run
  obtain ⟨entity, shape, table, concrete, shaped, single, stored, rfl⟩ :=
    Lowering.targetGroup_ok_iff.mp built
  refine ⟨?_, entity, table, ?_, ?_, stored, changes.table,
    (Lowering.statement_scoped ready.coming.plain run).2, ?_, ?_⟩
  · exact named ▸ changes.alone.departures
  · rw [ownTarget, Option.map_some, concrete]
  · rw [Lowering.shape?_of_shape shaped, Option.map_some, single]
  · rw [← assigned, Resolved.Statement.assigned, List.map_map]
    refine (Resolution.map_of_forall₂ (changes.assigned.imp fun assignment set sets => ?_))
    rw [← sets.column, Lowering.column_groupOfTarget]
    rfl
  · exact changes.assigned.imp fun _ _ sets => sets.value

/-- A change that compiles is one of the table of its target, for each entity that the target stands
for. The entity has only that table, which is no query, and all columns outside of sub-selects are
qualified with its name. What the text assigns is set in the order of the text, in the columns of the
attributes. No path from the target goes on from an association or through an index, not even in a
sub-select, and no join goes along such a path. -/
theorem compile_changesTable (accepted : Model.build parser definitions = .ok model)
    (parsed : parse source = .ok tree) (interpreted : interpret model.catalog source = .ok given)
    (targeted : given.target? = some node)
    (compiled : compile model.catalog policy source = .ok statements) :
    node.label ∉ given.departures ∧
      (∀ assignment ∈ given.assignments, assignment.target.source = node.label ∧
        assignment.target.init = [] ∧ assignment.target.last.index = none) ∧
      List.Forall₂ (fun part statement => ∃ entity table,
        ChangesTable ⟨model.catalog, policy⟩ tree.assigned entity table part statement)
          given.split statements := by
  obtain ⟨other, same, lowered⟩ := except_bind_ok.mp compiled
  obtain rfl := Except.ok.inj (interpreted.symm.trans same)
  have paired := mapM_ok_iff.mp (mapError_ok lowered)
  have changes : ∀ part ∈ given.split, ∀ statement, part.lower ⟨model.catalog, policy⟩ = .ok statement →
      node.label ∉ part.departures ∧ ∃ entity table,
        ChangesTable ⟨model.catalog, policy⟩ tree.assigned entity table part statement := by
    intro part member statement lowered
    obtain ⟨after, run⟩ := Resolved.Statement.lower_ok lowered
    exact changesTable_of_run accepted parsed interpreted targeted member run
  refine ⟨?_, direct_of_interpret accepted interpreted targeted, ?_⟩
  · obtain ⟨_, resolved, _, rfl, _, _, parts⟩ := interpret_keeps accepted interpreted
    obtain ⟨part, member⟩ := List.exists_mem_of_ne_nil _ parts
    obtain ⟨statement, _, ran⟩ := exists_of_forall₂ paired.flip member
    rw [← Resolved.Statement.departures_of_split (interpret_sharesRoot accepted interpreted) member]
    exact (changes part member statement ran).1
  · refine ((List.forall₂_and_left _ _).mpr ⟨changes, paired⟩).imp fun part statement held => ?_
    exact (held.1 statement held.2).2

/-- Whether the text is a change in the model with these definitions, and compiles to statements that
pass the check. -/
def changesTo (definitions : List EntityDefinition) (policy : JoinPolicy) (source : String)
    (check : List Sql.Statement → Bool) : Bool :=
  match Model.ofDefinitions definitions with
  | .error _ => false
  | .ok model =>
    match parse source, interpret model.catalog source, compile model.catalog policy source with
    | .ok _, .ok given, .ok statements => given.target?.isSome && check statements
    | _, _, _ => false

/-- The check on a text finds its target and the statements it is compiled to. -/
theorem exists_of_changesTo {check : List Sql.Statement → Bool}
    (passed : changesTo definitions policy source check = true) :
    ∃ model tree given node statements, Model.ofDefinitions definitions = .ok model ∧
      parse source = .ok tree ∧ interpret model.catalog source = .ok given ∧
      given.target? = some node ∧ compile model.catalog policy source = .ok statements ∧
      check statements = true := by
  unfold changesTo at passed
  split at passed
  · cases passed
  · rename_i model accepted
    split at passed
    · rename_i tree given statements parsed interpreted compiled
      obtain ⟨targeted, checked⟩ := Bool.and_eq_true_iff.mp passed
      obtain ⟨node, targeted⟩ := Option.isSome_iff_exists.mp targeted
      exact ⟨model, tree, given, node, statements, accepted, parsed, interpreted, targeted, compiled,
        checked⟩
    · cases passed

/-- A text that changes two tables, in which the query inside joins along an attribute of the target. -/
def renamesNeighbours : String :=
  "update Party p set p.name = :name, p.id = p.id + 1 where p.name in " ++
  "(select a.city from Address a left join p.offices b where a = p.home and b.city = p.name)"

/-- People and companies are renamed, each in a table of their own. -/
theorem compile_changesTable_renamesNeighbours : ∃ model tree given node statements,
    Model.ofDefinitions parties = .ok model ∧ parse renamesNeighbours = .ok tree ∧
    interpret model.catalog renamesNeighbours = .ok given ∧ given.target? = some node ∧
    compile model.catalog .outer renamesNeighbours = .ok statements ∧
    statements.map (fun statement => (statement.table?, statement.assignments.map (·.1))) =
      [(some "people", ["name", "id"]), (some "companies", ["title", "id"])] ∧
    node.label ∉ given.departures ∧
      (∀ assignment ∈ given.assignments, assignment.target.source = node.label ∧
        assignment.target.init = [] ∧ assignment.target.last.index = none) ∧
      List.Forall₂ (fun part statement => ∃ entity table,
        ChangesTable ⟨model.catalog, .outer⟩ tree.assigned entity table part statement)
          given.split statements := by
  have checked : changesTo parties .outer renamesNeighbours (fun statements =>
      statements.map (fun statement => (statement.table?, statement.assignments.map (·.1))) ==
        [(some "people", ["name", "id"]), (some "companies", ["title", "id"])]) = true := by
    decide +kernel
  obtain ⟨model, tree, given, node, statements, accepted, parsed, interpreted, targeted, compiled,
    columns⟩ := exists_of_changesTo checked
  exact ⟨model, tree, given, node, statements, accepted, parsed, interpreted, targeted, compiled,
    by simpa using columns, compile_changesTable accepted parsed interpreted targeted compiled⟩

end ObjectQuery

import ObjectQuery.Proofs.Lowering.Grounded
import ObjectQuery.Proofs.Model.Implementors
import ObjectQuery.Proofs.Polymorphic
import ObjectQuery.Proofs.Resolution.Grounding
/-!
# The parts of what a text means

A statement means one statement for each entity that its root stands for. Such a part goes along the
same trails, has the same from-clauses, uses the same sources ahead of their joins and leaves the same
sources for other entities. Its sources take the places of those of the statement, and the paths that
were resolved with the latter can be followed from the former: an entity that a root stands for has
every attribute that can be used of the root.
-/
namespace ObjectQuery

namespace Resolved

variable {catalog : Catalog} {entity : EntityType} {statement part : Statement}

/-! ## What a part keeps -/

/-- Another entity for the root leaves the trails. -/
theorem Statement.trails_withRoot (statement : Statement) :
    (statement.withRoot entity).trails = statement.trails := by
  cases statement with
  | select query order =>
    obtain ⟨_ | ⟨⟨root, joins⟩, rest⟩, distinct, selections, filter⟩ := query <;> rfl
  | update target assignments filter => simp [Statement.withRoot, Statement.trails, List.flatMap_map]
  | delete target filter => rfl

/-- Another entity for the root leaves the labels used ahead of their joins. -/
theorem Statement.ahead_withRoot (statement : Statement) :
    (statement.withRoot entity).ahead = statement.ahead := by
  cases statement with
  | select query order =>
    obtain ⟨_ | ⟨⟨root, joins⟩, rest⟩, distinct, selections, filter⟩ := query <;> rfl
  | update target assignments filter => rfl
  | delete target filter => rfl

/-- Another entity for the root leaves the layouts. -/
theorem Statement.layouts_withRoot (statement : Statement) :
    (statement.withRoot entity).layouts = statement.layouts := by
  cases statement with
  | select query order =>
    obtain ⟨_ | ⟨⟨root, joins⟩, rest⟩, distinct, selections, filter⟩ := query <;> rfl
  | update target assignments filter => rfl
  | delete target filter => rfl

/-- The names of all sources of a statement. -/
def Statement.labels (statement : Statement) : List String := statement.sources.map (·.label)

/-- Another entity for the root leaves the labels. -/
theorem Statement.labels_withRoot (entity : EntityType) (statement : Statement) :
    (statement.withRoot entity).labels = statement.labels := by
  cases statement with
  | select query order =>
    obtain ⟨_ | ⟨⟨root, joins⟩, rest⟩, distinct, selections, filter⟩ := query <;> rfl
  | update target assignments filter => rfl
  | delete target filter => rfl

/-- Another entity for the targets leaves the labels. -/
theorem Statement.labels_withTargets (entity : EntityType) (statement : Statement) :
    (statement.withTargets entity).labels = statement.labels := by
  cases statement <;> rfl

/-- The sources of a part have the names of those of the statement. -/
theorem Statement.labels_of_split (member : part ∈ statement.split) :
    part.labels = statement.labels := by
  unfold Statement.split at member
  split at member
  · obtain ⟨entity, _, rfl⟩ := List.mem_map.mp member
    rw [Statement.narrow, labels_withRoot, labels_withTargets, Statement.labels,
      Statement.sources_retype, ← Statement.labels]
  · rw [List.mem_singleton.mp member]

/-- The root is the first source of a statement, and with another entity it still is. -/
theorem Statement.sources_withRoot {node : FromNode} (rooted : statement.root? = some node) :
    ∃ rest more, statement.sources = node :: rest ∧ statement.elements = node :: more ∧
      ∀ entity, (statement.withRoot entity).sources = node.withEntity entity :: rest ∧
        (statement.withRoot entity).elements = node.withEntity entity :: more := by
  cases statement with
  | select query order =>
    obtain ⟨_ | ⟨⟨root, joins⟩, rest⟩, distinct, selections, filter⟩ := query
    · cases rooted
    · obtain rfl := Option.some.inj rooted
      exact ⟨_, _, rfl, rfl, fun _ => ⟨rfl, rfl⟩⟩
  | update target assignments filter | delete target filter =>
    obtain rfl := Option.some.inj rooted
    exact ⟨_, _, rfl, rfl, fun _ => ⟨rfl, rfl⟩⟩

/-- Taking the types off leaves the elements. -/
theorem Statement.elements_stripped (statement : Statement) :
    statement.stripped.elements = statement.elements := by
  cases statement with
  | select query order => exact elements_strippedQuery query
  | update target assignments filter => rfl
  | delete target filter => rfl

/-- A part is the statement itself up to recorded types, or the statement with one of the entities
that its root stands for. -/
theorem Statement.mem_split (shares : statement.infer.SharesRoot)
    (member : part ∈ statement.infer.split) :
    part.stripped = statement.stripped ∨ ∃ node name implementors entity,
      statement.root? = some node ∧ node.entity = .polymorphic name implementors ∧
        entity ∈ implementors ∧ part.stripped = (statement.withRoot entity).stripped := by
  by_cases several : ∃ node name implementors,
      statement.root? = some node ∧ node.entity = .polymorphic name implementors
  · obtain ⟨node, name, implementors, rooted, several⟩ := several
    rw [shares.split (statement.root?_infer.trans rooted) several] at member
    obtain ⟨entity, listed, rfl⟩ := List.mem_map.mp member
    exact .inr ⟨node, name, implementors, entity, rooted, several, listed,
      statement.stripped_recorded node.label entity⟩
  · unfold Statement.split at member
    rw [Statement.root?_infer] at member
    split at member
    · rename_i label generated name implementors origin rooted
      exact (several ⟨_, name, implementors, rooted, rfl⟩).elim
    · obtain rfl := List.mem_singleton.mp member
      exact .inl statement.stripped_infer

/-- What depends neither on recorded types nor on the entity of the root is the same for all parts. -/
theorem Statement.eq_of_mem_split {α : Type} {view : Statement → α}
    (untyped : ∀ given : Statement, view given.stripped = view given)
    (rootless : ∀ (entity : EntityType) (given : Statement), view (given.withRoot entity) = view given)
    (shares : statement.infer.SharesRoot) (member : part ∈ statement.infer.split) :
    view part = view statement.infer := by
  rw [← untyped part, ← untyped statement.infer, statement.stripped_infer]
  obtain same | ⟨_, _, _, entity, _, _, _, same⟩ := mem_split shares member <;> rw [same]
  rw [untyped, untyped, rootless]

/-- A part is grounded in the sources that the statement was resolved with. -/
theorem Statement.isGrounded_split {visible : List FromNode}
    (grounded : statement.IsGrounded catalog visible) (shares : statement.infer.SharesRoot)
    (member : part ∈ statement.infer.split) : part.IsGrounded catalog visible := by
  rw [← part.isGrounded_stripped]
  obtain same | ⟨_, _, _, entity, _, _, _, same⟩ := mem_split shares member <;>
    rw [same, Statement.isGrounded_stripped]
  · exact grounded
  · exact isGrounded_withRoot entity grounded

/-! ## Sources that are left

A path of one attribute stays with its source: it names a column there. A path that goes on from an
association, or that selects an element of a collection, leaves its source for another entity, and so
does a join along more than one association.
-/

/-- The source that a path leaves, by an association that it goes on from or by an index. -/
def Expr.departure? : Expr → Option String
  | .path ⟨source, _, init, last, _⟩ =>
    if init.isEmpty && last.index.isNone then none else some source
  | _ => none

/-- The source that a trail leaves if it is more than the source. -/
def Trail.departure? (trail : Trail) : Option String :=
  if trail.path.isEmpty then none else some trail.root

/-- The sources that are left by the paths of a statement, and those that are left by the trails of its
paths and joins. What is assigned is not counted. -/
def Statement.departures (statement : Statement) : List String :=
  statement.nodes.filterMap Expr.departure? ++ statement.trails.filterMap Trail.departure?

/-- The target of a change. -/
def Statement.target? : Statement → Option FromNode
  | .select _ _ => none
  | .update target _ _ | .delete target _ => some target

/-- New types leave what a path leaves. -/
theorem Expr.departure?_retype (new : Retyping) (expr : Expr) :
    (expr.retype new).departure? = expr.departure? := by
  cases expr with
  | path reference =>
    rw [Expr.retype_path, Reference.retype, Reference.retargetTo_eq]
    obtain ⟨source, sourceType, init, ⟨label, declared, index, after⟩, type⟩ := reference
    cases init <;> cases index <;> rfl
  | _ => rfl

/-- The parts of a statement leave the sources that the statement leaves. -/
theorem Statement.departures_of_split (shares : statement.infer.SharesRoot)
    (member : part ∈ statement.infer.split) :
    part.departures = statement.infer.departures := by
  have trails : part.trails = statement.infer.trails :=
    Statement.eq_of_mem_split Statement.trails_stripped (fun _ => Statement.trails_withRoot) shares
      member
  have nodes : part.nodes.filterMap Expr.departure? =
      statement.infer.nodes.filterMap Expr.departure? := by
    unfold split at member
    split at member
    · obtain ⟨entity, _, rfl⟩ := List.mem_map.mp member
      rw [narrow, nodes_withRoot, nodes_withTargets, nodes_retype, List.filterMap_map]
      exact congrArg (List.filterMap · _) (funext (Expr.departure?_retype _))
    · obtain rfl := List.mem_singleton.mp member
      rfl
  rw [departures, departures, nodes, trails]

/-! ## The sources of a part -/

/-- The source takes the place of another one. If it is one entity, that is known and has every
attribute that can be used of the other source. -/
structure FromNode.Replaces (catalog : Catalog) (own given : FromNode) : Prop where
  label : own.label = given.label
  origin : own.origin = given.origin
  known : ∀ entity, own.entity = .concrete entity →
    catalog.entity? entity.name = some entity ∧ given.entity.IsSharedBy entity

end Resolved

open Resolved (FromNode)

variable {parser : SqlParser} {definitions : List EntityDefinition} {model : Model} {source : String}
  {statement part : Resolved.Statement}

/-- The sources of a part replace those of the statement one by one. -/
theorem sources_split (accepted : Model.build parser definitions = .ok model)
    (known : ∀ node ∈ statement.sources, ∃ name, model.catalog.resolve? name = some node.entity)
    (shares : statement.infer.SharesRoot) (member : part ∈ statement.infer.split) :
    List.Forall₂ (FromNode.Replaces model.catalog) part.sources statement.sources ∧
      part.elements.map (·.label) = statement.elements.map (·.label) := by
  have mapped := Model.catalog_isMapped accepted
  have itself : ∀ node ∈ statement.sources, node.Replaces model.catalog node := by
    intro node listed
    refine ⟨rfl, rfl, fun entity concrete => ?_⟩
    obtain ⟨name, resolved⟩ := known node listed
    rw [concrete] at resolved ⊢
    exact ⟨mapped.known resolved, fun _ _ found => found⟩
  rw [← part.sources_stripped, ← part.elements_stripped]
  obtain same | ⟨node, name, implementors, entity, rooted, several, listed, same⟩ :=
    Resolved.Statement.mem_split shares member
  · rw [same, statement.sources_stripped, statement.elements_stripped]
    exact ⟨List.forall₂_same.mpr itself, rfl⟩
  · rw [same, Resolved.Statement.sources_stripped, Resolved.Statement.elements_stripped]
    obtain ⟨rest, more, sources, elements, narrowed⟩ := Resolved.Statement.sources_withRoot rooted
    rw [(narrowed entity).1, (narrowed entity).2, elements]
    rw [sources] at itself known ⊢
    refine ⟨.cons ⟨rfl, rfl, ?_⟩ (List.forall₂_same.mpr fun other further =>
      itself other (List.mem_cons_of_mem _ further)), rfl⟩
    rintro _ ⟨⟩
    obtain ⟨root, resolved⟩ := known node List.mem_cons_self
    rw [several] at resolved ⊢
    obtain ⟨single, shared⟩ := Model.polymorphic_ok accepted resolved listed
    exact ⟨mapped.known single, shared⟩

/-- The entity of the source of that name, if it is one entity. -/
def entityOf (sources : List FromNode) (label : String) : Option String :=
  (sources.find? (·.label == label)).bind fun node =>
    match node.entity with
    | .concrete entity => some entity.name
    | .polymorphic _ _ => none

/-- The entity of a label is that of the source it labels. -/
theorem entityOf_eq {sources : List FromNode} (distinct : (sources.map (·.label)).Nodup)
    {node : FromNode} (member : node ∈ sources) {entity : EntityType}
    (concrete : node.entity = .concrete entity) : entityOf sources node.label = some entity.name := by
  rw [entityOf, find?_of_mem FromNode.label distinct member, Option.bind_some, concrete]

/-- Sources that replace others can be awaited where the others are visible.

Proof: a source and the one in its place have the same label and the same origin, and an entity that
the place stands for is one of those of the source. -/
theorem awaits_of_replaces {context : LoweringContext} {own given visible : List FromNode}
    (replaces : List.Forall₂ (FromNode.Replaces context.catalog) own given)
    (distinct : (given.map (·.label)).Nodup) (plain : ∀ node ∈ given, IsPlainName node.label)
    (ordered : given.Pairwise fun earlier later => earlier.origin.owner? ≠ some later.label)
    (apart : ∀ node ∈ given, node.origin.owner? ≠ some node.label) (among : visible ⊆ given) :
    Lowering.Awaits context (entityOf own) visible [] own [] [] := by
  have alike : own.map (fun node => (node.label, node.origin)) =
      given.map fun node => (node.label, node.origin) := by
    rw [← List.forall₂_eq_eq_eq, List.forall₂_map_left_iff, List.forall₂_map_right_iff]
    exact replaces.imp fun node other held => Prod.ext held.label held.origin
  have differ : (own.map (·.label)).Nodup := by
    have labels := congrArg (List.map Prod.fst) alike
    rw [List.map_map, List.map_map] at labels
    exact labels ▸ distinct
  have origin {node : FromNode} (member : node ∈ own) :
      ∃ other ∈ given, node.Replaces context.catalog other :=
    exists_of_forall₂ replaces.flip member
  refine ⟨?_, ?_, ?_, ?_, ?_, ?_, List.nil_subset _⟩ <;> rw [List.append_nil]
  · exact differ
  · intro node member
    obtain ⟨other, listed, held⟩ := origin member
    exact ⟨held.label ▸ plain other listed, nofun⟩
  · have owned : (given.map fun node => (node.label, node.origin)).Pairwise
        fun earlier later => earlier.2.owner? ≠ some later.1 := List.pairwise_map.mpr ordered
    rw [← alike] at owned
    exact List.pairwise_map.mp owned
  · intro node member
    obtain ⟨other, listed, held⟩ := origin member
    rw [held.label, held.origin]
    exact apart other listed
  · intro node member entity concrete
    obtain ⟨other, listed, held⟩ := origin member
    exact ⟨entityOf_eq differ member concrete, (held.known entity concrete).1⟩
  · intro node seen replacing member same entity concrete
    obtain ⟨other, listed, held⟩ := origin member
    obtain rfl := List.inj_on_of_nodup_map distinct (among seen) listed (same.trans held.label)
    obtain ⟨known, shared⟩ := held.known entity concrete
    exact ⟨entity, known, shared⟩

/-- The sources that a statement names itself are among all its sources. -/
theorem Resolved.Statement.elements_subset (statement : Resolved.Statement) :
    statement.elements ⊆ statement.sources := by
  cases statement with
  | select query order => exact Resolved.elements_subset query
  | update target assignments filter | delete target filter =>
    exact List.cons_subset_cons _ (List.nil_subset _)

/-- The sources of a part of what a text means have plain names. -/
theorem plain_of_mem_split {catalog : Catalog} (interpreted : interpret catalog source = .ok statement)
    (member : part ∈ statement.split) : ∀ node ∈ part.sources, IsPlainName node.label := by
  obtain ⟨tree, index, resolved, after, parsed, registered, ran, rfl⟩ := interpret_ok interpreted
  have linked := Sources.ofStatement_isLinked (Grammar.parse_isPlainName (mapError_ok parsed)) registered
  have labels := Resolved.Statement.labels_of_split member
  rw [Resolved.Statement.labels, Resolved.Statement.labels, Resolved.Statement.sources_infer,
    (resolved_of_parsed parsed registered ran).2, List.map_map] at labels
  intro node listed
  obtain ⟨element, registered, same⟩ := List.mem_map.mp (labels ▸ List.mem_map_of_mem listed)
  exact same ▸ linked.plain element registered

/-- A part of what a text means can be lowered. -/
theorem ready_of_mem_split (accepted : Model.build parser definitions = .ok model)
    (interpreted : interpret model.catalog source = .ok statement) (member : part ∈ statement.split)
    (policy : JoinPolicy) :
    ∃ visible, Lowering.Ready ⟨model.catalog, policy⟩ (entityOf part.sources) visible part := by
  obtain ⟨tree, index, resolved, after, parsed, registered, ran, rfl⟩ := interpret_ok interpreted
  have plain := Grammar.parse_isPlainName (mapError_ok parsed)
  have distinct := isDistinct_of_parsed parsed registered
  have linked := Sources.ofStatement_isLinked plain registered
  obtain ⟨_, _, mirrors⟩ := Sources.ofStatement_mirrors registered
  have grounds : Resolution.Ensures (Resolution.statement ⟨model.catalog, index⟩ tree) fun found =>
      found.IsGrounded model.catalog found.elements :=
    Resolution.statement_grounds distinct linked tree mirrors plain
  have sources := (resolved_of_parsed parsed registered ran).2
  have known := known_of_parsed parsed registered ran
  have shares := sharesRoot_of_parsed accepted parsed registered ran
  obtain ⟨replaces, elements⟩ := sources_split accepted known shares member
  refine ⟨resolved.elements, awaits_of_replaces replaces ?_ ?_ ?_ ?_ resolved.elements_subset,
    fun node listed => elements ▸ List.mem_map_of_mem listed,
    Resolved.Statement.isGrounded_split (grounds ran) shares member⟩
  · rw [sources, List.map_map]
    exact linked.distinct
  · rw [sources]
    exact List.forall_mem_map.mpr linked.plain
  · rw [sources]
    exact List.pairwise_map.mpr linked.ordered
  · rw [sources]
    exact List.forall_mem_map.mpr linked.apart

/-- The parts of what a text means go along the same trails, have the same from-clauses and use the
same sources ahead of their joins. -/
theorem kept_of_mem_split (accepted : Model.build parser definitions = .ok model)
    (interpreted : interpret model.catalog source = .ok statement) (member : part ∈ statement.split) :
    part.trails = statement.trails ∧ part.layouts = statement.layouts ∧
      part.ahead = statement.ahead := by
  have shares := interpret_sharesRoot accepted interpreted
  obtain ⟨_, _, resolved, _, _, _, _, rfl⟩ := interpret_ok interpreted
  exact ⟨Resolved.Statement.eq_of_mem_split Resolved.Statement.trails_stripped
      (fun _ => Resolved.Statement.trails_withRoot) shares member,
    Resolved.Statement.eq_of_mem_split Resolved.Statement.layouts_stripped
      (fun _ => Resolved.Statement.layouts_withRoot) shares member,
    Resolved.Statement.eq_of_mem_split Resolved.Statement.ahead_stripped
      (fun _ => Resolved.Statement.ahead_withRoot) shares member⟩

end ObjectQuery

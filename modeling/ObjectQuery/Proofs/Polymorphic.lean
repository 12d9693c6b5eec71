import ObjectQuery.Proofs.Interpreted
import ObjectQuery.Proofs.Lowering.Untyped
import ObjectQuery.Proofs.Resolution.Linked
import ObjectQuery.Proofs.Resolution.NarrowedStatement
import ObjectQuery.Proofs.Resolved.Grounded
import ObjectQuery.Proofs.Resolved.Starts
/-!
# One statement for each implementor

A root that several entities implement stands for each of them in turn. If every path of a statement
starts with a source, the statement means what the statements mean that name one implementor each: it
has the same SQL forms, in the order of the implementors, or fails as the first of them that fails.
-/
namespace ObjectQuery

open Resolved (FromNode)

namespace Resolved

variable {entity : EntityType}

/-- Inference leaves the root of a statement. -/
theorem Statement.root?_infer (statement : Statement) : statement.infer.root? = statement.root? := by
  cases statement with
  | select query order =>
    obtain ⟨_ | ⟨space, rest⟩, distinct, selections, filter⟩ := query <;> rfl
  | update target assignments filter => rfl
  | delete target filter => rfl

/-- Inference leaves the sources of a statement. -/
theorem Statement.sources_infer (statement : Statement) :
    statement.infer.sources = statement.sources := by
  rw [← Statement.sources_stripped, Statement.stripped_infer, Statement.sources_stripped]

/-- Taking the types off leaves the root of a statement. -/
theorem Statement.root?_stripped (statement : Statement) :
    statement.stripped.root? = statement.root? := by
  cases statement with
  | select query order =>
    obtain ⟨_ | ⟨space, rest⟩, distinct, selections, filter⟩ := query <;> rfl
  | update target assignments filter => rfl
  | delete target filter => rfl

/-- Another entity for the root is the entity of the root. -/
theorem Statement.root?_withRoot (statement : Statement) :
    (statement.withRoot entity).root? = statement.root?.map (·.withEntity entity) := by
  cases statement with
  | select query order =>
    obtain ⟨_ | ⟨space, rest⟩, distinct, selections, filter⟩ := query <;> rfl
  | update target assignments filter => rfl
  | delete target filter => rfl

/-- The root of a statement that differs from another in the entity of its root and in recorded
types. -/
theorem Statement.root?_of_stripped {statement part : Statement} {node : FromNode}
    (rooted : statement.root? = some node)
    (alike : part.stripped = (statement.withRoot entity).stripped) :
    part.root? = some (node.withEntity entity) := by
  rw [← root?_stripped, alike, root?_stripped, root?_withRoot, rooted]
  rfl

/-- A statement whose root is one entity is not split. -/
theorem Statement.split_concrete {statement : Statement} {node : FromNode}
    (rooted : statement.root? = some node) (single : node.entity = .concrete entity) :
    statement.split = [statement] := by
  obtain ⟨label, generated, reference, origin⟩ := node
  obtain rfl : reference = .concrete entity := single
  rw [Statement.split, rooted]

/-- A statement whose root is one entity has one SQL form. -/
theorem Statement.toSql_concrete (context : LoweringContext) {statement : Statement}
    {node : FromNode} (rooted : statement.root? = some node) (single : node.entity = .concrete entity) :
    statement.toSql context = (statement.lower context).map ([·]) := by
  rw [Statement.toSql, Statement.split_concrete rooted single, List.mapM_cons, List.mapM_nil]
  cases statement.lower context <;> rfl

/-- The outcome of the whole is put together from the outcomes of the parts. -/
structure SplitsInto (context : LoweringContext) (whole : Statement) (parts : List Statement) :
    Prop where
  /-- The whole has SQL forms exactly if each part has one. -/
  succeeds : (∃ statements, whole.toSql context = .ok statements) ↔
    ∀ part ∈ parts, ∃ only, part.toSql context = .ok [only]
  /-- There is one form for each part, with the text of the part's form and the same parameters at the
  same positions. -/
  forms : ∀ statements, whole.toSql context = .ok statements →
    List.Forall₂ (fun statement part => ∃ only, part.toSql context = .ok [only] ∧
      statement.outline = only.outline) statements parts
  /-- A failure is that of the first part that fails. -/
  failure : ∀ failure, whole.toSql context = .error failure →
    ∃ before failing behind, parts = before ++ failing :: behind ∧
      (∀ part ∈ before, ∃ only, part.toSql context = .ok [only]) ∧
      failing.toSql context = .error failure

variable {context : LoweringContext} {whole : Statement} {parts : List Statement}

/-- It is enough that the outcomes have the same outlines, if each part has one SQL form at most. -/
theorem SplitsInto.of_outlines
    (single : ∀ part ∈ parts, part.toSql context = (part.lower context).map ([·]))
    (outlines : (whole.toSql context).map (List.map Sql.Statement.outline) =
      (parts.mapM (Statement.lower context)).map (List.map Sql.Statement.outline)) :
    SplitsInto context whole parts := by
  have lowers : ∀ part ∈ parts, ∀ only,
      part.toSql context = .ok [only] ↔ part.lower context = .ok only := by
    intro part listed only
    simp [single part listed, except_map_ok]
  have fine : ∀ part ∈ parts, (∃ only, part.toSql context = .ok [only]) ↔
      ∃ only, part.lower context = .ok only :=
    fun part listed => exists_congr (lowers part listed)
  refine ⟨?_, fun statements ran => ?_, fun failure ran => ?_⟩
  · rw [forall₂_congr fine, ← mapM_succeeds]
    constructor
    · rintro ⟨statements, ran⟩
      obtain ⟨lowered, given, _⟩ := ok_of_view outlines ran
      exact ⟨lowered, given⟩
    · rintro ⟨lowered, given⟩
      obtain ⟨statements, ran, _⟩ := ok_of_view outlines.symm given
      exact ⟨statements, ran⟩
  · have lowered : List.Forall₂ (fun part statement =>
        (part.lower context).map Sql.Statement.outline = .ok statement.outline) parts statements := by
      rw [ran, mapM_view] at outlines
      have paired := mapM_ok_iff.mp outlines.symm
      rwa [List.forall₂_map_right_iff] at paired
    obtain ⟨length, paired⟩ := List.forall₂_iff_zip.mp lowered.flip
    refine List.forall₂_iff_zip.mpr ⟨length, fun together => ?_⟩
    obtain ⟨only, given, same⟩ := except_map_ok.mp (paired together)
    exact ⟨only, (lowers _ (List.of_mem_zip together).2 only).mpr given, same.symm⟩
  · obtain ⟨before, failing, behind, rfl, passing, broken⟩ := mapM_error (error_of_view outlines ran)
    refine ⟨before, failing, behind, rfl, fun part listed => ?_, ?_⟩
    · exact (fine part (List.mem_append_left _ listed)).mpr (passing part listed)
    · rw [single failing (by simp), broken]
      rfl

/-- A statement whose root stands for several entities splits into statements that have these entities
for their roots. -/
theorem Statement.splitsInto {statement : Statement} {node : FromNode} {name : String}
    {implementors : List EntityType} (shares : statement.infer.SharesRoot)
    (rooted : statement.root? = some node) (several : node.entity = .polymorphic name implementors)
    (alike : List.Forall₂ (fun entity part => part.stripped = (statement.withRoot entity).stripped)
      implementors parts) :
    SplitsInto context statement.infer (parts.map Statement.infer) := by
  have split : statement.infer.split =
      implementors.map fun entity => statement.infer.recorded node.label entity :=
    shares.split (statement.root?_infer.trans rooted) several
  refine .of_outlines (List.forall_mem_map.mpr fun part listed => ?_) ?_
  · obtain ⟨entity, _, same⟩ := exists_of_forall₂ alike listed
    have root := Statement.root?_of_stripped rooted same
    exact Statement.toSql_concrete context (part.root?_infer.trans root) rfl
  · rw [Statement.toSql, split, List.mapM_map, List.mapM_map]
    refine mapM_view_congr (alike.imp fun entity part same => ?_)
    refine Statement.outline_lower context ?_
    rw [Statement.stripped_recorded, Statement.stripped_infer, same]

end Resolved

/-- The root of a statement is the first of its places. -/
theorem Grammar.Statement.places_of_root {tree : Grammar.Statement} {root : Grammar.RootRef}
    (rooted : tree.root? = some root) : tree.places = root.span :: tree.others := by
  cases tree with
  | select query order =>
    obtain ⟨select, ⟨_ | ⟨⟨first, joins, place⟩, rest⟩, span⟩, filter, whole⟩ := query
    · cases rooted
    · obtain rfl := Option.some.inj rooted
      simp [places, others, queryPlaces, spacePlaces]
  | update target assignments filter =>
    obtain rfl := Option.some.inj rooted
    rfl
  | delete target filter =>
    obtain rfl := Option.some.inj rooted
    rfl

variable {catalog : Catalog} {source : String} {tree : Grammar.Statement} {index : FromIndex}
  {root : Grammar.RootRef} {reference : EntityReference} {entity : EntityType}

/-- The sources of what a text means stand for entities of the catalog. -/
theorem known_of_parsed {statement : Resolved.Statement} {after : Numbering}
    (parsed : parse source = .ok tree) (registered : Sources.ofStatement catalog tree = .ok index)
    (ran : (Resolution.statement ⟨catalog, index⟩ tree).run .unused = .ok (statement, after)) :
    ∀ node ∈ statement.sources, ∃ name, catalog.resolve? name = some node.entity := by
  rw [(resolved_of_parsed parsed registered ran).2]
  exact List.forall_mem_map.mpr (Sources.ofStatement_admits registered).2

/-- Whatever begins at the root of a statement, each entity has it that the root stands for. -/
theorem sharesRoot_of_parsed {parser : SqlParser} {definitions : List EntityDefinition} {model : Model}
    {statement : Resolved.Statement} {after : Numbering}
    (accepted : Model.build parser definitions = .ok model) (parsed : parse source = .ok tree)
    (registered : Sources.ofStatement model.catalog tree = .ok index)
    (ran : (Resolution.statement ⟨model.catalog, index⟩ tree).run .unused = .ok (statement, after)) :
    statement.infer.SharesRoot := by
  obtain ⟨within, sources⟩ := resolved_of_parsed parsed registered ran
  have linked := Sources.ofStatement_isLinked (Grammar.parse_isPlainName (mapError_ok parsed)) registered
  refine Resolved.Statement.sharesRoot (Resolved.Statement.isScoped_infer within) ?_ ?_
  · rw [statement.sources_infer, sources, List.map_map]
    exact linked.distinct
  · rw [statement.sources_infer]
    intro node listed name implementors several entity member
    obtain ⟨root, resolved⟩ := known_of_parsed parsed registered ran node listed
    rw [several] at resolved ⊢
    exact (Model.polymorphic_ok accepted resolved member).2

/-- Where the root of what a text means stands for several entities, its paths begin in each of
them. -/
theorem interpret_sharesRoot {parser : SqlParser} {definitions : List EntityDefinition} {model : Model}
    {statement : Resolved.Statement} (accepted : Model.build parser definitions = .ok model)
    (interpreted : interpret model.catalog source = .ok statement) : statement.SharesRoot := by
  obtain ⟨tree, index, resolved, after, parsed, registered, ran, rfl⟩ := interpret_ok interpreted
  exact sharesRoot_of_parsed accepted parsed registered ran

/-- A statement can also be resolved with one of the entities that its root stands for. The result
differs in the entity of the root and in recorded types. -/
theorem resolve_naming {statement : Resolved.Statement} (parsed : parse source = .ok tree)
    (rooted : tree.root? = some root)
    (several : catalog.resolve? root.entity.value = some reference)
    (single : catalog.resolve? entity.name = some (.concrete entity))
    (shared : reference.IsSharedBy entity)
    (registered : Sources.ofStatement catalog tree = .ok index)
    (qualified : tree.isQualified index = true)
    (resolved : Resolved.Statement.resolve catalog tree = .ok statement) :
    (∃ node, statement.root? = some node ∧ node.entity = reference) ∧
      ∃ part, Resolved.Statement.resolve catalog (tree.naming entity.name) = .ok part ∧
        part.stripped = (statement.withRoot entity).stripped := by
  obtain ⟨⟨element, rest, elements, stands⟩, registeredToo⟩ :=
    Sources.ofStatement_naming rooted several single shared registered
  have distinct := isDistinct_of_parsed parsed registered
  have spans : element.span = root.span ∧ rest.map (·.span) = tree.others := by
    have spans := (Sources.ofStatement_mirrors registered).1
    rw [elements, Grammar.Statement.places_of_root rooted, List.map_cons] at spans
    exact List.cons.inj spans
  have atRoot : Resolution.RootAt entity ⟨catalog, index⟩ root.span tree.others :=
    spans.1 ▸ spans.2 ▸ Resolution.rootAt_of_elements distinct elements (stands ▸ shared)
  obtain ⟨_, after, known, ran⟩ := resolve_ok.mp resolved
  obtain rfl := Except.ok.inj (registered.symm.trans known)
  obtain ⟨part, ranToo, ⟨node, named, found⟩, alike⟩ :=
    Resolution.statement_narrowed rooted atRoot qualified ran
  refine ⟨⟨node, named, ?_⟩, part, ?_, alike⟩
  · have atPlace : Resolution.nodeAt ⟨catalog, index⟩ element.span = .ok (.ofElement element) :=
      Resolution.nodeAt_element distinct (elements ▸ List.mem_cons_self)
    rw [spans.1, found] at atPlace
    obtain rfl := Except.ok.inj atPlace
    exact stands
  · refine resolve_ok.mpr ⟨index.narrowed entity, after, registeredToo, ?_⟩
    rw [Resolution.statement_naming]
    exact ranToo

/-- A statement whose root stands for several entities, and whose paths all start with a source, can
be resolved with each of these entities for its root, and splits into what results. -/
theorem splits_over_implementors {parser : SqlParser} {definitions : List EntityDefinition}
    {model : Model} {name : String} {implementors : List EntityType}
    {statement : Resolved.Statement} (policy : JoinPolicy)
    (accepted : Model.build parser definitions = .ok model) (parsed : parse source = .ok tree)
    (rooted : tree.root? = some root)
    (several : model.resolve? root.entity.value = some (.polymorphic name implementors))
    (registered : Sources.ofStatement model.catalog tree = .ok index)
    (qualified : tree.isQualified index = true)
    (resolved : Resolved.Statement.resolve model.catalog tree = .ok statement) :
    ∃ parts, List.Forall₂ (fun entity part =>
        Resolved.Statement.resolve model.catalog (tree.naming entity.name) = .ok part)
          implementors parts ∧
      Resolved.SplitsInto ⟨model.catalog, policy⟩ statement.infer
        (parts.map Resolved.Statement.infer) := by
  have each : ∀ entity ∈ implementors,
      (∃ node, statement.root? = some node ∧ node.entity = .polymorphic name implementors) ∧
        ∃ part, Resolved.Statement.resolve model.catalog (tree.naming entity.name) = .ok part ∧
          part.stripped = (statement.withRoot entity).stripped := by
    intro entity member
    obtain ⟨single, shared⟩ := Model.polymorphic_ok accepted several member
    exact resolve_naming parsed rooted several single shared registered qualified resolved
  obtain ⟨parts, paired⟩ := exists_forall₂ fun entity member => (each entity member).2
  obtain ⟨entity, member⟩ :=
    List.exists_mem_of_ne_nil _ (Model.rootImplementors_of_polymorphic several).2
  obtain ⟨⟨node, named, stands⟩, _⟩ := each entity member
  obtain ⟨_, after, known, ran⟩ := resolve_ok.mp resolved
  have shares := sharesRoot_of_parsed accepted parsed known ran
  exact ⟨parts, paired.imp fun _ _ => And.left,
    Resolved.Statement.splitsInto shares named stands (paired.imp fun _ _ => And.right)⟩

/-- Persons and companies are both parties. -/
def parties : List EntityDefinition := [
  { name := "Person"
    interfaces := ["Party"]
    table := some "people"
    attributes := [
      ⟨"id", "long", none, none, none⟩, ⟨"name", "string", none, none, none⟩,
      ⟨"home", "Address", none, none, none⟩,
      ⟨"offices", "list<Address>", none, some "person_id", some "pos"⟩] },
  { name := "Company"
    interfaces := ["Party"]
    table := some "companies"
    attributes := [
      ⟨"id", "long", none, none, none⟩, ⟨"name", "string", some "title", none, none⟩,
      ⟨"home", "Address", some "seat_id", none, none⟩,
      ⟨"offices", "list<Address>", none, some "company_id", some "pos"⟩,
      ⟨"vat", "string", none, none, none⟩] },
  { name := "Address"
    table := some "addresses"
    attributes := [⟨"id", "long", none, none, none⟩, ⟨"city", "string", none, none, none⟩] }]

/-- A text whose root is used in a join, through an index and in a query inside the filter. -/
def cityOfParty : String :=
  "select p.name, p.offices[:k].city from Party p join p.home h where h.city = :city or p.name in " ++
  "(select a.city from Address a where a = p.home)"

/-- Whether the text can be resolved in a model with these definitions, has a root that stands for
several entities and has only paths that start with a source. -/
def hasSeveralRoots (definitions : List EntityDefinition) (source : String) : Bool :=
  match Model.ofDefinitions definitions, parse source with
  | .ok model, .ok tree =>
    match tree.root?, Sources.ofStatement model.catalog tree,
        Resolved.Statement.resolve model.catalog tree with
    | some root, .ok index, .ok _ =>
      match model.resolve? root.entity.value with
      | some (.polymorphic _ _) => tree.isQualified index
      | _ => false
    | _, _, _ => false
  | _, _ => false

/-- The check on a text finds the entities its root stands for. -/
theorem exists_of_hasSeveralRoots {definitions : List EntityDefinition}
    (passed : hasSeveralRoots definitions source = true) :
    ∃ model tree root name implementors index statement,
      Model.ofDefinitions definitions = .ok model ∧ parse source = .ok tree ∧
      tree.root? = some root ∧
      model.resolve? root.entity.value = some (.polymorphic name implementors) ∧
      Sources.ofStatement model.catalog tree = .ok index ∧ tree.isQualified index = true ∧
      Resolved.Statement.resolve model.catalog tree = .ok statement := by
  unfold hasSeveralRoots at passed
  split at passed
  · rename_i model tree accepted parsed
    split at passed
    · rename_i root index statement rooted registered resolved
      split at passed
      · rename_i name implementors several
        exact ⟨model, tree, root, name, implementors, index, statement, accepted, parsed, rooted,
          several, registered, passed, resolved⟩
      · cases passed
    · cases passed
  · cases passed

/-- The text about the city of a party is split into one text for each kind of party. -/
theorem splits_over_implementors_cityOfParty :
    ∃ model tree root name implementors index statement,
      Model.ofDefinitions parties = .ok model ∧ parse cityOfParty = .ok tree ∧
      tree.root? = some root ∧
      model.resolve? root.entity.value = some (.polymorphic name implementors) ∧
      Sources.ofStatement model.catalog tree = .ok index ∧ tree.isQualified index = true ∧
      Resolved.Statement.resolve model.catalog tree = .ok statement ∧
      ∃ parts, List.Forall₂ (fun entity part =>
          Resolved.Statement.resolve model.catalog (tree.naming entity.name) = .ok part)
            implementors parts ∧
        Resolved.SplitsInto ⟨model.catalog, .outer⟩ statement.infer
          (parts.map Resolved.Statement.infer) := by
  have checked : hasSeveralRoots parties cityOfParty = true := by decide +kernel
  obtain ⟨model, tree, root, name, implementors, index, statement, accepted, parsed, rooted, several,
    registered, qualified, resolved⟩ := exists_of_hasSeveralRoots checked
  exact ⟨model, tree, root, name, implementors, index, statement, accepted, parsed, rooted, several,
    registered, qualified, resolved,
    splits_over_implementors .outer accepted parsed rooted several registered qualified resolved⟩

end ObjectQuery

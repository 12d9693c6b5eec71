import ObjectQuery.Proofs.Lowering.Navigated
/-!
# Lowering the parts of grounded statements

Lists of expressions, paths to whole entities, the conditions that joins imply and tests for
membership are lowered like the expressions in them: they fail for missing sources or because they
ask for something that cannot be expressed, and they enter a group for every trail they go along.
-/
namespace ObjectQuery.Lowering

open Sql
open Resolved (Segment Reference FromNode Trail AreTyped attributeOf? trailsOf originTrails segmentNodes
  indexNodes direct IndexGrounded SegmentsGrounded isGrounded_path isGrounded_element
  segmentsGrounded_append segmentsGrounded_cons
  trails_path trails_element trailsOf_segmentNodes_append trailsOf_segmentNodes_cons)

variable {context : LoweringContext} {roots : String → Option String} {visible : List FromNode}
  {missing reported : List String} {state : LoweringState}

/-! ## Lists of expressions and whole paths -/

/-- What a step does for each item of a list it does for the list. -/
theorem mapM_meets {α β : Type} {step : α → Lowering β} {trails : α → List Trail}
    (grows : ∀ item {state after : LoweringState} {value : β}, Coherent state.scopes →
      Yields (step item) state value after → Grows context state.scopes after.scopes) :
    ∀ (items : List α) {state : LoweringState}, Stage context roots visible missing state →
      (∀ item ∈ items, ∀ {state : LoweringState}, Stage context roots visible missing state →
        Reports missing reported (trails item) →
          Meets (step item) state (Blames missing reported []) fun _ after =>
            Traced context roots (trails item) after) →
      Reports missing reported (items.flatMap trails) →
        Meets (items.mapM step) state (Blames missing reported []) fun _ after =>
          Traced context roots (items.flatMap trails) after
  | [], state, stage, meets, reports => by
    rw [List.mapM_nil]
    exact .pure ⟨stage.tidy, by simp⟩
  | item :: rest, state, stage, meets, reports => by
    obtain ⟨meetsHere, meetsRest⟩ := List.forall_mem_cons.mp meets
    rw [List.flatMap_cons] at reports ⊢
    obtain ⟨reportsHere, reportsRest⟩ := reports_append.mp reports
    rw [List.mapM_cons]
    refine .bind (meetsHere stage reportsHere) fun value between ran traced => ?_
    have stage' := stage.grows (grows item stage.tidy.coherent ran) traced.tidy
    refine .bind (mapM_meets grows rest stage' meetsRest reportsRest)
      fun others after ranRest tracedRest => .pure ?_
    have further := (mapM_grows (fun _ _ => True) (fun _ _ => trivial)
      (fun item _ _ _ coherent run => ⟨grows item coherent run, trivial⟩) rest
      stage'.tidy.coherent ranRest).1
    exact (traced.grows further tracedRest.tidy).append tracedRest

/-- A path is gone along to its end segment by segment. -/
theorem navigate_concat (last : Segment Resolved.Expr) (init : List (Segment Resolved.Expr))
    (owner : String) : navigate context (init ++ [last]) owner = (do
      let owner ← navigate context init owner
      let index ← optional context last.index
      step context owner last.label last.declared index) := by
  induction init generalizing owner with
  | nil => simp [navigate]
  | cons segment rest ih => simp only [List.cons_append, navigate, ih, bind_assoc]

/-- The steps of a trail are among those of a longer one. -/
theorem steps_subset {labels more : List String} : ∀ {trail : Trail},
    trail.steps labels ⊆ trail.steps (labels ++ more) := by
  induction labels with
  | nil =>
    intro trail
    simpa [Trail.steps] using Trail.mem_steps
  | cons label rest ih =>
    intro trail
    exact List.cons_subset_cons _ ih

/-- What the first stretch of a path joins directly the whole path does. -/
theorem direct_append (init rest : List (Segment Resolved.Expr)) :
    ∃ more, direct (init ++ rest) = direct init ++ more := by
  induction init with
  | nil => exact ⟨direct rest, rfl⟩
  | cons segment init ih =>
    obtain ⟨label, declared, index, after⟩ := segment
    obtain ⟨more, same⟩ := ih
    cases index with
    | none => exact ⟨more, congrArg (label :: ·) same⟩
    | some index => exact ⟨[], rfl⟩

/-- A path to an entity is gone along to its end, where a group is entered.

Proof: the last segment of the path is taken like those before it, and its group is looked up where
it has been entered. -/
theorem pathGroup_meets (mapped : context.catalog.IsMapped)
    (stage : Stage context roots visible missing state) {reference : Reference Resolved.Expr}
    (grounded : (Resolved.Expr.path reference).IsGrounded context.catalog visible)
    (leads : reference.type.entity?.isSome = true)
    (reports : Reports missing reported (Resolved.Expr.path reference).trails) :
    Meets (pathGroup context reference) state (Blames missing reported []) fun _ after =>
      Traced context roots ((Resolved.Expr.path reference).trails ++
        (Trail.start reference.source).steps (direct reference.segments)) after := by
  obtain ⟨source, sourceType, init, last, type⟩ := reference
  obtain ⟨⟨⟨node, seen, starts, follows⟩, plain, ends⟩, inner, inside⟩ := isGrounded_path.mp grounded
  simp only at starts
  subst starts
  have named := (stage.covered node seen).1
  rw [trails_path] at reports ⊢
  obtain ⟨along, reportsNodes⟩ := reports_append.mp reports
  have nodes : trailsOf (segmentNodes (init ++ [last])) =
      trailsOf (segmentNodes init) ++ trailsOf (indexNodes last.index) := by
    rw [trailsOf_segmentNodes_append, trailsOf_segmentNodes_cons]
    exact congrArg _ (List.append_nil _)
  have whole : pathGroup context ⟨node.label, sourceType, init, last, type⟩ =
      navigate context (init ++ [last]) node.label >>= fun name => group name >>= pure := by
    simp only [pathGroup, navigate_concat, bind_assoc, bind_pure]
  rw [whole]
  have leadsLast : last.type.entity?.isSome = true := ends ▸ leads
  have leadsAll : ∀ segment ∈ init ++ [last], segment.type.entity?.isSome = true :=
    List.forall_mem_append.mpr
      ⟨leads_of_areTyped follows (by simp), List.forall_mem_singleton.mpr leadsLast⟩
  have groundedAll : SegmentsGrounded context.catalog visible (init ++ [last]) := by
    rw [segmentsGrounded_append, segmentsGrounded_cons]
    exact ⟨inner, inside, List.forall_mem_nil _⟩
  refine .bind (navigate_meets mapped (init ++ [last]) stage (stage.reached seen)
    (along _ Trail.mem_steps) plain follows leadsAll groundedAll (nodes ▸ reportsNodes))
    fun name walked ran arrived => ?_
  have walk := navigate_grows (init ++ [last]) node.label stage.tidy.coherent ran
  refine group_meets (stage.grows walk arrived.traced.tidy) arrived.reached arrived.reports
    fun route level found entered _ located _ _ _ => .pure ?_
  have known := mem_keys_of_located located
  have steps := arrived.steps known (.start node.label) rfl named
  obtain ⟨more, longer⟩ := direct_append init [last]
  refine ⟨arrived.traced.tidy, List.forall_mem_append.mpr ⟨List.forall_mem_append.mpr ⟨?_, ?_⟩, steps⟩⟩
  · exact fun trail member => steps trail (longer ▸ steps_subset member)
  · exact nodes ▸ arrived.traced.joined

/-- Values of a stage are lowered or blame what is missing. -/
theorem exprs_meets (mapped : context.catalog.IsMapped) {given : List Resolved.Expr}
    (stage : Stage context roots visible missing state)
    (grounded : ∀ item ∈ given, item.IsGrounded context.catalog visible)
    (reports : Reports missing reported (given.flatMap Resolved.Expr.trails)) :
    Meets (given.mapM (expr context)) state (Blames missing reported []) fun _ after =>
      Traced context roots (given.flatMap Resolved.Expr.trails) after :=
  mapM_meets (fun item _ _ _ coherent run => (expr_lowered item coherent run).grows) given stage
    (fun item listed _ stage reports => expr_meets mapped item stage (grounded item listed) reports)
    reports

/-- An item of the select list of a sub-query is an expression. -/
theorem innerSelection_meets (mapped : context.catalog.IsMapped) {selection : Resolved.Selection}
    (stage : Stage context roots visible missing state)
    (grounded : selection.expr.IsGrounded context.catalog visible)
    (reports : Reports missing reported selection.expr.trails) :
    Meets (innerSelection context selection) state (Blames missing reported []) fun _ after =>
      Traced context roots selection.expr.trails after :=
  .bind (expr_meets mapped selection.expr stage grounded reports) fun _ _ _ traced => .pure traced

/-- An item of the select list of a statement is an expression, or stands for a whole entity. -/
theorem topSelection_meets (mapped : context.catalog.IsMapped) {selection : Resolved.Selection}
    (stage : Stage context roots visible missing state)
    (grounded : selection.expr.IsGrounded context.catalog visible)
    (reports : Reports missing reported selection.trails) :
    Meets (topSelection context selection) state (Blames missing reported []) fun _ after =>
      Traced context roots selection.trails after := by
  obtain ⟨given, label⟩ := selection
  have single (reports : Reports missing reported given.trails) :
      Meets (topSelection.single context ⟨given, label⟩) state (Blames missing reported [])
        fun _ after => Traced context roots given.trails after :=
    .bind (expr_meets mapped given stage grounded reports) fun _ _ _ traced => .pure traced
  cases given with
  | path reference =>
    unfold topSelection
    simp only [Resolved.Selection.trails] at reports ⊢
    split
    · rename_i leads
      rw [if_pos leads] at reports
      exact .bind (pathGroup_meets mapped stage grounded leads (reports_append.mp reports).1)
        fun _ _ _ traced => .pure traced
    · rename_i leads
      rw [if_neg leads, List.append_nil] at reports
      rw [List.append_nil]
      exact single reports
  | element source type =>
    obtain ⟨node, seen, rfl⟩ := isGrounded_element.mp grounded
    unfold topSelection
    simp only [Resolved.Selection.trails, trails_element] at reports ⊢
    refine group_meets stage (stage.reached seen) (reports _ List.mem_cons_self)
      fun route level found named plain located _ _ _ => .pure ⟨stage.tidy, ?_⟩
    exact List.forall_mem_singleton.mpr ⟨(stage.covered node seen).1, mem_keys_of_located located⟩
  | literal | parameter | arithmetic | negate | call => exact single reports

/-- A sort key is lowered or blames what is missing. -/
theorem sortKey_meets (mapped : context.catalog.IsMapped) {key : Resolved.SortKey}
    (stage : Stage context roots visible missing state)
    (grounded : key.expr.IsGrounded context.catalog visible)
    (reports : Reports missing reported key.expr.trails) :
    Meets (sortKey context key) state (Blames missing reported []) fun _ after =>
      Traced context roots key.expr.trails after :=
  .bind (expr_meets mapped key.expr stage grounded reports) fun _ _ _ traced => .pure traced

/-! ## Joins along paths -/

/-- The path of a join as segments, none of which has an index. -/
theorem areTyped_of_follow {catalog : Catalog} {last : String} : ∀ {path : List String}
    {current found : EntityReference} {plural : Bool},
    Sources.follow catalog current (path ++ [last]) = .ok (found, plural) →
      ∃ (init : List (Segment Resolved.Expr)) (type : DataType), init.map (·.label) = path ∧
        (∀ segment ∈ init, segment.index = none) ∧ type.isPlural = plural ∧
          AreTyped catalog current.attribute? (init ++ [⟨last, type, none, type⟩])
  | [], current, found, plural, followed => by
    rw [List.nil_append, Sources.follow] at followed
    split at followed
    · rename_i type known
      simp only [except_bind_ok, pure, Except.pure] at followed
      obtain ⟨⟨target, several⟩, leads, entity, _, same⟩ := followed
      obtain rfl : several = plural := (Prod.mk.inj (Except.ok.inj same)).2
      refine ⟨[], type, rfl, by simp, ?_, known, by simp [Segment.IsTyped], trivial⟩
      unfold Sources.associationTarget at leads
      split at leads
      · exact (Prod.mk.inj (Except.ok.inj leads)).2
      · cases leads
      · split at leads
        · split at leads
          · exact (Prod.mk.inj (Except.ok.inj leads)).2
          · cases leads
        · cases leads
    · cases followed
  | name :: path, current, found, plural, followed => by
    rw [List.cons_append, Sources.follow] at followed
    split at followed
    · rename_i type known
      simp only [except_bind_ok, pure, Except.pure] at followed
      obtain ⟨⟨target, several⟩, leads, entity, resolved, followed⟩ := followed
      have further : (path ++ [last]).isEmpty = false := by simp
      rw [further] at followed leads
      obtain ⟨init, final, labels, direct, counted, typed⟩ := areTyped_of_follow followed
      -- An association that another one follows leads to one entity.
      obtain rfl : type = .entity target := by
        unfold Sources.associationTarget at leads
        split at leads
        · rw [(Prod.mk.inj (Except.ok.inj leads)).1]
          rfl
        · cases leads
        · cases leads
      have attributes : attributeOf? catalog (.entity target) = entity.attribute? := by
        funext label
        unfold Sources.resolveEntity at resolved
        split at resolved
        · rename_i given
          obtain rfl := Except.ok.inj resolved
          simp [attributeOf?, DataType.entity, given]
        · cases resolved
      refine ⟨⟨name, .entity target, none, .entity target⟩ :: init, final, by simp [labels], ?_,
        counted, known, by simp [Segment.IsTyped], ?_⟩
      · exact List.forall_mem_cons.mpr ⟨rfl, direct⟩
      · simpa [attributes] using typed
    · cases followed

/-- Segments without an index are joined like the associations of a path. -/
theorem navigate_direct (context : LoweringContext) : ∀ {init : List (Segment Resolved.Expr)}
    (_ : ∀ segment ∈ init, segment.index = none) (owner : String),
    navigate context init owner = (init.map (·.label)).foldlM (toOneJoin context) owner ∧
      direct init = init.map (·.label) ∧ segmentNodes init = []
  | [], _, owner => ⟨rfl, rfl, rfl⟩
  | ⟨label, declared, index, after⟩ :: rest, plain, owner => by
    obtain ⟨rfl, others⟩ := List.forall_mem_cons.mp plain
    refine ⟨?_, ?_, ?_⟩
    · rw [navigate, List.map_cons, List.foldlM_cons]
      simp only [optional, step, pure_bind, (navigate_direct context others _).1]
    · rw [direct, (navigate_direct context others owner).2.1, List.map_cons]
    · rw [segmentNodes, (navigate_direct context others owner).2.2]
      rfl

/-- The condition of a join along associations is found in the model.

Proof: the labels of the path are gone along one by one, and the last of them is single or plural as
the origin says. -/
theorem associationCondition_meets (mapped : context.catalog.IsMapped)
    (stage : Stage context roots visible missing state) {path : List String} {plural : Bool}
    {node : FromNode} (seen : node ∈ visible) (plain : ∀ name ∈ path, IsPlainName name)
    {found : EntityReference}
    (followed : Sources.follow context.catalog node.entity path = .ok (found, plural))
    (reports : node.label ∈ missing → node.label ∈ reported) {target : TableGroup} :
    Meets (associationCondition context node.label path plural target) state
      (Blames missing reported []) fun _ after =>
        Traced context roots ((Trail.start node.label).steps path.dropLast) after := by
  unfold associationCondition
  split
  · exact .throw trivial
  · rename_i last ends
    obtain ⟨init, rfl⟩ := List.getLast?_eq_some_iff.mp ends
    rw [List.dropLast_concat]
    obtain ⟨segments, type, rfl, indexless, several, typed⟩ := areTyped_of_follow followed
    obtain ⟨joined, along, nodes⟩ := navigate_direct context indexless node.label
    obtain ⟨typedInit, known, _⟩ := areTyped_append.mp typed
    have grounded : SegmentsGrounded context.catalog visible segments := by
      simp [SegmentsGrounded, nodes]
    have plainSegments : ∀ segment ∈ segments, IsPlainName segment.label := fun segment member =>
      plain _ (List.mem_append_left _ (List.mem_map_of_mem member))
    rw [← joined]
    refine .bind (navigate_meets mapped segments stage (stage.reached seen) reports plainSegments
      typedInit (leads_of_areTyped typed (by simp)) grounded (by simp [nodes, trailsOf, Reports]))
      fun owner walked ran arrived => ?_
    have walk := navigate_grows segments node.label stage.tidy.coherent ran
    refine group_meets (stage.grows walk arrived.traced.tidy) arrived.reached arrived.reports ?_
    rintro route level ⟨space, ownerGroup⟩ rfl _ located _ serves ⟨entity, answers, has⟩
    have typedThere := has last _ known
    have traced : Traced context roots ((Trail.start node.label).steps (segments.map (·.label)))
        walked := by
      rw [← along]
      exact ⟨arrived.traced.tidy, arrived.steps (mem_keys_of_located located) (.start node.label) rfl
        (stage.covered node seen).1⟩
    split
    · rename_i isPlural
      obtain ⟨mapping, collected⟩ := collection_of_mapped mapped answers typedThere
        (several.trans isPlural)
      exact .bind_ok collected (.pure traced)
    · rename_i isSingle
      obtain ⟨column, stored⟩ := columnOf_of_serves serves answers typedThere
        (several.trans (Bool.not_eq_true _ ▸ isSingle))
      exact .bind_ok stored (.pure traced)

/-- The condition that a join implies is found in the model. -/
theorem impliedCondition_meets (mapped : context.catalog.IsMapped)
    (stage : Stage context roots visible missing state) {origin : FromOrigin} {kind : JoinKind}
    (grounded : Resolved.FromOrigin.IsGrounded context.catalog visible kind origin)
    (reports : Reports missing reported (originTrails origin)) {target : TableGroup} :
    Meets (impliedCondition context origin target) state (Blames missing reported [])
      fun condition after => Traced context roots (originTrails origin) after ∧
        (kind = .cross → condition = none) := by
  cases origin with
  | root | entityJoin => exact .pure ⟨⟨stage.tidy, by simp [originTrails]⟩, fun _ => rfl⟩
  | pathJoin owner path plural =>
    obtain ⟨joined, plain, node, seen, rfl, found, followed⟩ := grounded
    exact .bind (associationCondition_meets mapped stage seen plain followed
      (reports _ Trail.mem_steps)) fun _ _ _ traced =>
        .pure ⟨traced, fun crossed => (joined crossed).elim⟩

/-! ## Tests for membership -/

/-- A plural type leads to no entity by itself. -/
theorem entity?_of_isPlural {type : DataType} (plural : type.isPlural = true) :
    type.entity? = none := by
  cases type with
  | simple given => cases plural
  | collection kind given => rfl

/-- A query for the keys of the elements of a collection, under a name that no group has: the name
leads along a collection. -/
structure ForElements (context : LoweringContext) (roots : String → Option String)
    (query : Sql.Query Sql.Expr) (route : Route) : Prop where
  plain : route.IsPlain
  further : route.owner?.isSome = true
  untyped : route.entity? context.catalog roots = none
  labels : query.labels = [TableGroup.tableLabel route.name 0]
  flat : ∀ outer, queryLevels outer query = [⟨outer, query⟩]

/-- A test for membership asks for the elements of a collection that is mapped.

Proof: the element is lowered, then the path to the owner of the collection is gone along. The table
of the collection is there because the catalog is mapped. -/
theorem memberOf_meets (mapped : context.catalog.IsMapped)
    (stage : Stage context roots visible missing state) {element : Resolved.Expr}
    {collection : Reference Resolved.Expr} {negated : Bool}
    (grounded : element.IsGrounded context.catalog visible)
    (groundedPath : (Resolved.Expr.path collection).IsGrounded context.catalog visible)
    (plural : collection.type.isPlural = true)
    (reports : Reports missing reported
      (element.trails ++ (Resolved.Expr.path collection).trails)) :
    Meets (memberOf context element collection negated) state (Blames missing reported [])
      fun value after => Traced context roots
        (element.trails ++ (Resolved.Expr.path collection).trails) after ∧
          ∃ test query route, value = .inQuery test query negated ∧ test.isValue = true ∧
            ForElements context roots query route := by
  obtain ⟨reportsElement, reportsPath⟩ := reports_append.mp reports
  unfold memberOf
  refine .bind (expr_meets mapped element stage grounded reportsElement)
    fun test tested ranTest traced => ?_
  have lowered := expr_lowered element stage.tidy.coherent ranTest
  have stage := stage.grows lowered.grows traced.tidy
  obtain ⟨source, sourceType, init, ⟨label, declared, index, after⟩, type⟩ := collection
  obtain ⟨⟨⟨node, seen, starts, follows⟩, plain, ends⟩, inner, _⟩ := isGrounded_path.mp groundedPath
  simp only at starts
  subst starts
  have named := (stage.covered node seen).1
  obtain ⟨typedInit, found, typedLast, _⟩ := areTyped_append.mp follows
  obtain rfl : type = after := ends
  obtain rfl : index = none := typedLast.index_of_isPlural plural
  obtain rfl : type = declared := typedLast
  rw [trails_path] at reportsPath ⊢
  obtain ⟨along, reportsNodes⟩ := reports_append.mp reportsPath
  have plainInit := fun segment member => plain segment (List.mem_append_left _ member)
  have plainLast := plain _ (List.mem_append_right init List.mem_cons_self)
  refine .bind (navigate_meets mapped init stage (stage.reached seen) (along _ Trail.mem_steps)
    plainInit typedInit (leads_of_areTyped follows (by simp)) inner
    (reports_append.mp reportsNodes).1) fun owner walked ranPath arrived => ?_
  have walk := navigate_grows init node.label stage.tidy.coherent ranPath
  have stageWalked := stage.grows walk arrived.traced.tidy
  split
  · rename_i target leads
    refine group_meets stageWalked arrived.reached arrived.reports ?_
    rintro route level ⟨space, ownerGroup⟩ rfl routed located ledTo serves ⟨entity, answers, has⟩
    have typedThere := has label _ found
    obtain ⟨mapping, collected⟩ := collection_of_mapped mapped answers typedThere plural
    obtain ⟨target, targetKnown, _⟩ := mapped.linked answers typedThere (.inr leads)
    obtain ⟨_, table, _, _, _, rooted⟩ := shape_of_mapped mapped targetKnown
    refine .bind_ok collected (.bind_ok rooted (.pure ⟨?_, test, _, .toOne route label, rfl,
      lowered.within.isValue, ⟨routed, plainLast⟩, rfl, ?_, ?_, fun outer => ?_⟩))
    · have steps := arrived.steps (mem_keys_of_located located) (.start node.label) rfl named
      have indexless : trailsOf (indexNodes none) = [] := rfl
      rw [indexless, List.append_nil]
      exact (traced.grows walk arrived.traced.tidy).append
        (Traced.append ⟨arrived.traced.tidy, steps⟩ arrived.traced)
    · rw [Route.entity?_toOne ledTo answers typedThere]
      exact entity?_of_isPlural plural
    · simp [Query.labels, joinLabels, TableSpec.toRef_label, Route.name]
    · simp [queryLevels, selectionLevels, joinLevels, conditionLevels, sortLevels, Sql.Expr.levels,
        Sql.Expr.tableColumn, Sql.Expr.equals, TableGroup.key]
  · exact .throw trivial

/-! ## Assignments -/

/-- A basic attribute of a known entity is no collection, and neither is what it is declared as. -/
theorem isPlural_of_basic (mapped : context.catalog.IsMapped) {name : String} {entity : EntityType}
    {segment : Segment Resolved.Expr} (known : context.catalog.entity? name = some entity)
    (found : entity.attribute? segment.label = some segment.declared) (typed : segment.IsTyped)
    (basic : segment.type.basic?.isSome = true) : segment.declared.isPlural = false := by
  rw [← Bool.not_eq_true]
  intro plural
  have gathered := mapped.gathered known found plural
  obtain ⟨label, declared, index, after⟩ := segment
  cases index with
  | none =>
    obtain rfl : after = declared := typed
    cases after with
    | simple given => cases plural
    | collection kind given => cases basic
  | some index =>
    obtain ⟨_, element⟩ := typed
    simp only [element, Option.bind_some] at gathered
    obtain ⟨target, leads⟩ := Option.isSome_iff_exists.mp gathered
    rw [(entity?_eq_some leads).1] at basic
    cases basic

/-- An assignment is to a column of its target. -/
theorem assignment_meets (mapped : context.catalog.IsMapped) {given : Resolved.Assignment}
    (stage : Stage context roots visible missing state)
    (grounded : given.IsGrounded context.catalog visible)
    (reports : Reports missing reported (.start given.target.source :: given.value.trails)) :
    Meets (assignment context given) state (Blames missing reported []) fun _ after =>
      Traced context roots (.start given.target.source :: given.value.trails) after := by
  obtain ⟨⟨source, sourceType, init, last, type⟩, value⟩ := given
  obtain ⟨⟨⟨node, seen, starts, follows⟩, plain, ends⟩, direct, basic, groundedValue⟩ := grounded
  simp only at starts direct ends
  subst starts direct ends
  obtain ⟨reportsTarget, reportsValue⟩ := List.forall_mem_cons.mp reports
  unfold assignment
  refine group_meets stage (stage.reached seen) reportsTarget ?_
  rintro route level ⟨space, ownerGroup⟩ named routed located ledTo serves ⟨entity, answers, has⟩
  obtain ⟨found, typed, _⟩ := follows
  have typedThere := has _ _ found
  have single := isPlural_of_basic mapped answers typedThere typed basic
  obtain ⟨binding, stored⟩ := Option.isSome_iff_exists.mp (serves answers typedThere single)
  simp only [stored]
  refine .bind (expr_meets mapped value stage groundedValue reportsValue)
    fun _ after ran traced => .pure ⟨traced.tidy, List.forall_mem_cons.mpr ⟨?_, traced.joined⟩⟩
  have grown := (expr_lowered value stage.tidy.coherent ran).grows
  exact ⟨(stage.covered node seen).1, grown.keys_subset (mem_keys_of_located located)⟩

end ObjectQuery.Lowering

import ObjectQuery.Proofs.Lowering.FromClause
/-!
# Lowering grounded predicates and queries

A predicate fails for the missing sources it refers to, for a source that a condition in it uses
before its join, or because it asks for something that cannot be expressed. If it succeeds, no source
is used before its join, and its trails are settled. The same holds of conditions, joins, from-clauses
and sub-queries, and each follows from the others along the recursion of the lowering.
-/
namespace ObjectQuery.Lowering

open Sql
open Resolved (FromNode FromSpace Trail targetLabels JoinsGrounded SpacesGrounded FilterGrounded
  QueryGrounded filterSources filterTrails filterLayouts filterAhead joinSources joinTrails joinLayouts
  joinsAhead spaceSources spaceTrails spaceLayouts spacesAhead querySources queryTrails queryLayouts
  queryAhead originTrails)

variable {context : LoweringContext} {roots : String → Option String} {visible : List FromNode}
  {missing : List String} {state after : LoweringState} {scopes : List LoweringScope}

/-- Sources of two parts of a statement have different names. -/
theorem Awaits.differ {first second rest : List FromNode}
    (awaits : Awaits context roots visible missing (first ++ second) rest scopes) :
    ∀ source ∈ first.map (·.label), source ∉ second.map (·.label) := by
  have distinct := awaits.distinct
  rw [List.map_append, List.map_append] at distinct
  exact fun source member listed =>
    (List.nodup_append.mp (List.nodup_append.mp distinct).1).2.2 source member source listed rfl

/-- More sources of the rest may be missing. -/
theorem Awaits.more {given rest : List FromNode} {more : List String}
    (awaits : Awaits context roots visible missing given rest scopes)
    (further : more ⊆ rest.map (·.label)) :
    Awaits context roots visible (more ++ missing) given rest scopes :=
  { awaits with further := List.append_subset.mpr ⟨further, awaits.further⟩ }

/-- The targets of joins are among their sources. -/
theorem targetLabels_subset (joins : List (Resolved.Join Resolved.Predicate)) :
    targetLabels joins ⊆ (joinSources joins).map (·.label) := by
  induction joins with
  | nil => exact List.Subset.refl _
  | cons join rest ih =>
    obtain ⟨kind, fetch, target, predicate⟩ := join
    rw [joinSources, List.map_cons, List.map_append]
    exact List.cons_subset_cons _ (List.subset_append_of_subset_right _ ih)

/-- The labels of spaces are those of their sources. -/
theorem labels_subset (spaces : List (FromSpace Resolved.Predicate)) :
    spaces.flatMap FromSpace.labels ⊆ (spaceSources spaces).map (·.label) := by
  induction spaces with
  | nil => exact List.Subset.refl _
  | cons space rest ih =>
    obtain ⟨root, joins⟩ := space
    rw [spaceSources, List.map_cons, List.map_append, List.flatMap_cons]
    exact List.cons_subset_cons _ (append_subset_append (targetLabels_subset joins) ih)

/-- The label of an element is one of those of the spaces. -/
theorem label_of_element {query : Resolved.QuerySpec} {node : FromNode}
    (member : node ∈ query.elements) : node.label ∈ query.spaces.flatMap FromSpace.labels := by
  obtain ⟨space, listed, here⟩ := List.mem_flatMap.mp member
  refine List.mem_flatMap.mpr ⟨space, listed, ?_⟩
  have labels : space.labels = (space.root :: space.joins.map (·.target)).map (·.label) := by
    simp [FromSpace.labels, targetLabels]
  rw [labels]
  exact List.mem_map_of_mem here

/-- The query of a test for membership has a table whose name no group has. -/
theorem ForElements.neat {query : Sql.Query Sql.Expr} {route : Route} {outer : List String}
    (elements : ForElements context roots query route)
    (typed : ∀ label ∈ outer, IsTable context.catalog roots label) :
    Neat context.catalog roots [] [⟨outer, query⟩] := by
  have member : Level.isMembership ⟨outer, query⟩ = true := by
    obtain ⟨owner, further⟩ := Option.isSome_iff_exists.mp elements.further
    simp [Level.isMembership, elements.labels, isImplicit_tableLabel, Route.isImplicit_name further]
  have none : tableLabels [⟨outer, query⟩] = [] := by simp [tableLabels, member]
  refine ⟨by simp [none], by simp [none], ?_, List.forall_mem_singleton.mpr typed⟩
  refine List.forall_mem_singleton.mpr fun _ label listed => ?_
  rintro ⟨sources, other, position, plain, leads, _, named⟩
  rw [elements.labels, List.mem_singleton] at listed
  obtain ⟨same, _⟩ := tableLabel_inj (listed.symm.trans named)
  rw [← Route.name_inj elements.plain plain same, elements.untyped] at leads
  cases leads

/-! ## Whole queries -/

/-- What is lowered at the level of a query: its from-clause, its items, which are chosen in a given
way, its condition and its sort keys. -/
def levelBody (context : LoweringContext)
    (choose : Resolved.Selection → Lowering (List (Sql.Selection Sql.Expr)))
    (query : Resolved.QuerySpec) (order : List Resolved.SortKey) :
    Lowering (List (Sql.Selection Sql.Expr) × Option Sql.Expr × List (Sql.SortKey Sql.Expr)) := do
  spaces context query.spaces
  let chosen ← query.selections.mapM choose
  let condition ← filter context query.filter
  let keys ← order.mapM (sortKey context)
  return (chosen.flatten, condition, keys)

/-- Lowers a query at a level of its own. -/
def selectWith (context : LoweringContext)
    (choose : Resolved.Selection → Lowering (List (Sql.Selection Sql.Expr)))
    (query : Resolved.QuerySpec) (order : List Resolved.SortKey) : Lowering Select := do
  let ((chosen, condition, keys), scope) ← inScope .empty (levelBody context choose query order)
  return ⟨query.distinct, chosen, scope.spaces, condition, keys⟩

/-- A selecting statement chooses what its top selections do. -/
theorem select_eq_selectWith {query : Resolved.QuerySpec} {order : List Resolved.SortKey} :
    select context query order = selectWith context (topSelection context) query order := rfl

/-- A sub-query is a query without sort keys. -/
theorem subQuery_eq_selectWith {query : Resolved.QuerySpec} :
    subQuery context query = selectWith context (innerSelection context) query [] := by
  obtain ⟨items, distinct, selections, condition⟩ := query
  rw [subQuery, selectWith]
  simp only [levelBody, inScope, List.mapM_nil, bind_assoc, pure_bind]
  refine bind_congr fun _ => bind_congr fun _ => bind_congr fun _ => bind_congr fun _ =>
    bind_congr fun state => ?_
  cases state.scopes with
  | nil => rfl
  | cons scope outer => simp only [bind_assoc, pure_bind]

/-- A way to choose items that gives values, and does nothing else but raise joins. -/
def ChoosesValues (context : LoweringContext)
    (choose : Resolved.Selection → Lowering (List (Sql.Selection Sql.Expr))) : Prop :=
  ∀ item {state after : LoweringState} {chosen : List (Sql.Selection Sql.Expr)},
    Coherent state.scopes → Yields (choose item) state chosen after →
      Grows context state.scopes after.scopes ∧ ∀ selection ∈ chosen, selection.expr.isValue = true

/-- The selections of a sub-query choose values. -/
theorem innerSelection_choosesValues : ChoosesValues context (innerSelection context) := by
  intro item state after chosen coherent run
  refine ⟨(innerSelection_lowered item coherent run).1, ?_⟩
  simp only [innerSelection, yields_bind, yields_pure] at run
  obtain ⟨value, _, ran, rfl, rfl⟩ := run
  exact List.forall_mem_singleton.mpr (expr_lowered item.expr coherent ran).within.isValue

/-- What is chosen is values throughout. -/
theorem selections_values {choose : Resolved.Selection → Lowering (List (Sql.Selection Sql.Expr))}
    (chooses : ChoosesValues context choose) (items : List Resolved.Selection)
    {chosen : List (List (Sql.Selection Sql.Expr))} (coherent : Coherent state.scopes)
    (run : Yields (items.mapM choose) state chosen after) :
    Grows context state.scopes after.scopes ∧
      ∀ selection ∈ chosen.flatten, selection.expr.isValue = true := by
  obtain ⟨grows, values⟩ := mapM_grows (fun _ (part : List (Sql.Selection Sql.Expr)) =>
    ∀ selection ∈ part, selection.expr.isValue = true) (fun _ held => held) chooses items coherent run
  refine ⟨grows, fun selection member => ?_⟩
  obtain ⟨part, listed, inPart⟩ := List.mem_flatten.mp member
  exact values part listed selection inPart

/-- A sort key is lowered to a value. -/
theorem sortKey_value (key : Resolved.SortKey) {state after : LoweringState}
    {sorted : Sql.SortKey Sql.Expr} (coherent : Coherent state.scopes)
    (run : Yields (sortKey context key) state sorted after) :
    Grows context state.scopes after.scopes ∧ sorted.expr.isValue = true := by
  simp only [sortKey, yields_bind, yields_pure] at run
  obtain ⟨_, _, ran, rfl, rfl⟩ := run
  have lowered := expr_lowered key.expr coherent ran
  exact ⟨lowered.grows, lowered.within.isValue⟩

/-- What has been achieved at the level of a query when all its parts are lowered. -/
structure Composed (context : LoweringContext) (roots : String → Option String)
    (visible : List FromNode) (outside : List LoweringScope) (missing : List String)
    (query : Resolved.QuerySpec) (more : List Trail) (chosen : List (Sql.Selection Sql.Expr))
    (condition : Option Sql.Expr) (sorted : List (Sql.SortKey Sql.Expr)) (after : LoweringState) :
    Prop where
  built : Built context roots visible outside [] missing ((spaceSources query.spaces).map (·.label))
    (query.spaces.map (·.root.label)) (spaceTrails query.spaces) (spaceLayouts query.spaces) after
  joined : ∀ trail ∈ more, Secured missing [] (fun _ => []) after.scopes trail
  settled : Settled context roots missing (filterTrails query.filter) (filterLayouts query.filter)
    ((filterSources query.filter).map (·.label)) (fun outer => conditionLevels outer condition) after
  chosen : ∀ selection ∈ chosen, selection.expr.isValue = true
  sorted : ∀ key ∈ sorted, key.expr.isValue = true

section Select

variable {choose : Resolved.Selection → Lowering (List (Sql.Selection Sql.Expr))}
  {chosenTrails : Resolved.Selection → List Trail} {query : Resolved.QuerySpec}
  {order : List Resolved.SortKey} {own rest : List FromNode} {reported : List String}
  {outside : List LoweringScope}

/-- All parts of a query are lowered if its from-clause, its items and its condition are.

Proof: the parts are lowered in the order of the body, and each of them starts from the scopes that
the one before has left. What an earlier part has secured stays secured while the scopes grow. -/
theorem levelBody_meets (mapped : context.catalog.IsMapped) (chooses : ChoosesValues context choose)
    (coming : Awaits context roots visible missing (querySources query) rest outside)
    (lowersSpaces : Meets (spaces context query.spaces) state
      (Blames missing reported (spacesAhead query.spaces)) fun _ after =>
        Built context roots visible outside [] missing ((spaceSources query.spaces).map (·.label))
          (query.spaces.map (·.root.label)) (spaceTrails query.spaces) (spaceLayouts query.spaces)
          after ∧ spacesAhead query.spaces = [])
    (lowersItem : ∀ item ∈ query.selections, ∀ {inner : LoweringState},
      Stage context roots visible missing inner → Reports missing reported (chosenTrails item) →
        Meets (choose item) inner (Blames missing reported []) fun _ after =>
          Traced context roots (chosenTrails item) after)
    (lowersFilter : ∀ {inner : LoweringState}, Stage context roots visible missing inner →
      Awaits context roots visible missing (filterSources query.filter) rest inner.scopes →
        Meets (filter context query.filter) inner
          (Blames missing reported (filterAhead query.filter)) fun value after =>
            Settled context roots missing (filterTrails query.filter) (filterLayouts query.filter)
              ((filterSources query.filter).map (·.label)) (fun outer => conditionLevels outer value)
              after ∧ filterAhead query.filter = [])
    (grounded : ∀ key ∈ order, key.expr.IsGrounded context.catalog visible)
    (reports : Reports missing reported (query.selections.flatMap chosenTrails ++
      order.flatMap fun key => key.expr.trails)) :
    Meets (levelBody context choose query order) state (Blames missing reported (queryAhead query))
      fun result after => Composed context roots visible outside missing query
        (query.selections.flatMap chosenTrails ++ order.flatMap fun key => key.expr.trails)
        result.1 result.2.1 result.2.2 after ∧ queryAhead query = [] := by
  obtain ⟨items, isDistinct, selections, condition⟩ := query
  simp only [queryAhead, querySources] at coming lowersSpaces lowersFilter reports ⊢
  obtain ⟨reportsItems, reportsKeys⟩ := reports_append.mp reports
  have distinct := coming.distinct
  rw [List.append_assoc, List.map_append] at distinct
  rw [levelBody]
  refine .bind (lowersSpaces.early (List.subset_append_left _ _)) fun _ entered _ ⟨built, nothing⟩ => ?_
  refine .bind ((mapM_meets (fun item _ _ _ coherent run => (chooses item coherent run).1) selections
    built.stage lowersItem reportsItems).early (List.nil_subset _))
    fun chosen picked ranItems tracedItems => ?_
  obtain ⟨grownItems, chosenValues⟩ := selections_values chooses selections
    built.stage.tidy.coherent ranItems
  have builtItems := built.grows grownItems tracedItems.tidy
  refine .bind ((lowersFilter builtItems.stage (builtItems.awaits coming distinct)).early
    (List.subset_append_right _ _))
    fun value filtered ranFilter ⟨settled, nothingFilter⟩ => ?_
  have grownFilter := (filter_lowered condition builtItems.stage.tidy.coherent
    (builtItems.awaits coming distinct).plain ranFilter).1
  have builtFilter := builtItems.grows grownFilter settled.tidy
  refine .bind ((mapM_meets (fun key _ _ _ coherent run => (sortKey_value key coherent run).1) order
    builtFilter.stage (fun key listed _ stage reports => sortKey_meets mapped stage (grounded key listed)
      reports) reportsKeys).early (List.nil_subset _)) fun sorted after ranKeys tracedKeys => ?_
  · obtain ⟨grownKeys, sortedValues⟩ := mapM_grows
      (fun _ (key : Sql.SortKey Sql.Expr) => key.expr.isValue = true) (fun _ held => held)
      sortKey_value order builtFilter.stage.tidy.coherent ranKeys
    have grown : Grows context picked.scopes after.scopes := grownFilter.trans grownKeys
    refine .pure ⟨⟨builtFilter.grows grownKeys tracedKeys.tidy, ?_, ?_, chosenValues, sortedValues⟩, ?_⟩
    · refine List.forall_mem_append.mpr ⟨fun trail member => ?_, fun trail member => ?_⟩
      · exact ((tracedItems.joined trail member).secured built.stage grownItems tracedItems.tidy).mono
          (List.Subset.refl _) (List.Subset.refl _) (fun _ => List.Subset.refl _) grown.keys_subset
      · exact (tracedKeys.joined trail member).secured builtFilter.stage grownKeys tracedKeys.tidy
    · exact settled.grows grownKeys tracedKeys.tidy
    · rw [nothing, nothingFilter, List.append_nil]

/-- A query is lowered if all its parts are. The sources `own` stand for those that it names itself.

Proof: a new level is opened, the parts are lowered in it, and what is secured at the levels around
stays so when it is closed. -/
theorem selectWith_meets (stage : Stage context roots visible missing state)
    (coming : Awaits context roots (own ++ visible) missing (querySources query) rest state.scopes)
    (named : ∀ node ∈ own, node.label ∈ query.spaces.flatMap FromSpace.labels) {more : List Trail}
    (lowers : ∀ {inner : LoweringState}, Built context roots (own ++ visible) state.scopes
      (query.spaces.flatMap FromSpace.labels) missing [] [] [] [] inner →
        Meets (levelBody context choose query order) inner
          (Blames missing reported (queryAhead query)) fun result after =>
            Composed context roots (own ++ visible) state.scopes missing query more result.1
              result.2.1 result.2.2 after ∧ queryAhead query = []) :
    Meets (selectWith context choose query order) state (Blames missing reported (queryAhead query))
      fun select after => Settled context roots missing
        (spaceTrails query.spaces ++ more ++ filterTrails query.filter)
        (queryLayouts query) ((querySources query).map (·.label))
        (fun outer => queryLevels outer select.toQuery) after ∧ queryAhead query = [] := by
  obtain ⟨items, isDistinct, selections, condition⟩ := query
  simp only [queryLayouts, querySources] at coming lowers ⊢
  have distinct := coming.distinct
  rw [List.map_append, List.map_append] at distinct
  have new {label : String} (member : label ∈ items.flatMap FromSpace.labels) :
      IsPlainName label ∧ label ∉ keys state.scopes := by
    obtain ⟨node, listed, rfl⟩ := List.mem_map.mp (labels_subset items member)
    exact coming.new node (List.mem_append_left _ (List.mem_append_left _ listed))
  have plain : ∀ first ∈ items.map (·.root.label), IsPlainName first := by
    refine List.forall_mem_map.mpr fun space listed => (new ?_).1
    exact List.mem_flatMap.mpr ⟨space, listed, List.mem_cons_self⟩
  have body : Meets (levelBody context choose ⟨items, isDistinct, selections, condition⟩ order)
      { state with scopes := .empty :: state.scopes }
      (Blames missing reported (queryAhead ⟨items, isDistinct, selections, condition⟩))
      fun result after => after.scopes ≠ [] ∧
        Composed context roots (own ++ visible) state.scopes missing
          ⟨items, isDistinct, selections, condition⟩ more result.1 result.2.1 result.2.2 after ∧
        queryAhead ⟨items, isDistinct, selections, condition⟩ = [] := by
    refine (lowers (built_open stage (fun _ => new) named)).weaken (fun _ blames => blames)
      fun _ after _ good => ⟨?_, good⟩
    obtain ⟨scope, outer, _, _, levels, _⟩ := good.1.built.level
    simp [levels]
  rw [selectWith]
  refine .bind body.inScope fun ⟨⟨chosen, value, sorted⟩, scope⟩ after _
    ⟨inner, levels, count, composed, nothing⟩ => .pure ⟨?_, nothing⟩
  obtain ⟨_, _⟩ := inner
  obtain rfl := levels
  obtain rfl := count
  rw [List.map_append]
  exact composed.built.close composed.joined composed.settled rfl composed.chosen composed.sorted
    (List.nodup_append.mp distinct).1 plain

end Select

/-! ## Conditions on expressions -/

section Flat

variable {reported : List String} {given : Resolved.Expr} {further : List Trail}

/-- A condition on expressions is written after a run: the trails of the expressions are joined, and
there are no sub-selects in it. -/
structure Flat (context : LoweringContext) (roots : String → Option String) (state : LoweringState)
    (trails : List Trail) (value : Sql.Expr) (after : LoweringState) : Prop where
  traced : Traced context roots trails after
  grows : Grows context state.scopes after.scopes
  levels : ∀ outer, value.levels outer = []

/-- The condition is written once its last expression is. -/
theorem flat_last (mapped : context.catalog.IsMapped) (stage : Stage context roots visible missing state)
    (grounded : given.IsGrounded context.catalog visible) (reports : Reports missing reported given.trails)
    {write : Sql.Expr → Sql.Expr}
    (flat : ∀ value outer, value.isValue = true → (write value).levels outer = []) :
    Meets (expr context given >>= fun value => pure (write value)) state (Blames missing reported [])
      (Flat context roots state given.trails) := by
  refine .bind (expr_meets mapped given stage grounded reports) fun value after ran traced => .pure ?_
  have lowered := expr_lowered given stage.tidy.coherent ran
  exact ⟨traced, lowered.grows, fun outer => flat value outer lowered.within.isValue⟩

/-- Before a condition is written, its first expression is. -/
theorem flat_next (mapped : context.catalog.IsMapped) (stage : Stage context roots visible missing state)
    (grounded : given.IsGrounded context.catalog visible)
    (reports : Reports missing reported (given.trails ++ further))
    {next : Sql.Expr → Lowering Sql.Expr}
    (writes : ∀ {value between}, value.isValue = true → Stage context roots visible missing between →
      Reports missing reported further →
        Meets (next value) between (Blames missing reported []) (Flat context roots between further)) :
    Meets (expr context given >>= next) state (Blames missing reported [])
      (Flat context roots state (given.trails ++ further)) := by
  obtain ⟨reportsGiven, reportsFurther⟩ := reports_append.mp reports
  refine .bind (expr_meets mapped given stage grounded reportsGiven) fun value between ran traced => ?_
  have lowered := expr_lowered given stage.tidy.coherent ran
  refine (writes lowered.within.isValue (stage.grows lowered.grows traced.tidy) reportsFurther).weaken
    (fun _ blames => blames) fun written after _ flat => ⟨?_, ?_, flat.levels⟩
  · exact (traced.grows flat.grows flat.traced.tidy).append flat.traced
  · exact lowered.grows.trans flat.grows

/-- What a condition on expressions promises is kept. -/
theorem settled_of_flat (stage : Stage context roots visible missing state)
    {step : Lowering Sql.Expr}
    (meets : Meets step state (Blames missing reported []) (Flat context roots state further)) :
    Meets step state (Blames missing reported []) fun value after =>
      Settled context roots missing further [] [] (fun outer => value.levels outer) after ∧ True :=
  meets.weaken (fun _ blames => blames) fun _ _ _ flat =>
    ⟨flat.traced.settled stage flat.grows flat.levels, trivial⟩

end Flat

/-! ## The recursion -/

mutual

/-- A predicate fails only for missing sources or for sources used too early.

Proof: by recursion over the predicate. A part that holds no query is lowered flat, without a level
of its own. Where two parts hold queries, those of the second part are still awaited when the first
has been lowered, since lowering only makes the scopes grow. -/
theorem predicate_meets (mapped : context.catalog.IsMapped) : ∀ (given : Resolved.Predicate)
    {visible rest : List FromNode} {missing reported : List String} {state : LoweringState},
    Stage context roots visible missing state →
    Awaits context roots visible missing given.sources rest state.scopes →
    given.IsGrounded context.catalog visible → Reports missing reported given.trails →
      Meets (predicate context given) state (Blames missing reported given.ahead) fun value after =>
        Settled context roots missing given.trails given.layouts (given.sources.map (·.label))
          (fun outer => value.levels outer) after ∧ given.ahead = []
  | .and left right, _, _, _, _, state, stage, coming, grounded, reports
  | .or left right, _, _, _, _, state, stage, coming, grounded, reports => by
    obtain ⟨groundedLeft, groundedRight⟩ := grounded
    simp only [Resolved.Predicate.trails, Resolved.Predicate.sources, Resolved.Predicate.layouts,
      Resolved.Predicate.ahead, List.map_append] at coming reports ⊢
    obtain ⟨reportsLeft, reportsRight⟩ := reports_append.mp reports
    rw [predicate]
    refine .bind ((predicate_meets mapped left stage coming.left groundedLeft reportsLeft).early
      (List.subset_append_left _ _))
      fun first between ranLeft ⟨settledLeft, nothingLeft⟩ => ?_
    have grown := (predicate_lowered left stage.tidy.coherent coming.left.plain ranLeft).grows
    have stage' := stage.grows grown settledLeft.tidy
    have comingRight := (coming.right fun _ _ _ => id).grows grown
    refine .bind ((predicate_meets mapped right stage' comingRight groundedRight reportsRight).early
      (List.subset_append_right _ _))
      fun second after ranRight ⟨settledRight, nothingRight⟩ => .pure ⟨?_, ?_⟩
    · have further := (predicate_lowered right stage'.tidy.coherent comingRight.plain ranRight).grows
      exact settledLeft.append settledRight further coming.differ fun outer => by rw [Sql.Expr.levels]
    · rw [nothingLeft, nothingRight, List.append_nil]
  | .not operand, _, _, _, _, state, stage, coming, grounded, reports => by
    simp only [Resolved.Predicate.trails, Resolved.Predicate.sources, Resolved.Predicate.layouts,
      Resolved.Predicate.ahead] at coming reports ⊢
    rw [predicate]
    refine .bind (predicate_meets mapped operand stage coming grounded reports)
      fun value after ran good => .pure ?_
    simpa only [Sql.Expr.levels] using good
  | .compare op left right, _, _, _, _, state, stage, coming, grounded, reports => by
    obtain ⟨groundedLeft, groundedRight⟩ := grounded
    simp only [Resolved.Predicate.trails, Resolved.Predicate.sources, Resolved.Predicate.layouts,
      Resolved.Predicate.ahead] at coming reports ⊢
    rw [predicate]
    refine settled_of_flat stage (flat_next mapped stage groundedLeft reports
      fun isValue stage reports => flat_last mapped stage groundedRight reports
        fun second outer isValueToo => ?_)
    rw [Sql.Expr.levels, Sql.Expr.levels_of_isValue _ isValue, second.levels_of_isValue isValueToo,
      List.append_nil]
  | .inList test values negated, _, _, _, _, state, stage, coming, grounded, reports => by
    obtain ⟨groundedTest, groundedValues⟩ := grounded
    simp only [Resolved.Predicate.trails, Resolved.Predicate.sources, Resolved.Predicate.layouts,
      Resolved.Predicate.ahead] at coming reports ⊢
    rw [predicate]
    refine settled_of_flat stage (flat_next mapped stage groundedTest reports
      fun isValue stage reports => .bind (exprs_meets mapped stage groundedValues reports)
        fun others after ran traced => .pure ?_)
    obtain ⟨grows, within⟩ := exprs_lowered values stage.tidy.coherent ran
    refine ⟨traced, grows, fun outer => ?_⟩
    rw [Sql.Expr.levels, Sql.Expr.levels_of_isValue _ isValue,
      listLevels_of_areValues others (areValues_iff.mpr fun value listed =>
        (within value listed).isValue), List.append_nil]
  | .inQuery test query negated, _, _, _, _, state, stage, coming, grounded, reports => by
    obtain ⟨groundedTest, groundedQuery⟩ := grounded
    simp only [Resolved.Predicate.trails, Resolved.Predicate.sources, Resolved.Predicate.layouts,
      Resolved.Predicate.ahead] at coming reports ⊢
    obtain ⟨reportsTest, reportsQuery⟩ := reports_append.mp reports
    rw [predicate]
    refine .bind ((expr_meets mapped test stage groundedTest reportsTest).early (List.nil_subset _))
      fun first between ranTest tracedTest => ?_
    have lowered := expr_lowered test stage.tidy.coherent ranTest
    have stage' := stage.grows lowered.grows tracedTest.tidy
    refine .bind (subQuery_meets mapped query stage' (coming.grows lowered.grows) groundedQuery
      reportsQuery) fun select after ranQuery ⟨settledQuery, nothing⟩ => .pure ⟨?_, nothing⟩
    have further := (subQuery_lowered query stage'.tidy.coherent coming.plain ranQuery).1
    have settledTest : Settled context roots _ test.trails [] [] (fun outer => first.levels outer)
        between := tracedTest.settled stage lowered.grows fun _ =>
      first.levels_of_isValue lowered.within.isValue
    exact settledTest.append settledQuery further nofun fun outer => by rw [Sql.Expr.levels]
  | .memberOf element collection negated, _, _, _, _, state, stage, coming, grounded, reports => by
    obtain ⟨groundedElement, groundedPath, plural⟩ := grounded
    simp only [Resolved.Predicate.trails, Resolved.Predicate.sources, Resolved.Predicate.layouts,
      Resolved.Predicate.ahead] at coming reports ⊢
    rw [predicate]
    refine (memberOf_meets mapped stage groundedElement groundedPath plural reports).weaken
      (fun _ blames => blames) ?_
    rintro _ after ran ⟨traced, test, query, route, rfl, value, elements⟩
    have grown := (memberOf_lowered stage.tidy.coherent ran).grows
    refine ⟨⟨traced.tidy, fun trail member => ?_, fun outer typed => ?_⟩, trivial⟩
    · exact ((traced.joined trail member).secured stage grown traced.tidy).mono
        (List.Subset.refl _) (List.Subset.refl _) (fun _ => List.nil_subset _) (List.Subset.refl _)
    · rw [Sql.Expr.levels, test.levels_of_isValue value, elements.flat]
      exact elements.neat typed
  | .isNull operand negated, _, _, _, _, state, stage, coming, grounded, reports => by
    simp only [Resolved.Predicate.trails, Resolved.Predicate.sources, Resolved.Predicate.layouts,
      Resolved.Predicate.ahead] at coming reports ⊢
    rw [predicate]
    refine settled_of_flat stage (flat_last mapped stage grounded reports fun value outer isValue => ?_)
    rw [Sql.Expr.levels, value.levels_of_isValue isValue]
  | .like operand pattern negated, _, _, _, _, state, stage, coming, grounded, reports => by
    obtain ⟨groundedOperand, groundedPattern⟩ := grounded
    simp only [Resolved.Predicate.trails, Resolved.Predicate.sources, Resolved.Predicate.layouts,
      Resolved.Predicate.ahead] at coming reports ⊢
    rw [predicate]
    refine settled_of_flat stage (flat_next mapped stage groundedOperand reports
      fun isValue stage reports => flat_last mapped stage groundedPattern reports
        fun second outer isValueToo => ?_)
    rw [Sql.Expr.levels, Sql.Expr.levels_of_isValue _ isValue, second.levels_of_isValue isValueToo,
      List.append_nil]
  | .between operand low high negated, _, _, _, _, state, stage, coming, grounded, reports => by
    obtain ⟨groundedOperand, groundedLow, groundedHigh⟩ := grounded
    simp only [Resolved.Predicate.trails, Resolved.Predicate.sources, Resolved.Predicate.layouts,
      Resolved.Predicate.ahead, List.append_assoc] at coming reports ⊢
    rw [predicate]
    refine settled_of_flat stage (flat_next mapped stage groundedOperand reports
      fun isValue stage reports => flat_next mapped stage groundedLow reports
        fun isValueLow stage reports => flat_last mapped stage groundedHigh reports
          fun third outer isValueHigh => ?_)
    rw [Sql.Expr.levels, Sql.Expr.levels_of_isValue _ isValue, Sql.Expr.levels_of_isValue _ isValueLow,
      third.levels_of_isValue isValueHigh]
    rfl

/-- So does a condition that may be absent. -/
theorem filter_meets (mapped : context.catalog.IsMapped) : ∀ (given : Option Resolved.Predicate)
    {visible rest : List FromNode} {missing reported : List String} {state : LoweringState},
    Stage context roots visible missing state →
    Awaits context roots visible missing (filterSources given) rest state.scopes →
    FilterGrounded context.catalog visible given → Reports missing reported (filterTrails given) →
      Meets (filter context given) state (Blames missing reported (filterAhead given))
        fun value after => Settled context roots missing (filterTrails given) (filterLayouts given)
          ((filterSources given).map (·.label)) (fun outer => conditionLevels outer value) after ∧
            filterAhead given = []
  | none, _, _, _, _, state, stage, coming, grounded, reports => by
    rw [filter]
    exact .pure ⟨⟨stage.tidy, nofun, fun _ _ => .nil⟩, rfl⟩
  | some given, _, _, _, _, state, stage, coming, grounded, reports => by
    rw [filter]
    exact .bind (predicate_meets mapped given stage coming grounded reports)
      fun _ _ _ good => .pure good

/-- The joins of an item of a from-clause keep what has been built. -/
theorem joins_meets (mapped : context.catalog.IsMapped) :
    ∀ (given : List (Resolved.Join Resolved.Predicate)) {visible rest : List FromNode}
    {outside : List LoweringScope} {later missing known firsts reported : List String}
    {trails : List Trail} {layouts : List (List String)} {space : Nat} {state : LoweringState},
    Built context roots visible outside (targetLabels given ++ later) missing known firsts trails
      layouts state →
    Awaits context roots visible (later ++ missing) (joinSources given) rest outside →
    (known ++ (joinSources given ++ rest).map (·.label)).Nodup → space + 1 = firsts.length →
    JoinsGrounded context.catalog visible given → Reports missing reported (joinTrails given) →
      Meets (joins context space given) state (Blames missing reported (joinsAhead later given))
        fun _ after => Built context roots visible outside later missing
          (known ++ (joinSources given).map (·.label)) firsts (trails ++ joinTrails given)
          (layouts ++ joinLayouts given) after ∧ joinsAhead later given = []
  | [], _, _, _, _, _, _, _, _, _, _, _, state, built, _, _, _, _, _ => by
    rw [joins]
    simp only [joinSources, joinTrails, joinLayouts, List.map_nil, List.append_nil]
    exact .pure ⟨built, rfl⟩
  | ⟨kind, fetch, node, condition⟩ :: others, visible, rest, _, later, missing, known, _, reported, _, _,
      _, state, built, coming, distinct, last, grounded, reports => by
    obtain ⟨crossed, groundedOrigin, groundedFilter, groundedRest⟩ := grounded
    rw [joinTrails, reports_append, reports_append] at reports
    obtain ⟨⟨_, reportsFilter⟩, reportsRest⟩ := reports
    have split : Awaits context roots visible (later ++ missing)
        ((node :: filterSources condition) ++ joinSources others) rest _ := coming
    have laterSources : targetLabels others ⊆ (joinSources others ++ rest).map (·.label) := by
      rw [List.map_append]
      exact List.subset_append_of_subset_left _ (targetLabels_subset others)
    have comingHere := split.left.more laterSources
    rw [← List.append_assoc] at comingHere
    have distinctHere : (known ++ (node :: filterSources condition ++
        (joinSources others ++ rest)).map (·.label)).Nodup := by
      rwa [← List.append_assoc]
    rw [joins_cons]
    refine .bind ((joinStep_meets mapped built comingHere distinctHere last crossed groundedOrigin
      fun stage coming => filter_meets mapped condition stage coming groundedFilter
        fun trail member _ => List.mem_map_of_mem member).weaken (fun _ blames => ?_)
      fun _ _ _ good => good) fun _ between _ ⟨built', unused, nothing⟩ => ?_
    · -- What the condition refers to is used too early or missing altogether.
      refine blames.mono (fun label waits named => ?_) ?_
      · obtain ⟨trail, member, rfl⟩ := List.mem_map.mp named
        rcases List.mem_append.mp waits with early | absent
        · refine Or.inr (List.mem_append_left _ (List.mem_append_left _ (List.mem_filter.mpr
            ⟨named, List.contains_iff_mem.mpr early⟩)))
        · exact Or.inl ⟨absent, reportsFilter trail member absent⟩
      · rw [joinsAhead]
        exact List.subset_append_of_subset_left _ (List.subset_append_right _ _)
    · have distinctRest : ((known ++ (node :: filterSources condition).map (·.label)) ++
          (joinSources others ++ rest).map (·.label)).Nodup := by
        rwa [List.append_assoc, ← List.map_append]
      refine (joins_meets mapped others built' (split.right fun _ _ _ => id) distinctRest last
        groundedRest reportsRest).weaken (fun _ blames => ?_)
        fun _ after _ ⟨built'', nothingRest⟩ => ⟨?_, ?_⟩
      · refine blames.early ?_
        rw [joinsAhead]
        exact List.subset_append_right _ _
      · simpa only [joinSources, joinTrails, joinLayouts, List.map_cons, List.map_append,
          List.append_assoc, List.cons_append] using built''
      · rw [joinsAhead, nothing, nothingRest, List.append_nil, List.append_nil, List.filter_eq_nil_iff]
        intro root named
        obtain ⟨trail, member, rfl⟩ := List.mem_map.mp named
        exact fun early => unused trail member (List.contains_iff_mem.mp early)

/-- So do the items of a from-clause. The root of an item is entered before its joins, and these are
lowered before the next item is looked at. -/
theorem spaces_meets (mapped : context.catalog.IsMapped) :
    ∀ (given : List (FromSpace Resolved.Predicate)) {visible rest : List FromNode}
    {outside : List LoweringScope} {missing known firsts reported : List String}
    {trails : List Trail} {layouts : List (List String)} {state : LoweringState},
    Built context roots visible outside (given.flatMap FromSpace.labels) missing known firsts trails
      layouts state →
    Awaits context roots visible missing (spaceSources given) rest outside →
    (known ++ (spaceSources given ++ rest).map (·.label)).Nodup →
    SpacesGrounded context.catalog visible given → Reports missing reported (spaceTrails given) →
      Meets (spaces context given) state (Blames missing reported (spacesAhead given))
        fun _ after => Built context roots visible outside [] missing
          (known ++ (spaceSources given).map (·.label)) (firsts ++ given.map (·.root.label))
          (trails ++ spaceTrails given) (layouts ++ spaceLayouts given) after ∧ spacesAhead given = []
  | [], _, _, _, _, _, _, _, _, _, state, built, _, _, _, _ => by
    rw [spaces]
    simp only [spaceSources, spaceTrails, spaceLayouts, List.map_nil, List.append_nil]
    exact .pure ⟨built, rfl⟩
  | ⟨node, joined⟩ :: others, visible, rest, _, missing, known, firsts, reported, _, _, state, built,
      coming, distinct, grounded, reports => by
    obtain ⟨groundedJoins, groundedRest⟩ := grounded
    rw [spaceTrails, reports_append] at reports
    obtain ⟨reportsJoins, reportsRest⟩ := reports
    have split : Awaits context roots visible missing
        ([node] ++ (joinSources joined ++ spaceSources others)) rest _ := coming
    have splitRest := split.right fun _ _ _ => id
    have laterSources : others.flatMap FromSpace.labels ⊆
        (spaceSources others ++ rest).map (·.label) := by
      rw [List.map_append]
      exact List.subset_append_of_subset_left _ (labels_subset others)
    have ownSources : targetLabels joined ++ others.flatMap FromSpace.labels ⊆
        ((joinSources joined ++ spaceSources others) ++ rest).map (·.label) := by
      rw [List.append_assoc, List.map_append]
      exact append_subset_append (targetLabels_subset joined) laterSources
    have distinctHere : ((known ++ [node.label]) ++
        (joinSources joined ++ (spaceSources others ++ rest)).map (·.label)).Nodup := by
      simpa [spaceSources] using distinct
    have begun : Built context roots visible _ (node.label :: (targetLabels joined ++
        others.flatMap FromSpace.labels)) missing known firsts _ _ state := built
    rw [spaces_cons]
    refine .bind (rootStep_meets mapped begun (split.left.more ownSources)) fun space opened _
      ⟨last, built₁⟩ => ?_
    refine .bind ((joins_meets mapped joined built₁ (splitRest.left.more laterSources) distinctHere last
      groundedJoins reportsJoins).weaken (fun _ blames => ?_) fun _ _ _ good => good)
      fun _ between _ ⟨built₂, nothing⟩ => ?_
    · refine blames.early ?_
      rw [spacesAhead]
      exact List.subset_append_left _ _
    · have distinctRest : (((known ++ [node.label]) ++ (joinSources joined).map (·.label)) ++
          (spaceSources others ++ rest).map (·.label)).Nodup := by
        rwa [List.append_assoc, ← List.map_append]
      refine (spaces_meets mapped others built₂ (splitRest.right fun _ _ _ => id) distinctRest
        groundedRest reportsRest).weaken (fun _ blames => ?_)
        fun _ after _ ⟨built₃, nothingRest⟩ => ⟨?_, ?_⟩
      · refine blames.early ?_
        rw [spacesAhead]
        exact List.subset_append_right _ _
      · simpa [spaceSources, spaceTrails, spaceLayouts] using built₃
      · rw [spacesAhead, nothing, nothingRest, List.append_nil]

/-- A sub-query fails like the predicates in it. -/
theorem subQuery_meets (mapped : context.catalog.IsMapped) :
    ∀ (given : Resolved.Query Resolved.Predicate) {visible rest : List FromNode}
    {missing reported : List String} {state : LoweringState},
    Stage context roots visible missing state →
    Awaits context roots visible missing (querySources given) rest state.scopes →
    QueryGrounded context.catalog (given.elements ++ visible) given →
    Reports missing reported (queryTrails given) →
      Meets (subQuery context given) state (Blames missing reported (queryAhead given))
        fun select after => Settled context roots missing (queryTrails given) (queryLayouts given)
          ((querySources given).map (·.label)) (fun outer => queryLevels outer select.toQuery) after ∧
            queryAhead given = []
  | ⟨items, isDistinct, selections, condition⟩, visible, rest, missing, reported, state, stage, coming,
      grounded, reports => by
    obtain ⟨groundedItems, groundedSpaces, groundedFilter⟩ := grounded
    rw [queryTrails, reports_append, reports_append] at reports
    obtain ⟨⟨reportsSpaces, reportsItems⟩, reportsFilter⟩ := reports
    have inside := coming.inside (Resolved.elements_subset _)
    have distinct := coming.distinct
    have noKeys : Reports missing reported
        (([] : List Resolved.SortKey).flatMap fun key => key.expr.trails) := nofun
    rw [querySources, List.append_assoc] at distinct
    rw [subQuery_eq_selectWith]
    refine (selectWith_meets stage inside (fun _ => label_of_element) fun built =>
      levelBody_meets mapped innerSelection_choosesValues inside
        (spaces_meets mapped items built inside.left distinct groundedSpaces reportsSpaces)
        (fun item listed _ stage reports =>
          innerSelection_meets mapped stage (groundedItems item listed) reports)
        (fun stage coming => filter_meets mapped condition stage coming groundedFilter reportsFilter)
        (List.forall_mem_nil _) (reports_append.mpr ⟨reportsItems, noKeys⟩)).weaken
      (fun _ blames => blames) fun select after _ good => ?_
    rw [queryTrails]
    simpa only [List.flatMap_nil, List.append_nil] using good

end

end ObjectQuery.Lowering

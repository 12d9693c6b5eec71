import ObjectQuery.Proofs.Lowering.Pending
import ObjectQuery.Proofs.Lowering.Route
import ObjectQuery.Proofs.Resolution.Agreement
/-!
# The tables that conditions reach

Lowering a condition raises joins in the levels that are there and opens a level for each sub-select
in it. What comes out is bound: it refers to tables of the levels, its columns are qualified, and its
sub-selects are scoped. The from-clause of a query keeps the level that it fills sound. Each follows
from the other, along the recursion of the lowering.
-/
namespace ObjectQuery.Lowering

open Sql
open Resolved (Segment Reference FromNode filterSources joinSources spaceSources querySources)

variable {context : LoweringContext} {state after : LoweringState}
  {scopes later outer : List LoweringScope} {scope : LoweringScope} {value left right : Sql.Expr}

/-- The expression refers to tables of the levels with columns that are qualified, and so do its
sub-selects, which may also refer to tables of their own levels. -/
structure Bound (scopes : List LoweringScope) (value : Sql.Expr) : Prop where
  references : value.references false ⊆ visible scopes
  qualified : value.IsQualified
  levels : ∀ level ∈ value.levels (visible scopes), level.IsScoped

/-- A value within scopes refers to nothing but their tables. -/
theorem Within.bound (within : Within scopes value) : Bound scopes value :=
  ⟨within.references false, within.qualified, by simp [value.levels_of_isValue within.isValue]⟩

/-- A value bound by scopes is bound by wider ones. -/
theorem Bound.mono (bound : Bound scopes value) (inside : visible scopes ⊆ visible later) :
    Bound later value :=
  ⟨List.Subset.trans bound.references inside, bound.qualified,
    value.levels_widen widening_isScoped inside bound.levels⟩

/-- An operation on bound values is bound. -/
theorem Bound.binary {op : BinaryOp} (boundLeft : Bound scopes left)
    (boundRight : Bound scopes right) : Bound scopes (.binary op left right) := by
  refine ⟨?_, Sql.Expr.isQualified_binary.mpr ⟨boundLeft.qualified, boundRight.qualified⟩, ?_⟩
  · simp only [Sql.Expr.references, List.append_subset]
    exact ⟨boundLeft.references, boundRight.references⟩
  · simp only [Sql.Expr.levels, List.forall_mem_append]
    exact ⟨boundLeft.levels, boundRight.levels⟩

/-- A bound condition is bound when it is negated. -/
theorem Bound.not (bound : Bound scopes value) : Bound scopes (.not value) :=
  ⟨by simpa only [Sql.Expr.references] using bound.references,
    by simpa only [Sql.Expr.IsQualified, Sql.Expr.qualifiers] using bound.qualified,
    by simpa only [Sql.Expr.levels] using bound.levels⟩

/-- A test of a bound expression for null is bound. -/
theorem Bound.isNull (bound : Bound scopes value) (negated : Bool) :
    Bound scopes (.isNull value negated) :=
  ⟨by simpa only [Sql.Expr.references] using bound.references,
    by simpa only [Sql.Expr.IsQualified, Sql.Expr.qualifiers] using bound.qualified,
    by simpa only [Sql.Expr.levels] using bound.levels⟩

/-- A test of a bound expression against a bound pattern is bound. -/
theorem Bound.like {pattern : Sql.Expr} (bound : Bound scopes value)
    (boundPattern : Bound scopes pattern) (negated : Bool) :
    Bound scopes (.like value pattern negated) := by
  refine ⟨?_, ?_, ?_⟩
  · simp only [Sql.Expr.references, List.append_subset]
    exact ⟨bound.references, boundPattern.references⟩
  · simp only [Sql.Expr.IsQualified, Sql.Expr.qualifiers, List.mem_append, not_or]
    exact ⟨bound.qualified, boundPattern.qualified⟩
  · simp only [Sql.Expr.levels, List.forall_mem_append]
    exact ⟨bound.levels, boundPattern.levels⟩

/-- A test of a bound expression against a range with bound ends is bound. -/
theorem Bound.between {low high : Sql.Expr} (bound : Bound scopes value)
    (boundLow : Bound scopes low) (boundHigh : Bound scopes high) (negated : Bool) :
    Bound scopes (.between value low high negated) := by
  refine ⟨?_, ?_, ?_⟩
  · simp only [Sql.Expr.references, List.append_subset]
    exact ⟨⟨bound.references, boundLow.references⟩, boundHigh.references⟩
  · simp only [Sql.Expr.IsQualified, Sql.Expr.qualifiers, List.mem_append, not_or]
    exact ⟨⟨bound.qualified, boundLow.qualified⟩, boundHigh.qualified⟩
  · simp only [Sql.Expr.levels, List.forall_mem_append]
    exact ⟨⟨bound.levels, boundLow.levels⟩, boundHigh.levels⟩

/-- A test of a bound expression against a list of values within the scopes is bound. -/
theorem Bound.inList {values : List Sql.Expr} (bound : Bound scopes value)
    (within : ∀ item ∈ values, Within scopes item) (negated : Bool) :
    Bound scopes (.inList value values negated) := by
  refine ⟨?_, ?_, ?_⟩
  · simp only [Sql.Expr.references, List.append_subset]
    refine ⟨bound.references, fun label mentioned => ?_⟩
    obtain ⟨item, member, named⟩ := mem_listReferences.mp mentioned
    exact (within item member).references false named
  · simp only [Sql.Expr.IsQualified, Sql.Expr.qualifiers, List.mem_append, not_or]
    refine ⟨bound.qualified, fun unqualified => ?_⟩
    obtain ⟨item, member, inside⟩ := mem_listQualifiers.mp unqualified
    exact (within item member).qualified inside
  · simp only [Sql.Expr.levels, List.forall_mem_append]
    refine ⟨bound.levels, ?_⟩
    rw [listLevels_of_areValues values (areValues_iff.mpr fun item member => (within item member).isValue)]
    simp

/-- A test of a bound expression against a query is bound if the query refers to tables of the levels
and all its levels are scoped. -/
theorem Bound.inQuery {query : Query Sql.Expr} (bound : Bound scopes value)
    (references : queryReferences false query ⊆ visible scopes)
    (levels : ∀ level ∈ queryLevels (visible scopes) query, level.IsScoped) (negated : Bool) :
    Bound scopes (.inQuery value query negated) := by
  refine ⟨?_, bound.qualified, ?_⟩
  · simp only [Sql.Expr.references, List.append_subset]
    exact ⟨bound.references, references⟩
  · simp only [Sql.Expr.levels, List.forall_mem_append]
    exact ⟨bound.levels, levels⟩

/-- Conditions that are bound are bound together. -/
theorem bound_conjunction : ∀ {conditions : List Sql.Expr} {whole : Sql.Expr},
    (∀ condition ∈ conditions, Bound scopes condition) →
      Sql.Expr.conjunction conditions = some whole → Bound scopes whole
  | [], _, _, same => by cases same
  | first :: rest, whole, bound, same => by
    obtain ⟨boundFirst, boundRest⟩ := List.forall_mem_cons.mp bound
    obtain rfl := Option.some.inj same
    clear bound same
    induction rest generalizing first with
    | nil => exact boundFirst
    | cons second rest ih =>
      obtain ⟨boundSecond, boundRest⟩ := List.forall_mem_cons.mp boundRest
      exact ih (Sql.Expr.both first second) (boundFirst.binary boundSecond) boundRest

/-- The innermost level is sound, and the groups of the levels around it are coherent. -/
def Standing : List LoweringScope → Prop
  | [] => False
  | scope :: outer => Sound (visible outer) scope ∧ Coherent outer

/-- The visible tables are those of the innermost scope and those around it. -/
theorem visible_cons : visible (scope :: outer) = scope.labels ++ visible outer := rfl

/-- The groups of standing scopes are coherent. -/
theorem Standing.coherent (standing : Standing scopes) : Coherent scopes := by
  cases scopes with
  | nil => exact standing.elim
  | cons scope outer =>
    intro given member
    rcases List.mem_cons.mp member with rfl | further
    · exact standing.1.coherent
    · exact standing.2 given further

/-- Joins that paths ask for leave the innermost level sound. -/
theorem Standing.grows (standing : Standing scopes) (grows : Grows context scopes later) :
    Standing later := by
  cases scopes with
  | nil => exact standing.elim
  | cons scope outer =>
    obtain ⟨scope', outer', rfl, widened, grown⟩ := grows.cons_cases
    exact ⟨(standing.1.widen grown.visible_subset).widened widened, grown.coherent standing.2⟩

/-- Where there is no level, nothing can be joined. -/
theorem Grows.nil (grows : Grows context [] later) : later = [] := by
  cases grows.cases_head with
  | inl same => exact same.symm
  | inr further =>
    obtain ⟨_, ⟨located, _⟩, _⟩ := further
    simp [locate?] at located

/-- The scopes around the innermost one grow along. -/
theorem Grows.tail (grows : Grows context scopes later) : Grows context scopes.tail later.tail := by
  cases scopes with
  | nil => exact grows.nil ▸ .refl
  | cons scope outer =>
    obtain ⟨scope', outer', rfl, _, grown⟩ := grows.cons_cases
    exact grown

/-- Joins that paths ask for open no spaces. -/
theorem spaces_length_of_widened {scope' : LoweringScope}
    (widened : Relation.ReflTransGen (Widens context) scope scope') :
    scope'.spaces.length = scope.spaces.length := by
  induction widened with
  | refl => rfl
  | tail _ widens ih =>
    obtain ⟨known, raised⟩ := widens
    simpa [LoweringScope.addJoin, LoweringScope.addGroup] using ih

/-- Following a path of to-one steps makes the scopes grow. -/
theorem toOneJoins_grows : ∀ (path : List String) {owner name : String}
    {state after : LoweringState},
    Yields (path.foldlM (toOneJoin context) owner) state name after →
      Grows context state.scopes after.scopes
  | [], owner, name, state, after, run => by
    obtain ⟨rfl, rfl⟩ := yields_foldlM_nil.mp run
    exact .refl
  | label :: rest, owner, name, state, after, run => by
    obtain ⟨next, between, first, further⟩ := yields_foldlM_cons.mp run
    exact (toOneJoin_grows first).trans (toOneJoins_grows rest further)

/-- A column of a table that is visible compared with a column of a target is about the levels and
the target, and has no sub-selects. -/
theorem equals_target {target : TableGroup} {column : String} (within : Within scopes value) :
    (value.equals (.tableColumn target.root.label column)).references false ⊆
        target.labels ++ visible scopes ∧
      (value.equals (.tableColumn target.root.label column)).IsQualified ∧
      ∀ outer, (value.equals (.tableColumn target.root.label column)).levels outer = [] := by
  refine ⟨?_, ?_, ?_⟩
  · simp only [Sql.Expr.equals, Sql.Expr.references, Sql.Expr.tableColumn, List.append_subset]
    refine ⟨List.subset_append_of_subset_right _ (within.references false), ?_⟩
    simpa using Or.inl TableGroup.root_mem_labels
  · exact Sql.Expr.isQualified_binary.mpr ⟨within.qualified, Sql.Expr.isQualified_tableColumn⟩
  · intro outer
    simp [Sql.Expr.equals, Sql.Expr.levels, Sql.Expr.tableColumn,
      value.levels_of_isValue within.isValue]

/-- The condition that a join implies is about the tables of the levels and of its target. -/
theorem impliedCondition_bound {origin : FromOrigin} {target : TableGroup}
    {condition : Option Sql.Expr} (coherent : Coherent state.scopes)
    (run : Yields (impliedCondition context origin target) state condition after) :
    Grows context state.scopes after.scopes ∧
      ∀ given ∈ condition, given.references false ⊆ target.labels ++ visible after.scopes ∧
        given.IsQualified ∧ ∀ outer, given.levels outer = [] := by
  cases origin with
  | root | entityJoin =>
    obtain ⟨rfl, rfl⟩ := yields_pure.mp run
    exact ⟨.refl, by simp⟩
  | pathJoin owner path plural =>
    simp only [impliedCondition, yields_bind, yields_pure] at run
    obtain ⟨joined, _, run, rfl, rfl⟩ := run
    simp only [Option.mem_some, forall_eq']
    unfold associationCondition at run
    split at run
    · simp at run
    · rename_i last _
      simp only [yields_bind] at run
      obtain ⟨reached, _, walked, ownerGroup, _, found, run⟩ := run
      have grows := toOneJoins_grows path.dropLast walked
      obtain ⟨rfl, level, space, located⟩ := yields_group.mp found
      obtain ⟨_, within⟩ := within_key (grows.coherent coherent) found
      split at run
      · simp only [yields_bind, yields_lift, yields_pure] at run
        obtain ⟨mapping, _, ⟨_, rfl⟩, rfl, rfl⟩ := run
        exact ⟨grows, equals_target within⟩
      · simp only [yields_bind, yields_lift, yields_pure] at run
        obtain ⟨foreignKey, _, ⟨stored, rfl⟩, rfl, rfl⟩ := run
        exact ⟨grows, equals_target (within_column (grows.coherent coherent) located stored)⟩

/-- The rules that the joins of a list obey, with all names of the list. -/
theorem references_of_eachJoin {joins : List (Join Sql.Expr)} {enclosing : List String}
    (each : EachJoin Reaches enclosing joins) {join : Join Sql.Expr} (member : join ∈ joins) :
    join.references false ⊆ joinLabels joins ++ enclosing := by
  induction joins generalizing enclosing with
  | nil => simp at member
  | cons first rest ih =>
    intro label mentioned
    rw [joinLabels_cons]
    rcases List.mem_cons.mp member with rfl | further
    · rcases each.1 label mentioned with known | ahead
      · rcases List.mem_append.mp known with around | own
        · simp [around]
        · simp [own]
      · simp [ahead.mem]
    · have := ih each.2 further mentioned
      simp only [List.mem_append] at this ⊢
      rcases this with later | around | own
      · exact Or.inl (Or.inr later)
      · exact Or.inr around
      · exact Or.inl (Or.inl own)

/-- A query over the spaces of a sound level, with bound expressions, refers to tables around it,
and it is scoped at all its levels.

Proof: everything that a part refers to is either a table of the level or a table around it, and the
query takes its own tables out of what it refers to. Its joins reach their tables because the level
is sound. -/
theorem query_bound {select : Select} (sound : Sound (visible outer) scope)
    (spaces : select.spaces = scope.spaces)
    (chosen : ∀ selection ∈ select.selections, Bound (scope :: outer) selection.expr)
    (filtered : ∀ condition ∈ select.filter, Bound (scope :: outer) condition)
    (sorted : ∀ key ∈ select.order, Bound (scope :: outer) key.expr) :
    queryReferences false select.toQuery ⊆ visible outer ∧
      ∀ level ∈ queryLevels (visible outer) select.toQuery, level.IsScoped := by
  have labels : select.toQuery.labels = joinLabels (entries scope.spaces) := by
    rw [labels_toQuery, spaces]
  have inside : visible (scope :: outer) ⊆ select.toQuery.labels ++ visible outer := by
    rw [labels, visible_cons]
    exact append_subset_append sound.labels_subset (List.Subset.refl _)
  have own {join : Join Sql.Expr} (member : join ∈ select.toQuery.joins) :
      join ∈ entries scope.spaces := spaces ▸ mem_joins member
  have qualifies {value : Sql.Expr} (bound : Bound (scope :: outer) value) :
      ∀ qualifier ∈ value.qualifiers,
        ∃ table ∈ select.toQuery.labels ++ visible outer, qualifier = some table :=
    bound.qualified.tables (List.Subset.trans bound.references inside)
  refine ⟨?_, forall_queryLevels.mpr ⟨⟨?_, ?_⟩, ?_, ?_, ?_, ?_⟩⟩
  · intro label mentioned
    obtain ⟨mentioned, foreign⟩ := mem_queryReferences.mp mentioned
    have known : label ∈ select.toQuery.labels ++ visible outer := by
      rcases mentioned with inSelection | inJoin | inFilter | inOrder
      · obtain ⟨selection, member, named⟩ := mem_selectionReferences.mp inSelection
        exact inside ((chosen selection member).references named)
      · obtain ⟨join, member, named⟩ := mem_joinReferences.mp inJoin
        rw [labels]
        exact references_of_eachJoin sound.ordered (own member) named
      · cases given : select.filter with
        | none => simp [Select.toQuery, given, conditionReferences] at inFilter
        | some condition =>
          simp only [Select.toQuery, given, conditionReferences] at inFilter
          exact inside ((filtered condition given).references inFilter)
      · obtain ⟨key, member, named⟩ := mem_sortReferences.mp inOrder
        exact inside ((sorted key member).references named)
    exact (List.mem_append.mp known).resolve_left foreign
  · exact eachJoin_toQuery (spaces ▸ sound.ordered)
  · intro qualifier member
    simp only [Query.qualifiers, List.mem_append, List.mem_flatMap, Option.mem_toList] at member
    rcases member with (⟨selection, listed, own⟩ | ⟨condition, given, own⟩) | ⟨key, listed, own⟩
    · exact qualifies (chosen selection listed) qualifier own
    · exact qualifies (filtered condition given) qualifier own
    · exact qualifies (sorted key listed) qualifier own
  · refine forall_selectionLevels.mpr fun selection member => ?_
    exact selection.expr.levels_widen widening_isScoped inside (chosen selection member).levels
  · refine forall_joinLevels.mpr fun join member => ?_
    rw [labels]
    exact sound.nested join (own member)
  · cases given : select.filter with
    | none => simp [Select.toQuery, given, conditionLevels]
    | some condition =>
      simp only [Select.toQuery, given, conditionLevels]
      exact condition.levels_widen widening_isScoped inside (filtered condition given).levels
  · refine forall_sortLevels.mpr fun key member => ?_
    exact key.expr.levels_widen widening_isScoped inside (sorted key member).levels

/-- A run that raises joins and gives a condition that is bound in the end. -/
structure LoweredCondition (context : LoweringContext) (state : LoweringState)
    (condition : Sql.Expr) (after : LoweringState) : Prop where
  grows : Grows context state.scopes after.scopes
  bound : Bound after.scopes condition

/-- A lowered value is a lowered condition. -/
theorem Lowered.condition (lowered : Lowered context state value after) :
    LoweredCondition context state value after := ⟨lowered.grows, lowered.within.bound⟩

/-- The query for the keys of the elements of a collection is about the owner of the collection. -/
theorem memberOf_lowered {element : Resolved.Expr} {collection : Reference Resolved.Expr}
    {negated : Bool} (coherent : Coherent state.scopes)
    (run : Yields (memberOf context element collection negated) state value after) :
    LoweredCondition context state value after := by
  simp only [memberOf, yields_bind] at run
  obtain ⟨test, tested, ranTest, owner, walked, ranPath, run⟩ := run
  have loweredTest := expr_lowered element coherent ranTest
  have coherent' := loweredTest.grows.coherent coherent
  have walk := navigate_grows collection.init collection.source coherent' ranPath
  split at run
  · simp only [yields_bind, yields_lift, yields_pure] at run
    obtain ⟨ownerGroup, _, found, mapping, _, ⟨_, rfl⟩, elementTable, _, ⟨_, rfl⟩, rfl, rfl⟩ := run
    obtain ⟨rfl, within⟩ := within_key (walk.coherent coherent') found
    have tested := (loweredTest.within.mono walk).bound
    refine ⟨loweredTest.grows.trans walk, tested.inQuery ?_ ?_ negated⟩
    · intro label mentioned
      have key := within.references false
      simp only [TableGroup.key_references] at key
      rw [mem_queryReferences] at mentioned
      simp only [selectionReferences, joinReferences, conditionReferences, sortReferences,
        Sql.Expr.equals, Sql.Expr.tableColumn, Sql.Expr.references, TableGroup.key_references,
        Query.labels, TableSpec.toRef_label, joinLabels, List.filterMap_nil, List.append_nil,
        Option.bind_some, Option.toList_some, List.mem_append, List.mem_singleton,
        List.not_mem_nil, or_false, false_or] at mentioned
      obtain ⟨own | own | owned, foreign⟩ := mentioned
      · exact (foreign own).elim
      · exact (foreign own).elim
      · exact key (by simp [owned])
    · refine forall_queryLevels.mpr ⟨⟨trivial, ?_⟩, ?_, ?_, ?_, ?_⟩
      · intro qualifier member
        have owned := within.qualified.tables (within.references false) qualifier
        have own : qualifier = some (TableGroup.tableLabel (owner ++ "." ++
            collection.last.label) 0) ∨ qualifier ∈ ownerGroup.key.qualifiers := by
          simpa [Query.qualifiers, Sql.Expr.equals, Sql.Expr.tableColumn, Sql.Expr.qualifiers]
            using member
        rcases own with own | inKey
        · refine ⟨_, List.mem_append_left _ ?_, own⟩
          simp [Query.labels, TableSpec.toRef_label]
        · obtain ⟨table, known, same⟩ := owned inKey
          exact ⟨table, List.mem_append_right _ known, same⟩
      · simp [selectionLevels, Sql.Expr.levels, Sql.Expr.tableColumn]
      · simp [joinLevels]
      · simp [conditionLevels, Sql.Expr.levels, Sql.Expr.equals, Sql.Expr.tableColumn,
          TableGroup.key]
      · simp [sortLevels]
  · simp at run

/-- A source is a coherent group whose tables are named after it. -/
theorem sourceGroup_ok {node : FromNode} {group : TableGroup}
    (built : sourceGroup context node = .ok group) : group.Coherent ∧ group.Named := by
  unfold sourceGroup at built
  split at built
  · exact ⟨tableGroup_coherent built, tableGroup_named built⟩
  · cases built

/-- The group of a source has its label. -/
theorem sourceGroup_label {node : FromNode} {group : TableGroup}
    (built : sourceGroup context node = .ok group) : group.label = node.label := by
  unfold sourceGroup at built
  split at built
  · exact tableGroup_label built
  · cases built

/-- A join in SQL is of its target. Its condition is the given one, or one that always holds. -/
theorem joinOf_ok {kind : JoinKind} {target : TableGroup} {condition : Option Sql.Expr}
    {join : GroupJoin} (built : joinOf kind target condition = .ok join) :
    join.group = target ∧
      (join.condition = condition ∨ join.condition = some (.literal (.boolean true))) := by
  unfold joinOf at built
  split at built <;> rw [groupJoin_ok built] <;> simp

/-- The join takes its place in the level with the condition that has been lowered for it. -/
theorem Pending.join {target : TableGroup} {space count : Nat} {kind : JoinKind}
    {conditions : List Sql.Expr} {join : GroupJoin}
    (pending : Pending (visible outer) target space count scope) (coherent : target.Coherent)
    (named : target.Named) (written : isImplicit target.label = false)
    (bound : ∀ condition ∈ conditions, Bound (scope :: outer) condition)
    (built : joinOf kind target (Sql.Expr.conjunction conditions) = .ok join) :
    Sound (visible outer) (scope.insertJoin space count join) := by
  obtain ⟨rfl, condition⟩ := joinOf_ok built
  have joined : ∀ given ∈ join.condition, Bound (scope :: outer) given := by
    intro given stored
    rcases condition with conjunction | always
    · exact bound_conjunction bound (conjunction ▸ stored)
    · obtain rfl : given = .literal (.boolean true) := by
        simpa [always, eq_comm] using stored
      exact ⟨by simp [Sql.Expr.references], Sql.Expr.isQualified_literal,
        by simp [Sql.Expr.levels]⟩
  change Sound _ (scope.insertJoin space count ⟨join.kind, join.group, join.condition⟩)
  refine pending.close coherent named written ?_ ?_
  · cases given : join.condition with
    | none => simp [conditionReferences]
    | some condition => exact (joined condition given).references
  · cases given : join.condition with
    | none => simp [conditionLevels]
    | some condition => exact (joined condition given).levels

/-- All items of a select list are bound. -/
def BoundItems (scopes : List LoweringScope) (chosen : List (Sql.Selection Sql.Expr)) : Prop :=
  ∀ selection ∈ chosen, Bound scopes selection.expr

/-- Bound selections stay bound in wider scopes. -/
theorem BoundItems.mono {chosen : List (Sql.Selection Sql.Expr)} (bound : BoundItems scopes chosen)
    (inside : visible scopes ⊆ visible later) : BoundItems later chosen :=
  fun selection member => (bound selection member).mono inside

/-- Steps that give bound items give a bound select list. -/
theorem selections_lowered
    {step : Resolved.Selection → Lowering (List (Sql.Selection Sql.Expr))}
    (lowers : ∀ item {state after : LoweringState} {chosen : List (Sql.Selection Sql.Expr)},
      Coherent state.scopes → Yields (step item) state chosen after →
        Grows context state.scopes after.scopes ∧ BoundItems after.scopes chosen)
    (items : List Resolved.Selection) {chosen : List (List (Sql.Selection Sql.Expr))}
    (coherent : Coherent state.scopes) (run : Yields (items.mapM step) state chosen after) :
    Grows context state.scopes after.scopes ∧ BoundItems after.scopes chosen.flatten := by
  obtain ⟨grows, bound⟩ := mapM_grows BoundItems
    (fun grows bound => bound.mono (Grows.visible_subset grows)) lowers items coherent run
  refine ⟨grows, ?_⟩
  intro selection member
  obtain ⟨part, listed, inPart⟩ := List.mem_flatten.mp member
  exact bound part listed selection inPart

/-- A selection of a sub-query is lowered to a bound one. -/
theorem innerSelection_lowered (given : Resolved.Selection) {state after : LoweringState}
    {chosen : List (Sql.Selection Sql.Expr)} (coherent : Coherent state.scopes)
    (run : Yields (innerSelection context given) state chosen after) :
    Grows context state.scopes after.scopes ∧ BoundItems after.scopes chosen := by
  simp only [innerSelection, yields_bind, yields_pure] at run
  obtain ⟨value, _, ran, rfl, rfl⟩ := run
  have lowered := expr_lowered given.expr coherent ran
  exact ⟨lowered.grows, List.forall_mem_singleton.mpr lowered.within.bound⟩

mutual

/-- A predicate raises joins and gives a condition that is bound.

Proof: by recursion over the predicate. The parts are lowered one after the other, so what the first
refers to is still visible when the later ones have raised their joins. -/
theorem predicate_lowered : ∀ (given : Resolved.Predicate) {state after : LoweringState}
    {condition : Sql.Expr}, Coherent state.scopes →
      (∀ source ∈ given.sources, IsPlainName source.label) →
        Yields (predicate context given) state condition after →
          LoweredCondition context state condition after
  | .and left right, state, after, condition, coherent, plain, run
  | .or left right, state, after, condition, coherent, plain, run => by
    simp only [predicate, yields_bind, yields_pure] at run
    obtain ⟨first, between, ranLeft, second, _, ranRight, rfl, rfl⟩ := run
    obtain ⟨plainLeft, plainRight⟩ := List.forall_mem_append.mp plain
    have loweredLeft := predicate_lowered left coherent plainLeft ranLeft
    have loweredRight := predicate_lowered right (loweredLeft.grows.coherent coherent) plainRight
      ranRight
    exact ⟨loweredLeft.grows.trans loweredRight.grows,
      (loweredLeft.bound.mono loweredRight.grows.visible_subset).binary loweredRight.bound⟩
  | .not operand, state, after, condition, coherent, plain, run => by
    simp only [predicate, yields_bind, yields_pure] at run
    obtain ⟨inner, _, ran, rfl, rfl⟩ := run
    have lowered := predicate_lowered operand coherent plain ran
    exact ⟨lowered.grows, lowered.bound.not⟩
  | .compare op left right, state, after, condition, coherent, plain, run => by
    simp only [predicate, yields_bind, yields_pure] at run
    obtain ⟨first, between, ranLeft, second, _, ranRight, rfl, rfl⟩ := run
    have loweredLeft := expr_lowered left coherent ranLeft
    have loweredRight := expr_lowered right (loweredLeft.grows.coherent coherent) ranRight
    exact ⟨loweredLeft.grows.trans loweredRight.grows,
      (loweredLeft.within.mono loweredRight.grows).bound.binary loweredRight.within.bound⟩
  | .inList test values negated, state, after, condition, coherent, plain, run => by
    simp only [predicate, yields_bind, yields_pure] at run
    obtain ⟨first, between, ranTest, others, _, ranValues, rfl, rfl⟩ := run
    have loweredTest := expr_lowered test coherent ranTest
    have loweredValues := exprs_lowered values (loweredTest.grows.coherent coherent) ranValues
    exact ⟨loweredTest.grows.trans loweredValues.1,
      (loweredTest.within.mono loweredValues.1).bound.inList loweredValues.2 negated⟩
  | .inQuery test query negated, state, after, condition, coherent, plain, run => by
    simp only [predicate, yields_bind, yields_pure] at run
    obtain ⟨first, between, ranTest, select, _, ranQuery, rfl, rfl⟩ := run
    have loweredTest := expr_lowered test coherent ranTest
    obtain ⟨grows, references, levels⟩ :=
      subQuery_lowered query (loweredTest.grows.coherent coherent) plain ranQuery
    exact ⟨loweredTest.grows.trans grows,
      (loweredTest.within.mono grows).bound.inQuery references levels negated⟩
  | .memberOf element collection negated, state, after, condition, coherent, plain, run => by
    simp only [predicate] at run
    exact memberOf_lowered coherent run
  | .isNull operand negated, state, after, condition, coherent, plain, run => by
    simp only [predicate, yields_bind, yields_pure] at run
    obtain ⟨inner, _, ran, rfl, rfl⟩ := run
    have lowered := expr_lowered operand coherent ran
    exact ⟨lowered.grows, lowered.within.bound.isNull negated⟩
  | .like operand pattern negated, state, after, condition, coherent, plain, run => by
    simp only [predicate, yields_bind, yields_pure] at run
    obtain ⟨first, between, ranOperand, second, _, ranPattern, rfl, rfl⟩ := run
    have loweredOperand := expr_lowered operand coherent ranOperand
    have loweredPattern := expr_lowered pattern (loweredOperand.grows.coherent coherent) ranPattern
    exact ⟨loweredOperand.grows.trans loweredPattern.grows,
      (loweredOperand.within.mono loweredPattern.grows).bound.like loweredPattern.within.bound negated⟩
  | .between operand low high negated, state, after, condition, coherent, plain, run => by
    simp only [predicate, yields_bind, yields_pure] at run
    obtain ⟨first, _, ranOperand, second, _, ranLow, third, _, ranHigh, rfl, rfl⟩ := run
    have loweredOperand := expr_lowered operand coherent ranOperand
    have coherentLow := loweredOperand.grows.coherent coherent
    have loweredLow := expr_lowered low coherentLow ranLow
    have loweredHigh := expr_lowered high (loweredLow.grows.coherent coherentLow) ranHigh
    have boundOperand := ((loweredOperand.within.mono loweredLow.grows).mono loweredHigh.grows).bound
    have boundLow := (loweredLow.within.mono loweredHigh.grows).bound
    exact ⟨(loweredOperand.grows.trans loweredLow.grows).trans loweredHigh.grows,
      boundOperand.between boundLow loweredHigh.within.bound negated⟩

/-- So does a condition, if there is one. -/
theorem filter_lowered : ∀ (given : Option Resolved.Predicate) {state after : LoweringState}
    {condition : Option Sql.Expr}, Coherent state.scopes →
      (∀ source ∈ filterSources given, IsPlainName source.label) →
        Yields (filter context given) state condition after →
          Grows context state.scopes after.scopes ∧ ∀ value ∈ condition, Bound after.scopes value
  | none, state, after, condition, coherent, plain, run => by
    simp only [filter, yields_pure] at run
    obtain ⟨rfl, rfl⟩ := run
    exact ⟨.refl, by simp⟩
  | some given, state, after, condition, coherent, plain, run => by
    simp only [filter, yields_bind, yields_pure] at run
    obtain ⟨value, _, ran, rfl, rfl⟩ := run
    have lowered := predicate_lowered given coherent plain ran
    refine ⟨lowered.grows, ?_⟩
    rintro _ ⟨⟩
    exact lowered.bound

/-- The joins of the last space keep the innermost level sound. -/
theorem joins_lowered : ∀ (given : List (Resolved.Join Resolved.Predicate))
    {state after : LoweringState} {scope : LoweringScope} {outer : List LoweringScope}
    {space : Nat} {done : Unit}, state.scopes = scope :: outer → Standing state.scopes →
      space + 1 = scope.spaces.length → (∀ source ∈ joinSources given, IsPlainName source.label) →
        Yields (joins context space given) state done after →
          Standing after.scopes ∧ Grows context outer after.scopes.tail
  | [], state, after, scope, outer, space, done, levels, standing, last, plain, run => by
    simp only [joins, yields_pure] at run
    obtain ⟨_, rfl⟩ := run
    exact ⟨standing, by simpa [levels] using .refl⟩
  | ⟨kind, _, node, condition⟩ :: rest, state, after, scope, outer, space, done, levels, standing,
      last, plain, run => by
    simp only [joins, yields_bind, yields_lift, yields_changeScope, yields_currentScope] at run
    obtain ⟨target, _, ⟨built, rfl⟩, implied, reached, ranImplied, _, _,
      ⟨scope₁, outer₁, levels₁, rfl⟩, before, _, ⟨rfl, _, same⟩, given, filtered, ranGiven, join,
      _, ⟨joined, rfl⟩, _, _, ⟨scope₂, outer₂, levels₂, rfl⟩, ranRest⟩ := run
    obtain ⟨plainTarget, plainMore⟩ := List.forall_mem_cons.mp plain
    obtain ⟨plainCondition, plainRest⟩ := List.forall_mem_append.mp plainMore
    obtain ⟨targetCoherent, named⟩ := sourceGroup_ok built
    have written : isImplicit target.label = false :=
      sourceGroup_label built ▸ isImplicit_of_isPlainName plainTarget
    obtain ⟨grows₁, boundImplied⟩ := impliedCondition_bound standing.coherent ranImplied
    have standing₁ := standing.grows grows₁
    rw [levels₁] at standing₁ boundImplied
    rw [levels, levels₁] at grows₁
    obtain ⟨_, _, here₁, widened₁, grown₁⟩ := grows₁.cons_cases
    obtain ⟨rfl, rfl⟩ := List.cons.inj here₁
    have last₁ := last.trans (spaces_length_of_widened widened₁).symm
    obtain ⟨rfl, rfl⟩ := List.cons.inj same
    -- The target is known from here on, and its place is behind the joins that are there now.
    have pending := standing₁.1.pending last₁ targetCoherent named
    have coherent : Coherent (scope₁.addGroup space target :: outer₁) := by
      refine List.forall_mem_cons.mpr ⟨?_, standing₁.2⟩
      exact List.forall_mem_cons.mpr ⟨targetCoherent, standing₁.1.coherent⟩
    obtain ⟨grows₂, boundGiven⟩ := filter_lowered condition coherent plainCondition ranGiven
    rw [levels₂] at grows₂ boundGiven
    have known : visible (scope₁.addGroup space target :: outer₁) ⊆ visible (scope₂ :: outer₂) :=
      grows₂.visible_subset
    obtain ⟨_, _, here₂, widened₂, grown₂⟩ := grows₂.cons_cases
    obtain ⟨rfl, rfl⟩ := List.cons.inj here₂
    have pending₂ := (pending.widen grown₂.visible_subset).widened widened₂
    have bound : ∀ condition ∈ implied.toList ++ given.toList,
        Bound (scope₂ :: outer₂) condition := by
      intro condition member
      rcases List.mem_append.mp member with isImplied | isGiven
      · obtain ⟨references, qualified, noLevels⟩ :=
          boundImplied condition (Option.mem_toList.mp isImplied)
        refine ⟨List.Subset.trans references ?_, qualified, by simp [noLevels]⟩
        rw [visible_cons, ← List.append_assoc]
        exact known
      · exact boundGiven condition (Option.mem_toList.mp isGiven)
    have sound := pending₂.join targetCoherent named written bound joined
    have last₂ : space + 1 =
        (scope₂.insertJoin space (scope₁.joinCount space) join).spaces.length := by
      simpa [LoweringScope.insertJoin] using pending₂.last
    have standing₂ : Standing (scope₂.insertJoin space (scope₁.joinCount space) join :: outer₂) :=
      ⟨sound, grown₂.coherent standing₁.2⟩
    obtain ⟨standing₃, grown₃⟩ := joins_lowered rest rfl standing₂ last₂ plainRest ranRest
    exact ⟨standing₃, (grown₁.trans grown₂).trans grown₃⟩

/-- The spaces of a from-clause keep the innermost level sound. -/
theorem spaces_lowered : ∀ (given : List (Resolved.FromSpace Resolved.Predicate))
    {state after : LoweringState} {done : Unit}, Standing state.scopes →
      (∀ source ∈ spaceSources given, IsPlainName source.label) →
        Yields (spaces context given) state done after →
          Standing after.scopes ∧ Grows context state.scopes.tail after.scopes.tail
  | [], state, after, done, standing, plain, run => by
    simp only [spaces, yields_pure] at run
    obtain ⟨_, rfl⟩ := run
    exact ⟨standing, .refl⟩
  | ⟨node, joined⟩ :: rest, state, after, done, standing, plain, run => by
    obtain ⟨_, plainMore⟩ := List.forall_mem_cons.mp plain
    obtain ⟨plainJoins, plainRest⟩ := List.forall_mem_append.mp plainMore
    simp only [spaces, yields_bind, yields_lift, yields_changeScope, yields_currentScope] at run
    obtain ⟨root, _, ⟨built, rfl⟩, before, _, ⟨rfl, _, same⟩, _, _, ⟨scope, outer, levels, rfl⟩, _,
      between, ranJoins, ranRest⟩ := run
    rw [levels] at standing same
    obtain ⟨rfl, rfl⟩ := List.cons.inj same
    have sound := standing.1.addSpace (sourceGroup_ok built).1
    have last : scope.spaces.length + 1 = (scope.addSpace root).spaces.length := by
      simp [LoweringScope.addSpace]
    have start : Standing (scope.addSpace root :: outer) := ⟨sound, standing.2⟩
    obtain ⟨standing₁, grown₁⟩ := joins_lowered joined rfl start last plainJoins ranJoins
    obtain ⟨standing₂, grown₂⟩ := spaces_lowered rest standing₁ plainRest ranRest
    exact ⟨standing₂, by simpa [levels] using grown₁.trans grown₂⟩

/-- A sub-query raises joins around it, refers to tables around it, and is scoped at all its
levels. -/
theorem subQuery_lowered : ∀ (given : Resolved.Query Resolved.Predicate)
    {state after : LoweringState} {select : Select}, Coherent state.scopes →
      (∀ source ∈ querySources given, IsPlainName source.label) →
        Yields (subQuery context given) state select after →
          Grows context state.scopes after.scopes ∧
            queryReferences false select.toQuery ⊆ visible after.scopes ∧
            ∀ level ∈ queryLevels (visible after.scopes) select.toQuery, level.IsScoped
  | ⟨items, distinct, selections, condition⟩, state, after, select, coherent, plain, run => by
    obtain ⟨plainSpaces, plainFilter⟩ := List.forall_mem_append.mp plain
    simp only [subQuery, yields_bind, yields_pure] at run
    obtain ⟨⟨⟨chosen, condition⟩, scope⟩, _, ranScope, rfl, rfl⟩ := run
    obtain ⟨inner, ran, levels, _⟩ := yields_inScope.mp ranScope
    simp only [yields_bind, yields_pure] at ran
    obtain ⟨_, opened, ranSpaces, selected, between, ranSelections, filtered, _, ranFilter, same,
      rfl⟩ := ran
    obtain ⟨rfl, rfl⟩ := Prod.mk.inj same
    have start : Standing (LoweringScope.empty :: state.scopes) := ⟨sound_empty, coherent⟩
    obtain ⟨standing₁, grown₁⟩ := spaces_lowered items start plainSpaces ranSpaces
    obtain ⟨grows₂, boundSelections⟩ := selections_lowered innerSelection_lowered selections
      standing₁.coherent ranSelections
    have standing₂ := standing₁.grows grows₂
    obtain ⟨grows₃, boundFilter⟩ := filter_lowered _ standing₂.coherent plainFilter ranFilter
    have standing₃ := standing₂.grows grows₃
    rw [levels] at standing₃ boundFilter
    have grown := (grown₁.trans grows₂.tail).trans grows₃.tail
    rw [levels] at grown
    have boundChosen := boundSelections.mono grows₃.visible_subset
    rw [levels] at boundChosen
    exact ⟨grown, query_bound standing₃.1 rfl boundChosen boundFilter (by simp)⟩

end

end ObjectQuery.Lowering

import ObjectQuery.Proofs.Lowering.Scoping
/-!
# The levels of whole statements

A statement is lowered like the queries in it, with sort keys for a query and with a level of one
table for a change. All its levels are scoped, and a change refers to its own table.
-/
namespace ObjectQuery.Lowering

open Sql
open Resolved (FromNode filterSources querySources)

variable {context : LoweringContext} {state after : LoweringState}

/-- A selection is lowered to columns of tables in scope. -/
theorem topSelection_lowered (given : Resolved.Selection) {state after : LoweringState}
    {chosen : List (Sql.Selection Sql.Expr)} (coherent : Coherent state.scopes)
    (run : Yields (topSelection context given) state chosen after) :
    Grows context state.scopes after.scopes ∧ BoundItems after.scopes chosen := by
  have single {chosen : List (Sql.Selection Sql.Expr)} {after : LoweringState}
      (run : Yields (topSelection.single context given) state chosen after) :
      Grows context state.scopes after.scopes ∧ BoundItems after.scopes chosen := by
    simp only [topSelection.single, yields_bind, yields_pure] at run
    obtain ⟨value, _, ran, rfl, rfl⟩ := run
    have lowered := expr_lowered given.expr coherent ran
    exact ⟨lowered.grows, List.forall_mem_singleton.mpr lowered.within.bound⟩
  have columns {group : TableGroup} {between : LoweringState} (coherent : group.Coherent)
      (labels : group.labels ⊆ visible between.scopes)
      (run : Yields (topSelection.columns group) between chosen after) :
      after = between ∧ BoundItems after.scopes chosen := by
    simp only [topSelection.columns, yields_pure] at run
    obtain ⟨rfl, rfl⟩ := run
    refine ⟨rfl, ?_⟩
    intro selection member
    obtain ⟨column, listed, rfl⟩ := List.mem_map.mp member
    obtain ⟨table, named, name, rfl⟩ := coherent.allColumns listed
    exact (within_tableColumn (labels named)).bound
  unfold topSelection at run
  split at run
  · simp only [yields_bind] at run
    obtain ⟨group, _, found, run⟩ := run
    obtain ⟨rfl, level, space, located⟩ := yields_group.mp found
    obtain ⟨groupCoherent, labels⟩ := located_group coherent located
    obtain ⟨rfl, bound⟩ := columns groupCoherent labels run
    exact ⟨.refl, bound⟩
  · split at run
    · simp only [yields_bind] at run
      obtain ⟨group, between, found, run⟩ := run
      obtain ⟨grows, groupCoherent, labels⟩ := pathGroup_lowered coherent found
      obtain ⟨rfl, bound⟩ := columns groupCoherent labels run
      exact ⟨grows, bound⟩
    · exact single run
  · exact single run

/-- Sort keys are lowered to columns of tables in scope. -/
theorem sortKeys_lowered (keys : List Resolved.SortKey) {sorted : List (Sql.SortKey Sql.Expr)}
    (coherent : Coherent state.scopes) (run : Yields (keys.mapM (sortKey context)) state sorted after) :
    Grows context state.scopes after.scopes ∧ ∀ key ∈ sorted, Bound after.scopes key.expr := by
  refine mapM_grows (fun scopes (key : Sql.SortKey Sql.Expr) => Bound scopes key.expr)
    (fun grows bound => bound.mono (Grows.visible_subset grows)) ?_ keys coherent run
  intro key state after value coherent run
  simp only [sortKey, yields_bind, yields_pure] at run
  obtain ⟨lowered, _, ran, rfl, rfl⟩ := run
  have lowered := expr_lowered key.expr coherent ran
  exact ⟨lowered.grows, lowered.within.bound⟩

/-- The query of a whole statement is scoped at all its levels, and leaves no level behind. -/
theorem select_scoped {query : Resolved.QuerySpec} {order : List Resolved.SortKey}
    {select : Select} {count : Nat}
    (plain : ∀ source ∈ querySources query, IsPlainName source.label)
    (run : Yields (Lowering.select context query order) ⟨[], count⟩ select after) :
    after.scopes = [] ∧ ∀ level ∈ queryLevels [] select.toQuery, level.IsScoped := by
  obtain ⟨items, isDistinct, selections, filter⟩ := query
  obtain ⟨plainSpaces, plainFilter⟩ := List.forall_mem_append.mp plain
  simp only [Lowering.select, yields_bind, yields_pure] at run
  obtain ⟨⟨⟨chosen, condition, keys⟩, scope⟩, _, ranScope, rfl, rfl⟩ := run
  obtain ⟨inner, ran, levels, _⟩ := yields_inScope.mp ranScope
  simp only [yields_bind, yields_pure, Prod.mk.injEq] at ran
  obtain ⟨_, opened, ranSpaces, selected, between, ranSelections, filtered, further, ranFilter,
    sorted, _, ranOrder, ⟨rfl, rfl, rfl⟩, rfl⟩ := ran
  have start : Standing [LoweringScope.empty] := ⟨sound_empty, by simp [Coherent]⟩
  obtain ⟨standing₁, grown₁⟩ := spaces_lowered items start plainSpaces ranSpaces
  obtain ⟨grows₂, boundSelections⟩ := selections_lowered topSelection_lowered selections
    standing₁.coherent ranSelections
  have standing₂ := standing₁.grows grows₂
  obtain ⟨grows₃, boundFilter⟩ := filter_lowered _ standing₂.coherent plainFilter ranFilter
  have standing₃ := standing₂.grows grows₃
  obtain ⟨grows₄, boundOrder⟩ := sortKeys_lowered order standing₃.coherent ranOrder
  have standing₄ := standing₃.grows grows₄
  have boundChosen := (boundSelections.mono grows₃.visible_subset).mono grows₄.visible_subset
  have boundCondition := fun given member =>
    (boundFilter given member).mono grows₄.visible_subset
  have grown := ((grown₁.trans grows₂.tail).trans grows₃.tail).trans grows₄.tail
  rw [levels] at standing₄ boundChosen boundCondition boundOrder grown
  have closed : after.scopes = [] := Grows.nil grown
  rw [closed] at standing₄ boundChosen boundCondition boundOrder
  exact ⟨closed, And.right (query_bound standing₄.1 rfl boundChosen boundCondition boundOrder)⟩

/-- The one table of a change goes by its own name, and nothing is joined to it. -/
theorem targetGroup_coherent {verb : BulkVerb} {target : FromNode} {group : TableGroup}
    (built : targetGroup context verb target = .ok group) :
    group.Coherent ∧ group.root.label = group.root.name ∧ group.secondary = [] := by
  obtain ⟨entity, table, _, rfl⟩ := targetGroup_ok built
  refine ⟨⟨?_, by simp⟩, rfl, rfl⟩
  intro binding member
  obtain ⟨column, _, rfl⟩ := List.mem_map.mp member
  exact TableGroup.root_mem_labels

/-- A further join leaves the roots. -/
theorem addJoin_roots {scope : LoweringScope} {space : Nat} {join : GroupJoin} :
    (scope.addJoin space join).spaces.map (·.root) = scope.spaces.map (·.root) := by
  refine List.ext_getElem? fun position => ?_
  rw [LoweringScope.addJoin, List.getElem?_map, List.getElem?_map, List.getElem?_modify]
  cases scope.spaces[position]? with
  | none => rfl
  | some found =>
    simp only [Option.map_eq_map, Option.map_some]
    split <;> rfl

/-- Joins that paths ask for leave the roots of the spaces. -/
theorem roots_of_widened {scope scope' : LoweringScope}
    (widened : Relation.ReflTransGen (Widens context) scope scope') :
    scope'.spaces.map (·.root) = scope.spaces.map (·.root) := by
  induction widened with
  | refl => rfl
  | tail _ widens ih =>
    obtain ⟨known, raised⟩ := widens
    rw [← ih, addJoin_roots]

/-- In the level of a change there is its one table, and nothing is joined to it. -/
theorem inTargetScope_ok {α : Type} (context : LoweringContext) {verb : BulkVerb}
    {group : TableGroup} {body : Lowering α}
    {value : α} {count : Nat} (coherent : group.Coherent) (alone : group.secondary = [])
    (run : Yields (inTargetScope verb group body) ⟨[], count⟩ value after)
    (grows : ∀ {state after : LoweringState}, Coherent state.scopes →
      Yields body state value after → Grows context state.scopes after.scopes) :
    ∃ state inner, Coherent state.scopes ∧ Yields body state value inner ∧
      visible inner.scopes ⊆ [group.root.label] := by
  simp only [inTargetScope, yields_bind] at run
  obtain ⟨⟨result, scope⟩, _, ranScope, run⟩ := run
  obtain ⟨inner, ran, levels, _⟩ := yields_inScope.mp ranScope
  split at run
  · obtain ⟨_, _, thrown, _⟩ := yields_bind.mp run
    exact (yields_throw thrown).elim
  · rename_i empty
    obtain ⟨rfl, rfl⟩ := yields_pure.mp run
    have sound : Sound (visible []) (LoweringScope.empty.addSpace group) :=
      sound_empty.addSpace coherent
    have start : Standing [LoweringScope.empty.addSpace group] := ⟨sound, by simp [Coherent]⟩
    refine ⟨_, inner, start.coherent, ran, ?_⟩
    have grown := grows start.coherent ran
    obtain ⟨_, _, here, widened, around⟩ := grown.cons_cases
    obtain ⟨rfl, rfl⟩ := List.cons.inj (levels.symm.trans here)
    have roots : scope.spaces.map (·.root) = [group] := roots_of_widened widened
    obtain ⟨⟨root, joins⟩, single, rfl⟩ := List.map_eq_singleton_iff.mp roots
    have labels := (sound.widened widened).labels_subset
    have joinless : joins = [] := by simpa [single] using empty
    have noFurther : root.secondary = [] := alone
    rw [levels, visible_cons, around.nil]
    simpa [visible, single, joinless, entries, TableSpace.entries, TableSpace.toJoins, noFurther,
      joinLabels, TableSpec.toRef_label] using labels

/-- The condition of a change is lowered in the level of its one table. -/
theorem changeFilter_scoped {given : Option Resolved.Predicate} {condition : Option Sql.Expr}
    {table : String} (coherent : Coherent state.scopes)
    (plain : ∀ source ∈ filterSources given, IsPlainName source.label)
    (run : Yields (filter context given) state condition after)
    (alone : visible after.scopes ⊆ [table]) :
    (∀ level ∈ conditionLevels [table] condition, level.IsScoped) ∧
      ∀ given ∈ condition, ∀ qualifier ∈ given.qualifiers, qualifier = some table := by
  obtain ⟨_, bound⟩ := filter_lowered given coherent plain run
  cases condition with
  | none => simp [conditionLevels]
  | some condition =>
    have bound := bound condition rfl
    refine ⟨condition.levels_widen widening_isScoped alone bound.levels, ?_⟩
    rintro _ ⟨⟩
    exact bound.qualified.only (List.Subset.trans bound.references alone)

/-- Assignments raise joins and give values. -/
theorem assignments_lowered (given : List Resolved.Assignment)
    {assignments : List (String × Sql.Expr)} (coherent : Coherent state.scopes)
    (run : Yields (given.mapM (assignment context)) state assignments after) :
    Grows context state.scopes after.scopes ∧
      ∀ assignment ∈ assignments, Within after.scopes assignment.2 := by
  refine mapM_grows (fun scopes (assignment : String × Sql.Expr) => Within scopes assignment.2)
    (fun grows within => within.mono grows) ?_ given coherent run
  intro item state after value coherent run
  simp only [assignment, yields_bind] at run
  obtain ⟨owner, _, found, run⟩ := run
  obtain ⟨rfl, _⟩ := yields_group.mp found
  split at run
  · simp at run
  · simp only [yields_bind, yields_pure] at run
    obtain ⟨lowered, _, ran, rfl, rfl⟩ := run
    have lowered := expr_lowered item.value coherent ran
    exact ⟨lowered.grows, lowered.within⟩

/-- The SQL form of a statement is scoped at all its levels, and the columns of a change are columns
of its table. -/
theorem statement_scoped {given : Resolved.Statement} {lowered : Sql.Statement} {count : Nat}
    (plain : ∀ source ∈ given.sources, IsPlainName source.label)
    (run : Yields (statement context given) ⟨[], count⟩ lowered after) :
    (∀ level ∈ lowered.levels, level.IsScoped) ∧ lowered.QualifiesTarget := by
  cases given with
  | select query order =>
    simp only [statement, yields_bind, yields_pure] at run
    obtain ⟨select, _, ran, rfl, rfl⟩ := run
    exact ⟨(select_scoped plain ran).2, trivial⟩
  | update target assignments condition =>
    obtain ⟨_, plainFilter⟩ := List.forall_mem_cons.mp plain
    simp only [statement, yields_bind, yields_lift] at run
    obtain ⟨group, _, ⟨built, rfl⟩, run⟩ := run
    obtain ⟨coherent, named, alone⟩ := targetGroup_coherent built
    obtain ⟨state, inner, start, ran, visible⟩ := inTargetScope_ok context coherent alone run
      fun coherent ran => by
        simp only [yields_bind, yields_pure] at ran
        obtain ⟨values, between, ranValues, filtered, _, ranFilter, _, rfl⟩ := ran
        obtain ⟨grows, _⟩ := assignments_lowered assignments coherent ranValues
        exact grows.trans (filter_lowered condition (grows.coherent coherent) plainFilter ranFilter).1
    simp only [yields_bind, yields_pure] at ran
    obtain ⟨values, between, ranValues, filtered, _, ranFilter, rfl, rfl⟩ := ran
    obtain ⟨grows, within⟩ := assignments_lowered assignments start ranValues
    rw [named] at visible
    obtain ⟨levels, condition⟩ := changeFilter_scoped (grows.coherent start) plainFilter
      ranFilter visible
    refine ⟨List.forall_mem_append.mpr ⟨?_, levels⟩, ?_, condition⟩
    · intro level member
      obtain ⟨assignment, listed, inside⟩ := List.mem_flatMap.mp member
      rw [assignment.2.levels_of_isValue (within assignment listed).isValue] at inside
      simp at inside
    · intro assignment listed
      have value := (within assignment listed).mono (filter_lowered _ (grows.coherent start)
        plainFilter ranFilter).1
      exact value.qualified.only (List.Subset.trans (value.references true) visible)
  | delete target condition =>
    obtain ⟨_, plainFilter⟩ := List.forall_mem_cons.mp plain
    simp only [statement, yields_bind, yields_lift] at run
    obtain ⟨group, _, ⟨built, rfl⟩, run⟩ := run
    obtain ⟨coherent, named, alone⟩ := targetGroup_coherent built
    obtain ⟨state, inner, start, ran, visible⟩ := inTargetScope_ok context coherent alone run
      fun coherent ran => by
        simp only [yields_bind, yields_pure] at ran
        obtain ⟨filtered, _, ranFilter, _, rfl⟩ := ran
        exact (filter_lowered condition coherent plainFilter ranFilter).1
    simp only [yields_bind, yields_pure] at ran
    obtain ⟨filtered, _, ranFilter, rfl, rfl⟩ := ran
    rw [named] at visible
    exact changeFilter_scoped start plainFilter ranFilter visible

end ObjectQuery.Lowering

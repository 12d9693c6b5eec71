import ObjectQuery.Proofs.Lowering.Statement
/-!
# The level of a change

A change is lowered in a level of its own, in which its one table stands and to which nothing has been
joined when it is closed. `targetGroup_ok_iff` says which targets are accepted and what their group is,
and `yields_inTargetScope` what a run in that level amounts to.
-/
namespace ObjectQuery.Sql

/-- The table that a change is made to. -/
def Statement.table? : Statement → Option String
  | .select _ => none
  | .update change => some change.table
  | .delete removal => some removal.table

/-- The columns that an update sets, and their values. -/
def Statement.assignments : Statement → List (String × Expr)
  | .update change => change.assignments
  | _ => []

end ObjectQuery.Sql

namespace ObjectQuery.Lowering

open Sql
open Resolved (FromNode)

variable {context : LoweringContext} {state after : LoweringState}

/-- The group of a target that is the given entity with the one table. -/
def groupOfTarget (target : FromNode) (entity : String) (table : MappedTable) : TableGroup where
  label := target.label
  entity := entity
  root := ⟨table.name, table.name⟩
  keyColumn := table.keyColumn
  secondary := []
  columns := table.columns.map fun column => ⟨column.label, table.name, column.column⟩

/-- The group has the columns of the table. -/
theorem column_groupOfTarget {target : FromNode} {entity : String} {table : MappedTable}
    (label : String) :
    ((groupOfTarget target entity table).binding? label).map (·.column) = table.column? label := by
  rw [TableGroup.binding?, groupOfTarget, List.find?_map, Option.map_map]
  rfl

/-- The target of a change is one entity, which is stored in one table that is no query. -/
theorem targetGroup_ok_iff {verb : BulkVerb} {target : FromNode} {group : TableGroup} :
    targetGroup context verb target = .ok group ↔ ∃ entity shape table,
      target.entity = .concrete entity ∧ context.shape entity.name = .ok shape ∧
        shape.tables = [table] ∧ table.isDerived = false ∧
          group = groupOfTarget target entity.name table := by
  unfold targetGroup
  cases target.entity with
  | polymorphic name implementors =>
    simp only [reduceCtorEq, false_and, exists_false, iff_false]
    exact nofun
  | concrete entity =>
    simp only [pure_bind, except_bind_ok, EntityReference.concrete.injEq]
    constructor
    · rintro ⟨shape, shaped, built⟩
      split at built
      · rename_i table single
        split at built
        · cases built
        · rename_i stored
          exact ⟨entity, shape, table, rfl, shaped, single, by simpa using stored,
            (Except.ok.inj built).symm⟩
      · cases built
    · rintro ⟨_, shape, table, rfl, shaped, single, stored, rfl⟩
      refine ⟨shape, shaped, ?_⟩
      simp only [single, stored]
      rfl

/-- What is done in the level of a change begins with its table in it, and ends with nothing joined
to it. -/
theorem yields_inTargetScope {α : Type} {verb : BulkVerb} {group : TableGroup} {body : Lowering α}
    {value : α} : Yields (inTargetScope verb group body) state value after ↔
      ∃ inner scope, Yields body
          { state with scopes := LoweringScope.empty.addSpace group :: state.scopes } value inner ∧
        inner.scopes = scope :: after.scopes ∧ inner.indexJoins = after.indexJoins ∧
        ∀ space ∈ scope.spaces, space.joins = [] := by
  simp only [inTargetScope, yields_bind]
  constructor
  · rintro ⟨⟨result, scope⟩, _, ranScope, run⟩
    obtain ⟨inner, ran, levels, count⟩ := yields_inScope.mp ranScope
    split at run
    · obtain ⟨_, _, thrown, _⟩ := yields_bind.mp run
      exact (yields_throw thrown).elim
    · rename_i alone
      obtain ⟨rfl, rfl⟩ := yields_pure.mp run
      exact ⟨inner, scope, ran, levels, count, by simpa using alone⟩
  · rintro ⟨inner, scope, ran, levels, count, alone⟩
    refine ⟨(value, scope), after, yields_inScope.mpr ⟨inner, ran, levels, count⟩, ?_⟩
    have joinless : scope.spaces.any (!·.joins.isEmpty) = false := by simpa using alone
    simp only [joinless]
    exact yields_pure.mpr ⟨rfl, rfl⟩

end ObjectQuery.Lowering

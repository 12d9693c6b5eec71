import ObjectQuery.Proofs.Lowering.Run
/-!
# What the lowering keeps

A property of query levels is kept by a step of the lowering if it holds of all levels after every
successful run that it held before, and then the result of the step has a property of its own. There
is one rule for each way to build a step and one for each operation on the levels, so that a property
is carried through the whole lowering by following the definitions.
-/
namespace ObjectQuery.Lowering

open Sql

variable {α β : Type} {holds : LoweringScope → Prop}

/-- Run where all levels have the property `holds`, the step leaves only such levels and gives only
good results. -/
def Keeps (holds : LoweringScope → Prop) (step : Lowering α) (good : α → Prop) : Prop :=
  ∀ ⦃state value after⦄, (∀ scope ∈ state.scopes, holds scope) → Yields step state value after →
    (∀ scope ∈ after.scopes, holds scope) ∧ good value

namespace Keeps

variable {good : α → Prop} {fine : β → Prop}

/-- A good value is given without touching any scope. -/
theorem pure {value : α} (isGood : good value) : Keeps holds (Pure.pure value) good := by
  intro state result after kept run
  obtain ⟨rfl, rfl⟩ := yields_pure.mp run
  exact ⟨kept, isGood⟩

/-- Steps in a row keep what each of them does. -/
theorem bind {first : Lowering α} {next : α → Lowering β} (keeps : Keeps holds first good)
    (keepsNext : ∀ value, good value → Keeps holds (next value) fine) :
    Keeps holds (first >>= next) fine := by
  intro state result after kept run
  obtain ⟨value, between, ran, ranNext⟩ := yields_bind.mp run
  obtain ⟨keptBetween, isGood⟩ := keeps kept ran
  exact keepsNext value isGood keptBetween ranNext

/-- A failure keeps anything. -/
theorem throw {error : LoweringError} :
    Keeps holds (throw error : Lowering α) (fun _ => False) := by
  intro state result after kept run
  exact (yields_throw run).elim

/-- A computation without state has the result that it has. -/
theorem lift {result : Except LoweringError α} :
    Keeps holds (liftM result) (fun value => result = .ok value) := by
  intro state value after kept run
  obtain ⟨succeeded, rfl⟩ := yields_lift.mp run
  exact ⟨kept, succeeded⟩

/-- The result of a step may be forgotten. -/
theorem weaken {step : Lowering α} {better : α → Prop} (keeps : Keeps holds step better)
    (enough : ∀ value, better value → good value) : Keeps holds step good := by
  intro state value after kept run
  obtain ⟨keptAfter, isBetter⟩ := keeps kept run
  exact ⟨keptAfter, enough value isBetter⟩

/-- A step for each item keeps what it does for any item. -/
theorem mapM {step : α → Lowering β} (keeps : ∀ item, Keeps holds (step item) fine) :
    ∀ items : List α, Keeps holds (items.mapM step) (fun values => ∀ value ∈ values, fine value)
  | [] => by
    rw [List.mapM_nil]
    exact pure (by simp)
  | item :: rest => by
    rw [List.mapM_cons]
    refine bind (keeps item) fun value isFine => bind (mapM keeps rest) fun others areFine => ?_
    exact pure (List.forall_mem_cons.mpr ⟨isFine, areFine⟩)

/-- A fold keeps what its step does. -/
theorem foldlM {step : β → α → Lowering β} (keeps : ∀ start item, Keeps holds (step start item) fine) :
    ∀ (items : List α) {start : β}, fine start → Keeps holds (items.foldlM step start) fine
  | [], start, isFine => by
    rw [List.foldlM_nil]
    exact pure isFine
  | item :: rest, start, _ => by
    rw [List.foldlM_cons]
    exact bind (keeps start item) fun next isFine => foldlM keeps rest isFine

/-- Looking up a group touches no scope. -/
theorem group {label : String} : Keeps holds (group label) (fun _ => True) := by
  intro state found after kept run
  obtain ⟨rfl, _⟩ := yields_group.mp run
  exact ⟨kept, trivial⟩

/-- Asking for a name touches no scope. -/
theorem isKnown {label : String} : Keeps holds (isKnown label) (fun _ => True) := by
  intro state known after kept run
  obtain ⟨_, rfl⟩ := yields_isKnown.mp run
  exact ⟨kept, trivial⟩

/-- Reading the innermost scope touches none. -/
theorem currentScope : Keeps holds currentScope (fun _ => True) := by
  intro state found after kept run
  obtain ⟨rfl, _⟩ := yields_currentScope.mp run
  exact ⟨kept, trivial⟩

/-- Drawing a number touches no scope. -/
theorem nextIndexJoin : Keeps holds nextIndexJoin (fun _ => True) := by
  intro state number after kept run
  obtain ⟨_, rfl⟩ := yields_nextIndexJoin.mp run
  exact ⟨kept, trivial⟩

/-- A change keeps what it keeps of the innermost scope. -/
theorem changeScope {change : LoweringScope → LoweringScope}
    (keeps : ∀ scope, holds scope → holds (change scope)) :
    Keeps holds (changeScope change) (fun _ => True) := by
  intro state value after kept run
  obtain ⟨scope, outer, levels, rfl⟩ := yields_changeScope.mp run
  rw [levels, List.forall_mem_cons] at kept
  exact ⟨List.forall_mem_cons.mpr ⟨keeps scope kept.1, kept.2⟩, trivial⟩

/-- Attaching a join keeps what adding it to a scope keeps. -/
theorem attach {owner : String} {join : GroupJoin}
    (keeps : ∀ scope space, holds scope → holds (scope.addJoin space join)) :
    Keeps holds (attach owner join) (fun _ => True) := by
  intro state value after kept run
  obtain ⟨level, found, _, rfl⟩ := yields_attach.mp run
  refine ⟨?_, trivial⟩
  intro scope member
  obtain ⟨position, bound, rfl⟩ := List.mem_iff_getElem.mp member
  rw [List.getElem_modify]
  have inside : position < state.scopes.length := by simpa using bound
  split
  · exact keeps _ _ (kept _ (List.getElem_mem inside))
  · exact kept _ (List.getElem_mem inside)

/-- What is done in a new level leaves that level with the property as well. -/
theorem inScope {scope : LoweringScope} {body : Lowering α} (begun : holds scope)
    (keeps : Keeps holds body good) :
    Keeps holds (inScope scope body) (fun result => good result.1 ∧ holds result.2) := by
  rintro state ⟨value, closed⟩ after kept run
  obtain ⟨inner, ran, levels, _⟩ := yields_inScope.mp run
  obtain ⟨keptInner, isGood⟩ := keeps (List.forall_mem_cons.mpr ⟨begun, kept⟩) ran
  rw [levels, List.forall_mem_cons] at keptInner
  exact ⟨keptInner.2, isGood, keptInner.1⟩

end Keeps
end ObjectQuery.Lowering

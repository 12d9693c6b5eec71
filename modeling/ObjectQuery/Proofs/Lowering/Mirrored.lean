import ObjectQuery.Lowering.Statement
import ObjectQuery.Proofs.Sql.Stripped
/-!
# Runs without the types of parameters

The levels of a query can be stripped of the types of parameters like everything else in SQL. One
step mirrors another if, run in the stripped levels, it does what the other does in the levels
themselves: it fails with the same error, or it succeeds with a view of the same result and leaves the
stripped levels. There is one rule for each way to build a step and one for each operation on the
levels.
-/
namespace ObjectQuery

open Sql

/-- A map over a list goes through a change of one element. -/
theorem map_modify {α β : Type} {view : α → β} {change : α → α} {image : β → β}
    (same : ∀ item, view (change item) = image (view item)) (items : List α) (number : Nat) :
    (items.modify number change).map view = (items.map view).modify number image := by
  apply List.ext_getElem?
  intro position
  simp only [List.getElem?_map, List.getElem?_modify]
  by_cases changed : number = position
  · cases items[position]? <;> simp [changed, same]
  · cases items[position]? <;> simp [changed]

/-- A group in scope without the types of parameters. -/
def ScopedGroup.stripped (found : ScopedGroup) : ScopedGroup := ⟨found.space, found.group.stripped⟩

namespace LoweringScope

/-- The level without the types of parameters. -/
def stripped (scope : LoweringScope) : LoweringScope where
  spaces := scope.spaces.map TableSpace.stripped
  groups := scope.groups.map (Prod.map id ScopedGroup.stripped)

/-- A scope finds its groups with their conditions taken off. -/
theorem find?_stripped (scope : LoweringScope) (label : String) :
    scope.stripped.find? label = (scope.find? label).map ScopedGroup.stripped := by
  obtain ⟨spaces, groups⟩ := scope
  induction groups with
  | nil => rfl
  | cons entry rest found =>
    obtain ⟨name, known⟩ := entry
    simp only [find?, stripped, List.map_cons, List.lookup_cons, Prod.map, id] at found ⊢
    cases label == name with
    | true => rfl
    | false => exact found

/-- The empty scope has no conditions to take off. -/
theorem stripped_empty : stripped .empty = .empty := rfl

/-- Taking the conditions off commutes with keeping a group. -/
theorem stripped_addGroup (scope : LoweringScope) (space : Nat) (group : TableGroup) :
    (scope.addGroup space group).stripped = scope.stripped.addGroup space group.stripped := rfl

/-- Taking the conditions off commutes with opening a space. -/
theorem stripped_addSpace (scope : LoweringScope) (root : TableGroup) :
    (scope.addSpace root).stripped = scope.stripped.addSpace root.stripped := by
  simp [addSpace, addGroup, stripped, ScopedGroup.stripped, TableGroup.stripped, TableSpace.stripped]

/-- Taking the conditions off commutes with adding a join. -/
theorem stripped_addJoin (scope : LoweringScope) (space : Nat) (join : GroupJoin) :
    (scope.addJoin space join).stripped = scope.stripped.addJoin space join.stripped := by
  simp only [addJoin, stripped, addGroup, List.map_cons, Prod.map, id, mk.injEq]
  refine ⟨map_modify (fun found => ?_) _ _, rfl⟩
  simp [TableSpace.stripped]

/-- Taking the conditions off commutes with putting a join between others. -/
theorem stripped_insertJoin (scope : LoweringScope) (space count : Nat) (join : GroupJoin) :
    (scope.insertJoin space count join).stripped =
      scope.stripped.insertJoin space count join.stripped := by
  simp only [insertJoin, stripped, mk.injEq, and_true]
  refine map_modify (fun found => ?_) _ _
  simp [TableSpace.stripped, List.map_take, List.map_drop]

/-- Taking the conditions off leaves the number of joins. -/
theorem joinCount_stripped (scope : LoweringScope) (space : Nat) :
    scope.stripped.joinCount space = scope.joinCount space := by
  simp [joinCount, stripped, TableSpace.stripped, Function.comp_def]

end LoweringScope

/-- The levels without the types of parameters. -/
def LoweringState.stripped (state : LoweringState) : LoweringState :=
  ⟨state.scopes.map LoweringScope.stripped, state.indexJoins⟩

namespace Lowering

variable {α β γ δ : Type}

/-- A label is located in the same scope once the conditions are off. -/
theorem locate?_stripped (scopes : List LoweringScope) (label : String) :
    locate? (scopes.map LoweringScope.stripped) label =
      (locate? scopes label).map (Prod.map id ScopedGroup.stripped) := by
  simp [locate?, List.zipIdx_map, List.findSome?_map, LoweringScope.find?_stripped,
    List.map_findSome?, Function.comp_def]

/-- In the stripped levels, `image` does what `step` does in the levels themselves, and a result of it
is the view of a result of the step. -/
def Mirrors (view : α → β) (step : Lowering α) (image : Lowering β) : Prop :=
  ∀ state : LoweringState, image.run state.stripped =
    (step.run state).map (Prod.map view LoweringState.stripped)

namespace Mirrors

variable {view : α → β} {show' : γ → δ}

/-- A value is mirrored by its view. -/
theorem pure (value : α) : Mirrors view (Pure.pure value) (Pure.pure (view value)) := by
  intro state
  rfl

/-- A failure is mirrored by itself. -/
theorem throw (error : LoweringError) :
    Mirrors view (MonadExcept.throw error) (MonadExcept.throw error) := by
  intro state
  rfl

/-- Steps in a row are mirrored if each of them is. -/
theorem bind {first : Lowering α} {image : Lowering β} {next : α → Lowering γ}
    {nextImage : β → Lowering δ} (mirrors : Mirrors view first image)
    (later : ∀ value, Mirrors show' (next value) (nextImage (view value))) :
    Mirrors show' (first >>= next) (image >>= nextImage) := by
  intro state
  rw [StateT.run_bind, StateT.run_bind, mirrors state]
  cases first.run state with
  | error failure => rfl
  | ok result => exact later result.1 result.2

/-- A choice on a known fact is mirrored if both branches are. -/
theorem ite (known : Bool) {step other : Lowering α} {image otherImage : Lowering β}
    (mirrors : Mirrors view step image) (mirrorsOther : Mirrors view other otherImage) :
    Mirrors view (if known then step else other) (if known then image else otherImage) := by
  cases known with
  | true => exact mirrors
  | false => exact mirrorsOther

/-- A computation without state is mirrored by one that gives the view of its result. -/
theorem lift {result : Except LoweringError α} {image : Except LoweringError β}
    (given : image = result.map view) : Mirrors view (liftM result) (liftM image) := by
  intro state
  subst given
  cases result <;> rfl

/-- What does not depend on parameters mirrors itself. -/
theorem same (result : Except LoweringError α) : Mirrors id (liftM result) (liftM result) := by
  refine lift ?_
  cases result <;> rfl

/-- A step for each item is mirrored if it is for any item. -/
theorem mapM {step : α → Lowering γ} {image : β → Lowering δ}
    (mirrors : ∀ item, Mirrors show' (step item) (image (view item))) :
    ∀ items : List α, Mirrors (List.map show') (items.mapM step) ((items.map view).mapM image)
  | [] => by
    rw [List.map_nil, List.mapM_nil, List.mapM_nil]
    exact pure []
  | item :: rest => by
    rw [List.map_cons, List.mapM_cons, List.mapM_cons]
    exact bind (mirrors item) fun value => bind (mapM mirrors rest) fun others =>
      pure (value :: others)

/-- A fold is mirrored if its step is. -/
theorem foldlM {step : β → α → Lowering β}
    (mirrors : ∀ start item, Mirrors id (step start item) (step start item)) :
    ∀ (items : List α) (start : β), Mirrors id (items.foldlM step start) (items.foldlM step start)
  | [], start => by
    rw [List.foldlM_nil]
    exact pure start
  | item :: rest, start => by
    rw [List.foldlM_cons]
    exact bind (mirrors start item) fun next => foldlM mirrors rest next

/-- Looking up a group is mirrored. -/
theorem group (label : String) : Mirrors TableGroup.stripped (group label) (group label) := by
  intro state
  have located := locate?_stripped state.scopes label
  simp only [Lowering.group, StateT.run_bind, StateT.run_get, LoweringState.stripped, pure_bind,
    located]
  cases locate? state.scopes label <;> rfl

/-- Asking for a name is mirrored. -/
theorem isKnown (label : String) : Mirrors id (isKnown label) (isKnown label) := by
  intro state
  have located := locate?_stripped state.scopes label
  simp only [Lowering.isKnown, StateT.run_bind, StateT.run_get, LoweringState.stripped, pure_bind,
    located, Option.isSome_map]
  rfl

/-- Reading the innermost scope is mirrored. -/
theorem currentScope : Mirrors LoweringScope.stripped currentScope currentScope := by
  rintro ⟨_ | ⟨scope, outer⟩, number⟩ <;> rfl

/-- Drawing the next number is mirrored. -/
theorem nextIndexJoin : Mirrors id nextIndexJoin nextIndexJoin := by
  intro state
  rfl

/-- A change of the innermost scope is mirrored if it commutes with taking the conditions off. -/
theorem changeScope {change image : LoweringScope → LoweringScope}
    (commutes : ∀ scope, (change scope).stripped = image scope.stripped) :
    Mirrors id (changeScope change) (changeScope image) := by
  rintro ⟨_ | ⟨scope, outer⟩, number⟩
  · rfl
  · have changed := commutes scope
    simp only [Lowering.changeScope, StateT.run_bind, StateT.run_get, LoweringState.stripped,
      List.map_cons, pure_bind, StateT.run_set, ← changed]
    rfl

/-- Attaching a join is mirrored by attaching it without its condition. -/
theorem attach (owner : String) (join : GroupJoin) :
    Mirrors id (attach owner join) (attach owner join.stripped) := by
  intro state
  have located := locate?_stripped state.scopes owner
  simp only [Lowering.attach, StateT.run_bind, StateT.run_get, LoweringState.stripped, pure_bind,
    located]
  cases locate? state.scopes owner with
  | none => rfl
  | some found =>
    obtain ⟨level, entry⟩ := found
    have added : (state.scopes.modify level (·.addJoin entry.space join)).map LoweringScope.stripped =
        (state.scopes.map LoweringScope.stripped).modify level
          (·.addJoin entry.space join.stripped) :=
      map_modify (fun scope => scope.stripped_addJoin entry.space join) state.scopes level
    change Except.ok _ = Except.ok (_, LoweringState.mk _ _)
    rw [added]
    rfl

/-- What is done in a new level is mirrored by what is done in the stripped one. -/
theorem inScope (scope : LoweringScope) {body : Lowering α} {image : Lowering β}
    (mirrors : Mirrors view body image) :
    Mirrors (Prod.map view LoweringScope.stripped) (inScope scope body)
      (inScope scope.stripped image) := by
  unfold Lowering.inScope
  refine bind (?_ : Mirrors id _ _) fun _ => bind mirrors fun value => ?_
  · intro state
    rfl
  · rintro ⟨_ | ⟨closed, outer⟩, number⟩ <;> rfl

end Mirrors
end Lowering
end ObjectQuery

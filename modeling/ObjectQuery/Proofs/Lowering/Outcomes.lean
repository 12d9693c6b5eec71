import ObjectQuery.Proofs.Lowering.Run
/-!
# Both outcomes of a step

`Meets` says what a step of the lowering does when it is started in a state: with which errors it may
fail and, if it succeeds, what then holds of its value and of the state it leaves. There is one rule
for each way to build a step, and the rule for steps that follow each other also hands on the run of
the first one.
-/
namespace ObjectQuery.Lowering

open Sql

variable {α β : Type} {state : LoweringState} {blame : LoweringError → Prop}

/-- Started in `state`, the step fails only with errors to `blame`, and what it succeeds with is
good. -/
def Meets (step : Lowering α) (state : LoweringState) (blame : LoweringError → Prop)
    (good : α → LoweringState → Prop) : Prop :=
  match step.run state with
  | .error error => blame error
  | .ok (value, after) => good value after

namespace Meets

variable {good : α → LoweringState → Prop} {fine : β → LoweringState → Prop}

/-- A step that fails blames as it may. -/
theorem error {step : Lowering α} {error : LoweringError} (meets : Meets step state blame good)
    (failed : step.run state = .error error) : blame error := by
  unfold Meets at meets
  rwa [failed] at meets

/-- A step that yields a value yields a good one. -/
theorem yields {step : Lowering α} {value : α} {after : LoweringState}
    (meets : Meets step state blame good) (run : Yields step state value after) :
    good value after := by
  unfold Meets at meets
  rwa [show step.run state = .ok (value, after) from run] at meets

/-- A good value meets what is asked. -/
theorem pure {value : α} (isGood : good value state) :
    Meets (Pure.pure value) state blame good := isGood

/-- A failure to blame meets what is asked. -/
theorem throw {error : LoweringError} (blamed : blame error) :
    Meets (MonadExcept.throw error : Lowering α) state blame good := blamed

/-- Steps in a row meet what is asked if the second does from wherever the first ends. -/
theorem bind {first : Lowering α} {next : α → Lowering β} (meets : Meets first state blame good)
    (meetsNext : ∀ value between, Yields first state value between → good value between →
      Meets (next value) between blame fine) : Meets (first >>= next) state blame fine := by
  unfold Meets at meets ⊢
  rw [StateT.run_bind]
  cases ran : first.run state with
  | error failure =>
    rw [ran] at meets
    exact meets
  | ok result =>
    obtain ⟨value, between⟩ := result
    rw [ran] at meets
    exact meetsNext value between ran meets

/-- Fewer errors and better results are fine as well. -/
theorem weaken {step : Lowering α} {lessBlame : LoweringError → Prop}
    {better : α → LoweringState → Prop} (meets : Meets step state lessBlame better)
    (blames : ∀ error, lessBlame error → blame error)
    (enough : ∀ value after, Yields step state value after → better value after → good value after) :
    Meets step state blame good := by
  unfold Meets at meets ⊢
  split
  · rename_i failure failed
    rw [failed] at meets
    exact blames failure meets
  · rename_i value after succeeded
    rw [succeeded] at meets
    exact enough value after succeeded meets

/-- A computation without state comes first, and its errors are those of the whole. -/
theorem bind_lift {result : Except LoweringError α} {next : α → Lowering β}
    (blames : ∀ error, result = .error error → blame error)
    (meets : ∀ value, result = .ok value → Meets (next value) state blame fine) :
    Meets (liftM result >>= next) state blame fine := by
  cases result with
  | error failure => exact blames failure rfl
  | ok value => exact meets value rfl

/-- A computation without state comes first, and succeeds. -/
theorem bind_ok {result : Except LoweringError α} {value : α} {next : α → Lowering β}
    (succeeds : result = .ok value) (meets : Meets (next value) state blame fine) :
    Meets (liftM result >>= next) state blame fine := by
  subst succeeds
  exact meets

/-! The operations on the levels, each followed by another step. -/

/-- Asking for a name goes on with the answer. -/
theorem bind_isKnown {label : String} {next : Bool → Lowering β}
    (meets : Meets (next (locate? state.scopes label).isSome) state blame fine) :
    Meets (isKnown label >>= next) state blame fine := meets

/-- Looking up a group goes on with the group or blames the label. -/
theorem bind_group {label : String} {next : TableGroup → Lowering β}
    (unknown : locate? state.scopes label = none → blame (.unknownLabel label))
    (meets : ∀ level found, locate? state.scopes label = some (level, found) →
      Meets (next found.group) state blame fine) : Meets (group label >>= next) state blame fine := by
  have looked : Meets (group label) state blame fun group after => after = state ∧
      ∃ level found, locate? state.scopes label = some (level, found) ∧ group = found.group := by
    have read : Meets get state blame fun seen after => seen = state ∧ after = state := ⟨rfl, rfl⟩
    rw [group]
    refine .bind read fun seen after _ unchanged => ?_
    obtain ⟨rfl, rfl⟩ := unchanged
    split
    · rename_i level found located
      exact .pure ⟨rfl, level, found, located, rfl⟩
    · rename_i absent
      exact .throw (unknown absent)
  refine .bind looked fun found after _ given => ?_
  obtain ⟨same, level, entry, located, rfl⟩ := given
  rw [same]
  exact meets level entry located

/-- Attaching a join behind a located group goes on with it attached. -/
theorem bind_attach {owner : String} {join : GroupJoin} {next : Unit → Lowering β} {level : Nat}
    {found : ScopedGroup} (located : locate? state.scopes owner = some (level, found))
    (meets : Meets (next ()) { state with
      scopes := state.scopes.modify level (·.addJoin found.space join) } blame fine) :
    Meets (attach owner join >>= next) state blame fine := by
  have ran : Yields (attach owner join) state () { state with
      scopes := state.scopes.modify level (·.addJoin found.space join) } :=
    yields_attach.mpr ⟨level, found, located, rfl⟩
  unfold Meets at meets ⊢
  rw [StateT.run_bind, show (attach owner join).run state = .ok ((), _) from ran]
  exact meets

/-- Drawing a number goes on with the counter gone up. -/
theorem bind_nextIndexJoin {next : Nat → Lowering β}
    (meets : Meets (next state.indexJoins) { state with indexJoins := state.indexJoins + 1 } blame
      fine) : Meets (nextIndexJoin >>= next) state blame fine := meets

/-- Changing the innermost scope goes on with it changed. -/
theorem bind_changeScope {change : LoweringScope → LoweringScope} {next : Unit → Lowering β}
    {scope : LoweringScope} {outer : List LoweringScope} (levels : state.scopes = scope :: outer)
    (meets : Meets (next ()) { state with scopes := change scope :: outer } blame fine) :
    Meets (changeScope change >>= next) state blame fine := by
  have ran : Yields (changeScope change) state () { state with scopes := change scope :: outer } :=
    yields_changeScope.mpr ⟨scope, outer, levels, rfl⟩
  unfold Meets at meets ⊢
  rw [StateT.run_bind, show (changeScope change).run state = .ok ((), _) from ran]
  exact meets

/-- Reading the innermost scope goes on with it. -/
theorem bind_currentScope {next : LoweringScope → Lowering β} {scope : LoweringScope}
    {outer : List LoweringScope} (levels : state.scopes = scope :: outer)
    (meets : Meets (next scope) state blame fine) :
    Meets (currentScope >>= next) state blame fine := by
  have ran : Yields currentScope state scope state :=
    yields_currentScope.mpr ⟨rfl, outer, levels⟩
  unfold Meets at meets ⊢
  rw [StateT.run_bind, show currentScope.run state = .ok (scope, state) from ran]
  exact meets

/-- What is done in a new level leaves that level behind, and it is taken off. -/
theorem inScope {scope : LoweringScope} {body : Lowering α} (meets : Meets body
    { state with scopes := scope :: state.scopes } blame fun value inner =>
      inner.scopes ≠ [] ∧ good value inner) :
    Meets (inScope scope body) state blame fun result after => ∃ inner : LoweringState,
      inner.scopes = result.2 :: after.scopes ∧ inner.indexJoins = after.indexJoins ∧
        good result.1 inner := by
  have opened : Meets (modify fun state : LoweringState =>
      { state with scopes := scope :: state.scopes }) state blame fun _ inside =>
        inside = { state with scopes := scope :: state.scopes } := rfl
  unfold Lowering.inScope
  refine .bind opened fun _ inside _ same => ?_
  subst same
  refine .bind meets fun value inner _ ⟨left, isGood⟩ => ?_
  obtain ⟨closed, outer, levels⟩ := List.exists_cons_of_ne_nil left
  obtain ⟨_, count⟩ := inner
  obtain rfl := levels
  exact ⟨⟨closed :: outer, count⟩, rfl, rfl, isGood⟩

end Meets

end ObjectQuery.Lowering

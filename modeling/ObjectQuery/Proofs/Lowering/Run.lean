import ObjectQuery.Lowering.Statement
import ObjectQuery.Proofs.Outcome
/-!
# Runs of the lowering

`Yields` says that a step of the lowering succeeds, with which value and in which state. The rules
take a run of a compound step apart into the runs of its parts, and one rule for each operation on
the levels says what a successful run of it has done. Later modules read runs through these rules
and never unfold the operations.
-/
namespace ObjectQuery.Lowering

open Sql

variable {α β : Type} {state after : LoweringState}

/-- Started in `state`, the step succeeds with `value` and leaves `after`. -/
def Yields (step : Lowering α) (state : LoweringState) (value : α) (after : LoweringState) : Prop :=
  step.run state = .ok (value, after)

/-- A value yields itself and leaves the state. -/
@[simp] theorem yields_pure {value result : α} :
    Yields (pure value) state result after ↔ result = value ∧ after = state := by
  rw [Yields, StateT.run_pure]
  simp only [pure, Except.pure, Except.ok.injEq, Prod.mk.injEq]
  exact and_congr eq_comm eq_comm

/-- Steps in a row yield through the state between them. -/
@[simp] theorem yields_bind {first : Lowering α} {next : α → Lowering β} {value : β} :
    Yields (first >>= next) state value after ↔
      ∃ middle between, Yields first state middle between ∧
        Yields (next middle) between value after := by
  simp only [Yields, StateT.run_bind, except_bind_ok, Prod.exists]

/-- A failure yields nothing. -/
@[simp] theorem yields_throw {error : LoweringError} {value : α} :
    ¬ Yields (throw error) state value after := by
  simp [Yields, throw, throwThe, MonadExceptOf.throw, StateT.run, StateT.lift, Bind.bind,
    Except.bind]

/-- A result that is there already yields itself and leaves the state. -/
@[simp] theorem yields_lift {result : Except LoweringError α} {value : α} :
    Yields (liftM result) state value after ↔ result = .ok value ∧ after = state := by
  simp only [Yields, liftM, monadLift, MonadLift.monadLift, StateT.run, StateT.lift]
  rw [except_bind_ok]
  constructor
  · rintro ⟨middle, succeeded, same⟩
    obtain ⟨rfl, rfl⟩ := Prod.mk.inj (Except.ok.inj same)
    exact ⟨succeeded, rfl⟩
  · rintro ⟨succeeded, rfl⟩
    exact ⟨value, succeeded, rfl⟩

/-- Reading the state yields it. -/
@[simp] theorem yields_get {found : LoweringState} :
    Yields get state found after ↔ found = state ∧ after = state := by
  simp [Yields, get, getThe, MonadStateOf.get, StateT.run, StateT.get, pure, Except.pure, eq_comm]

/-- Setting the state leaves the one set. -/
@[simp] theorem yields_set {new : LoweringState} {value : PUnit} :
    Yields (set new) state value after ↔ after = new := by
  change (Except.ok (PUnit.unit, new) : Except LoweringError _) = .ok (value, after) ↔ after = new
  simp [eq_comm]

/-- Changing the state leaves the changed one. -/
@[simp] theorem yields_modify {change : LoweringState → LoweringState} {value : PUnit} :
    Yields (modify change) state value after ↔ after = change state := by
  have ran : (modify change : Lowering PUnit).run state = .ok (PUnit.unit, change state) := rfl
  simp [Yields, ran, eq_comm]

/-- Mapping a step over a list runs it on one element after the other. -/
theorem yields_mapM_cons {step : α → Lowering β} {item : α} {rest : List α} {values : List β} :
    Yields ((item :: rest).mapM step) state values after ↔
      ∃ value between others, Yields (step item) state value between ∧
        Yields (rest.mapM step) between others after ∧ values = value :: others := by
  simp only [List.mapM_cons, yields_bind, yields_pure]
  constructor
  · rintro ⟨value, between, first, others, later, remaining, rfl, rfl⟩
    exact ⟨value, between, others, first, remaining, rfl⟩
  · rintro ⟨value, between, others, first, remaining, rfl⟩
    exact ⟨value, between, first, others, after, remaining, rfl, rfl⟩

/-- A step for no item yields no value. -/
@[simp] theorem yields_mapM_nil {step : α → Lowering β} {values : List β} :
    Yields (([] : List α).mapM step) state values after ↔ values = [] ∧ after = state := by
  simp only [List.mapM_nil, yields_pure]

/-- Folding a step over a list runs it on one element after the other. -/
theorem yields_foldlM_cons {step : β → α → Lowering β} {item : α} {rest : List α} {start last : β} :
    Yields ((item :: rest).foldlM step start) state last after ↔
      ∃ next between, Yields (step start item) state next between ∧
        Yields (rest.foldlM step next) between last after := by
  simp only [List.foldlM_cons, yields_bind]

/-- A fold over no item yields its start. -/
@[simp] theorem yields_foldlM_nil {step : β → α → Lowering β} {start last : β} :
    Yields (([] : List α).foldlM step start) state last after ↔ last = start ∧ after = state := by
  simp only [List.foldlM_nil, yields_pure]

/-- A group is found in the level where it is located, and nothing changes. -/
theorem yields_group {label : String} {found : TableGroup} :
    Yields (group label) state found after ↔
      after = state ∧ ∃ level space, locate? state.scopes label = some (level, ⟨space, found⟩) := by
  simp only [group, yields_bind, yields_get]
  constructor
  · rintro ⟨_, _, ⟨rfl, rfl⟩, run⟩
    split at run
    · rename_i level entry located
      obtain ⟨rfl, rfl⟩ := yields_pure.mp run
      exact ⟨rfl, level, entry.space, located⟩
    · exact (yields_throw run).elim
  · rintro ⟨rfl, level, space, located⟩
    exact ⟨_, _, ⟨rfl, rfl⟩, by simp [located]⟩

/-- A name is known if a scope locates it. -/
@[simp] theorem yields_isKnown {label : String} {known : Bool} :
    Yields (isKnown label) state known after ↔
      known = (locate? state.scopes label).isSome ∧ after = state := by
  simp only [isKnown, yields_bind, yields_get, yields_pure]
  constructor
  · rintro ⟨_, _, ⟨rfl, rfl⟩, rfl, rfl⟩
    exact ⟨rfl, rfl⟩
  · rintro ⟨rfl, rfl⟩
    exact ⟨_, _, ⟨rfl, rfl⟩, rfl, rfl⟩

/-- Only the innermost level changes, and there has to be one. -/
theorem yields_changeScope {change : LoweringScope → LoweringScope} {value : Unit} :
    Yields (changeScope change) state value after ↔
      ∃ scope outer, state.scopes = scope :: outer ∧
        after = { state with scopes := change scope :: outer } := by
  simp only [changeScope, yields_bind, yields_get]
  constructor
  · rintro ⟨_, _, ⟨rfl, rfl⟩, run⟩
    split at run
    · exact (yields_throw run).elim
    · rename_i scope outer levels
      exact ⟨scope, outer, levels, yields_set.mp run⟩
  · rintro ⟨scope, outer, levels, rfl⟩
    exact ⟨_, _, ⟨rfl, rfl⟩, by simp [levels]⟩

/-- The innermost level is looked at, and nothing changes. -/
theorem yields_currentScope {found : LoweringScope} :
    Yields currentScope state found after ↔
      after = state ∧ ∃ outer, state.scopes = found :: outer := by
  simp only [currentScope, yields_bind, yields_get]
  constructor
  · rintro ⟨_, _, ⟨rfl, rfl⟩, run⟩
    split at run
    · exact (yields_throw run).elim
    · rename_i scope outer levels
      obtain ⟨rfl, rfl⟩ := yields_pure.mp run
      exact ⟨rfl, outer, levels⟩
  · rintro ⟨rfl, outer, levels⟩
    exact ⟨_, _, ⟨rfl, rfl⟩, by simp [levels]⟩

/-- A join is added in the level and the space of its owner. -/
theorem yields_attach {owner : String} {join : GroupJoin} {value : Unit} :
    Yields (attach owner join) state value after ↔
      ∃ level found, locate? state.scopes owner = some (level, found) ∧
        after = { state with
          scopes := state.scopes.modify level (·.addJoin found.space join) } := by
  simp only [attach, yields_bind, yields_get]
  constructor
  · rintro ⟨_, _, ⟨rfl, rfl⟩, run⟩
    split at run
    · exact (yields_throw run).elim
    · rename_i level found located
      exact ⟨level, found, located, yields_set.mp run⟩
  · rintro ⟨level, found, located, rfl⟩
    exact ⟨_, _, ⟨rfl, rfl⟩, by simp [located]⟩

/-- The next number is the counter, which goes up by one. -/
@[simp] theorem yields_nextIndexJoin {number : Nat} :
    Yields nextIndexJoin state number after ↔
      number = state.indexJoins ∧ after = { state with indexJoins := state.indexJoins + 1 } := by
  simp only [nextIndexJoin, yields_bind, yields_get, yields_set, yields_pure]
  constructor
  · rintro ⟨_, _, ⟨rfl, rfl⟩, _, _, rfl, rfl, rfl⟩
    exact ⟨rfl, rfl⟩
  · rintro ⟨rfl, rfl⟩
    exact ⟨_, _, ⟨rfl, rfl⟩, ⟨⟩, _, rfl, rfl, rfl⟩

/-- What is done in a new level runs with that level innermost; the level is taken off afterwards. -/
theorem yields_inScope {scope closed : LoweringScope} {body : Lowering α} {value : α} :
    Yields (inScope scope body) state (value, closed) after ↔
      ∃ inner, Yields body { state with scopes := scope :: state.scopes } value inner ∧
        inner.scopes = closed :: after.scopes ∧ inner.indexJoins = after.indexJoins := by
  simp only [inScope, yields_bind, yields_get, yields_modify]
  constructor
  · rintro ⟨_, _, rfl, result, inner, ran, _, _, ⟨rfl, rfl⟩, run⟩
    split at run
    · exact (yields_throw run).elim
    · rename_i innermost outer levels
      simp only [yields_bind, yields_set, yields_pure, Prod.mk.injEq] at run
      obtain ⟨_, _, rfl, ⟨rfl, rfl⟩, rfl⟩ := run
      exact ⟨_, ran, levels, rfl⟩
  · rintro ⟨inner, ran, levels, joined⟩
    refine ⟨⟨⟩, _, rfl, value, inner, ran, _, _, ⟨rfl, rfl⟩, ?_⟩
    simp only [levels, joined, yields_bind, yields_set, yields_pure]
    exact ⟨⟨⟩, _, rfl, trivial, rfl⟩

end ObjectQuery.Lowering

import Mathlib.Tactic.Abel
import ObjectQuery.Proofs.Lowering.Mirrored
import ObjectQuery.Proofs.Lowering.Placement
import ObjectQuery.Proofs.Resolved.Parameters
import ObjectQuery.Proofs.Sql.Placeholders
/-!
# Parameters on their way into SQL

A parameter ends up in the value that its expression is lowered to, or in the condition of a join of
one of the levels. `Collects` says that a step of the lowering loses none on this way and makes none
up: the parameters in its value and in the levels afterwards are those in the levels before and those
that the step has met.

A join is lost if it is put into a space that its level does not have. Levels are therefore settled:
they keep their groups inside their spaces. No step but the opening of a space changes how many spaces
there are.
-/
namespace ObjectQuery

open Sql

namespace LoweringScope

/-- The parameters of the conditions of all joins of a level. -/
def needs (scope : LoweringScope) : Multiset Parameter :=
  (scope.spaces.map TableSpace.needs).sum

/-- Every group of the level is in one of its spaces, and only joined groups have parameters. -/
structure IsSettled (scope : LoweringScope) : Prop where
  inside : ∀ entry ∈ scope.groups, entry.2.space < scope.spaces.length
  roots : ∀ root ∈ scope.spaces.map (·.root), root.needs = 0

variable {scope : LoweringScope} {space : Nat} {join : GroupJoin} {group : TableGroup}

/-- The empty scope is settled. -/
theorem isSettled_empty : LoweringScope.empty.IsSettled := by
  constructor <;> simp [empty]

/-- A group a settled scope finds lies in one of its spaces. -/
theorem IsSettled.find? (settled : scope.IsSettled) {label : String} {found : ScopedGroup}
    (known : scope.find? label = some found) : found.space < scope.spaces.length :=
  settled.inside _ (Lowering.find?_mem known)

/-- A group kept under a space there is keeps a scope settled. -/
theorem IsSettled.addGroup (settled : scope.IsSettled) (bound : space < scope.spaces.length) :
    (scope.addGroup space group).IsSettled :=
  ⟨List.forall_mem_cons.mpr ⟨bound, settled.inside⟩, settled.roots⟩

/-- A further space keeps a scope settled. -/
theorem IsSettled.addSpace (settled : scope.IsSettled) (plain : group.needs = 0) :
    (scope.addSpace group).IsSettled := by
  have longer : (scope.addSpace group).spaces.length = scope.spaces.length + 1 := by
    simp [LoweringScope.addSpace]
  constructor
  · intro entry member
    rw [longer]
    rcases List.mem_cons.mp member with rfl | earlier
    · exact Nat.lt_succ_self _
    · exact Nat.lt_succ_of_lt (settled.inside entry earlier)
  · rw [LoweringScope.addSpace, List.map_append, List.forall_mem_append]
    exact ⟨settled.roots, List.forall_mem_singleton.mpr plain⟩

/-- Joins may be put anywhere into a space. -/
theorem IsSettled.modify (settled : scope.IsSettled) (place : List GroupJoin → List GroupJoin) :
    IsSettled { scope with
      spaces := scope.spaces.modify space fun found => { found with joins := place found.joins } } := by
  have roots : (scope.spaces.modify space fun found => { found with joins := place found.joins }).map
      (·.root) = (scope.spaces.map (·.root)).modify space id := by
    apply map_modify
    intro found
    rfl
  constructor
  · intro entry member
    rw [List.length_modify]
    exact settled.inside entry member
  · rw [roots, List.modify_id]
    exact settled.roots

/-- A further join keeps a scope settled. -/
theorem IsSettled.addJoin (settled : scope.IsSettled) (bound : space < scope.spaces.length) :
    (scope.addJoin space join).IsSettled :=
  (settled.addGroup bound).modify (· ++ [join])

/-- A join put between others keeps a scope settled. -/
theorem IsSettled.insertJoin (settled : scope.IsSettled) (count : Nat) :
    (scope.insertJoin space count join).IsSettled :=
  settled.modify fun joins => joins.take count ++ join :: joins.drop count

/-- A settled level without joins has no parameters. -/
theorem IsSettled.needs_of_joinless (settled : scope.IsSettled)
    (joinless : ∀ space ∈ scope.spaces, space.joins = []) : scope.needs = 0 := by
  apply List.sum_eq_zero
  intro needs member
  obtain ⟨space, listed, rfl⟩ := List.mem_map.mp member
  rw [TableSpace.needs, joinless space listed,
    settled.roots space.root (List.mem_map_of_mem listed)]
  rfl

/-- One more join in one of the spaces, wherever it is put there. -/
theorem needs_modify (place : List GroupJoin → List GroupJoin) (bound : space < scope.spaces.length)
    (added : ∀ joins, ((place joins).map GroupJoin.needs).sum =
      (joins.map GroupJoin.needs).sum + join.needs) :
    ((scope.spaces.modify space fun found => { found with joins := place found.joins }).map
      TableSpace.needs).sum = scope.needs + join.needs := by
  obtain ⟨given, stored⟩ : ∃ given, scope.spaces[space]? = some given :=
    ⟨_, List.getElem?_eq_getElem bound⟩
  obtain ⟨front, back, whole, _, changed⟩ := Lowering.modify_around stored
  rw [changed, needs, whole]
  simp only [List.map_append, List.map_cons, List.sum_append, List.sum_cons, TableSpace.needs, added]
  abel

/-- A further join adds the parameters of its condition. -/
theorem needs_addJoin (bound : space < scope.spaces.length) :
    (scope.addJoin space join).needs = scope.needs + join.needs :=
  needs_modify (· ++ [join]) bound fun joins => by simp

/-- A join put between others adds the parameters of its condition. -/
theorem needs_insertJoin (bound : space < scope.spaces.length) (count : Nat) :
    (scope.insertJoin space count join).needs = scope.needs + join.needs := by
  refine needs_modify (fun joins => joins.take count ++ join :: joins.drop count) bound ?_
  intro joins
  have whole : ((joins.take count ++ joins.drop count).map GroupJoin.needs).sum =
      (joins.map GroupJoin.needs).sum := by rw [List.take_append_drop]
  rw [← whole]
  simp only [List.map_append, List.map_cons, List.sum_append, List.sum_cons]
  abel

/-- A further space adds the parameters of its root. -/
theorem needs_addSpace : (scope.addSpace group).needs = scope.needs + group.needs := by
  simp [needs, addSpace, TableSpace.needs]

end LoweringScope

namespace LoweringState

/-- The parameters of the conditions of all joins of all levels. -/
def needs (state : LoweringState) : Multiset Parameter :=
  (state.scopes.map LoweringScope.needs).sum

/-- The levels have that many spaces each and are settled. -/
structure HasShape (shape : List Nat) (state : LoweringState) : Prop where
  lengths : state.scopes.map (·.spaces.length) = shape
  settled : ∀ scope ∈ state.scopes, scope.IsSettled

end LoweringState

namespace Lowering

open Resolved (Segment Reference)

variable {α β : Type} {shape between after : List Nat} {view : α → Multiset Parameter}
  {viewNext : β → Multiset Parameter} {met total : Multiset Parameter}

/-- Started with levels of the one shape, the step leaves levels of the other. The parameters in the
levels and in the value that it gives are those that were in the levels before and those that it has met. -/
def Collects (shape after : List Nat) (view : α → Multiset Parameter)
    (met : Multiset Parameter) (step : Lowering α) : Prop :=
  ∀ ⦃state value later⦄, state.HasShape shape → Yields step state value later →
    later.HasShape after ∧ later.needs + view value = state.needs + met

/-- There are as many values as there were elements. -/
theorem length_of_mapM {step : α → Lowering β} {later : LoweringState} :
    ∀ {items : List α} {values : List β} {state : LoweringState},
      Yields (items.mapM step) state values later → values.length = items.length
  | [], values, state, run => by
    obtain ⟨rfl, _⟩ := yields_mapM_nil.mp run
    rfl
  | item :: rest, values, state, run => by
    obtain ⟨value, middle, others, _, remaining, rfl⟩ := yields_mapM_cons.mp run
    simp [length_of_mapM remaining]

namespace Collects

/-- The parameters collected may be named another way. -/
theorem congr {step : Lowering α} (collects : Collects shape after view met step)
    (same : met = total) : Collects shape after view total step := same ▸ collects

/-- A value is given with the parameters seen in it. -/
theorem pure {value : α} (same : view value = met) :
    Collects shape shape view met (Pure.pure value) := by
  intro state result later shaped run
  obtain ⟨rfl, rfl⟩ := yields_pure.mp run
  exact ⟨shaped, by rw [same]⟩

/-- A failure collects anything. -/
theorem throw {error : LoweringError} :
    Collects shape after view met (MonadExcept.throw error : Lowering α) := by
  intro state result later shaped run
  exact (yields_throw run).elim

/-- What the first step has put into its value, the second one has met. -/
theorem bind {first : Lowering α} {next : α → Lowering β} (rest : Multiset Parameter)
    (collects : Collects shape between view met first)
    (collectsNext : ∀ value, Collects between after viewNext (view value + rest) (next value)) :
    Collects shape after viewNext (met + rest) (first >>= next) := by
  intro state result later shaped run
  obtain ⟨value, middle, ran, ranNext⟩ := yields_bind.mp run
  obtain ⟨shapedMiddle, kept⟩ := collects shaped ran
  obtain ⟨shapedLater, keptLater⟩ := collectsNext value shapedMiddle ranNext
  refine ⟨shapedLater, ?_⟩
  rw [keptLater, ← add_assoc, kept, add_assoc]

/-- A value that is made from another one and has its parameters. -/
theorem map {step : Lowering α} {make : α → β} (collects : Collects shape after view met step)
    (same : ∀ value, viewNext (make value) = view value) :
    Collects shape after viewNext met (do
      let value ← step
      return make value) := by
  refine (bind 0 collects fun value => ?_).congr (add_zero _)
  exact pure ((same value).trans (add_zero _).symm)

/-- A value that is made from two others and has the parameters of both. -/
theorem pair {γ : Type} {viewLast : γ → Multiset Parameter} {first : Lowering α}
    {second : Lowering β} {make : α → β → γ} (collects : Collects shape between view met first)
    (collectsNext : Collects between after viewNext total second)
    (same : ∀ value other, viewLast (make value other) = view value + viewNext other) :
    Collects shape after viewLast (met + total) (do
      let value ← first
      let other ← second
      return make value other) := by
  refine bind _ collects fun value => ?_
  refine (bind (view value) collectsNext fun other => ?_).congr (add_comm _ _)
  exact pure ((same value other).trans (add_comm _ _))

/-- Nothing is collected behind a failure. -/
theorem bindThrow {error : LoweringError} {next : α → Lowering β} :
    Collects shape after viewNext met (MonadExcept.throw error >>= next) := by
  intro state result later shaped run
  obtain ⟨_, _, thrown, _⟩ := yields_bind.mp run
  exact (yields_throw thrown).elim

/-- A computation without levels puts nothing into them. -/
theorem bindLift {result : Except LoweringError α} {next : α → Lowering β}
    (collectsNext : ∀ value, result = .ok value → Collects shape after viewNext met (next value)) :
    Collects shape after viewNext met (liftM result >>= next) := by
  intro state value later shaped run
  obtain ⟨given, middle, lifted, ranNext⟩ := yields_bind.mp run
  obtain ⟨succeeded, rfl⟩ := yields_lift.mp lifted
  exact collectsNext given succeeded shaped ranNext

/-- A result that is there already holds what is seen in it. -/
theorem lift {result : Except LoweringError α}
    (same : ∀ value, result = .ok value → view value = met) :
    Collects shape shape view met (liftM result) := by
  intro state value later shaped run
  obtain ⟨succeeded, rfl⟩ := yields_lift.mp run
  exact ⟨shaped, by rw [same value succeeded]⟩

/-- Looking up a group collects nothing. -/
theorem group {label : String} : Collects shape shape (fun _ => 0) 0 (group label) := by
  intro state found later shaped run
  obtain ⟨rfl, _⟩ := yields_group.mp run
  exact ⟨shaped, rfl⟩

/-- The levels are only looked at. -/
theorem bindGroup {label : String} {next : TableGroup → Lowering β}
    (collectsNext : ∀ found, Collects shape after viewNext met (next found)) :
    Collects shape after viewNext met (Lowering.group label >>= next) := by
  intro state value later shaped run
  obtain ⟨found, middle, looked, ranNext⟩ := yields_bind.mp run
  obtain ⟨rfl, _⟩ := yields_group.mp looked
  exact collectsNext found shaped ranNext

/-- Asking for a name collects what the step behind it collects for either answer. -/
theorem bindKnown {label : String} {next : Bool → Lowering β}
    (collectsNext : ∀ known, Collects shape after viewNext met (next known)) :
    Collects shape after viewNext met (isKnown label >>= next) := by
  intro state value later shaped run
  obtain ⟨known, middle, looked, ranNext⟩ := yields_bind.mp run
  obtain ⟨_, rfl⟩ := yields_isKnown.mp looked
  exact collectsNext known shaped ranNext

/-- Drawing a number collects what the step behind it collects for any number. -/
theorem bindNumber {next : Nat → Lowering β}
    (collectsNext : ∀ number, Collects shape after viewNext met (next number)) :
    Collects shape after viewNext met (nextIndexJoin >>= next) := by
  intro state value later shaped run
  obtain ⟨number, middle, counted, ranNext⟩ := yields_bind.mp run
  obtain ⟨_, rfl⟩ := yields_nextIndexJoin.mp counted
  have counting : LoweringState.HasShape shape ⟨state.scopes, state.indexJoins + 1⟩ :=
    ⟨shaped.lengths, shaped.settled⟩
  obtain ⟨shapedLater, kept⟩ := collectsNext number counting ranNext
  exact ⟨shapedLater, kept⟩

/-- The innermost level is looked at, which has as many spaces as its shape says. -/
theorem bindScope {count : Nat} {next : LoweringScope → Lowering β}
    (collectsNext : ∀ scope : LoweringScope, scope.spaces.length = count →
      Collects (count :: shape) after viewNext met (next scope)) :
    Collects (count :: shape) after viewNext met (currentScope >>= next) := by
  intro state value later shaped run
  obtain ⟨scope, middle, looked, ranNext⟩ := yields_bind.mp run
  obtain ⟨rfl, outer, levels⟩ := yields_currentScope.mp looked
  have lengths := shaped.lengths
  rw [levels, List.map_cons] at lengths
  exact collectsNext scope (List.cons.inj lengths).1 shaped ranNext

/-- A step for each item collects what it does for each. -/
theorem mapM {step : α → Lowering β} {needs : α → Multiset Parameter} : ∀ {items : List α},
    (∀ item ∈ items, Collects shape shape viewNext (needs item) (step item)) →
      Collects shape shape (fun values => (values.map viewNext).sum) (items.map needs).sum
        (items.mapM step)
  | [], _ => by
    rw [List.mapM_nil]
    exact pure (by simp)
  | item :: later, collects => by
    rw [List.forall_mem_cons] at collects
    rw [List.mapM_cons, List.map_cons, List.sum_cons]
    exact pair collects.1 (mapM collects.2) fun value values => by simp

/-- A fold whose step collects nothing collects nothing. -/
theorem foldlM {step : β → α → Lowering β}
    (collects : ∀ start item, Collects shape shape (fun _ => 0) 0 (step start item)) :
    ∀ (items : List α) (start : β), Collects shape shape (fun _ => 0) 0 (items.foldlM step start)
  | [], start => by
    rw [List.foldlM_nil]
    exact pure rfl
  | item :: later, start => by
    rw [List.foldlM_cons]
    refine (bind 0 (collects start item) fun next => ?_).congr (add_zero _)
    exact (foldlM collects later next).congr (add_zero _).symm

/-- The innermost level changes, and gets what has been met. -/
theorem changeScope {count changed : Nat} {change : LoweringScope → LoweringScope}
    (changes : ∀ scope : LoweringScope, scope.spaces.length = count → scope.IsSettled →
      (change scope).spaces.length = changed ∧ (change scope).IsSettled ∧
        (change scope).needs = scope.needs + met) :
    Collects (count :: shape) (changed :: shape) (fun _ => 0) met (changeScope change) := by
  intro state value later shaped run
  obtain ⟨scope, outer, levels, rfl⟩ := yields_changeScope.mp run
  obtain ⟨lengths, settled⟩ := shaped
  rw [levels, List.map_cons] at lengths
  rw [levels, List.forall_mem_cons] at settled
  obtain ⟨first, others⟩ := List.cons.inj lengths
  obtain ⟨length, stays, kept⟩ := changes scope first settled.1
  refine ⟨⟨by simp [length, others], List.forall_mem_cons.mpr ⟨stays, settled.2⟩⟩, ?_⟩
  simp only [LoweringState.needs, levels, List.map_cons, List.sum_cons, kept]
  abel

/-- A join goes into the space of its owner, whichever level that is in. -/
theorem attach {owner : String} {join : GroupJoin} :
    Collects shape shape (fun _ => 0) join.needs (attach owner join) := by
  intro state value later shaped run
  obtain ⟨level, found, located, rfl⟩ := yields_attach.mp run
  obtain ⟨scope, listed, known⟩ := locate?_mem located
  obtain ⟨front, back, whole, _, changed⟩ := modify_around listed
  obtain ⟨lengths, settled⟩ := shaped
  rw [whole, List.forall_mem_append, List.forall_mem_cons] at settled
  obtain ⟨before, here, behind⟩ := settled
  have bound := here.find? known
  have same : (scope.addJoin found.space join).spaces.length = scope.spaces.length := by
    simp [LoweringScope.addJoin]
  refine ⟨⟨?_, ?_⟩, ?_⟩
  · rw [changed, ← lengths, whole]
    simp [same]
  · rw [changed, List.forall_mem_append, List.forall_mem_cons]
    exact ⟨before, here.addJoin bound, behind⟩
  · rw [LoweringState.needs, changed, LoweringState.needs, whole]
    simp only [List.map_append, List.map_cons, List.sum_append, List.sum_cons,
      LoweringScope.needs_addJoin bound]
    abel

/-- What is met in a new level ends up in the value or in that level. -/
theorem inScope {count : Nat} {scope : LoweringScope} {body : Lowering α} (empty : scope.needs = 0)
    (settled : scope.IsSettled)
    (collects : Collects (scope.spaces.length :: shape) (count :: shape) view met body) :
    Collects shape shape (fun result => view result.1 + result.2.needs) met
      (Lowering.inScope scope body) := by
  rintro state ⟨value, closed⟩ later shaped run
  obtain ⟨inner, ran, levels, _⟩ := yields_inScope.mp run
  have opened : LoweringState.HasShape (scope.spaces.length :: shape)
      { state with scopes := scope :: state.scopes } :=
    ⟨by simp [shaped.lengths], List.forall_mem_cons.mpr ⟨settled, shaped.settled⟩⟩
  obtain ⟨⟨lengths, stays⟩, kept⟩ := collects opened ran
  rw [levels, List.map_cons] at lengths
  rw [levels, List.forall_mem_cons] at stays
  refine ⟨⟨(List.cons.inj lengths).2, stays.2⟩, ?_⟩
  simp only [LoweringState.needs, levels, List.map_cons, List.sum_cons, empty, zero_add] at kept
  rw [LoweringState.needs, LoweringState.needs, ← kept]
  change _ + (view value + closed.needs) = _
  abel

end Collects

end Lowering
end ObjectQuery

import ObjectQuery.Proofs.Lowering.Arranged
import ObjectQuery.Proofs.Parts
import ObjectQuery.Proofs.Resolved.Parameters
/-!
# Changes to which nothing is joined

What a path in a change needs is joined where its source stands. So a path that leaves the target of the
change joins something to the target, from whatever level, and a join stays once it is there. While
nothing has been joined to it, the target is at rest: its level has one group, and the groups of the
levels inside are named after sources of these. A step spares the target if, from rest, it ends with
something joined to the target or at rest again; in the latter case one can tell what the step has not
done.
-/
namespace ObjectQuery

open Sql

/-- Something has been joined to one of the spaces of the level. -/
def LoweringScope.HasJoin (scope : LoweringScope) : Prop := ∃ space ∈ scope.spaces, space.joins ≠ []

/-- A scope with a join has one after another is added. -/
theorem LoweringScope.HasJoin.addJoin {scope : LoweringScope} (joined : scope.HasJoin) (number : Nat)
    (join : GroupJoin) : (scope.addJoin number join).HasJoin := by
  obtain ⟨space, there, filled⟩ := joined
  obtain ⟨position, stored⟩ := List.getElem?_of_mem there
  refine ⟨if number = position then ⟨space.root, space.joins ++ [join]⟩ else space, ?_, ?_⟩
  · refine List.mem_of_getElem? (i := position) ?_
    rw [LoweringScope.addJoin, List.getElem?_modify, stored]
    split <;> rfl
  · split
    · simp
    · exact filled

namespace Lowering

open Resolved (Segment Reference FromNode FromSpace Trail segmentNodes indexNodes filterNodes joinNodes
  spaceNodes queryNodes filterSources joinSources spaceSources querySources trailsOf originTrails
  filterTrails joinTrails spaceTrails queryTrails FilterWritesAll JoinsWriteAll SpacesWriteAll
  QueryWritesAll)

variable {α β : Type} {context : LoweringContext} {target : TableGroup} {nested : List String}
  {depth : Nat} {scopes : List LoweringScope}

/-! ## At rest, and no longer so -/

/-- So many levels inside the level of a change, and something joined there. -/
inductive Disturbed : Nat → List LoweringScope → Prop where
  | target {scope : LoweringScope} (joined : scope.HasJoin) : Disturbed 0 [scope]
  | level {depth : Nat} {scope : LoweringScope} {outer : List LoweringScope}
      (around : Disturbed depth outer) : Disturbed (depth + 1) (scope :: outer)

/-- So many levels inside the level of a change, in which there is only the target. -/
inductive Resting (target : TableGroup) (nested : List String) : Nat → List LoweringScope → Prop where
  | target : Resting target nested 0 [LoweringScope.empty.addSpace target]
  | level {depth : Nat} {scope : LoweringScope} {outer : List LoweringScope}
      (named : ∀ entry ∈ scope.groups, NamedAfter nested entry.1)
      (around : Resting target nested depth outer) : Resting target nested (depth + 1) (scope :: outer)

/-- The source is none of the others, and all are plain names. -/
structure Apart (label : String) (nested : List String) : Prop where
  plain : IsPlainName label
  others : ∀ source ∈ nested, IsPlainName source ∧ source ≠ label

/-- A name that leads on from a plain one tells it. -/
theorem eq_of_onwards {first second rest more : String} (plain : IsPlainName first)
    (plain' : IsPlainName second) (same : first ++ "." ++ rest = second ++ "." ++ more) :
    first = second := by
  have lists := congrArg (fun name : String => name.toList.takeWhile (· != '.')) same
  have before {name further : String} (plain : IsPlainName name) :
      (name ++ "." ++ further).toList.takeWhile (· != '.') = name.toList := by
    have dotless : ∀ c ∈ name.toList, (c != '.') = true := by
      intro c member
      have := plain c member
      simp_all [isJoiner]
    rw [String.append_assoc, String.toList_append, List.takeWhile_append_of_pos dotless]
    simp
  simp only [before plain, before plain'] at lists
  exact String.toList_inj.mp lists

/-- No group that is named after the others leads on from the source. -/
theorem Apart.onwards {label rest : String} (apart : Apart label nested) :
    ¬ NamedAfter nested (label ++ "." ++ rest) := by
  rintro ⟨source, listed, same | ⟨more, same⟩⟩
  · refine Route.not_mem_of_isPlainName (apart.others source listed).1 (c := '.') rfl ?_
    simp [← same]
  · exact (apart.others source listed).2
      (eq_of_onwards apart.plain (apart.others source listed).1 same).symm

/-- A label kept apart is not named after a nested one. -/
theorem Apart.itself {label : String} (apart : Apart label nested) : ¬ NamedAfter nested label := by
  rintro ⟨source, listed, same | ⟨more, same⟩⟩
  · exact (apart.others source listed).2 same.symm
  · refine Route.not_mem_of_isPlainName apart.plain (c := '.') rfl ?_
    simp [same]

/-- More joins leave a change disturbed. -/
theorem Disturbed.attach (disturbed : Disturbed depth scopes) (level number : Nat)
    (join : GroupJoin) : Disturbed depth (scopes.modify level (·.addJoin number join)) := by
  induction disturbed generalizing level with
  | target joined =>
    cases level with
    | zero => exact .target (joined.addJoin number join)
    | succ level => simpa using Disturbed.target joined
  | level around ih =>
    cases level with
    | zero => exact .level around
    | succ level => exact .level (ih level)

/-- The level of a change has the group of its target and no other. -/
theorem locate?_target {owner : String} {level : Nat} {found : ScopedGroup}
    (located : locate? [LoweringScope.empty.addSpace target] owner = some (level, found)) :
    level = 0 ∧ owner = target.label ∧ found = ⟨0, target⟩ := by
  obtain ⟨scope, stored, known⟩ := locate?_mem located
  have first := (List.getElem?_eq_some_iff.mp stored).1
  obtain rfl := List.mem_singleton.mp (List.mem_of_getElem? stored)
  obtain ⟨rfl, rfl⟩ := Prod.mk.inj (List.mem_singleton.mp (find?_mem known))
  exact ⟨by simpa using first, rfl, rfl⟩

/-- The groups that are known while the target is at rest. -/
theorem Resting.located (resting : Resting target nested depth scopes) {owner : String} {level : Nat}
    {found : ScopedGroup} (located : locate? scopes owner = some (level, found)) :
    owner = target.label ∨ NamedAfter nested owner := by
  induction resting generalizing level with
  | target => exact .inl (locate?_target located).2.1
  | level named around ih =>
    rw [locate?_cons] at located
    split at located
    · rename_i known
      exact .inr (named _ (find?_mem known))
    · obtain ⟨⟨further, entry⟩, there, same⟩ := Option.map_eq_some_iff.mp located
      obtain ⟨_, rfl⟩ := Prod.mk.inj same
      exact ih there

/-- A join that is named after its owner leaves the target at rest only if the owner is another group. -/
theorem Resting.attach (resting : Resting target nested depth scopes) {owner rest : String} {level : Nat}
    {found : ScopedGroup} {join : GroupJoin} (located : locate? scopes owner = some (level, found))
    (label : join.group.label = owner ++ "." ++ rest) :
    Disturbed depth (scopes.modify level (·.addJoin found.space join)) ∨
      Resting target nested depth (scopes.modify level (·.addJoin found.space join)) ∧
        NamedAfter nested owner := by
  induction resting generalizing level with
  | target =>
    obtain ⟨rfl, _, rfl⟩ := locate?_target located
    exact .inl (.target ⟨⟨target, [join]⟩, by simp [LoweringScope.addJoin, LoweringScope.addSpace,
      LoweringScope.empty], by simp⟩)
  | level named around ih =>
    rw [locate?_cons] at located
    split at located
    · rename_i known
      obtain ⟨rfl, rfl⟩ := Prod.mk.inj (Option.some.inj located)
      have ownerNamed := named _ (find?_mem known)
      refine .inr ⟨.level (List.forall_mem_cons.mpr ⟨?_, named⟩) around, ownerNamed⟩
      exact label ▸ ownerNamed.extend rest
    · obtain ⟨⟨further, entry⟩, there, same⟩ := Option.map_eq_some_iff.mp located
      obtain ⟨rfl, rfl⟩ := Prod.mk.inj same
      exact (ih there).imp .level fun calm => ⟨.level named calm.1, calm.2⟩

/-! ## Steps that spare the target -/

/-- A change stays disturbed, and from rest the step ends with the change disturbed, or at rest and
with a good result. -/
def Spares (target : TableGroup) (nested : List String) (depth : Nat) (step : Lowering α)
    (good : α → Prop) : Prop :=
  ∀ ⦃state value after⦄, Yields step state value after →
    (Disturbed depth state.scopes → Disturbed depth after.scopes) ∧
    (Resting target nested depth state.scopes →
      Disturbed depth after.scopes ∨ Resting target nested depth after.scopes ∧ good value)

namespace Spares

variable {good : α → Prop} {fine : β → Prop}

/-- A step that leaves the levels alone. -/
theorem same {step : Lowering α} (keeps : ∀ ⦃state value after⦄, Yields step state value after →
      after.scopes = state.scopes ∧ (Resting target nested depth state.scopes → good value)) :
    Spares target nested depth step good := by
  intro state value after run
  obtain ⟨scopes, isGood⟩ := keeps run
  rw [scopes]
  exact ⟨id, fun resting => .inr ⟨resting, isGood resting⟩⟩

/-- A good value is given without touching the target. -/
theorem pure {value : α} (isGood : good value) : Spares target nested depth (Pure.pure value) good :=
  same fun _ _ _ run => by
    obtain ⟨rfl, rfl⟩ := yields_pure.mp run
    exact ⟨rfl, fun _ => isGood⟩

/-- A failure touches nothing. -/
theorem throw {error : LoweringError} : Spares target nested depth (throw error) good :=
  fun _ _ _ run => (yields_throw run).elim

/-- A result that is there already touches nothing. -/
theorem lift {result : Except LoweringError α} :
    Spares target nested depth (liftM result) fun value => result = .ok value :=
  same fun _ _ _ run => by
    obtain ⟨succeeded, rfl⟩ := yields_lift.mp run
    exact ⟨rfl, fun _ => succeeded⟩

/-- A computation without state may be looked at before going on. -/
theorem bindLift {result : Except LoweringError α} {next : α → Lowering β}
    (sparesNext : ∀ value, result = .ok value → Spares target nested depth (next value) fine) :
    Spares target nested depth (liftM result >>= next) fine := by
  intro state value after run
  obtain ⟨found, _, ran, ranNext⟩ := yields_bind.mp run
  obtain ⟨succeeded, rfl⟩ := yields_lift.mp ran
  exact sparesNext found succeeded ranNext

/-- What is known of the first result can be used for the second, since it is known whenever the second
counts. -/
theorem bind {first : Lowering α} {next : α → Lowering β}
    (spares : Spares target nested depth first good)
    (sparesNext : ∀ value, Spares target nested depth (next value) fun result =>
      good value → fine result) : Spares target nested depth (first >>= next) fine := by
  intro state result after run
  obtain ⟨value, between, ran, ranNext⟩ := yields_bind.mp run
  obtain ⟨disturbed, rested⟩ := spares ran
  obtain ⟨disturbedNext, restedNext⟩ := sparesNext value ranNext
  refine ⟨fun start => disturbedNext (disturbed start), fun start => ?_⟩
  rcases rested start with stirred | ⟨calm, isGood⟩
  · exact .inl (disturbedNext stirred)
  · exact (restedNext calm).imp id fun ⟨still, isFine⟩ => ⟨still, isFine isGood⟩

/-- Less may be said of the value. -/
theorem weaken {step : Lowering α} {better : α → Prop} (spares : Spares target nested depth step better)
    (enough : ∀ value, better value → good value) : Spares target nested depth step good := by
  intro state value after run
  obtain ⟨disturbed, rested⟩ := spares run
  exact ⟨disturbed, fun start => (rested start).imp id fun ⟨calm, isBetter⟩ =>
    ⟨calm, enough value isBetter⟩⟩

/-- What holds of the result has also come about in a run. -/
theorem ran {step : Lowering α} (spares : Spares target nested depth step good) :
    Spares target nested depth step fun value =>
      good value ∧ ∃ before after, Yields step before value after := by
  intro state value after run
  obtain ⟨disturbed, rested⟩ := spares run
  exact ⟨disturbed, fun start => (rested start).imp id fun ⟨calm, isGood⟩ =>
    ⟨calm, isGood, state, after, run⟩⟩

/-- What holds of each item and its result after their step holds of them in the end. -/
theorem mapM {step : α → Lowering β} {related : α → β → Prop} : ∀ items : List α,
    (∀ item ∈ items, Spares target nested depth (step item) (related item)) →
      Spares target nested depth (items.mapM step) (List.Forall₂ related items)
  | [], _ => by
    rw [List.mapM_nil]
    exact pure .nil
  | item :: rest, spares => by
    obtain ⟨here, others⟩ := List.forall_mem_cons.mp spares
    rw [List.mapM_cons]
    exact bind here fun value => bind (mapM rest others) fun values => pure fun relate relates =>
      .cons relates relate

/-- What holds of each item after its step holds of all items in the end. -/
theorem each {step : α → Lowering β} {holds : α → Prop} (items : List α)
    (spares : ∀ item ∈ items, Spares target nested depth (step item) fun _ => holds item) :
    Spares target nested depth (items.mapM step) fun _ => ∀ item ∈ items, holds item :=
  weaken (mapM items spares) fun _ paired _ listed =>
    let ⟨_, _, held⟩ := exists_of_forall₂ paired.flip listed
    held

/-- Looking up a group touches nothing. -/
theorem group {label : String} : Spares target nested depth (group label) fun _ => True :=
  same fun _ _ _ run => by
    obtain ⟨rfl, _⟩ := yields_group.mp run
    exact ⟨rfl, fun _ => trivial⟩

/-- Reading the innermost scope touches nothing. -/
theorem currentScope : Spares target nested depth currentScope fun _ => True :=
  same fun _ _ _ run => by
    obtain ⟨rfl, _⟩ := yields_currentScope.mp run
    exact ⟨rfl, fun _ => trivial⟩

/-- Drawing the next number touches nothing. -/
theorem nextIndexJoin : Spares target nested depth nextIndexJoin fun _ => True :=
  same fun _ _ _ run => by
    obtain ⟨_, rfl⟩ := yields_nextIndexJoin.mp run
    exact ⟨rfl, fun _ => trivial⟩

/-- A known name is that of the target or named after a nested source. -/
theorem isKnown {label : String} : Spares target nested depth (isKnown label) fun known =>
    known = true → label = target.label ∨ NamedAfter nested label :=
  same fun _ _ _ run => by
    obtain ⟨rfl, rfl⟩ := yields_isKnown.mp run
    refine ⟨rfl, fun resting known => ?_⟩
    obtain ⟨⟨level, found⟩, located⟩ := Option.isSome_iff_exists.mp known
    exact resting.located located

/-- A join is attached behind a source that is not the target. -/
theorem attach {owner : String} (rest : String) {join : GroupJoin}
    (label : join.group.label = owner ++ "." ++ rest) :
    Spares target nested depth (attach owner join) fun _ => NamedAfter nested owner := by
  intro state value after run
  obtain ⟨level, found, located, rfl⟩ := yields_attach.mp run
  exact ⟨fun disturbed => disturbed.attach level found.space join,
    fun resting => resting.attach located label⟩

/-- A change to a level inside that adds only groups of sources there. -/
theorem changeScope {change : LoweringScope → LoweringScope} (adds : ∀ scope, ∀ entry ∈
      (change scope).groups, entry ∈ scope.groups ∨ NamedAfter nested entry.1) :
    Spares target nested (depth + 1) (changeScope change) fun _ => True := by
  intro state value after run
  obtain ⟨scope, outer, levels, rfl⟩ := yields_changeScope.mp run
  rw [levels]
  constructor
  · rintro (_ | around)
    exact .level around
  · rintro (_ | ⟨named, around⟩)
    refine .inr ⟨.level (fun entry member => ?_) around, trivial⟩
    exact (adds scope entry member).elim (named entry) id

/-- What is done in a level of its own spares the target if it does so with one more level inside. -/
theorem inScope {body : Lowering α} (spares : Spares target nested (depth + 1) body good) :
    Spares target nested depth (inScope .empty body) fun result => good result.1 := by
  rintro state ⟨value, closed⟩ after run
  obtain ⟨inner, ran, levels, _⟩ := yields_inScope.mp run
  obtain ⟨disturbed, rested⟩ := spares ran
  rw [levels] at disturbed rested
  constructor
  · intro start
    obtain _ | around := disturbed (.level start)
    exact around
  · intro start
    rcases rested (.level nofun start) with (_ | around) | ⟨_ | ⟨_, around⟩, isGood⟩
    · exact .inl around
    · exact .inr ⟨around, isGood⟩

end Spares

/-! ## Expressions -/

/-- None of the expressions is a path that leaves the source. -/
def Stays (label : String) (nodes : List Resolved.Expr) : Prop :=
  ∀ node ∈ nodes, node.departure? ≠ some label

/-- Two lists of nodes stay at a label if both do. -/
theorem stays_append {label : String} {first second : List Resolved.Expr} :
    Stays label (first ++ second) ↔ Stays label first ∧ Stays label second := List.forall_mem_append

/-- A path stays with a source if it has one attribute without an index, or another source. -/
theorem stays_path {label : String} {reference : Reference Resolved.Expr}
    (segments : Stays label (segmentNodes reference.init))
    (index : Stays label (indexNodes reference.last.index))
    (stays : reference.source = label → reference.init = [] ∧ reference.last.index = none) :
    Stays label (Resolved.Expr.path reference).nodes := by
  obtain ⟨source, sourceType, init, ⟨name, declared, place, after⟩⟩ := reference
  rw [Resolved.Expr.nodes]
  refine List.forall_mem_cons.mpr ⟨fun departs => ?_, stays_append.mpr ⟨segments, index⟩⟩
  simp only [Resolved.Expr.departure?] at departs
  split at departs
  · cases departs
  · rename_i leaves
    obtain ⟨rfl, rfl⟩ := stays (Option.some.inj departs)
    exact leaves rfl

/-- An association of the target cannot be gone through without a join to the target. -/
theorem toOneJoin_spares (apart : Apart target.label nested) {owner label : String} :
    Spares target nested depth (toOneJoin context owner label) fun _ => owner ≠ target.label := by
  rw [toOneJoin]
  refine .bind .isKnown fun known => ?_
  split
  · rename_i isKnown
    refine .pure fun named same => ?_
    rcases named isKnown with equal | named
    · refine Route.not_mem_of_isPlainName apart.plain (c := '.') rfl ?_
      simp [← equal]
    · exact apart.onwards (same ▸ named)
  · refine .bind .group fun _ => .bind .lift fun _ => .bind .lift fun _ => .bindLift fun group built => ?_
    refine .bindLift fun join joined => .bind (.attach label ?_) fun _ => .pure ?_
    · rw [groupJoin_ok joined]
      exact tableGroup_label built
    · rintro named _ _ _ _ rfl
      exact apart.itself named

/-- An element of a collection of the target cannot be selected without a join to the target. -/
theorem indexJoin_spares (apart : Apart target.label nested) {owner label : String} {type : DataType}
    {index : Sql.Expr} :
    Spares target nested depth (indexJoin context owner label type index) fun _ =>
      owner ≠ target.label := by
  rw [indexJoin]
  refine .bind .lift fun _ => .bind .nextIndexJoin fun number => .bind .group fun _ =>
    .bind .lift fun _ => .bind .lift fun _ => .bindLift fun group built => .bindLift fun join joined => ?_
  refine .bind (.attach (label ++ "[" ++ toString number ++ "]") ?_) fun _ => .pure ?_
  · rw [groupJoin_ok joined, tableGroup_label built]
    simp only [String.append_assoc]
  · rintro named _ _ _ _ _ rfl
    exact apart.itself named

/-- A step into a path does not depart from the target. -/
theorem step_spares (apart : Apart target.label nested) {owner label : String} {type : DataType} :
    ∀ {index : Option Sql.Expr}, Spares target nested depth (step context owner label type index)
      fun _ => owner ≠ target.label
  | some _ => indexJoin_spares apart
  | none => toOneJoin_spares apart

/-- The column of an attribute touches nothing. -/
theorem columnValue_spares {dotted owner label : String} {type : DataType} :
    Spares target nested depth (columnValue dotted owner label type) fun _ => True := by
  rw [columnValue]
  split
  · exact fun _ _ _ run => (by simp at run)
  · exact .bind .group fun _ => .weaken .lift fun _ _ _ => trivial

mutual

/-- An expression that spares the target has no path that leaves it.

Proof: by recursion over the expression. To leave the target, a path has to raise a join. -/
theorem expr_spares (apart : Apart target.label nested) : ∀ given : Resolved.Expr,
    Spares target nested depth (expr context given) fun _ => Stays target.label given.nodes
  | .path ⟨source, sourceType, init, ⟨label, declared, index, after⟩, type⟩ => by
    rw [expr]
    refine .bind (navigate_spares apart init source) fun owner =>
      .bind (optional_spares apart index) fun position => ?_
    cases position with
    | some value =>
      refine .bind (indexJoin_spares apart) fun element => .bind .group fun _ => .pure ?_
      rintro _ leaves ⟨stays, _⟩ ⟨walked, remains, steps⟩
      refine stays_path walked stays fun here => ?_
      obtain rfl : init = [] := by_contra fun further => steps further here
      exact (leaves ((remains rfl).trans here)).elim
    | none =>
      refine .weaken columnValue_spares fun _ _ ⟨stays, unindexed⟩ ⟨walked, _, steps⟩ => ?_
      refine stays_path walked stays fun here => ⟨by_contra fun further => steps further here, ?_⟩
      cases index with
      | none => rfl
      | some given => cases unindexed
  | .element label type => by
    rw [expr]
    exact .bind .group fun _ => .pure fun _ => by
      simp [Stays, Resolved.Expr.nodes, Resolved.Expr.departure?]
  | .literal value => by
    rw [expr]
    exact .weaken .lift fun _ _ => by simp [Stays, Resolved.Expr.nodes, Resolved.Expr.departure?]
  | .parameter bound => by
    rw [expr]
    exact .pure (by simp [Stays, Resolved.Expr.nodes, Resolved.Expr.departure?])
  | .arithmetic op left right type => by
    rw [expr]
    refine .bind (expr_spares apart left) fun _ => .bind (expr_spares apart right) fun _ =>
      .pure fun stays stays' => ?_
    rw [Resolved.Expr.nodes]
    exact List.forall_mem_cons.mpr ⟨nofun, stays_append.mpr ⟨stays', stays⟩⟩
  | .negate operand => by
    rw [expr]
    refine .bind (expr_spares apart operand) fun _ => .pure fun stays => ?_
    rw [Resolved.Expr.nodes]
    exact List.forall_mem_cons.mpr ⟨nofun, stays⟩
  | .call function distinct argument type => by
    rw [expr]
    refine .bind (optional_spares apart argument) fun _ => .weaken .lift fun _ _ ⟨stays, _⟩ => ?_
    rw [Resolved.Expr.nodes]
    exact List.forall_mem_cons.mpr ⟨nofun, stays⟩

/-- So has an index or an argument, if there is one. -/
theorem optional_spares (apart : Apart target.label nested) : ∀ given : Option Resolved.Expr,
    Spares target nested depth (optional context given) fun value =>
      Stays target.label (indexNodes given) ∧ value.isSome = given.isSome
  | none => by
    rw [optional]
    exact .pure ⟨nofun, rfl⟩
  | some given => by
    rw [optional]
    exact .bind (expr_spares apart given) fun _ => .pure fun stays => ⟨stays, rfl⟩

/-- Segments that spare the target start from another source, if there are any. -/
theorem navigate_spares (apart : Apart target.label nested) :
    ∀ (segments : List (Segment Resolved.Expr)) (owner : String),
      Spares target nested depth (navigate context segments owner) fun reached =>
      Stays target.label (segmentNodes segments) ∧ (segments = [] → reached = owner) ∧
        (segments ≠ [] → owner ≠ target.label)
  | [], owner => by
    rw [navigate]
    exact .pure ⟨nofun, fun _ => rfl, fun further => (further rfl).elim⟩
  | ⟨label, declared, index, after⟩ :: rest, owner => by
    rw [navigate]
    refine .bind (optional_spares apart index) fun _ => .bind (step_spares apart) fun next =>
      .weaken (navigate_spares apart rest next) fun _ ⟨further, _⟩ elsewhere ⟨stays, _⟩ => ?_
    exact ⟨stays_append.mpr ⟨stays, further⟩, nofun, fun _ => elsewhere⟩

end

/-! ## Conditions and queries -/

/-- No path among the expressions and no trail leaves the source of that name. -/
structure LeavesAlone (label : String) (nodes : List Resolved.Expr) (trails : List Trail) : Prop where
  paths : Stays label nodes
  trails : ∀ trail ∈ trails, trail.departure? ≠ some label

namespace LeavesAlone

variable {label : String} {nodes more : List Resolved.Expr} {trails others : List Trail}

/-- Two stretches leave a label alone if both do. -/
theorem append (first : LeavesAlone label nodes trails) (second : LeavesAlone label more others) :
    LeavesAlone label (nodes ++ more) (trails ++ others) :=
  ⟨stays_append.mpr ⟨first.paths, second.paths⟩,
    List.forall_mem_append.mpr ⟨first.trails, second.trails⟩⟩

/-- A source that is left alone is none of those that are left. -/
theorem departures {given : Resolved.Statement} (alone : LeavesAlone label given.nodes given.trails) :
    label ∉ given.departures := by
  simp only [Resolved.Statement.departures, List.mem_append, List.mem_filterMap]
  rintro (⟨expr, listed, departs⟩ | ⟨trail, listed, departs⟩)
  · exact alone.paths expr listed departs
  · exact alone.trails trail listed departs

/-- Steps along trails leave their source unless there are none. -/
theorem steps {root : String} {path : List String} (stays : path ≠ [] → root ≠ label) :
    ∀ trail ∈ (Trail.start root).steps path, trail.departure? ≠ some label := by
  intro trail member departs
  rw [Trail.departure?] at departs
  split at departs
  · cases departs
  · rename_i further
    have same : trail.root = root := Trail.root_of_mem_steps member
    refine stays ?_ (same.symm.trans (Option.some.inj departs))
    rintro rfl
    obtain rfl := List.mem_singleton.mp member
    exact further rfl

/-- The trails of expressions do not leave a source that the expressions do not leave. -/
theorem values (stays : Stays label nodes) : LeavesAlone label nodes (trailsOf nodes) := by
  refine ⟨stays, List.forall_mem_flatMap.mpr fun node listed => ?_⟩
  have here := stays node listed
  cases node with
  | path reference =>
    obtain ⟨source, sourceType, init, last, type⟩ := reference
    refine steps fun further same => here ?_
    cases init with
    | nil => exact (further rfl).elim
    | cons first rest => exact congrArg some same
  | element name type => exact steps fun further => (further rfl).elim
  | _ => exact nofun

/-- So it is with the values of several items. -/
theorem flatMap {items : List α} {value : α → Resolved.Expr}
    (each : ∀ item ∈ items, Stays label (value item).nodes) :
    LeavesAlone label (items.flatMap fun item => (value item).nodes)
      (items.flatMap fun item => (value item).trails) := by
  have all := values (List.forall_mem_flatMap.mpr each)
  rwa [trailsOf, List.flatMap_assoc] at all

end LeavesAlone

/-- Associations one after the other start from another source than the target, if there are any. -/
theorem toOneJoins_spares (apart : Apart target.label nested) : ∀ (path : List String) (owner : String),
    Spares target nested depth (path.foldlM (toOneJoin context) owner) fun _ =>
      path ≠ [] → owner ≠ target.label
  | [], owner => by
    rw [List.foldlM_nil]
    exact .pure fun further => (further rfl).elim
  | label :: rest, owner => by
    rw [List.foldlM_cons]
    exact .bind (toOneJoin_spares apart) fun next =>
      .weaken (toOneJoins_spares apart rest next) fun _ _ elsewhere _ => elsewhere

/-- A join along a path that spares the target does not go through its associations. -/
theorem impliedCondition_spares (apart : Apart target.label nested) (origin : FromOrigin)
    (group : TableGroup) : Spares target nested depth (impliedCondition context origin group) fun _ =>
      ∀ trail ∈ originTrails origin, trail.departure? ≠ some target.label := by
  unfold impliedCondition
  split
  · rename_i owner path plural
    suffices walks : Spares target nested depth
        (associationCondition context owner path plural group) fun _ =>
          path.dropLast ≠ [] → owner ≠ target.label from
      .bind walks fun _ => .pure LeavesAlone.steps
    rw [associationCondition]
    split
    · exact .throw
    · refine .bind (toOneJoins_spares apart path.dropLast owner) fun _ => .bind .group fun _ => ?_
      split
      · exact .bind .lift fun _ => .pure fun _ _ walked => walked
      · exact .bind .lift fun _ => .pure fun _ _ walked => walked
  · exact .pure nofun
  · exact .pure nofun

/-- A test for membership that spares the target has no path that leaves it. -/
theorem memberOf_spares (apart : Apart target.label nested) (element : Resolved.Expr)
    {collection : Reference Resolved.Expr} (unindexed : collection.last.index = none) (negated : Bool) :
    Spares target nested depth (memberOf context element collection negated) fun _ =>
      Stays target.label (element.nodes ++ (Resolved.Expr.path collection).nodes) := by
  rw [memberOf]
  refine .bind (expr_spares apart element) fun _ =>
    .bind (navigate_spares apart collection.init collection.source) fun owner => ?_
  split
  · refine .bind .group fun _ => .bind .lift fun _ => .bind .lift fun _ => .pure ?_
    rintro _ _ _ ⟨walked, _, steps⟩ stays
    refine stays_append.mpr ⟨stays, stays_path walked (by simp [unindexed, indexNodes, Stays]) ?_⟩
    exact fun here => ⟨by_contra fun further => steps further here, unindexed⟩
  · exact .throw

/-- A selection of a sub-query stays at the target. -/
theorem innerSelection_spares (apart : Apart target.label nested) (selection : Resolved.Selection) :
    Spares target nested depth (innerSelection context selection) fun _ =>
      Stays target.label selection.expr.nodes := by
  rw [innerSelection]
  exact .bind (expr_spares apart selection.expr) fun _ => .pure id

mutual

/-- A predicate that spares the target leaves it alone.

Proof: by recursion over the predicate. A step that joins something to the target leaves it
disturbed for good; otherwise it is at rest again, and no path has left it. -/
theorem predicate_spares (apart : Apart target.label nested) : ∀ (given : Resolved.Predicate) {depth : Nat},
    given.sources.map (·.label) ⊆ nested → given.WritesAll →
      Spares target nested depth (predicate context given) fun _ =>
        LeavesAlone target.label given.nodes given.trails
  | .and left right, depth, listed, writes | .or left right, depth, listed, writes => by
    simp only [Resolved.Predicate.sources, List.map_append, List.append_subset] at listed
    obtain ⟨writesLeft, writesRight⟩ := writes
    rw [predicate]
    refine .bind (predicate_spares apart left listed.1 writesLeft) fun _ =>
      .bind (predicate_spares apart right listed.2 writesRight) fun _ => .pure fun second first => ?_
    simpa only [Resolved.Predicate.nodes, Resolved.Predicate.trails] using first.append second
  | .not operand, depth, listed, writes => by
    rw [predicate]
    exact .bind (predicate_spares apart operand listed writes) fun _ => .pure id
  | .compare op left right, depth, listed, writes => by
    rw [predicate]
    refine .bind (expr_spares apart left) fun _ => .bind (expr_spares apart right) fun _ =>
      .pure fun second first => ?_
    exact (LeavesAlone.values first).append (.values second)
  | .inList test values negated, depth, listed, writes => by
    rw [predicate]
    refine .bind (expr_spares apart test) fun _ =>
      .bind (.each values fun item _ => expr_spares apart item) fun _ => .pure fun all first => ?_
    exact (LeavesAlone.values first).append (.flatMap all)
  | .inQuery test query negated, depth, listed, writes => by
    rw [predicate]
    refine .bind (expr_spares apart test) fun _ =>
      .bind (subQuery_spares apart query listed writes) fun _ => .pure fun second first => ?_
    exact (LeavesAlone.values first).append second
  | .memberOf element collection negated, depth, listed, writes => by
    rw [predicate]
    refine .weaken (memberOf_spares apart element writes negated) fun _ stays => ?_
    obtain ⟨first, second⟩ := stays_append.mp stays
    exact (LeavesAlone.values first).append (.values second)
  | .isNull operand negated, depth, listed, writes => by
    rw [predicate]
    exact .bind (expr_spares apart operand) fun _ => .pure .values
  | .like operand pattern negated, depth, listed, writes => by
    rw [predicate]
    refine .bind (expr_spares apart operand) fun _ => .bind (expr_spares apart pattern) fun _ =>
      .pure fun second first => ?_
    exact (LeavesAlone.values first).append (.values second)
  | .between operand low high negated, depth, listed, writes => by
    rw [predicate]
    refine .bind (expr_spares apart operand) fun _ => .bind (expr_spares apart low) fun _ =>
      .bind (expr_spares apart high) fun _ => .pure fun third second first => ?_
    exact ((LeavesAlone.values first).append (.values second)).append (.values third)

/-- So does a condition, if there is one. -/
theorem filter_spares (apart : Apart target.label nested) :
    ∀ (given : Option Resolved.Predicate) {depth : Nat},
      (filterSources given).map (·.label) ⊆ nested → FilterWritesAll given →
        Spares target nested depth (filter context given) fun _ =>
          LeavesAlone target.label (filterNodes given) (filterTrails given)
  | none, depth, listed, writes => by
    rw [filter]
    exact .pure ⟨nofun, nofun⟩
  | some given, depth, listed, writes => by
    rw [filter]
    exact .bind (predicate_spares apart given listed writes) fun _ => .pure id

/-- So do joins at a level inside. -/
theorem joins_spares (apart : Apart target.label nested) :
    ∀ (given : List (Resolved.Join Resolved.Predicate)) {depth space : Nat},
      (joinSources given).map (·.label) ⊆ nested → JoinsWriteAll given →
        Spares target nested (depth + 1) (joins context space given) fun _ =>
          LeavesAlone target.label (joinNodes given) (joinTrails given)
  | [], depth, space, listed, writes => by
    rw [joins]
    exact .pure ⟨nofun, nofun⟩
  | ⟨kind, _, node, condition⟩ :: rest, depth, space, listed, writes => by
    simp only [joinSources, List.map_cons, List.map_append, List.cons_subset,
      List.append_subset] at listed
    obtain ⟨own, inCondition, inRest⟩ := listed
    obtain ⟨writesCondition, writesRest⟩ := writes
    rw [joins]
    refine .bindLift fun group built => .bind (impliedCondition_spares apart node.origin group) fun _ => ?_
    refine .bind (.changeScope fun scope entry member => ?_) fun _ => .bind .currentScope fun before => ?_
    · rcases List.mem_cons.mp member with rfl | earlier
      · exact .inr (sourceGroup_isGroup built own).1.named
      · exact .inl earlier
    · refine .bind (filter_spares apart condition inCondition writesCondition) fun _ =>
        .bindLift fun join joined => .bind (.changeScope fun scope entry => .inl) fun _ =>
          .weaken (joins_spares apart rest inRest writesRest) fun _ further _ here _ _ along => ?_
      have joined : LeavesAlone target.label [] (originTrails node.origin) := ⟨nofun, along⟩
      exact (joined.append here).append further

/-- So do the items of a from-clause at a level inside. -/
theorem spaces_spares (apart : Apart target.label nested) :
    ∀ (given : List (FromSpace Resolved.Predicate)) {depth : Nat},
      (spaceSources given).map (·.label) ⊆ nested → SpacesWriteAll given →
        Spares target nested (depth + 1) (spaces context given) fun _ =>
          LeavesAlone target.label (spaceNodes given) (spaceTrails given)
  | [], depth, listed, writes => by
    rw [spaces]
    exact .pure ⟨nofun, nofun⟩
  | ⟨node, joined⟩ :: rest, depth, listed, writes => by
    simp only [spaceSources, List.map_cons, List.map_append, List.cons_subset,
      List.append_subset] at listed
    obtain ⟨own, inJoins, inRest⟩ := listed
    obtain ⟨writesJoins, writesRest⟩ := writes
    rw [spaces]
    refine .bindLift fun group built => .bind .currentScope fun before =>
      .bind (.changeScope fun scope entry member => ?_) fun _ =>
        .bind (joins_spares apart joined inJoins writesJoins) fun _ =>
          .weaken (spaces_spares apart rest inRest writesRest) fun _ further here _ _ =>
            here.append further
    rcases List.mem_cons.mp member with rfl | earlier
    · exact .inr (sourceGroup_isGroup built own).1.named
    · exact .inl earlier

/-- So does a sub-query. -/
theorem subQuery_spares (apart : Apart target.label nested) :
    ∀ (given : Resolved.Query Resolved.Predicate) {depth : Nat},
      (querySources given).map (·.label) ⊆ nested → QueryWritesAll given →
        Spares target nested depth (subQuery context given) fun _ =>
          LeavesAlone target.label (queryNodes given) (queryTrails given)
  | ⟨items, distinct, selections, condition⟩, depth, listed, writes => by
    simp only [querySources, List.map_append, List.append_subset] at listed
    obtain ⟨writesItems, writesCondition⟩ := writes
    have selected : Spares target nested (depth + 1) (selections.mapM (innerSelection context)) fun _ =>
        LeavesAlone target.label (selections.flatMap (·.expr.nodes)) (selections.flatMap (·.expr.trails)) :=
      .weaken (.each selections fun item _ => innerSelection_spares apart item) fun _ each => .flatMap each
    have inside : Spares target nested (depth + 1) (do
        spaces context items
        let chosen ← selections.mapM (innerSelection context)
        let condition ← filter context condition
        return (chosen.flatten, condition)) fun _ =>
          LeavesAlone target.label (queryNodes ⟨items, distinct, selections, condition⟩)
            (queryTrails ⟨items, distinct, selections, condition⟩) :=
      .bind (spaces_spares apart items listed.1 writesItems) fun _ => .bind selected fun _ =>
        .bind (filter_spares apart condition listed.2 writesCondition) fun _ =>
          .pure fun filtered chosen opened =>
            ⟨((chosen.append opened).append filtered).paths,
              ((opened.append chosen).append filtered).trails⟩
    rw [subQuery]
    exact .bind (.inScope inside) fun _ => .pure id

end

/-! ## Changes -/

/-- At the level of a change the group of the target is all there is. -/
theorem Spares.onlyGroup {label : String} : Spares target nested 0 (Lowering.group label) fun found =>
    label = target.label ∧ found = target :=
  .same fun _ _ after run => by
    obtain ⟨rfl, level, space, located⟩ := yields_group.mp run
    refine ⟨rfl, fun resting => ?_⟩
    generalize after.scopes = scopes at resting located
    obtain _ | _ := resting
    obtain ⟨_, same, found⟩ := locate?_target located
    exact ⟨same, congrArg ScopedGroup.group found⟩

/-- The assignment as it is lowered: the column that the target has for the attribute, and the value. -/
structure Sets (context : LoweringContext) (target : TableGroup) (given : Resolved.Assignment)
    (lowered : String × Sql.Expr) : Prop where
  source : given.target.source = target.label
  column : (target.binding? given.target.last.label).map (·.column) = some lowered.1
  value : ∃ before after, Yields (expr context given.value) before lowered.2 after

/-- An assignment stays at the target and sets one of its columns. -/
theorem assignment_spares (apart : Apart target.label nested) (given : Resolved.Assignment) :
    Spares target nested 0 (assignment context given) fun lowered =>
      Stays target.label given.value.nodes ∧ Sets context target given lowered := by
  rw [assignment]
  refine .bind .onlyGroup fun owner => ?_
  split
  · exact .throw
  · rename_i binding found
    refine .bind (expr_spares apart given.value).ran fun value => .pure ?_
    rintro ⟨stays, ran⟩ ⟨same, rfl⟩
    exact ⟨stays, same, by rw [found]; rfl, ran⟩

/-- Nothing is joined to the target when its level is closed, so that a body that spares it has left it
at rest. -/
theorem good_of_inTargetScope {verb : BulkVerb} {body : Lowering α} {good : α → Prop} {count : Nat}
    {value : α} {after : LoweringState} (spares : Spares target nested 0 body good)
    (run : Yields (inTargetScope verb target body) ⟨[], count⟩ value after) : good value := by
  obtain ⟨inner, scope, ran, levels, _, alone⟩ := yields_inTargetScope.mp run
  rcases (spares ran).2 .target with disturbed | ⟨_, isGood⟩
  · generalize inner.scopes = scopes at disturbed levels
    obtain ⟨space, there, joined⟩ := disturbed
    obtain ⟨rfl, _⟩ := List.cons.inj levels
    exact (joined (alone space there)).elim
  · exact isGood

/-- Sources of different names are apart. -/
theorem apart_of_nodup {node : FromNode} {sources : List FromNode}
    (plain : ∀ source ∈ node :: sources, IsPlainName source.label)
    (distinct : ((node :: sources).map (·.label)).Nodup) :
    Apart node.label (sources.map (·.label)) := by
  obtain ⟨others, _⟩ := List.nodup_cons.mp distinct
  obtain ⟨own, rest⟩ := List.forall_mem_cons.mp plain
  refine ⟨own, List.forall_mem_map.mpr fun source known => ⟨rest source known, fun same => others ?_⟩⟩
  exact List.mem_map.mpr ⟨source, known, same⟩

/-- The change is lowered to a change of the table of its target, which no path and no join leaves. What
is assigned is set in the order in which it is given. -/
structure Changes (context : LoweringContext) (target : TableGroup) (given : Resolved.Statement)
    (lowered : Sql.Statement) : Prop where
  table : lowered.table? = some target.root.name
  alone : LeavesAlone target.label given.nodes given.trails
  assigned : List.Forall₂ (Sets context target) given.assignments lowered.assignments

/-- A bulk statement is written over the table of its target, and all its values stay there. -/
theorem statement_changes {given : Resolved.Statement} {node : FromNode} {lowered : Sql.Statement}
    {count : Nat} {after : LoweringState} (targeted : given.target? = some node)
    (plain : ∀ source ∈ given.sources, IsPlainName source.label)
    (distinct : (given.sources.map (·.label)).Nodup) (writes : given.WritesAll)
    (run : Yields (statement context given) ⟨[], count⟩ lowered after) :
    ∃ verb target, targetGroup context verb node = .ok target ∧
      Changes context target given lowered := by
  cases given with
  | select query order => cases targeted
  | update target assignments condition =>
    obtain rfl := Option.some.inj targeted
    have apart := apart_of_nodup plain distinct
    simp only [statement, yields_bind, yields_lift] at run
    obtain ⟨group, _, ⟨built, rfl⟩, run⟩ := run
    refine ⟨.update, group, built, ?_⟩
    obtain ⟨_, _, table, _, _, _, _, rfl⟩ := targetGroup_ok_iff.mp built
    refine good_of_inTargetScope (.bind (.mapM assignments fun item _ => assignment_spares apart item)
      fun _ => .bind (filter_spares apart condition (List.Subset.refl _) writes) fun _ =>
        .pure fun filtered assigned => ?_) run
    have stay : ∀ item ∈ assignments, Stays target.label item.value.nodes := by
      intro item listed
      obtain ⟨_, _, stays, _⟩ := exists_of_forall₂ assigned.flip listed
      exact stays
    exact ⟨rfl, (LeavesAlone.flatMap stay).append filtered, assigned.imp fun _ _ held => held.2⟩
  | delete target condition =>
    obtain rfl := Option.some.inj targeted
    have apart := apart_of_nodup plain distinct
    simp only [statement, yields_bind, yields_lift] at run
    obtain ⟨group, _, ⟨built, rfl⟩, run⟩ := run
    refine ⟨.delete, group, built, ?_⟩
    obtain ⟨_, _, table, _, _, _, _, rfl⟩ := targetGroup_ok_iff.mp built
    exact good_of_inTargetScope (.bind (filter_spares apart condition (List.Subset.refl _) writes)
      fun _ => .pure fun filtered => ⟨rfl, filtered, .nil⟩) run

end Lowering
end ObjectQuery

import ObjectQuery.Proofs.Grammar.Parameters
import ObjectQuery.Proofs.Model.Implementors
import ObjectQuery.Proofs.Resolution.Walk
/-!
# What the first walk admits

A statement whose sources can be registered has no index in the path of a join, and every entity that
is registered for it is one that the catalog has given for some name.
-/
namespace ObjectQuery

/-- Every element has an entity that the catalog gives for some name. -/
def FromIndex.IsKnown (catalog : Catalog) (index : FromIndex) : Prop :=
  ∀ element ∈ index.elements, ∃ name, catalog.resolve? name = some element.entity

variable {catalog : Catalog} {condition later : Prop}

namespace Registering

variable {α β : Type}

/-- Every successful run of the step needs the condition, and registers only entities that the catalog
gives. -/
def Admits (catalog : Catalog) (condition : Prop) (step : Registering α) : Prop :=
  ∀ ⦃registry value after⦄, Yields step registry value after →
    condition ∧ (registry.index.IsKnown catalog → after.index.IsKnown catalog)

namespace Admits

/-- A value is given without registering anything. -/
theorem pure {value : α} : Admits catalog True (Pure.pure value : Registering α) := by
  intro registry result after ran
  obtain ⟨_, rfl⟩ := yields_pure.mp ran
  exact ⟨trivial, id⟩

/-- Steps in a row admit what both of them do. -/
theorem bind {first : Registering α} {next : α → Registering β}
    (admits : Admits catalog condition first)
    (admitsNext : ∀ value, Admits catalog later (next value)) :
    Admits catalog (condition ∧ later) (first >>= next) := by
  intro registry result after ran
  obtain ⟨middle, between, started, ran⟩ := yields_bind.mp ran
  obtain ⟨needed, known⟩ := admits started
  obtain ⟨neededToo, knownToo⟩ := admitsNext middle ran
  exact ⟨⟨needed, neededToo⟩, knownToo ∘ known⟩

/-- A step that needs nothing may come first. -/
theorem cons {first : Registering α} {next : α → Registering β} (admits : Admits catalog True first)
    (admitsNext : ∀ value, Admits catalog condition (next value)) :
    Admits catalog condition (first >>= next) := by
  intro registry result after ran
  obtain ⟨⟨_, needed⟩, known⟩ := bind admits admitsNext ran
  exact ⟨needed, known⟩

/-- Opening a scope admits its sources. -/
theorem addScope (parent : Option Nat) (span : Span) :
    Admits catalog True (addScope parent span) := by
  intro registry number after ran
  obtain ⟨_, rfl⟩ := yields_addScope.mp ran
  refine ⟨trivial, fun known => ?_⟩
  exact fun element listed => known element (FromIndex.elements_addScope ▸ listed)

/-- Opening a space admits its sources. -/
theorem addSpace (clause : Nat) : Admits catalog True (addSpace clause) := by
  intro registry number after ran
  obtain ⟨index, opened, rfl⟩ := yields_addSpace.mp ran
  refine ⟨trivial, fun known => ?_⟩
  exact fun element listed => known element ((FromIndex.addSpace_keeps opened).1 ▸ listed)

/-- A source of a resolved entity is admitted. -/
theorem addElement {label : Option (Spanned String)} {reference : EntityReference}
    {origin : FromOrigin} {clause space : Nat} {span : Span} {name : String}
    (resolved : catalog.resolve? name = some reference) :
    Admits catalog True (addElement label reference origin clause space span) := by
  intro registry value after ran
  obtain ⟨index, number, registered, rfl⟩ := yields_addElement.mp ran
  refine ⟨trivial, fun known element listed => ?_⟩
  rw [(FromIndex.register_adds registered).1] at listed
  rcases List.mem_append.mp listed with early | late
  · exact known element early
  · obtain rfl := List.mem_singleton.mp late
    exact ⟨name, resolved⟩

end Admits
end Registering

namespace Sources

open Grammar (RootRef Path)
open Registering

/-- An entity that is resolved is one of the catalog. -/
theorem resolve?_of_resolveEntity {name : String} {reference : EntityReference}
    (resolved : resolveEntity catalog name = .ok reference) :
    catalog.resolve? name = some reference := by
  unfold resolveEntity at resolved
  split at resolved
  · rename_i found
    obtain rfl := Except.ok.inj resolved
    exact found
  · cases resolved

/-- Associations lead from an entity that the catalog gives to others. -/
theorem resolve?_of_follow : ∀ {names : List String} {current found : EntityReference} {plural : Bool},
    (∃ name, catalog.resolve? name = some current) →
      follow catalog current names = .ok (found, plural) → ∃ name, catalog.resolve? name = some found
  | [], current, found, plural, known, followed => by
    obtain ⟨rfl, _⟩ := Prod.mk.inj (Except.ok.inj followed)
    exact known
  | first :: rest, current, found, plural, known, followed => by
    unfold follow at followed
    split at followed
    · obtain ⟨⟨target, isPlural⟩, _, followed⟩ := except_bind_ok.mp followed
      obtain ⟨entity, resolved, followed⟩ := except_bind_ok.mp followed
      have given := resolve?_of_resolveEntity resolved
      split at followed
      · obtain ⟨rfl, _⟩ := Prod.mk.inj (Except.ok.inj followed)
        exact ⟨target, given⟩
      · exact resolve?_of_follow ⟨target, given⟩ followed
    · cases followed

/-- The target of a join is led to without an index, by associations or by its name. -/
theorem joinTarget_ok {index : FromIndex} {clause : Nat} {path : Path Grammar.Expr}
    {reference : EntityReference} {origin : FromOrigin}
    (led : joinTarget catalog index clause path = .ok (reference, origin)) :
    path.isSimple = true ∧
      (index.IsKnown catalog → ∃ name, catalog.resolve? name = some reference) := by
  have simple : path.isSimple = true := by
    by_contra indexed
    simp [joinTarget, indexed] at led
    cases led
  refine ⟨simple, fun known => ?_⟩
  unfold joinTarget at led
  simp only [simple, ↓reduceIte] at led
  split at led
  · rename_i owner visible
    obtain ⟨⟨found, plural⟩, followed, same⟩ := except_bind_ok.mp led
    obtain ⟨rfl, _⟩ := Prod.mk.inj (Except.ok.inj same)
    -- The owner is itself registered, so the associations start from an entity of the catalog.
    split at visible
    · cases visible
    · obtain ⟨looked, _⟩ := Option.filter_eq_some_iff.mp visible
      exact resolve?_of_follow (known owner (FromIndex.mem_of_find? looked)) followed
  · obtain ⟨found, resolved, same⟩ := except_bind_ok.mp led
    obtain ⟨rfl, _⟩ := Prod.mk.inj (Except.ok.inj same)
    exact ⟨path.dotted, resolve?_of_resolveEntity resolved⟩

/-- A root is admitted. -/
theorem addRoot_admits (clause space : Nat) (root : RootRef) :
    Admits catalog True (addRoot catalog clause space root) := by
  intro registry value after ran
  obtain ⟨reference, _, lifted, added⟩ := yields_bind.mp ran
  obtain ⟨resolved, rfl⟩ := yields_lift.mp lifted
  exact Admits.addElement (resolve?_of_resolveEntity resolved) added

/-- A join along a path without indices is admitted. -/
theorem addJoin_admits (clause space : Nat) (target : Path Grammar.Expr)
    (label : Option (Spanned String)) (span : Span) :
    Admits catalog (target.isSimple = true) (addJoin catalog clause space target label span) := by
  intro registry value after ran
  obtain ⟨_, _, looked, remaining⟩ := yields_bind.mp ran
  obtain ⟨rfl, rfl⟩ := yields_get.mp looked
  obtain ⟨⟨reference, origin⟩, _, lifted, added⟩ := yields_bind.mp remaining
  obtain ⟨led, rfl⟩ := yields_lift.mp lifted
  obtain ⟨simple, resolves⟩ := joinTarget_ok led
  refine ⟨simple, fun known => ?_⟩
  obtain ⟨name, resolved⟩ := resolves known
  exact (Admits.addElement resolved added).2 known

mutual

/-- A query whose joins are plain is admitted. -/
theorem addQuery_admits (parent : Option Nat) : ∀ query : Grammar.Query Grammar.Predicate,
    Admits catalog (Grammar.QueryJoinsPlainly query) (addQuery catalog parent query)
  | ⟨_, ⟨spaces, span⟩, filter, _⟩ => by
    rw [addQuery, Grammar.QueryJoinsPlainly]
    exact .cons (.addScope parent span) fun clause =>
      .bind (addSpaces_admits clause spaces) fun _ => addFilter_admits clause filter

/-- Spaces whose joins are plain are admitted. -/
theorem addSpaces_admits (clause : Nat) : ∀ spaces : List (Grammar.FromSpace Grammar.Predicate),
    Admits catalog (Grammar.SpacesJoinPlainly spaces) (addSpaces catalog clause spaces)
  | [] => by
    rw [addSpaces, Grammar.SpacesJoinPlainly]
    exact .pure
  | ⟨root, joins, _⟩ :: rest => by
    rw [addSpaces, Grammar.SpacesJoinPlainly]
    exact .cons (.addSpace clause) fun space => .cons (addRoot_admits clause space root) fun _ =>
      .bind (addJoins_admits clause space joins) fun _ => addSpaces_admits clause rest

/-- Joins that are plain are admitted. -/
theorem addJoins_admits (clause space : Nat) : ∀ joins : List (Grammar.Join Grammar.Predicate),
    Admits catalog (Grammar.JoinsArePlain joins) (addJoins catalog clause space joins)
  | [] => by
    rw [addJoins, Grammar.JoinsArePlain]
    exact .pure
  | ⟨_, _, target, label, predicate, span⟩ :: rest => by
    rw [addJoins, Grammar.JoinsArePlain]
    exact .bind (addJoin_admits clause space target label span) fun _ =>
      .bind (addFilter_admits clause predicate) fun _ => addJoins_admits clause space rest

/-- A filter whose joins are plain is admitted. -/
theorem addFilter_admits (clause : Nat) : ∀ filter : Option Grammar.Predicate,
    Admits catalog (Grammar.FilterJoinsPlainly filter) (addFilter catalog clause filter)
  | none => by
    rw [addFilter, Grammar.FilterJoinsPlainly]
    exact .pure
  | some predicate => by
    rw [addFilter, Grammar.FilterJoinsPlainly]
    exact addPredicate_admits clause predicate

/-- A predicate whose joins are plain is admitted. -/
theorem addPredicate_admits (clause : Nat) : ∀ predicate : Grammar.Predicate,
    Admits catalog predicate.JoinsPlainly (addPredicate catalog clause predicate)
  | .and _ left right | .or _ left right => by
    rw [addPredicate, Grammar.Predicate.JoinsPlainly]
    exact .bind (addPredicate_admits clause left) fun _ => addPredicate_admits clause right
  | .not _ operand => by
    rw [addPredicate, Grammar.Predicate.JoinsPlainly]
    exact addPredicate_admits clause operand
  | .inQuery _ _ query _ => by
    rw [addPredicate, Grammar.Predicate.JoinsPlainly]
    exact addQuery_admits (some clause) query
  | .compare _ _ _ _ | .inList _ _ _ _ | .memberOf _ _ _ _ | .isNull _ _ _ | .like _ _ _ _
  | .between _ _ _ _ _ => .pure

end

/-- A statement whose joins are plain is admitted. -/
theorem addStatement_admits : ∀ statement : Grammar.Statement,
    Admits catalog statement.JoinsPlainly (addStatement catalog statement)
  | .select query _ => addQuery_admits none query
  | .update target _ filter | .delete target filter => by
    rw [addStatement, addTarget]
    simp only [bind_assoc, pure_bind]
    exact .cons (.addScope none target.span) fun clause => .cons (.addSpace clause) fun space =>
      .cons (addRoot_admits clause space target) fun _ => addFilter_admits clause filter

/-- If the sources of a statement can be registered, no path of a join has an index and every entity
is one that the catalog gives. -/
theorem ofStatement_admits {statement : Grammar.Statement} {index : FromIndex}
    (registered : ofStatement catalog statement = .ok index) :
    statement.JoinsPlainly ∧ index.IsKnown catalog := by
  obtain ⟨after, ran, rfl⟩ := ofStatement_ok.mp registered
  obtain ⟨plain, known⟩ := addStatement_admits statement ran
  refine ⟨plain, known fun element listed => ?_⟩
  cases listed

end Sources
end ObjectQuery

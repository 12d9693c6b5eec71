import ObjectQuery.Proofs.Model.Implementors
import ObjectQuery.Proofs.Resolution.Walk
/-!
# Registering with a narrowed root

The first element that is registered for a statement is its root. When it is narrowed to an entity
that has everything the root says about its attributes, names are found as before: what is found is
the same element, or it is the root and has been narrowed. Associations lead to the same places from
both.

So once the root of a statement is registered, the walk does the same whether or not the root is
narrowed. A statement whose root names the narrower entity in the first place is registered with the
narrowed root.
-/
namespace ObjectQuery

/-! ## Narrowing the first source -/

section Narrowing

variable {entity : EntityType} {index : FromIndex}

/-- The element with another entity. -/
def FromElement.withEntity (element : FromElement) (entity : EntityType) : FromElement :=
  { element with entity := .concrete entity }

/-- The second element is the first, or the first has been narrowed to the entity. -/
inductive FromElement.NarrowsTo (entity : EntityType) (element : FromElement) : FromElement → Prop
  | same : element.NarrowsTo entity element
  | narrowed (shared : element.entity.IsSharedBy entity) :
    element.NarrowsTo entity (element.withEntity entity)

namespace FromElement.NarrowsTo

variable {element other : FromElement}

/-- A narrower source keeps its label. -/
theorem label (narrows : element.NarrowsTo entity other) : other.label = element.label := by
  cases narrows <;> rfl

/-- A narrower source keeps its clause. -/
theorem clause (narrows : element.NarrowsTo entity other) : other.clause = element.clause := by
  cases narrows <;> rfl

/-- An attribute of the element is one of the other. -/
theorem attribute? (narrows : element.NarrowsTo entity other) {name : String} {type : DataType}
    (found : element.entity.attribute? name = some type) :
    other.entity.attribute? name = some type := by
  cases narrows with
  | same => exact found
  | narrowed shared => exact shared found

end FromElement.NarrowsTo

namespace FromIndex

/-- The index with its first element narrowed to an entity. -/
def narrowed (entity : EntityType) (index : FromIndex) : FromIndex :=
  { index with elements := index.elements.modifyHead (·.withEntity entity) }

/-- The entity has everything that the first element says about its attributes. -/
def Rooted (entity : EntityType) (index : FromIndex) : Prop :=
  ∃ root rest, index.elements = root :: rest ∧ root.entity.IsSharedBy entity

/-- Further sources leave the root where it is. -/
theorem Rooted.append (rooted : index.Rooted entity) {after : FromIndex}
    {added : List FromElement} (extended : after.elements = index.elements ++ added) :
    after.Rooted entity := by
  obtain ⟨root, rest, elements, shared⟩ := rooted
  exact ⟨root, rest ++ added, by rw [extended, elements, List.cons_append], shared⟩

/-- Narrowing the root leaves the clauses around each clause. -/
theorem enclosingWithin_narrowed (index : FromIndex) :
    ∀ fuel clause, (index.narrowed entity).enclosingWithin fuel clause =
      index.enclosingWithin fuel clause
  | 0, _ => rfl
  | fuel + 1, clause => by
    have parent : (index.narrowed entity).parent? clause = index.parent? clause := rfl
    simp only [enclosingWithin, parent]
    cases index.parent? clause with
    | none => rfl
    | some outer => exact congrArg (clause :: ·) (enclosingWithin_narrowed index fuel outer)

/-- Narrowing the root leaves the clauses around a clause. -/
theorem enclosing_narrowed (index : FromIndex) (clause : Nat) :
    (index.narrowed entity).enclosing clause = index.enclosing clause :=
  enclosingWithin_narrowed index _ clause

/-- Under a number stands the same element or the narrowed root. -/
theorem getElem?_narrowed (rooted : index.Rooted entity) (number : Nat) :
    Option.Rel (FromElement.NarrowsTo entity) index.elements[number]?
      (index.narrowed entity).elements[number]? := by
  obtain ⟨root, rest, elements, shared⟩ := rooted
  rw [narrowed, elements, List.modifyHead_cons]
  cases number with
  | zero => exact .some (.narrowed shared)
  | succ number =>
    rw [List.getElem?_cons_succ, List.getElem?_cons_succ]
    cases rest[number]? with
    | none => exact .none
    | some element => exact .some .same

/-- A name stands for the same element or for the narrowed root. -/
theorem find?_narrowed (rooted : index.Rooted entity) (label : String) :
    Option.Rel (FromElement.NarrowsTo entity) (index.find? label)
      ((index.narrowed entity).find? label) := by
  have labels : (index.narrowed entity).labels = index.labels := rfl
  rw [find?, find?, labels]
  cases index.labels.lookup label with
  | none => exact .none
  | some number => exact getElem?_narrowed rooted number

/-- A visible name stands for the same element or for the narrowed root. -/
theorem findVisible?_narrowed (rooted : index.Rooted entity) (clause : Nat) (label : String) :
    Option.Rel (FromElement.NarrowsTo entity) (index.findVisible? clause label)
      ((index.narrowed entity).findVisible? clause label) := by
  unfold findVisible?
  have found := find?_narrowed rooted label
  generalize index.find? label = before, (index.narrowed entity).find? label = after at found ⊢
  cases found with
  | none => exact .none
  | some narrows =>
    rw [Option.filter_some, Option.filter_some, enclosing_narrowed, narrows.clause]
    split
    · exact .some narrows
    · exact .none

/-- Where the root is no longer to come, a registration goes on as before. -/
theorem register_narrowed (rooted : index.Rooted entity) {element : FromElement}
    {after : FromIndex} {number : Nat} (registered : index.register element = .ok (after, number)) :
    (index.narrowed entity).register element = .ok (after.narrowed entity, number) := by
  obtain ⟨free, rfl, rfl⟩ := register_ok.mp registered
  obtain ⟨root, rest, elements, _⟩ := rooted
  refine register_ok.mpr ⟨free, ?_, ?_⟩
  · simp [narrowed, elements]
  · simp [withElement, narrowed, elements]

end FromIndex

namespace Sources

variable {catalog : Catalog}

/-- Associations of what the entity shares lead from the entity to the same place. -/
theorem follow_shared {reference : EntityReference} (shared : reference.IsSharedBy entity) :
    ∀ {names : List String} {result : EntityReference × Bool}, names ≠ [] →
      follow catalog reference names = .ok result →
        follow catalog (.concrete entity) names = .ok result
  | name :: rest, result, _, followed => by
    rw [follow] at followed ⊢
    cases offered : reference.attribute? name with
    | none =>
      rw [offered] at followed
      cases followed
    | some type =>
      have kept : (EntityReference.concrete entity).attribute? name = some type := shared offered
      rw [offered] at followed
      rw [kept]
      exact followed

/-- A join leads to the same place when the root is narrowed. -/
theorem joinTarget_narrowed (rooted : index.Rooted entity) {clause : Nat}
    {path : Grammar.Path Grammar.Expr} {result : EntityReference × FromOrigin}
    (found : joinTarget catalog index clause path = .ok result) :
    joinTarget catalog (index.narrowed entity) clause path = .ok result := by
  unfold joinTarget at found ⊢
  cases simple : path.isSimple with
  | false =>
    rw [simple] at found
    cases found
  | true =>
    rw [simple] at found
    cases empty : path.rest.isEmpty with
    | true =>
      rw [empty] at found
      exact found
    | false =>
      rw [empty] at found
      have visible := FromIndex.findVisible?_narrowed rooted clause path.first.name.value
      simp only [Bool.false_eq_true, ↓reduceIte] at found ⊢
      generalize index.findVisible? clause path.first.name.value = before,
        (index.narrowed entity).findVisible? clause path.first.name.value = after at found visible ⊢
      cases visible with
      | none => exact found
      | some narrows =>
        cases narrows with
        | same => exact found
        | narrowed shared =>
          obtain ⟨target, followed, found⟩ := except_bind_ok.mp found
          have names : partNames path.rest ≠ [] := by
            simpa [partNames] using empty
          have kept := follow_shared shared names followed
          exact except_bind_ok.mpr ⟨target, kept, found⟩

end Sources

end Narrowing

/-! ## Going on with the walk -/

/-- The registry with its first element narrowed to an entity. -/
def Registry.narrowed (entity : EntityType) (registry : Registry) : Registry :=
  { registry with index := registry.index.narrowed entity }

namespace Registering

variable {α β : Type} {registry after : Registry} {entity : EntityType}

/-- Every successful run of the step leaves the elements that are there, and goes the same way when
the root, which is among them, is narrowed. -/
def Narrows (entity : EntityType) (step : Registering α) : Prop :=
  ∀ ⦃registry value after⦄, Yields step registry value after →
    (∃ added, after.index.elements = registry.index.elements ++ added) ∧
    (registry.index.Rooted entity →
      Yields step (registry.narrowed entity) value (after.narrowed entity))

namespace Narrows

/-- A value is given alike. -/
theorem pure (value : α) : Narrows entity (Pure.pure value : Registering α) := by
  intro registry result after ran
  obtain ⟨rfl, rfl⟩ := yields_pure.mp ran
  exact ⟨⟨[], by simp⟩, fun _ => yields_pure.mpr ⟨rfl, rfl⟩⟩

/-- Steps in a row narrow alike if each of them does. -/
theorem bind {first : Registering α} {next : α → Registering β} (narrows : Narrows entity first)
    (narrowsNext : ∀ value, Narrows entity (next value)) : Narrows entity (first >>= next) := by
  intro registry result after ran
  obtain ⟨middle, between, started, ran⟩ := yields_bind.mp ran
  obtain ⟨⟨added, extended⟩, kept⟩ := narrows started
  obtain ⟨⟨further, extendedAfter⟩, keptNext⟩ := narrowsNext middle ran
  refine ⟨⟨added ++ further, ?_⟩, fun rooted => ?_⟩
  · rw [extendedAfter, extended, List.append_assoc]
  · exact yields_bind.mpr ⟨middle, between.narrowed entity, kept rooted,
      keptNext (rooted.append extended)⟩

/-- A result from outside the registry is the same. -/
theorem lift (result : Except ResolutionError α) :
    Narrows entity (Sources.addRoot.liftExcept result) := by
  intro registry value after ran
  obtain ⟨given, rfl⟩ := yields_lift.mp ran
  exact ⟨⟨[], by simp⟩, fun _ => yields_lift.mpr ⟨given, rfl⟩⟩

/-- Opening a scope narrows alike. -/
theorem addScope (parent : Option Nat) (span : Span) : Narrows entity (addScope parent span) := by
  intro registry number after ran
  obtain ⟨rfl, rfl⟩ := yields_addScope.mp ran
  refine ⟨⟨[], by simp⟩, fun _ => yields_addScope.mpr ⟨rfl, ?_⟩⟩
  simp only [Registry.narrowed, FromIndex.narrowed, FromIndex.addScope_eq]
  rfl

/-- Opening a space narrows alike. -/
theorem addSpace (clause : Nat) : Narrows entity (addSpace clause) := by
  intro registry number after ran
  obtain ⟨index, opened, rfl⟩ := yields_addSpace.mp ran
  obtain ⟨found, there, rfl, rfl⟩ := FromIndex.addSpace_ok.mp opened
  refine ⟨⟨[], by simp [FromIndex.withScope]⟩, fun _ => yields_addSpace.mpr ⟨_, ?_, rfl⟩⟩
  exact FromIndex.addSpace_ok.mpr ⟨found, there, rfl, rfl⟩

/-- Adding a source with its type narrows alike. -/
theorem addElement (label : Option (Spanned String)) (reference : EntityReference)
    (origin : FromOrigin) (clause space : Nat) (span : Span) :
    Narrows entity (addElement label reference origin clause space span) := by
  intro registry value after ran
  obtain ⟨index, number, registered, rfl⟩ := yields_addElement.mp ran
  refine ⟨⟨_, (FromIndex.register_adds registered).1⟩, fun rooted => ?_⟩
  exact yields_addElement.mpr
    ⟨_, number, FromIndex.register_narrowed rooted registered, rfl⟩

end Narrows

end Registering

namespace Sources

open Grammar (RootRef Path)
open Registering

variable {catalog : Catalog} {entity : EntityType}

/-- Adding a root narrows alike. -/
theorem addRoot_narrows (clause space : Nat) (root : RootRef) :
    Narrows entity (addRoot catalog clause space root) :=
  .bind (.lift _) fun reference => .addElement root.label reference .root clause space root.span

/-- A join is looked up in what is registered so far, and that may have been narrowed. -/
theorem addJoin_narrows (clause space : Nat) (target : Path Grammar.Expr)
    (label : Option (Spanned String)) (span : Span) :
    Narrows entity (addJoin catalog clause space target label span) := by
  intro registry value after ran
  obtain ⟨_, _, looked, remaining⟩ := yields_bind.mp ran
  obtain ⟨rfl, rfl⟩ := yields_get.mp looked
  obtain ⟨⟨reference, origin⟩, _, lifted, added⟩ := yields_bind.mp remaining
  obtain ⟨found, rfl⟩ := yields_lift.mp lifted
  obtain ⟨extended, narrows⟩ := Narrows.addElement label reference origin clause space span added
  refine ⟨extended, fun rooted => ?_⟩
  have kept := joinTarget_narrowed rooted found
  exact yields_bind.mpr ⟨_, _, yields_get.mpr ⟨rfl, rfl⟩,
    yields_bind.mpr ⟨(reference, origin), _, yields_lift.mpr ⟨kept, rfl⟩, narrows rooted⟩⟩

mutual

/-- Registering a query narrows alike. -/
theorem addQuery_narrows (parent : Option Nat) : ∀ query : Grammar.Query Grammar.Predicate,
    Narrows entity (addQuery catalog parent query)
  | ⟨_, ⟨spaces, span⟩, filter, _⟩ => by
    rw [addQuery]
    exact .bind (.addScope parent span) fun clause =>
      .bind (addSpaces_narrows clause spaces) fun _ => addFilter_narrows clause filter

/-- Registering the spaces of a clause narrows alike. -/
theorem addSpaces_narrows (clause : Nat) :
    ∀ spaces : List (Grammar.FromSpace Grammar.Predicate),
      Narrows entity (addSpaces catalog clause spaces)
  | [] => by
    rw [addSpaces]
    exact .pure ()
  | ⟨root, joins, _⟩ :: rest => by
    rw [addSpaces]
    exact .bind (.addSpace clause) fun space => .bind (addRoot_narrows clause space root) fun _ =>
      .bind (addJoins_narrows clause space joins) fun _ => addSpaces_narrows clause rest

/-- Registering the joins of a space narrows alike. -/
theorem addJoins_narrows (clause space : Nat) :
    ∀ joins : List (Grammar.Join Grammar.Predicate),
      Narrows entity (addJoins catalog clause space joins)
  | [] => by
    rw [addJoins]
    exact .pure ()
  | ⟨_, _, target, label, predicate, span⟩ :: rest => by
    rw [addJoins]
    exact .bind (addJoin_narrows clause space target label span) fun _ =>
      .bind (addFilter_narrows clause predicate) fun _ => addJoins_narrows clause space rest

/-- Registering the sub-queries of a filter narrows alike. -/
theorem addFilter_narrows (clause : Nat) : ∀ filter : Option Grammar.Predicate,
    Narrows entity (addFilter catalog clause filter)
  | none => by
    rw [addFilter]
    exact .pure ()
  | some predicate => by
    rw [addFilter]
    exact addPredicate_narrows clause predicate

/-- Registering the sub-queries of a predicate narrows alike. -/
theorem addPredicate_narrows (clause : Nat) : ∀ predicate : Grammar.Predicate,
    Narrows entity (addPredicate catalog clause predicate)
  | .and _ left right | .or _ left right => by
    rw [addPredicate]
    exact .bind (addPredicate_narrows clause left) fun _ => addPredicate_narrows clause right
  | .not _ operand => by
    rw [addPredicate]
    exact addPredicate_narrows clause operand
  | .inQuery _ _ query _ => by
    rw [addPredicate]
    exact addQuery_narrows (some clause) query
  | .compare _ _ _ _ | .inList _ _ _ _ | .memberOf _ _ _ _ | .isNull _ _ _ | .like _ _ _ _
  | .between _ _ _ _ _ => .pure ()

end

/-! ## The root -/

section Root

variable {root : RootRef} {reference : EntityReference}

/-- The first element is registered under its label whatever its entity is. -/
theorem register_first {index after : FromIndex} {element : FromElement} {number : Nat}
    (empty : index.elements = []) (registered : index.register element = .ok (after, number)) :
    index.register (element.withEntity entity) = .ok (after.narrowed entity, number) := by
  obtain ⟨free, rfl, rfl⟩ := FromIndex.register_ok.mp registered
  refine FromIndex.register_ok.mpr ⟨free, rfl, ?_⟩
  simp [FromIndex.withElement, FromIndex.narrowed, FromElement.withEntity, empty]

/-- The root is registered as what its entity is, and as the narrower entity if it names that. -/
theorem addRoot_first {registry after : Registry} {clause space : Nat} {value : Unit}
    (empty : registry.index.elements = [])
    (several : catalog.resolve? root.entity.value = some reference)
    (single : catalog.resolve? entity.name = some (.concrete entity))
    (ran : Yields (addRoot catalog clause space root) registry value after) :
    (∃ element, after.index.elements = [element] ∧ element.entity = reference) ∧
    Yields (addRoot catalog clause space (root.naming entity.name)) registry value
      (after.narrowed entity) := by
  obtain ⟨found, _, lifted, added⟩ := yields_bind.mp ran
  obtain ⟨resolved, rfl⟩ := yields_lift.mp lifted
  have known : found = reference := by
    rw [resolveEntity, several] at resolved
    exact (Except.ok.inj resolved).symm
  subst known
  obtain ⟨index, number, registered, rfl⟩ := yields_addElement.mp added
  constructor
  · have elements := (FromIndex.register_adds registered).1
    rw [empty, List.nil_append] at elements
    exact ⟨_, elements, rfl⟩
  · have named : resolveEntity catalog (root.naming entity.name).entity.value =
        .ok (.concrete entity) := by
      rw [resolveEntity]
      simp [Grammar.RootRef.naming, single]
    exact yields_bind.mpr ⟨_, _, yields_lift.mpr ⟨named, rfl⟩,
      yields_addElement.mpr ⟨_, number, register_first empty registered, rfl⟩⟩

/-- Opening a scope adds no source. -/
theorem elements_of_addScope {registry after : Registry} {parent : Option Nat} {span : Span}
    {number : Nat} (ran : Yields (addScope parent span) registry number after) :
    after.index.elements = registry.index.elements := by
  obtain ⟨_, rfl⟩ := yields_addScope.mp ran
  exact FromIndex.elements_addScope

/-- Opening a space adds no source. -/
theorem elements_of_addSpace {registry after : Registry} {clause number : Nat}
    (ran : Yields (addSpace clause) registry number after) :
    after.index.elements = registry.index.elements := by
  obtain ⟨index, opened, rfl⟩ := yields_addSpace.mp ran
  exact (FromIndex.addSpace_keeps opened).1

/-- What a walk has registered after it has begun with the root. -/
theorem first_source {span : Span} {later : Nat → Nat → Registering Unit} {after : Registry}
    (several : catalog.resolve? root.entity.value = some reference)
    (single : catalog.resolve? entity.name = some (.concrete entity))
    (shared : reference.IsSharedBy entity)
    (narrows : ∀ clause space, Narrows entity (later clause space))
    (ran : Yields (do
      let clause ← addScope none span
      let space ← addSpace clause
      addRoot catalog clause space root
      later clause space) Registry.empty () after) :
    (∃ element rest, after.index.elements = element :: rest ∧ element.entity = reference) ∧
    Yields (do
      let clause ← addScope none span
      let space ← addSpace clause
      addRoot catalog clause space (root.naming entity.name)
      later clause space) Registry.empty () (after.narrowed entity) := by
  obtain ⟨clause, first, opened, ran⟩ := yields_bind.mp ran
  obtain ⟨space, second, begun, ran⟩ := yields_bind.mp ran
  obtain ⟨_, third, rooted, ran⟩ := yields_bind.mp ran
  have noneYet : second.index.elements = [] := by
    rw [elements_of_addSpace begun, elements_of_addScope opened]
    rfl
  obtain ⟨⟨element, only, known⟩, named⟩ := addRoot_first noneYet several single rooted
  obtain ⟨⟨added, extended⟩, kept⟩ := narrows clause space ran
  rw [only, List.singleton_append] at extended
  refine ⟨⟨element, added, extended, known⟩, ?_⟩
  have shares : third.index.Rooted entity := ⟨element, [], only, known ▸ shared⟩
  exact yields_bind.mpr ⟨clause, first, opened, yields_bind.mpr ⟨space, second, begun,
    yields_bind.mpr ⟨_, _, named, kept shares⟩⟩⟩

/-- Registering a statement whose root names a narrower entity gives the index with its root narrowed.
The root comes first. -/
theorem ofStatement_naming {statement : Grammar.Statement} {index : FromIndex}
    (rooted : statement.root? = some root)
    (several : catalog.resolve? root.entity.value = some reference)
    (single : catalog.resolve? entity.name = some (.concrete entity))
    (shared : reference.IsSharedBy entity)
    (registered : ofStatement catalog statement = .ok index) :
    (∃ element rest, index.elements = element :: rest ∧ element.entity = reference) ∧
    ofStatement catalog (statement.naming entity.name) = .ok (index.narrowed entity) := by
  obtain ⟨after, ran, rfl⟩ := ofStatement_ok.mp registered
  rw [ofStatement_ok]
  suffices kept : (∃ element rest, after.index.elements = element :: rest ∧
      element.entity = reference) ∧
      Yields (addStatement catalog (statement.naming entity.name)) Registry.empty ()
        (after.narrowed entity) from ⟨kept.1, _, kept.2, rfl⟩
  cases statement with
  | select query order =>
    obtain ⟨select, ⟨_ | ⟨⟨first, joins, place⟩, rest⟩, span⟩, filter, whole⟩ := query
    · cases rooted
    · obtain rfl := Option.some.inj rooted
      simp only [Grammar.Statement.naming, addStatement, addQuery, addSpaces, bind_assoc] at ran ⊢
      refine first_source several single shared (fun clause space => ?_) ran
      exact .bind (addJoins_narrows clause space joins) fun _ =>
        .bind (addSpaces_narrows clause rest) fun _ => addFilter_narrows clause filter
  | update target assignments filter =>
    obtain rfl := Option.some.inj rooted
    simp only [Grammar.Statement.naming, addStatement, addTarget, bind_assoc, pure_bind] at ran ⊢
    exact first_source several single shared (fun clause _ => addFilter_narrows clause filter) ran
  | delete target filter =>
    obtain rfl := Option.some.inj rooted
    simp only [Grammar.Statement.naming, addStatement, addTarget, bind_assoc, pure_bind] at ran ⊢
    exact first_source several single shared (fun clause _ => addFilter_narrows clause filter) ran

end Root

end Sources
end ObjectQuery

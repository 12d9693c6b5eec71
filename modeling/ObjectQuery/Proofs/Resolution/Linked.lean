import ObjectQuery.Proofs.Grammar.Names
import ObjectQuery.Proofs.Resolution.Admitted
import ObjectQuery.Proofs.Resolution.Agreement
/-!
# How the sources of a statement hang together

No two sources of a statement have the same name, all their names are plain, and a join along a path
starts from a source that stands before it, is visible there and has the associations that it follows.
The first walk sees to that when it registers a source, and nothing that is registered later changes
it.
-/
namespace ObjectQuery

variable {catalog : Catalog}

/-- The source that a join along a path starts from. -/
def FromOrigin.owner? : FromOrigin → Option String
  | .root | .entityJoin => none
  | .pathJoin owner _ _ => some owner

/-- The source can be joined along the path, if it is joined along one. -/
def FromIndex.Leads (catalog : Catalog) (index : FromIndex) (clause : Nat) : FromOrigin → Prop
  | .root | .entityJoin => True
  | .pathJoin owner path plural => (∀ name ∈ path, IsPlainName name) ∧
      ∃ source ∈ index.elements, source.label = owner ∧ source.clause ∈ index.enclosing clause ∧
        ∃ found, Sources.follow catalog source.entity path = .ok (found, plural)

/-- Sources have names of their own, which are plain, and joins along paths start from sources before
them. -/
structure FromIndex.IsLinked (catalog : Catalog) (index : FromIndex) : Prop where
  mirrored : index.IsMirrored
  distinct : (index.elements.map (·.label)).Nodup
  plain : ∀ element ∈ index.elements, IsPlainName element.label
  led : ∀ element ∈ index.elements, index.Leads catalog element.clause element.origin
  ordered : index.elements.Pairwise fun earlier later => earlier.origin.owner? ≠ some later.label
  apart : ∀ element ∈ index.elements, element.origin.owner? ≠ some element.label

namespace FromIndex

variable {before after : FromIndex}

/-- The scope around a scope stays the one around it when more scopes are opened. -/
theorem parent?_mono {opened : List (Option Nat × Span)}
    (extended : after.headings = before.headings ++ opened) {clause parent : Nat}
    (known : before.parent? clause = some parent) : after.parent? clause = some parent := by
  obtain ⟨found, looked, given⟩ := Option.bind_eq_some_iff.mp known
  have heading : before.headings[clause]? = some (some parent, found.span) := by
    rw [headings, List.getElem?_map, show before.scopes[clause]? = some found from looked]
    simp [given]
  have headed : after.headings[clause]? = some (some parent, found.span) := by
    rw [extended, List.getElem?_append_left (List.getElem?_eq_some_iff.mp heading).1, heading]
  rw [parent?_eq, headed]
  rfl

/-- What is found around a scope with some fuel is found there when more scopes are opened. -/
theorem enclosingWithin_extended {opened : List (Option Nat × Span)}
    (extended : after.headings = before.headings ++ opened) {scope : Nat} :
    ∀ {fuel clause : Nat}, scope ∈ before.enclosingWithin fuel clause →
      scope ∈ after.enclosingWithin fuel clause := by
  intro fuel
  induction fuel with
  | zero => intro clause inside; cases inside
  | succ fuel ih =>
    intro clause inside
    rw [enclosingWithin] at inside ⊢
    rcases List.mem_cons.mp inside with same | around
    · exact List.mem_cons.mpr (.inl same)
    · refine List.mem_cons_of_mem _ ?_
      split at around
      · cases around
      · rename_i parent known
        rw [parent?_mono extended known]
        exact ih around

/-- What is around a scope stays around it when more scopes are opened. -/
theorem enclosing_mono {opened : List (Option Nat × Span)}
    (extended : after.headings = before.headings ++ opened) {clause scope : Nat}
    (inside : scope ∈ before.enclosing clause) : scope ∈ after.enclosing clause := by
  have longer : before.scopes.length ≤ after.scopes.length := by
    rw [← length_headings, ← length_headings, extended, List.length_append]
    omega
  have more : ∀ (extra fuel : Nat), scope ∈ after.enclosingWithin fuel clause →
      scope ∈ after.enclosingWithin (fuel + extra) clause := by
    intro extra fuel inside
    induction extra with
    | zero => exact inside
    | succ extra ih => exact enclosingWithin_mono ih
  have reached := more (after.scopes.length - before.scopes.length) _
    (enclosingWithin_extended extended inside)
  rwa [show before.scopes.length + 1 + (after.scopes.length - before.scopes.length) =
    after.scopes.length + 1 by omega] at reached

/-- An origin that leads somewhere still does with more sources registered. -/
theorem Leads.mono {opened : List (Option Nat × Span)}
    (extended : after.headings = before.headings ++ opened)
    (more : before.elements ⊆ after.elements) {clause : Nat} :
    ∀ {origin : FromOrigin}, before.Leads catalog clause origin → after.Leads catalog clause origin
  | .root, _ | .entityJoin, _ => trivial
  | .pathJoin _ _ _, ⟨plain, source, listed, named, around, followed⟩ =>
    ⟨plain, source, more listed, named, enclosing_mono extended around, followed⟩

/-- The owner an origin starts at is registered. -/
theorem Leads.owner_mem {clause : Nat} {owner : String} :
    ∀ {origin : FromOrigin}, before.Leads catalog clause origin → origin.owner? = some owner →
      owner ∈ before.elements.map (·.label)
  | .pathJoin _ _ _, ⟨_, source, listed, named, _⟩, same => by
    obtain rfl := Option.some.inj same
    exact List.mem_map.mpr ⟨source, listed, named⟩

/-- Opening scopes and spaces changes nothing about the sources. -/
theorem IsLinked.open {opened : List (Option Nat × Span)} (linked : before.IsLinked catalog)
    (mirrored : after.IsMirrored) (extended : after.headings = before.headings ++ opened)
    (same : after.elements = before.elements) : after.IsLinked catalog := by
  refine ⟨mirrored, same ▸ linked.distinct, same ▸ linked.plain, ?_, same ▸ linked.ordered,
    same ▸ linked.apart⟩
  rw [same]
  intro element listed
  exact (linked.led element listed).mono extended (same ▸ List.Subset.refl _)

/-- A source is registered under a name that is new and plain, with an origin that leads to it. -/
theorem IsLinked.register {index : FromIndex} {element : FromElement} {number : Nat}
    (linked : index.IsLinked catalog) (plain : IsPlainName element.label)
    (led : index.Leads catalog element.clause element.origin)
    (registered : index.register element = .ok (after, number)) : after.IsLinked catalog := by
  obtain ⟨elements, headings⟩ := register_adds registered
  have new : element.label ∉ index.elements.map (·.label) :=
    linked.mirrored.lookup_label_eq_none.mp (register_ok.mp registered).1.1
  have extended : after.headings = index.headings ++ [] := by simpa using headings
  have more : index.elements ⊆ after.elements := by simp [elements]
  have unowned {origin : FromOrigin} {clause : Nat} (leads : index.Leads catalog clause origin) :
      origin.owner? ≠ some element.label := fun same => new (leads.owner_mem same)
  refine ⟨linked.mirrored.register registered, ?_, ?_, ?_, ?_, ?_⟩
  · rw [elements, List.map_append, List.nodup_append]
    refine ⟨linked.distinct, by simp, ?_⟩
    rintro label listed other single rfl
    have same : label = element.label := List.mem_singleton.mp single
    exact new (same ▸ listed)
  · rw [elements, List.forall_mem_append, List.forall_mem_singleton]
    exact ⟨linked.plain, plain⟩
  · intro given listed
    rw [elements] at listed
    rcases List.mem_append.mp listed with early | late
    · exact (linked.led given early).mono extended more
    · obtain rfl := List.mem_singleton.mp late
      exact led.mono extended more
  · rw [elements, List.pairwise_append]
    refine ⟨linked.ordered, List.pairwise_singleton _ _, ?_⟩
    intro earlier listed later single
    obtain rfl := List.mem_singleton.mp single
    exact unowned (linked.led earlier listed)
  · rw [elements, List.forall_mem_append, List.forall_mem_singleton]
    exact ⟨linked.apart, unowned led⟩

end FromIndex

namespace Registering

variable {α β : Type}

/-- Every successful run of the step leaves the sources linked. -/
def Links (catalog : Catalog) (step : Registering α) : Prop :=
  ∀ ⦃registry value after⦄, Yields step registry value after →
    registry.index.IsLinked catalog → after.index.IsLinked catalog

namespace Links

/-- A value is given with all origins linked. -/
theorem pure {value : α} : Links catalog (Pure.pure value : Registering α) := by
  intro registry result after ran linked
  obtain ⟨_, rfl⟩ := yields_pure.mp ran
  exact linked

/-- Steps in a row keep origins linked if each of them does. -/
theorem bind {first : Registering α} {next : α → Registering β} (links : Links catalog first)
    (linksNext : ∀ value, Links catalog (next value)) : Links catalog (first >>= next) := by
  intro registry result after ran linked
  obtain ⟨middle, between, started, ran⟩ := yields_bind.mp ran
  exact linksNext middle ran (links started linked)

/-- Opening a scope keeps origins linked. -/
theorem addScope (parent : Option Nat) (span : Span) : Links catalog (addScope parent span) := by
  intro registry number after ran linked
  obtain ⟨rfl, rfl⟩ := yields_addScope.mp ran
  exact linked.open (linked.mirrored.addScope parent span) (FromIndex.headings_addScope _ parent span)
    FromIndex.elements_addScope

/-- Opening a space keeps origins linked. -/
theorem addSpace (clause : Nat) : Links catalog (addSpace clause) := by
  intro registry number after ran linked
  obtain ⟨index, opened, rfl⟩ := yields_addSpace.mp ran
  obtain ⟨elements, headings⟩ := FromIndex.addSpace_keeps opened
  rw [← List.append_nil registry.index.headings] at headings
  exact linked.open (linked.mirrored.addSpace opened) headings elements

/-- The name of a source is plain if it was written plain. -/
theorem isPlainName_nameFor {label : Option (Spanned String)} {count : Nat}
    (plain : ∀ name ∈ Grammar.labelNames label, IsPlainName name) :
    IsPlainName (nameFor label count).1 := by
  cases label with
  | none => exact isPlainName_generatedLabel count
  | some given => exact plain given.value (by simp [Grammar.labelNames])

end Links
end Registering

namespace Sources

open Grammar (RootRef Path labelNames pathNames queryNames spacesNames joinsNames filterNames)
open Registering

/-- A root keeps origins linked. -/
theorem addRoot_links (clause space : Nat) (root : RootRef)
    (plain : ∀ name ∈ labelNames root.label, IsPlainName name) :
    Links catalog (addRoot catalog clause space root) := by
  intro registry value after ran linked
  obtain ⟨reference, _, lifted, added⟩ := yields_bind.mp ran
  obtain ⟨_, rfl⟩ := yields_lift.mp lifted
  obtain ⟨index, number, registered, rfl⟩ := yields_addElement.mp added
  refine linked.register ?_ ?_ registered
  · exact Links.isPlainName_nameFor plain
  · exact trivial

/-- The names of the parts are names of the path. -/
theorem partNames_subset (parts : List (Grammar.PathPart Grammar.Expr)) :
    partNames parts ⊆ Grammar.partsNames parts := by
  induction parts with
  | nil => simp [partNames]
  | cons part rest ih =>
    simp only [partNames, List.map_cons, Grammar.partsNames] at ih ⊢
    exact List.cons_subset_cons _ (List.subset_append_of_subset_right _ ih)

/-- A join along a path starts from a source that is visible. -/
theorem joinTarget_leads {index : FromIndex} {clause : Nat} {path : Path Grammar.Expr}
    {reference : EntityReference} {origin : FromOrigin}
    (plain : ∀ name ∈ pathNames path, IsPlainName name)
    (led : joinTarget catalog index clause path = .ok (reference, origin)) :
    index.Leads catalog clause origin := by
  obtain ⟨⟨name, index'⟩, rest, span⟩ := path
  have simple := (joinTarget_ok led).1
  unfold joinTarget at led
  simp only [simple, ↓reduceIte] at led
  split at led
  · rename_i owner visible
    obtain ⟨⟨found, plural⟩, followed, same⟩ := except_bind_ok.mp led
    obtain ⟨_, rfl⟩ := Prod.mk.inj (Except.ok.inj same)
    refine ⟨fun label listed => plain label ?_, ?_⟩
    · rw [pathNames]
      exact List.mem_cons_of_mem _ (List.mem_append_right _ (partNames_subset rest listed))
    · split at visible
      · cases visible
      · obtain ⟨looked, around⟩ := Option.filter_eq_some_iff.mp visible
        exact ⟨owner, FromIndex.mem_of_find? looked, rfl, List.contains_iff_mem.mp around, found,
          followed⟩
  · obtain ⟨found, resolved, same⟩ := except_bind_ok.mp led
    obtain ⟨_, rfl⟩ := Prod.mk.inj (Except.ok.inj same)
    trivial

/-- A join is linked to the source its path starts at. -/
theorem addJoin_links (clause space : Nat) (target : Path Grammar.Expr)
    (label : Option (Spanned String)) (span : Span)
    (plainPath : ∀ name ∈ pathNames target, IsPlainName name)
    (plain : ∀ name ∈ labelNames label, IsPlainName name) :
    Links catalog (addJoin catalog clause space target label span) := by
  intro registry value after ran linked
  obtain ⟨_, _, looked, remaining⟩ := yields_bind.mp ran
  obtain ⟨rfl, rfl⟩ := yields_get.mp looked
  obtain ⟨⟨reference, origin⟩, _, lifted, added⟩ := yields_bind.mp remaining
  obtain ⟨led, rfl⟩ := yields_lift.mp lifted
  obtain ⟨index, number, registered, rfl⟩ := yields_addElement.mp added
  refine linked.register ?_ ?_ registered
  · exact Links.isPlainName_nameFor plain
  · exact joinTarget_leads plainPath led

mutual

/-- Registering a query keeps origins linked. -/
theorem addQuery_links (parent : Option Nat) : ∀ query : Grammar.Query Grammar.Predicate,
    (∀ name ∈ queryNames query, IsPlainName name) → Links catalog (addQuery catalog parent query)
  | ⟨_, ⟨spaces, span⟩, filter, _⟩, plain => by
    simp only [queryNames, List.forall_mem_append] at plain
    rw [addQuery]
    exact .bind (.addScope parent span) fun clause =>
      .bind (addSpaces_links clause spaces plain.1.2) fun _ => addFilter_links clause filter plain.2

/-- Registering the spaces of a clause keeps origins linked. -/
theorem addSpaces_links (clause : Nat) : ∀ spaces : List (Grammar.FromSpace Grammar.Predicate),
    (∀ name ∈ spacesNames spaces, IsPlainName name) →
      Links catalog (addSpaces catalog clause spaces)
  | [], _ => by
    rw [addSpaces]
    exact .pure
  | ⟨root, joins, _⟩ :: rest, plain => by
    simp only [spacesNames, List.forall_mem_append] at plain
    rw [addSpaces]
    exact .bind (.addSpace clause) fun space => .bind (addRoot_links clause space root plain.1.1)
      fun _ => .bind (addJoins_links clause space joins plain.1.2) fun _ =>
        addSpaces_links clause rest plain.2

/-- Registering the joins of a space keeps origins linked. -/
theorem addJoins_links (clause space : Nat) : ∀ joins : List (Grammar.Join Grammar.Predicate),
    (∀ name ∈ joinsNames joins, IsPlainName name) →
      Links catalog (addJoins catalog clause space joins)
  | [], _ => by
    rw [addJoins]
    exact .pure
  | ⟨_, _, target, label, predicate, span⟩ :: rest, plain => by
    simp only [joinsNames, List.forall_mem_append] at plain
    rw [addJoins]
    exact .bind (addJoin_links clause space target label span plain.1.1.1 plain.1.1.2) fun _ =>
      .bind (addFilter_links clause predicate plain.1.2) fun _ =>
        addJoins_links clause space rest plain.2

/-- Registering the sub-queries of a filter keeps origins linked. -/
theorem addFilter_links (clause : Nat) : ∀ filter : Option Grammar.Predicate,
    (∀ name ∈ filterNames filter, IsPlainName name) →
      Links catalog (addFilter catalog clause filter)
  | none, _ => by
    rw [addFilter]
    exact .pure
  | some predicate, plain => by
    rw [addFilter]
    exact addPredicate_links clause predicate plain

/-- Registering the sub-queries of a predicate keeps origins linked. -/
theorem addPredicate_links (clause : Nat) : ∀ predicate : Grammar.Predicate,
    (∀ name ∈ predicate.names, IsPlainName name) →
      Links catalog (addPredicate catalog clause predicate)
  | .and _ left right, plain | .or _ left right, plain => by
    simp only [Grammar.Predicate.names, List.forall_mem_append] at plain
    rw [addPredicate]
    exact .bind (addPredicate_links clause left plain.1) fun _ =>
      addPredicate_links clause right plain.2
  | .not _ operand, plain => by
    rw [addPredicate]
    exact addPredicate_links clause operand plain
  | .inQuery _ _ query _, plain => by
    simp only [Grammar.Predicate.names, List.forall_mem_append] at plain
    rw [addPredicate]
    exact addQuery_links (some clause) query plain.2
  | .compare _ _ _ _, _ | .inList _ _ _ _, _ | .memberOf _ _ _ _, _ | .isNull _ _ _, _
  | .like _ _ _ _, _ | .between _ _ _ _ _, _ => .pure

end

/-- Registering a statement links every origin. -/
theorem addStatement_links : ∀ statement : Grammar.Statement,
    (∀ name ∈ statement.names, IsPlainName name) → Links catalog (addStatement catalog statement)
  | .select query _, plain => by
    simp only [Grammar.Statement.names, List.forall_mem_append] at plain
    exact addQuery_links none query plain.1
  | .update target _ filter, plain => by
    simp only [Grammar.Statement.names, List.forall_mem_append] at plain
    rw [addStatement, addTarget]
    simp only [bind_assoc, pure_bind]
    exact .bind (.addScope none target.span) fun clause => .bind (.addSpace clause) fun space =>
      .bind (addRoot_links clause space target plain.1.1) fun _ =>
        addFilter_links clause filter plain.2
  | .delete target filter, plain => by
    simp only [Grammar.Statement.names, List.forall_mem_append] at plain
    rw [addStatement, addTarget]
    simp only [bind_assoc, pure_bind]
    exact .bind (.addScope none target.span) fun clause => .bind (.addSpace clause) fun space =>
      .bind (addRoot_links clause space target plain.1) fun _ =>
        addFilter_links clause filter plain.2

/-- The sources that are registered for a statement with plain names are linked. -/
theorem ofStatement_isLinked {statement : Grammar.Statement} {index : FromIndex}
    (plain : ∀ name ∈ statement.names, IsPlainName name)
    (registered : ofStatement catalog statement = .ok index) : index.IsLinked catalog := by
  obtain ⟨after, ran, rfl⟩ := ofStatement_ok.mp registered
  refine addStatement_links statement plain ran ⟨FromIndex.isMirrored_empty, ?_, ?_, ?_, ?_, ?_⟩ <;>
    simp [Registry.empty, FromIndex.empty]

end Sources
end ObjectQuery

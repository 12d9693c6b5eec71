import ObjectQuery.Proofs.Resolution.Agreement
import ObjectQuery.Proofs.Resolution.Narrowed
/-!
# Statements with a narrowed root

A statement whose paths all start with a source can be resolved with another entity for its root, if
that entity has everything the root says about its attributes. The result is the statement with the
entity of its root replaced, up to recorded types.
-/
namespace ObjectQuery

namespace FromIndex

variable {entity : EntityType} {index : FromIndex}

/-- Narrowing changes nothing but an entity. -/
theorem map_narrowed {α : Type} (view : FromElement → α)
    (kept : ∀ element : FromElement, view (element.withEntity entity) = view element) :
    (index.narrowed entity).elements.map view = index.elements.map view := by
  unfold narrowed
  cases index.elements with
  | nil => rfl
  | cons first rest => exact congrArg (· :: rest.map view) (kept first)

/-- No table holds entities. -/
theorem IsMirrored.narrowed (mirrored : index.IsMirrored) :
    (index.narrowed entity).IsMirrored := by
  have homes : (index.narrowed entity).elements.map (fun element => (element.clause, element.space)) =
      index.elements.map fun element => (element.clause, element.space) :=
    map_narrowed _ fun _ => rfl
  have inSpaces : (index.narrowed entity).spaceElements = index.spaceElements := by
    funext clause space
    have known (given : FromIndex) : given.spaceElements clause space =
        (given.elements.map fun element => (element.clause, element.space)).zipIdx.filterMap
          fun (home, number) =>
            if home.1 = clause ∧ home.2 = space then some number else none := by
      simp only [spaceElements, List.zipIdx_map, List.filterMap_map]
      rfl
    rw [known, known, homes]
  refine ⟨?_, ?_, mirrored.scopePlaces, ?_, ?_, ?_, mirrored.children⟩
  · exact mirrored.labels.trans (listing_congr (map_narrowed _ fun _ => rfl).symm)
  · exact mirrored.elementPlaces.trans (listing_congr (map_narrowed _ fun _ => rfl).symm)
  · rw [map_narrowed _ fun _ => rfl]
    exact mirrored.distinct
  · intro element listed
    obtain ⟨other, listedToo, same⟩ := List.mem_map.mp (homes ▸ List.mem_map_of_mem listed)
    obtain ⟨clause, space⟩ := Prod.mk.inj same
    rw [← clause, ← space]
    exact mirrored.housed other listedToo
  · rw [inSpaces]
    exact mirrored.spaces

/-- Narrowing changes no place. -/
theorem IsDistinct.narrowed (distinct : index.IsDistinct) :
    (index.narrowed entity).IsDistinct := by
  refine ⟨distinct.mirrored.narrowed, ?_, distinct.scopes⟩
  rw [map_narrowed _ fun _ => rfl]
  exact distinct.elements

end FromIndex

namespace Resolution

open Resolved (FromNode strippedSpaces strippedQuery)

variable {entity : EntityType} {names : Names}

/-- The items of a from-clause with another entity for the first source. -/
def withRootSpaces (entity : EntityType) :
    List (Resolved.FromSpace Resolved.Predicate) → List (Resolved.FromSpace Resolved.Predicate)
  | [] => []
  | ⟨root, joins⟩ :: rest => ⟨root.withEntity entity, joins⟩ :: rest

/-- Another root entity of a query is that of its first space. -/
theorem withRoot_select (spaces : List (Resolved.FromSpace Resolved.Predicate)) (distinct : Bool)
    (selections : List Resolved.Selection) (filter : Option Resolved.Predicate)
    (order : List Resolved.SortKey) :
    Resolved.Statement.withRoot entity (.select ⟨spaces, distinct, selections, filter⟩ order) =
      .select ⟨withRootSpaces entity spaces, distinct, selections, filter⟩ order := by
  cases spaces <;> rfl

/-- Under the place of the root its narrowed form is found, and under the other places what was there
before. -/
structure RootAt (entity : EntityType) (names : Names) (span : Span) (others : List Span) : Prop where
  rooted : names.index.Rooted entity
  root : ∀ node, nodeAt names span = .ok node →
    nodeAt (names.narrowed entity) span = .ok (node.withEntity entity)
  apart : Apart entity names others

/-- The first element that is registered is the root. -/
theorem rootAt_of_elements {catalog : Catalog} {index : FromIndex} {element : FromElement}
    {rest : List FromElement} (distinct : index.IsDistinct) (first : index.elements = element :: rest)
    (shared : element.entity.IsSharedBy entity) :
    RootAt entity ⟨catalog, index⟩ element.span (rest.map (·.span)) := by
  have narrowed : (index.narrowed entity).elements = element.withEntity entity :: rest := by
    simp [FromIndex.narrowed, first]
  have found : nodeAt ⟨catalog, index⟩ element.span = .ok (.ofElement element) :=
    nodeAt_element distinct (first ▸ List.mem_cons_self)
  have listed : element.withEntity entity ∈ (index.narrowed entity).elements :=
    narrowed ▸ List.mem_cons_self
  have foundToo : nodeAt ⟨catalog, index.narrowed entity⟩ (element.withEntity entity).span =
      .ok (.ofElement (element.withEntity entity)) := nodeAt_element distinct.narrowed listed
  refine ⟨⟨element, rest, first, shared⟩, fun node atPlace => ?_, List.forall_mem_map.mpr ?_⟩
  · obtain rfl : FromNode.ofElement element = node := Except.ok.inj (found.symm.trans atPlace)
    exact foundToo
  · intro other listed
    have before : nodeAt ⟨catalog, index⟩ other.span = .ok (.ofElement other) :=
      nodeAt_element distinct (first ▸ List.mem_cons_of_mem _ listed)
    have after : nodeAt ⟨catalog, index.narrowed entity⟩ other.span = .ok (.ofElement other) :=
      nodeAt_element distinct.narrowed (narrowed ▸ List.mem_cons_of_mem _ listed)
    exact after.trans before.symm

/-- A source that is found where the root is has been narrowed. -/
theorem Carries.bindRoot {β γ : Type} {related : β → γ → Prop} {span : Span} {others : List Span}
    {next : FromNode → Resolving β} {image : FromNode → Resolving γ}
    (root : RootAt entity names span others)
    (later : ∀ node, nodeAt names span = .ok node →
      Carries related (next node) (image (node.withEntity entity))) :
    Carries related (liftM (nodeAt names span) >>= next)
      (liftM (nodeAt (names.narrowed entity) span) >>= image) := by
  have lifted : Carries (fun first second => nodeAt names span = .ok first ∧
      second = first.withEntity entity)
      (liftM (nodeAt names span)) (liftM (nodeAt (names.narrowed entity) span)) :=
    .lift fun node found => ⟨node.withEntity entity, root.root node found, found, rfl⟩
  refine .bind lifted fun node other ⟨found, same⟩ => ?_
  subst same
  exact later node found

variable {root : Grammar.RootRef} {joined : List (Grammar.Join Grammar.Predicate)} {place : Span}
  {rest : List (Grammar.FromSpace Grammar.Predicate)} {condition : Option Grammar.Predicate}

/-- The spaces of a clause are resolved alike but for the root. -/
theorem spaces_rooted (clause : Nat)
    (atRoot : RootAt entity names root.span
      (Grammar.joinPlaces joined ++ Grammar.spacePlaces rest ++ Grammar.filterPlaces condition))
    (qualified : Grammar.spacesQualified names.index clause (⟨root, joined, place⟩ :: rest) = true) :
    Carries (fun first second =>
        (∃ node, first.head?.map (·.root) = some node ∧ nodeAt names root.span = .ok node) ∧
          strippedSpaces second = strippedSpaces (withRootSpaces entity first))
      (spaces names clause (⟨root, joined, place⟩ :: rest))
      (spaces (names.narrowed entity) clause (⟨root, joined, place⟩ :: rest)) := by
  rw [Grammar.spacesQualified, Bool.and_eq_true] at qualified
  obtain ⟨⟨inJoins, inRest⟩, _⟩ := apart_append.mp atRoot.apart |>.imp_left apart_append.mp
  rw [spaces, spaces]
  refine .bindRoot atRoot fun node found => ?_
  refine .bind (joins_narrowed atRoot.rooted clause joined qualified.1 inJoins) fun _ _ same => ?_
  refine .bind (spaces_narrowed atRoot.rooted clause rest qualified.2 inRest) fun _ _ sameRest => ?_
  exact .pure ⟨⟨node, rfl, found⟩, by simp [withRootSpaces, same, sameRest]⟩

/-- A query is resolved alike but for the root. -/
theorem querySpec_rooted {select : Option Grammar.SelectClause} {span whole : Span}
    (atRoot : RootAt entity names root.span
      (Grammar.joinPlaces joined ++ Grammar.spacePlaces rest ++ Grammar.filterPlaces condition))
    (qualified : Grammar.queryQualified names.index
      ⟨select, ⟨⟨root, joined, place⟩ :: rest, span⟩, condition, whole⟩ = true) :
    Carries (fun first second =>
        (∃ node, first.spaces.head?.map (·.root) = some node ∧
          nodeAt names root.span = .ok node) ∧
        strippedQuery second =
          strippedQuery { first with spaces := withRootSpaces entity first.spaces })
      (querySpec names ⟨select, ⟨⟨root, joined, place⟩ :: rest, span⟩, condition, whole⟩)
      (querySpec (names.narrowed entity)
        ⟨select, ⟨⟨root, joined, place⟩ :: rest, span⟩, condition, whole⟩) := by
  have inFilter := (apart_append.mp atRoot.apart).2
  rw [Grammar.queryQualified] at qualified
  rw [querySpec, querySpec]
  refine .bindScope fun clause found => ?_
  rw [found, Option.any_some, Bool.and_eq_true, Bool.and_eq_true] at qualified
  refine .bind (selections_narrowed atRoot.rooted clause qualified.1.1) fun _ _ sameChosen => ?_
  refine .bind (spaces_rooted clause atRoot qualified.1.2) fun first second ⟨named, sameItems⟩ => ?_
  refine .bind (filter_narrowed atRoot.rooted clause condition qualified.2 inFilter)
    fun _ _ same => .pure ⟨named, ?_⟩
  simp only [strippedQuery, sameItems, same]
  split
  · rw [sameChosen]
  · rw [defaultSelections_alike]
    rw [← labels_stripped, sameItems, labels_stripped]
    cases first <;> rfl

/-- A qualified assignment is resolved alike over the narrower root. -/
theorem assignment_narrowed (rooted : names.index.Rooted entity) (clause : Nat) (target : FromNode)
    {given : Grammar.Assignment}
    (qualified : (Grammar.pathQualified names.index clause given.target &&
      given.value.isQualified names.index clause) = true) :
    Carries (fun first second => second.stripped = first.stripped)
      (assignment names clause target given)
      (assignment (names.narrowed entity) clause (target.withEntity entity) given) := by
  rw [Bool.and_eq_true] at qualified
  unfold assignment
  refine .bind (path_narrowed rooted clause given.target qualified.1) fun first second alike => ?_
  cases first with
  | path reference =>
    obtain ⟨other, rfl, same⟩ := path_alike alike
    have source : other.source = reference.source := by
      have sources := congrArg Resolved.Reference.source same
      exact sources
    have single : other.init.isEmpty = reference.init.isEmpty := by
      have inits := congrArg (List.isEmpty ∘ Resolved.Reference.init) same
      simpa [Resolved.strippedSegments_eq_map] using inits
    have types : other.type = reference.type := by
      rw [← other.type_stripped, same, reference.type_stripped]
    have label : (target.withEntity entity).label = target.label := rfl
    simp only [source, single, types, label]
    split
    · refine .bind (expr_narrowed rooted clause given.value qualified.2) fun _ _ alikeValue => .pure ?_
      rw [Resolved.Assignment.stripped, Resolved.Assignment.stripped, same, alikeValue.stripped]
    · exact .throw
  | _ => exact .throw

/-- A qualified sort key is resolved alike over the narrower root. -/
theorem sortKey_narrowed (rooted : names.index.Rooted entity) (clause : Nat)
    {key : Grammar.SortSpec} (qualified : key.expr.isQualified names.index clause = true) :
    Carries (fun first second => second.stripped = first.stripped)
      (sortKey names clause key) (sortKey (names.narrowed entity) clause key) :=
  .bind (expr_narrowed rooted clause key.expr qualified) fun _ _ alike =>
    .pure (by simp [alike.stripped])

/-- Qualified sort keys are resolved alike over the narrower root. -/
theorem order_narrowed (rooted : names.index.Rooted entity) {span : Span}
    {order : List Grammar.SortSpec}
    (qualified : ((names.index.scopeAt? span).all fun clause =>
      order.all (·.expr.isQualified names.index clause)) = true) :
    Carries (fun first second => second.map Resolved.SortKey.stripped =
        first.map Resolved.SortKey.stripped)
      (order.mapM fun key => do
        let clause ← scopeAt names span
        sortKey names clause key)
      (order.mapM fun key => do
        let clause ← scopeAt (names.narrowed entity) span
        sortKey (names.narrowed entity) clause key) := by
  refine .mapM fun key listed => .bindScope fun clause found => ?_
  rw [found, Option.all_some] at qualified
  exact sortKey_narrowed rooted clause (List.all_eq_true.mp qualified key listed)

/-- Resolving a statement carries over to its narrowed root. The root is what is registered for it.

Proof: by cases on the statement. Each of them looks up its scope, then its root, and everything
else is resolved alike. -/
theorem statement_narrowed {tree : Grammar.Statement} (rooted : tree.root? = some root)
    (atRoot : RootAt entity names root.span tree.others)
    (qualified : tree.isQualified names.index = true) :
    Carries (fun first second =>
        (∃ node, first.root? = some node ∧ nodeAt names root.span = .ok node) ∧
          second.stripped = (first.withRoot entity).stripped)
      (statement names tree) (statement (names.narrowed entity) tree) := by
  cases tree with
  | select query order =>
    obtain ⟨select, ⟨_ | ⟨⟨first, joined, place⟩, rest⟩, span⟩, condition, whole⟩ := query
    · cases rooted
    · obtain rfl := Option.some.inj rooted
      rw [Grammar.Statement.isQualified, Bool.and_eq_true] at qualified
      refine .bind (querySpec_rooted atRoot qualified.1) fun resolved other ⟨named, sameQuery⟩ => ?_
      refine .bind (order_narrowed atRoot.rooted qualified.2)
        fun keys others sameKeys => .pure ⟨named, ?_⟩
      obtain ⟨spaces, distinct, selections, filter⟩ := resolved
      rw [withRoot_select, Resolved.Statement.stripped, Resolved.Statement.stripped, sameQuery,
        sameKeys]
  | update target assignments condition =>
    obtain rfl := Option.some.inj rooted
    rw [Grammar.Statement.isQualified] at qualified
    refine .bindScope fun clause found => ?_
    rw [found, Option.any_some, Bool.and_eq_true] at qualified
    refine .bindRoot atRoot fun node registered => ?_
    refine .bind (.mapM fun given listed => assignment_narrowed atRoot.rooted clause node
      (List.all_eq_true.mp qualified.1 given listed)) fun assigned others sameAssigned => ?_
    refine .bind (filter_narrowed atRoot.rooted clause condition qualified.2 atRoot.apart)
      fun _ _ same => .pure ⟨⟨node, rfl, registered⟩, ?_⟩
    simp only [Resolved.Statement.withRoot, Resolved.Statement.stripped, List.map_map, same,
      sameAssigned]
    rfl
  | delete target condition =>
    obtain rfl := Option.some.inj rooted
    rw [Grammar.Statement.isQualified] at qualified
    refine .bindScope fun clause found => ?_
    rw [found, Option.any_some] at qualified
    refine .bindRoot atRoot fun node registered => ?_
    refine .bind (filter_narrowed atRoot.rooted clause condition qualified atRoot.apart)
      fun _ _ same => .pure ⟨⟨node, rfl, registered⟩, ?_⟩
    simp only [Resolved.Statement.withRoot, Resolved.Statement.stripped, same]

/-- The name of the root's entity is only looked at when sources are registered. -/
theorem statement_naming (names : Names) (name : String) (tree : Grammar.Statement) :
    statement names (tree.naming name) = statement names tree := by
  cases tree with
  | select query order =>
    obtain ⟨select, ⟨_ | ⟨⟨first, joined, place⟩, rest⟩, span⟩, condition, whole⟩ := query
    · rfl
    · simp only [Grammar.Statement.naming, statement, querySpec, spaces, Grammar.RootRef.naming]
  | update target assignments condition => rfl
  | delete target condition => rfl

end Resolution
end ObjectQuery

import ObjectQuery.Proofs.Grammar.Landmarks
import ObjectQuery.Proofs.Resolution.Found
import ObjectQuery.Proofs.Resolution.Walk
/-!
# The two walks agree

The first walk registers the sources of a statement and the second finds them again by their places.
No two places of a statement that has been read are the same, so the second walk finds for each source
and each from-clause what the first walk has registered for it. Whatever it resolves, it resolves in
the scope of the query that it stands in.
-/
namespace ObjectQuery

/-! ## The sources of a resolved statement -/

namespace Resolved

mutual

/-- The sources in a predicate, in the order of the text. -/
def Predicate.sources : Predicate → List FromNode
  | .and left right | .or left right => left.sources ++ right.sources
  | .not operand => operand.sources
  | .inQuery _ query _ => querySources query
  | _ => []

/-- The sources of a query and of the queries in it. -/
def querySources : Query Predicate → List FromNode
  | ⟨spaces, _, _, filter⟩ => spaceSources spaces ++ filterSources filter

/-- The sources of the items of a from-clause. -/
def spaceSources : List (FromSpace Predicate) → List FromNode
  | [] => []
  | ⟨root, joins⟩ :: rest => root :: (joinSources joins ++ spaceSources rest)

/-- The sources of joins and of their conditions. -/
def joinSources : List (Join Predicate) → List FromNode
  | [] => []
  | ⟨_, _, target, predicate⟩ :: rest => target :: (filterSources predicate ++ joinSources rest)

/-- The sources in a condition that may be absent. -/
def filterSources : Option Predicate → List FromNode
  | none => []
  | some predicate => predicate.sources

end

/-- All sources of a statement, in the order of the text. -/
def Statement.sources : Statement → List FromNode
  | .select query _ => querySources query
  | .update target _ filter | .delete target filter => target :: filterSources filter

/-- The sources that a query names itself are among all its sources. -/
theorem elements_subset (query : QuerySpec) : query.elements ⊆ querySources query := by
  obtain ⟨items, distinct, selections, condition⟩ := query
  rw [querySources]
  refine List.subset_append_of_subset_left _ ?_
  induction items with
  | nil => exact List.Subset.refl _
  | cons space rest ih =>
    obtain ⟨root, joins⟩ := space
    have targets : joins.map (·.target) ⊆ joinSources joins := by
      induction joins with
      | nil => exact List.Subset.refl _
      | cons join joins ih =>
        obtain ⟨kind, fetch, target, predicate⟩ := join
        rw [joinSources]
        exact List.cons_subset_cons _ (List.subset_append_of_subset_right _ ih)
    rw [spaceSources, Query.elements, List.flatMap_cons, List.cons_append]
    exact List.cons_subset_cons _ (List.append_subset.mpr
      ⟨List.subset_append_of_subset_left _ targets, List.subset_append_of_subset_right _ ih⟩)

end Resolved

/-! ## Looking places up -/

namespace FromIndex

/-- The tables agree, and no two elements and no two scopes have the same place. -/
structure IsDistinct (index : FromIndex) : Prop where
  mirrored : index.IsMirrored
  elements : (index.elements.map (·.span)).Nodup
  scopes : (index.scopes.map (·.span)).Nodup

variable {index : FromIndex}

/-- An element is found at its place. -/
theorem IsDistinct.elementAt? (distinct : index.IsDistinct) {element : FromElement}
    (registered : element ∈ index.elements) : index.elementAt? element.span = some element := by
  obtain ⟨number, there⟩ := List.getElem?_of_mem registered
  have placed : index.elementPlaces.lookup element.span = some number := by
    rw [distinct.mirrored.elementPlaces]
    exact (lookup_listing_of_nodup distinct.elements).mpr ⟨element, there, rfl⟩
  rw [FromIndex.elementAt?, placed]
  exact there

/-- A scope is found at its place. -/
theorem IsDistinct.scopeAt? (distinct : index.IsDistinct) {clause : Nat} {parent : Option Nat}
    {span : Span} (opened : index.headings[clause]? = some (parent, span)) :
    index.scopeAt? span = some clause := by
  rw [headings, List.getElem?_map, Option.map_eq_some_iff] at opened
  obtain ⟨scope, known, same⟩ := opened
  rw [FromIndex.scopeAt?, distinct.mirrored.scopePlaces]
  exact (lookup_listing_of_nodup distinct.scopes).mpr ⟨scope, known, congrArg Prod.snd same⟩

/-- More fuel finds no fewer clauses around a clause. -/
theorem enclosingWithin_mono : ∀ {fuel : Nat} {clause : Nat} {scope : Nat},
    scope ∈ index.enclosingWithin fuel clause → scope ∈ index.enclosingWithin (fuel + 1) clause
  | 0, _, _, inside => by cases inside
  | fuel + 1, clause, scope, inside => by
    rw [enclosingWithin] at inside ⊢
    rcases List.mem_cons.mp inside with same | around
    · exact List.mem_cons.mpr (.inl same)
    · refine List.mem_cons_of_mem _ ?_
      split at around
      · cases around
      · exact enclosingWithin_mono around

/-- Around a scope is only what is around its parent. -/
theorem mem_enclosing {clause scope : Nat} (inside : scope ∈ index.enclosing clause) :
    scope = clause ∨ ∃ parent ∈ index.parent? clause, scope ∈ index.enclosing parent := by
  unfold enclosing at inside ⊢
  rw [enclosingWithin] at inside
  rcases List.mem_cons.mp inside with same | around
  · exact .inl same
  · split at around
    · cases around
    · rename_i parent known
      exact .inr ⟨parent, known, enclosingWithin_mono around⟩

end FromIndex

/-! ## The second walk -/

namespace Resolution

open Resolved (Expr FromNode QueryScoped SpacesScoped JoinsScoped FilterScoped querySources
  spaceSources joinSources filterSources)

/-- The sources are those that are registered for the places. -/
def AreAt (names : Names) (places : List Span) (sources : List FromNode) : Prop :=
  places.map (nodeAt names) = sources.map .ok

section AreAt

variable {names : Names} {places later : List Span} {sources others : List FromNode}

/-- No sources are at no places. -/
theorem AreAt.nil : AreAt names [] [] := rfl

/-- A further source is at its own place. -/
theorem AreAt.cons {span : Span} {node : FromNode} (first : nodeAt names span = .ok node)
    (rest : AreAt names places sources) : AreAt names (span :: places) (node :: sources) :=
  congrArg₂ List.cons first rest

/-- Sources at two lists of places are at both together. -/
theorem AreAt.append (first : AreAt names places sources) (second : AreAt names later others) :
    AreAt names (places ++ later) (sources ++ others) := by
  unfold AreAt at first second ⊢
  rw [List.map_append, List.map_append, first, second]

/-- Places hold one list of sources. -/
theorem AreAt.unique (first : AreAt names places sources) (second : AreAt names places others) :
    sources = others := by
  have same : sources.map Except.ok = others.map (Except.ok (ε := ResolutionError)) :=
    first.symm.trans second
  exact List.map_injective_iff.mpr (fun _ _ => Except.ok.inj) same

end AreAt

variable {names : Names} {clause : Nat} {visible outside : List FromNode}

/-- A registered source is found by where it is written. -/
theorem nodeAt_element (distinct : names.index.IsDistinct) {element : FromElement}
    (registered : element ∈ names.index.elements) :
    nodeAt names element.span = .ok (.ofElement element) := by
  unfold nodeAt
  rw [distinct.elementAt? registered]

/-- What is registered is found at its own places. -/
theorem areAt_elements (distinct : names.index.IsDistinct) {elements : List FromElement}
    (registered : ∀ element ∈ elements, element ∈ names.index.elements) :
    AreAt names (elements.map (·.span)) (elements.map .ofElement) := by
  unfold AreAt
  rw [List.map_map, List.map_map]
  exact List.map_congr_left fun element listed => nodeAt_element distinct (registered element listed)

/-- Every place is that of a registered element. -/
def Known (index : FromIndex) (places : List Span) : Prop :=
  ∀ span ∈ places, span ∈ index.elements.map (·.span)

/-- A place that is registered holds a source. -/
theorem nodeAt_gets (distinct : names.index.IsDistinct) {span : Span}
    (known : span ∈ names.index.elements.map (·.span)) :
    Gets (nodeAt names span) fun node => nodeAt names span = .ok node := by
  obtain ⟨element, registered, rfl⟩ := List.mem_map.mp known
  rw [nodeAt_element distinct registered]
  exact rfl

/-- The clause opened at a place is found by it. -/
theorem scopeAt_eq (distinct : names.index.IsDistinct) {parent : Option Nat} {span : Span}
    (opened : names.index.headings[clause]? = some (parent, span)) :
    scopeAt names span = .ok clause := by
  unfold scopeAt
  rw [distinct.scopeAt? opened]

/-- A place that opens a clause is found to open it. -/
theorem scopeAt_gets {span : Span} (place : scopeAt names span = .ok clause) :
    Gets (scopeAt names span) fun found => found = clause := by
  rw [place]
  exact rfl

/-- In a scope one sees its own elements and what is seen around it. -/
theorem sees_opened {parent : Option Nat} {span : Span}
    (opened : names.index.headings[clause]? = some (parent, span)) (mirrored : names.index.IsMirrored)
    (sees : ∀ around ∈ parent, Sees names.index around outside) :
    Sees names.index clause ((names.index.members clause).map .ofElement ++ outside) := by
  refine ⟨mirrored, fun element registered inside => ?_⟩
  rcases FromIndex.mem_enclosing inside with same | ⟨around, known, further⟩
  · refine List.mem_append_left _ (List.mem_map_of_mem ?_)
    simpa [FromIndex.members, same] using registered
  · rw [FromIndex.parent?_eq, opened] at known
    exact List.mem_append_right _ ((sees around known).listed element registered further)

/-- A path to a collection is found in the scope of its clause. -/
theorem collection_finds (sees : Sees names.index clause visible)
    (route : Grammar.Path Grammar.Expr) :
    Finds (collection names clause route) fun found => found.IsScoped names.catalog visible := by
  unfold collection
  refine .bind (path_finds sees route) fun found within => ?_
  cases found with
  | path reference =>
    dsimp only
    split
    · exact .pure within
    · exact .throw rfl
  | _ => exact .throw rfl

/-- A join is made of the parts it is given. -/
theorem joinMake_gets (kind : JoinKind) (fetch : Bool) (target : FromNode)
    (condition : Option Resolved.Predicate) :
    Gets (Resolved.Join.make kind fetch target condition) fun join =>
      join = ⟨kind, fetch, target, condition⟩ := by
  unfold Resolved.Join.make
  split
  · exact rfl
  · split
    · exact rfl
    · exact rfl

/-- Selections are found in the scope of their clause. -/
theorem selections_finds (sees : Sees names.index clause visible) (list : List Grammar.Selection) :
    Finds (selections names clause list) fun found =>
      ∀ selection ∈ found, selection.expr.IsScoped names.catalog visible :=
  .mapM fun selection _ => .bind (expr_finds sees selection.expr) fun _ within => .pure within

/-- Without a select list only sources of the query are selected. -/
theorem defaultSelections_isScoped {catalog : Catalog}
    (spaces : List (Resolved.FromSpace Resolved.Predicate)) :
    ∀ selection ∈ defaultSelections spaces, selection.expr.IsScoped catalog
      ((spaces.flatMap fun space => space.root :: space.joins.map (·.target)) ++ outside) := by
  refine List.forall_mem_map.mpr fun space listed => ⟨space.root, ?_, rfl, rfl⟩
  exact List.mem_append_left _ (List.mem_flatMap.mpr ⟨space, listed, List.mem_cons_self⟩)

mutual

/-- A predicate is found in the scope of its clause, its sub-queries with their own.

Proof: by recursion over the predicate. The index mirrors the tree, so the scope of a query is found
at its place with the sources that were registered for it. -/
theorem predicate_finds (distinct : names.index.IsDistinct) {clause : Nat}
    {visible : List FromNode} (sees : Sees names.index clause visible) :
    ∀ given : Grammar.Predicate, names.index.MirrorsPredicate clause given →
      Finds (predicate names clause given) fun found =>
        found.IsScoped names.catalog visible ∧ AreAt names given.places found.sources
  | .and _ left right, mirrors | .or _ left right, mirrors => by
    rw [predicate]
    refine .bind (predicate_finds distinct sees left mirrors.1) fun left within => ?_
    refine .bind (predicate_finds distinct sees right mirrors.2) fun right withinToo => ?_
    exact .pure ⟨⟨within.1, withinToo.1⟩, within.2.append withinToo.2⟩
  | .not _ operand, mirrors => by
    rw [predicate]
    exact .bind (predicate_finds distinct sees operand mirrors) fun _ within => .pure within
  | .compare _ op left right, _ => by
    rw [predicate]
    refine .bind (expr_finds sees left) fun left within => ?_
    exact .bind (expr_finds sees right) fun right withinToo => .pure ⟨⟨within, withinToo⟩, .nil⟩
  | .inList _ test values negated, _ => by
    rw [predicate]
    refine .bind (expr_finds sees test) fun test within => ?_
    refine .bind (.mapM fun value _ => expr_finds sees value) fun values listed => ?_
    exact .pure ⟨⟨within, listed⟩, .nil⟩
  | .inQuery _ test query negated, mirrors => by
    rw [predicate]
    refine .bind (expr_finds sees test) fun test within => ?_
    refine .bind (querySpec_finds distinct (by simpa using sees) query mirrors) fun query found => ?_
    exact .pure ⟨⟨within, found.1⟩, found.2.1⟩
  | .memberOf _ element route negated, _ => by
    rw [predicate]
    refine .bind (expr_finds sees element) fun element within => ?_
    exact .bind (collection_finds sees route) fun _ withinToo => .pure ⟨⟨within, withinToo⟩, .nil⟩
  | .isNull _ operand negated, _ => by
    rw [predicate]
    exact .bind (expr_finds sees operand) fun _ within => .pure ⟨within, .nil⟩
  | .like _ operand pattern negated, _ => by
    rw [predicate]
    refine .bind (expr_finds sees operand) fun operand within => ?_
    exact .bind (expr_finds sees pattern) fun _ withinToo => .pure ⟨⟨within, withinToo⟩, .nil⟩
  | .between _ operand low high negated, _ => by
    rw [predicate]
    refine .bind (expr_finds sees operand) fun operand within => ?_
    refine .bind (expr_finds sees low) fun low least => ?_
    exact .bind (expr_finds sees high) fun _ most => .pure ⟨⟨within, least, most⟩, .nil⟩

/-- A filter is found in the scope of its clause. -/
theorem filter_finds (distinct : names.index.IsDistinct) {clause : Nat}
    {visible : List FromNode} (sees : Sees names.index clause visible) :
    ∀ given : Option Grammar.Predicate, names.index.MirrorsFilter clause given →
      Finds (filter names clause given) fun found =>
        FilterScoped names.catalog visible found ∧
          AreAt names (Grammar.filterPlaces given) (filterSources found)
  | none, _ => by
    rw [filter]
    exact .pure ⟨trivial, .nil⟩
  | some given, mirrors => by
    rw [filter]
    exact .bind (predicate_finds distinct sees given mirrors) fun _ within => .pure within

/-- Joins are found with their targets in order. -/
theorem joins_finds (distinct : names.index.IsDistinct) {clause : Nat}
    {visible : List FromNode} (sees : Sees names.index clause visible) :
    ∀ given : List (Grammar.Join Grammar.Predicate), names.index.MirrorsJoins clause given →
      Known names.index (given.map (·.span)) →
      Finds (joins names clause given) fun found =>
        JoinsScoped names.catalog visible found ∧
          AreAt names (Grammar.joinPlaces given) (joinSources found) ∧
          AreAt names (given.map (·.span)) (found.map (·.target))
  | [], _, _ => by
    rw [joins]
    exact .pure ⟨trivial, .nil, .nil⟩
  | ⟨kind, fetch, _, _, condition, span⟩ :: rest, mirrors, known => by
    obtain ⟨here, further⟩ := List.forall_mem_cons.mp known
    rw [joins]
    refine .bind (.lift (nodeAt_gets distinct here)) fun target found => ?_
    refine .bind (filter_finds distinct sees condition mirrors.1) fun condition within => ?_
    refine .bind (.lift (joinMake_gets kind fetch target condition)) fun join made => ?_
    subst made
    refine .bind (joins_finds distinct sees rest mirrors.2 further) fun others remaining => ?_
    exact .pure ⟨⟨within.1, remaining.1⟩, .cons found (within.2.append remaining.2.1),
      .cons found remaining.2.2⟩

/-- Spaces are found with their sources in order. -/
theorem spaces_finds (distinct : names.index.IsDistinct) {clause : Nat}
    {visible : List FromNode} (sees : Sees names.index clause visible) :
    ∀ given : List (Grammar.FromSpace Grammar.Predicate), names.index.MirrorsSpaces clause given →
      Known names.index (Grammar.ownPlaces given) →
      Finds (spaces names clause given) fun found =>
        SpacesScoped names.catalog visible found ∧
          AreAt names (Grammar.spacePlaces given) (spaceSources found) ∧
          AreAt names (Grammar.ownPlaces given)
            (found.flatMap fun space => space.root :: space.joins.map (·.target))
  | [], _, _ => by
    rw [spaces]
    exact .pure ⟨trivial, .nil, .nil⟩
  | ⟨root, joined, _⟩ :: rest, mirrors, known => by
    obtain ⟨here, further⟩ := List.forall_mem_cons.mp known
    obtain ⟨behind, others⟩ := List.forall_mem_append.mp further
    rw [spaces]
    refine .bind (.lift (nodeAt_gets distinct here)) fun node found => ?_
    refine .bind (joins_finds distinct sees joined mirrors.1 behind) fun joined within => ?_
    refine .bind (spaces_finds distinct sees rest mirrors.2 others) fun rest remaining => ?_
    exact .pure ⟨⟨within.1, remaining.1⟩, .cons found (within.2.1.append remaining.2.1),
      .cons found (within.2.2.append remaining.2.2)⟩

/-- A query is found in its own scope and those around it. -/
theorem querySpec_finds (distinct : names.index.IsDistinct) {parent : Option Nat}
    {outside : List FromNode} (sees : ∀ around ∈ parent, Sees names.index around outside) :
    ∀ given : Grammar.Query Grammar.Predicate, names.index.MirrorsQuery parent given →
      Finds (querySpec names given) fun found =>
        QueryScoped names.catalog outside found ∧
          AreAt names (Grammar.queryPlaces given) (querySources found) ∧
          ∃ clause, scopeAt names given.sources.span = .ok clause ∧
            Sees names.index clause (found.elements ++ outside)
  | ⟨select, ⟨items, span⟩, condition, _⟩, mirrors => by
    obtain ⟨clause, opened, owned, inItems, inCondition⟩ := mirrors
    have place := scopeAt_eq distinct opened
    have inside := sees_opened opened distinct.mirrored sees
    -- the sources that the from-clause names are those that are registered in the scope
    have registered : ∀ element ∈ names.index.members clause, element ∈ names.index.elements :=
      fun element member => List.mem_of_mem_filter member
    have own := areAt_elements distinct registered
    rw [owned] at own
    have known : Known names.index (Grammar.ownPlaces items) := by
      intro place listed
      rw [← owned] at listed
      obtain ⟨element, member, rfl⟩ := List.mem_map.mp listed
      exact List.mem_map_of_mem (registered element member)
    rw [querySpec]
    refine .bind (.lift (scopeAt_gets place)) fun found same => ?_
    subst same
    refine .bind (selections_finds inside _) fun chosen chosenWithin => ?_
    refine .bind (spaces_finds distinct inside items inItems known) fun items itemsWithin => ?_
    refine .bind (filter_finds distinct inside condition inCondition) fun condition within => ?_
    have same := own.unique itemsWithin.2.2
    rw [same] at chosenWithin itemsWithin within inside
    refine .pure ⟨⟨?_, itemsWithin.1, within.1⟩, itemsWithin.2.1.append within.2, found, place, inside⟩
    split
    · exact chosenWithin
    · exact defaultSelections_isScoped items

end

/-- An assignment is found in the scope of the target. -/
theorem assignment_finds (target : FromNode) (sees : Sees names.index clause visible)
    (given : Grammar.Assignment) :
    Finds (assignment names clause target given) fun found =>
      found.target.IsScoped names.catalog visible ∧ found.value.IsScoped names.catalog visible := by
  unfold assignment
  refine .bind (path_finds sees given.target) fun found within => ?_
  cases found with
  | path reference =>
    dsimp only
    split
    · exact .bind (expr_finds sees given.value) fun _ withinToo => .pure ⟨within, withinToo⟩
    · exact .throw rfl
  | _ => exact .throw rfl

/-- What is found for the target of a change is all that is seen in its scope. -/
theorem target_finds (distinct : names.index.IsDistinct) {span : Span}
    (opened : names.index.headings[clause]? = some (none, span))
    (owned : (names.index.members clause).map (·.span) = [span]) :
    Gets (scopeAt names span) (fun found => found = clause) ∧
      Gets (nodeAt names span) fun node =>
        nodeAt names span = .ok node ∧ Sees names.index clause [node] := by
  have around : ∀ outer ∈ (none : Option Nat), Sees names.index outer [] := by simp
  have inside := sees_opened opened distinct.mirrored around
  have registered : ∀ element ∈ names.index.members clause, element ∈ names.index.elements :=
    fun element member => List.mem_of_mem_filter member
  have own := areAt_elements distinct registered
  rw [owned] at own
  refine ⟨scopeAt_gets (scopeAt_eq distinct opened), ?_⟩
  obtain ⟨element, alone, _⟩ := List.map_eq_singleton_iff.mp owned
  rw [alone] at own inside
  have found : nodeAt names span = .ok (.ofElement element) := (List.cons.inj own).1
  rw [found]
  exact ⟨rfl, inside⟩

/-- The second walk finds every source that the first has registered and nothing that is not visible,
and it never fails for an internal reason. -/
theorem statement_finds (distinct : names.index.IsDistinct) (tree : Grammar.Statement)
    (mirrors : names.index.Mirrors tree) :
    Finds (statement names tree) fun found =>
      found.IsScoped names.catalog ∧ AreAt names tree.places found.sources := by
  cases tree with
  | select query order =>
    have around : ∀ outer ∈ (none : Option Nat), Sees names.index outer [] := by simp
    refine .bind (querySpec_finds distinct around query mirrors) fun resolved within => ?_
    obtain ⟨queryWithin, found, clause, place, sees⟩ := within
    rw [List.append_nil] at sees
    have key_finds : ∀ key : Grammar.SortSpec, Finds (do
        let clause ← scopeAt names query.sources.span
        sortKey names clause key) fun found =>
          found.expr.IsScoped names.catalog resolved.elements := by
      intro key
      refine .bind (.lift (scopeAt_gets place)) fun found same => ?_
      subst same
      exact .bind (expr_finds sees key.expr) fun _ keyWithin => .pure keyWithin
    refine .bind (.mapM fun key _ => key_finds key) fun order sorted => ?_
    exact .pure ⟨⟨queryWithin, sorted⟩, found⟩
  | update target assignments condition =>
    obtain ⟨clause, opened, owned, inCondition⟩ := mirrors
    obtain ⟨atPlace, atSource⟩ := target_finds distinct opened owned
    refine .bind (.lift atPlace) fun found same => ?_
    subst same
    refine .bind (.lift atSource) fun node ⟨found, sees⟩ => ?_
    refine .bind (.mapM fun given _ => assignment_finds node sees given) fun assignments assigned => ?_
    refine .bind (filter_finds distinct sees condition inCondition) fun condition within => ?_
    exact .pure ⟨⟨assigned, within.1⟩, .cons found within.2⟩
  | delete target condition =>
    obtain ⟨clause, opened, owned, inCondition⟩ := mirrors
    obtain ⟨atPlace, atSource⟩ := target_finds distinct opened owned
    refine .bind (.lift atPlace) fun found same => ?_
    subst same
    refine .bind (.lift atSource) fun node ⟨found, sees⟩ => ?_
    refine .bind (filter_finds distinct sees condition inCondition) fun condition within => ?_
    exact .pure ⟨within.1, .cons found within.2⟩

end Resolution
end ObjectQuery

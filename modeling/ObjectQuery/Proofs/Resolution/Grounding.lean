import ObjectQuery.Proofs.Resolution.Counted
import ObjectQuery.Proofs.Resolution.Linked
import ObjectQuery.Proofs.Resolved.Grounded
/-!
# What is resolved is grounded

The second walk finds sources that are visible where it looks for them, and the first walk has seen to
it that joins along paths start from such sources. Names that stand in the text are plain, so a
statement that comes out of the two walks is grounded in its own sources.
-/
namespace ObjectQuery

namespace Resolution

open Resolved (Expr FromNode Segment AreTyped IndexGrounded SegmentsGrounded QueryGrounded
  SpacesGrounded JoinsGrounded FilterGrounded)

/-- What a step finds it ensures. -/
theorem Finds.ensures {α : Type} {tells : α → Prop} {step : Resolving α} (finds : Finds step tells) :
    Ensures step tells := fun numbering _ _ ran => (finds numbering).told ran

/-- What holds of every result of a step holds of all results for the elements of a list. -/
theorem Ensures.each {α β : Type} {step : α → Resolving β} {good : β → Prop} {items : List α}
    (ensures : ∀ item ∈ items, Ensures (step item) good) :
    Ensures (items.mapM step) fun found => ∀ value ∈ found, good value := by
  induction items with
  | nil =>
    rw [List.mapM_nil]
    exact .pure (by simp)
  | cons item rest ih =>
    obtain ⟨first, others⟩ := List.forall_mem_cons.mp ensures
    rw [List.mapM_cons]
    refine .bind first fun value isGood => .bind (ih others) fun values areGood => .pure ?_
    exact List.forall_mem_cons.mpr ⟨isGood, areGood⟩

variable {names : Names} {clause : Nat} {visible outside : List FromNode}

/-! ## Expressions -/

/-- A path along attributes with plain names is grounded in its source. -/
theorem pathOf_isGrounded {catalog : Catalog} {source : FromElement}
    {segments : List (Segment Expr)} (seen : FromNode.ofElement source ∈ visible)
    (typed : AreTyped catalog source.entity.attribute? segments)
    (plain : ∀ segment ∈ segments, IsPlainName segment.label)
    (inside : SegmentsGrounded catalog visible segments) :
    (pathOf source segments).IsGrounded catalog visible := by
  unfold pathOf
  split
  · exact Resolved.isGrounded_element.mpr ⟨_, seen, rfl⟩
  · rename_i last found
    obtain ⟨init, rfl⟩ := List.getLast?_eq_some_iff.mp found
    rw [Resolved.segmentsGrounded_append, Resolved.segmentsGrounded_cons] at inside
    rw [List.dropLast_concat, Resolved.isGrounded_path]
    exact ⟨⟨⟨_, seen, rfl, typed⟩, plain, rfl⟩, inside.1, inside.2.1⟩

mutual

/-- An expression of plain names is resolved to one that is grounded. -/
theorem expr_grounds (sees : Sees names.index clause visible) : ∀ given : Grammar.Expr,
    (∀ name ∈ given.names, IsPlainName name) →
      Ensures (expr names clause given) fun found => found.IsGrounded names.catalog visible
  | .path route, plain => by
    rw [expr]
    exact path_grounds sees route plain
  | .literal _ value, _ => by
    rw [expr]
    exact .pure Resolved.isGrounded_literal
  | .named _ name, _ => by
    rw [expr]
    exact .pure Resolved.isGrounded_parameter
  | .positional _ position, _ => by
    rw [expr]
    exact (positional_finds position fun _ => Resolved.isGrounded_parameter).ensures
  | .arithmetic _ op left right, plain => by
    simp only [Grammar.Expr.names, List.forall_mem_append] at plain
    rw [expr]
    refine .bind (expr_grounds sees left plain.1) fun left grounded => ?_
    refine .bind (expr_grounds sees right plain.2) fun right groundedToo => .skip fun _ => .pure ?_
    exact Resolved.isGrounded_arithmetic.mpr ⟨grounded, groundedToo⟩
  | .negate _ operand, plain => by
    rw [expr]
    refine .bind (expr_grounds sees operand plain) fun operand grounded => .skip fun _ => .pure ?_
    exact Resolved.isGrounded_negate.mpr grounded
  | .call _ name distinct argument, plain => by
    rw [expr]
    refine .skip fun function => .skip fun _ => ?_
    refine .bind (optional_grounds sees argument plain) fun argument grounded => .skip fun _ =>
      .pure ?_
    exact Resolved.isGrounded_call.mpr grounded.2

/-- An index that may be left out is resolved to one that is grounded. -/
theorem optional_grounds (sees : Sees names.index clause visible) : ∀ given : Option Grammar.Expr,
    (∀ name ∈ Grammar.optionalNames given, IsPlainName name) →
      Ensures (optional names clause given) fun found => found.isSome = given.isSome ∧
        IndexGrounded names.catalog visible found
  | none, _ => by
    rw [optional]
    exact .pure ⟨rfl, by simp [IndexGrounded, Resolved.indexNodes]⟩
  | some given, plain => by
    rw [optional]
    exact .bind (expr_grounds sees given plain) fun _ grounded => .pure ⟨rfl, grounded⟩

/-- A path of plain names is resolved to one that is grounded. -/
theorem path_grounds (sees : Sees names.index clause visible) :
    ∀ route : Grammar.Path Grammar.Expr, (∀ name ∈ Grammar.pathNames route, IsPlainName name) →
      Ensures (path names clause route) fun found => found.IsGrounded names.catalog visible
  | ⟨⟨name, index⟩, rest, _⟩, plain => by
    simp only [Grammar.pathNames, List.forall_mem_cons, List.forall_mem_append] at plain
    obtain ⟨named, inIndex, inRest⟩ := plain
    rw [path]
    refine .bind (.lift fun found sought => (pathSource_gets sees _ _).told sought)
      fun (source, isSource) seen => ?_
    cases isSource with
    | true =>
      refine .bind (parts_grounds sees (.source source) rest inRest) fun segments found => .pure ?_
      exact pathOf_isGrounded seen found.1 found.2.1 found.2.2
    | false =>
      refine .bind (part_grounds sees (.source source) ⟨name, index⟩ named inIndex)
        fun segment found => ?_
      refine .bind (parts_grounds sees (.type segment.type) rest inRest) fun segments others =>
        .pure ?_
      refine pathOf_isGrounded seen ⟨found.1, found.2.1, others.1⟩ ?_ ?_
      · exact List.forall_mem_cons.mpr ⟨found.2.2.1, others.2.1⟩
      · exact Resolved.segmentsGrounded_cons.mpr ⟨found.2.2.2, others.2.2⟩

/-- One part of a path is resolved with its index grounded. -/
theorem part_grounds (sees : Sees names.index clause visible) (owner : Owner) :
    ∀ given : Grammar.PathPart Grammar.Expr, IsPlainName given.name.value →
      (∀ name ∈ Grammar.optionalNames given.index, IsPlainName name) →
        Ensures (part names clause owner given) fun found =>
          owner.find? names.catalog found.label = some found.declared ∧ found.IsTyped ∧
            IsPlainName found.label ∧ IndexGrounded names.catalog visible found.index
  | ⟨name, index⟩, named, plain => by
    rw [part]
    refine .bind (.lift fun declared found => (attributeType_gets names owner name.value).told found)
      fun declared found => ?_
    refine .bind (.lift fun type after => (typeAfter_gets name.value declared _).told after)
      fun type typed => ?_
    refine .bind (optional_grounds sees index plain) fun index grounded =>
      .pure ⟨found, ?_, named, grounded.2⟩
    unfold Segment.IsTyped
    rw [grounded.1]
    exact typed

/-- The parts of a path are resolved with their indices grounded. -/
theorem parts_grounds (sees : Sees names.index clause visible) (owner : Owner) :
    ∀ given : List (Grammar.PathPart Grammar.Expr),
      (∀ name ∈ Grammar.partsNames given, IsPlainName name) →
        Ensures (parts names clause owner given) fun found =>
          AreTyped names.catalog (owner.find? names.catalog) found ∧
            (∀ segment ∈ found, IsPlainName segment.label) ∧
              SegmentsGrounded names.catalog visible found
  | [], _ => by
    rw [parts]
    exact .pure ⟨trivial, by simp, by simp [SegmentsGrounded, Resolved.segmentNodes]⟩
  | ⟨name, index⟩ :: rest, plain => by
    simp only [Grammar.partsNames, List.forall_mem_cons, List.forall_mem_append] at plain
    obtain ⟨named, inIndex, inRest⟩ := plain
    rw [parts]
    refine .bind (part_grounds sees owner ⟨name, index⟩ named inIndex) fun segment found => ?_
    refine .bind (parts_grounds sees (.type segment.type) rest inRest) fun segments others => .pure ?_
    refine ⟨⟨found.1, found.2.1, others.1⟩, ?_, ?_⟩
    · exact List.forall_mem_cons.mpr ⟨found.2.2.1, others.2.1⟩
    · exact Resolved.segmentsGrounded_cons.mpr ⟨found.2.2.2, others.2.2⟩

end

/-! ## Conditions and queries -/

/-- A path to a collection is resolved to one that is grounded. -/
theorem collection_grounds (sees : Sees names.index clause visible)
    (route : Grammar.Path Grammar.Expr) (plain : ∀ name ∈ Grammar.pathNames route, IsPlainName name) :
    Ensures (collection names clause route) fun found =>
      (Expr.path found).IsGrounded names.catalog visible ∧ found.type.isPlural = true := by
  unfold collection
  refine .bind (path_grounds sees route plain) fun found grounded => ?_
  split
  · split
    · rename_i reference plural
      exact .pure ⟨grounded, plural⟩
    · exact .throw
  · exact .throw

/-- Selections are resolved to values that are grounded. -/
theorem selections_grounds (sees : Sees names.index clause visible) (list : List Grammar.Selection)
    (plain : ∀ name ∈ list.flatMap (·.expr.names), IsPlainName name) :
    Ensures (selections names clause list) fun found =>
      ∀ selection ∈ found, selection.expr.IsGrounded names.catalog visible := by
  refine .each fun selection listed => .bind (expr_grounds sees selection.expr ?_)
    fun _ grounded => .pure grounded
  intro name member
  exact plain name (List.mem_flatMap.mpr ⟨selection, listed, member⟩)

/-- A cross join has no condition and is not along a path. -/
theorem joinMake_ok {kind : JoinKind} {fetch : Bool} {target : FromNode}
    {condition : Option Resolved.Predicate} {join : Resolved.Join Resolved.Predicate}
    (made : Resolved.Join.make kind fetch target condition = .ok join) :
    join = ⟨kind, fetch, target, condition⟩ ∧ (kind = .cross → condition.isSome = false) ∧
      (kind = .cross → target.origin.owner? = none) := by
  unfold Resolved.Join.make at made
  split at made
  · cases made
  · rename_i allowed
    split at made
    · cases made
    · rename_i along
      refine ⟨(Except.ok.inj made).symm, fun crossed => ?_, fun crossed => ?_⟩
      · simpa [crossed] using allowed
      · subst crossed
        cases origin : target.origin with
        | root | entityJoin => rfl
        | pathJoin owner path plural => exact (along owner path plural rfl origin).elim

/-- A source that is registered in the scope has an origin that is grounded in what is seen there. -/
theorem origin_isGrounded (linked : names.index.IsLinked names.catalog)
    (sees : Sees names.index clause visible) {element : FromElement}
    (member : element ∈ names.index.members clause) {kind : JoinKind}
    (allowed : kind = .cross → element.origin.owner? = none) :
    Resolved.FromOrigin.IsGrounded names.catalog visible kind element.origin := by
  obtain ⟨registered, inside⟩ := List.mem_filter.mp member
  have led := linked.led element registered
  rw [show element.clause = clause by simpa using inside] at led
  cases origin : element.origin with
  | root | entityJoin => trivial
  | pathJoin owner path plural =>
    rw [origin] at led allowed
    obtain ⟨plain, source, listed, named, around, followed⟩ := led
    refine ⟨fun crossed => ?_, plain, .ofElement source, sees.listed source listed around, named,
      followed⟩
    cases allowed crossed

mutual

/-- A predicate is resolved to one that is grounded among its sources.

Proof: by recursion over the predicate. A path starts at a source that is visible, goes along
attributes that exist, and names nothing that could be taken for a path itself. -/
theorem predicate_grounds (distinct : names.index.IsDistinct)
    (linked : names.index.IsLinked names.catalog) {clause : Nat} {visible : List FromNode}
    (sees : Sees names.index clause visible) : ∀ given : Grammar.Predicate,
      names.index.MirrorsPredicate clause given → (∀ name ∈ given.names, IsPlainName name) →
        Ensures (predicate names clause given) fun found => found.IsGrounded names.catalog visible
  | .and _ left right, mirrors, plain | .or _ left right, mirrors, plain => by
    simp only [Grammar.Predicate.names, List.forall_mem_append] at plain
    rw [predicate]
    refine .bind (predicate_grounds distinct linked sees left mirrors.1 plain.1) fun _ grounded => ?_
    refine .bind (predicate_grounds distinct linked sees right mirrors.2 plain.2) fun _ other => ?_
    exact .pure ⟨grounded, other⟩
  | .not _ operand, mirrors, plain => by
    rw [predicate]
    exact .bind (predicate_grounds distinct linked sees operand mirrors plain) fun _ grounded =>
      .pure grounded
  | .compare _ op left right, _, plain => by
    simp only [Grammar.Predicate.names, List.forall_mem_append] at plain
    rw [predicate]
    refine .bind (expr_grounds sees left plain.1) fun left grounded => ?_
    exact .bind (expr_grounds sees right plain.2) fun right other => .pure ⟨grounded, other⟩
  | .inList _ test values negated, _, plain => by
    simp only [Grammar.Predicate.names, List.forall_mem_append] at plain
    rw [predicate]
    refine .bind (expr_grounds sees test plain.1) fun test grounded => ?_
    refine .bind (.each fun value listed => expr_grounds sees value fun name member => ?_)
      fun values others => .pure ⟨grounded, others⟩
    exact plain.2 name (List.mem_flatMap.mpr ⟨value, listed, member⟩)
  | .inQuery _ test query negated, mirrors, plain => by
    simp only [Grammar.Predicate.names, List.forall_mem_append] at plain
    rw [predicate]
    refine .bind (expr_grounds sees test plain.1) fun test grounded => ?_
    refine .bind (querySpec_grounds distinct linked (by simpa using sees) query mirrors plain.2)
      fun query other => .pure ⟨grounded, other⟩
  | .memberOf _ element route negated, _, plain => by
    simp only [Grammar.Predicate.names, List.forall_mem_append] at plain
    rw [predicate]
    refine .bind (expr_grounds sees element plain.1) fun element grounded => ?_
    exact .bind (collection_grounds sees route plain.2) fun _ other => .pure ⟨grounded, other⟩
  | .isNull _ operand negated, _, plain => by
    rw [predicate]
    exact .bind (expr_grounds sees operand plain) fun _ grounded => .pure grounded
  | .like _ operand pattern negated, _, plain => by
    simp only [Grammar.Predicate.names, List.forall_mem_append] at plain
    rw [predicate]
    refine .bind (expr_grounds sees operand plain.1) fun operand grounded => ?_
    exact .bind (expr_grounds sees pattern plain.2) fun _ other => .pure ⟨grounded, other⟩
  | .between _ operand low high negated, _, plain => by
    simp only [Grammar.Predicate.names, List.forall_mem_append] at plain
    rw [predicate]
    refine .bind (expr_grounds sees operand plain.1.1) fun operand grounded => ?_
    refine .bind (expr_grounds sees low plain.1.2) fun low least => ?_
    exact .bind (expr_grounds sees high plain.2) fun _ most => .pure ⟨grounded, least, most⟩

/-- A filter is resolved to one that is grounded. -/
theorem filter_grounds (distinct : names.index.IsDistinct)
    (linked : names.index.IsLinked names.catalog) {clause : Nat} {visible : List FromNode}
    (sees : Sees names.index clause visible) : ∀ given : Option Grammar.Predicate,
      names.index.MirrorsFilter clause given → (∀ name ∈ Grammar.filterNames given, IsPlainName name) →
        Ensures (filter names clause given) fun found => FilterGrounded names.catalog visible found
  | none, _, _ => by
    rw [filter]
    exact .pure trivial
  | some given, mirrors, plain => by
    rw [filter]
    exact .bind (predicate_grounds distinct linked sees given mirrors plain) fun _ grounded =>
      .pure grounded

/-- Joins are resolved with their targets and conditions grounded. -/
theorem joins_grounds (distinct : names.index.IsDistinct)
    (linked : names.index.IsLinked names.catalog) {clause : Nat} {visible : List FromNode}
    (sees : Sees names.index clause visible) :
    ∀ given : List (Grammar.Join Grammar.Predicate), names.index.MirrorsJoins clause given →
      (∀ span ∈ given.map (·.span), span ∈ (names.index.members clause).map (·.span)) →
      (∀ name ∈ Grammar.joinsNames given, IsPlainName name) →
        Ensures (joins names clause given) fun found => JoinsGrounded names.catalog visible found
  | [], _, _, _ => by
    rw [joins]
    exact .pure trivial
  | ⟨kind, fetch, _, _, condition, span⟩ :: rest, mirrors, known, plain => by
    simp only [Grammar.joinsNames, List.forall_mem_append] at plain
    obtain ⟨here, further⟩ := List.forall_mem_cons.mp known
    obtain ⟨element, member, rfl⟩ := List.mem_map.mp here
    have found := nodeAt_element distinct (List.mem_of_mem_filter member)
    rw [joins]
    refine .bind (.lift fun node looked => Except.ok.inj (looked.symm.trans found))
      fun target same => ?_
    subst same
    refine .bind (filter_grounds distinct linked sees condition mirrors.1 plain.1.2)
      fun condition grounded => ?_
    refine .bind (.lift fun join made => joinMake_ok made) fun join ⟨made, crossed, along⟩ => ?_
    subst made
    refine .bind (joins_grounds distinct linked sees rest mirrors.2 further plain.2)
      fun others remaining => .pure ?_
    exact ⟨crossed, origin_isGrounded linked sees member along, grounded, remaining⟩

/-- Spaces are resolved with their sources grounded. -/
theorem spaces_grounds (distinct : names.index.IsDistinct)
    (linked : names.index.IsLinked names.catalog) {clause : Nat} {visible : List FromNode}
    (sees : Sees names.index clause visible) :
    ∀ given : List (Grammar.FromSpace Grammar.Predicate), names.index.MirrorsSpaces clause given →
      (∀ span ∈ Grammar.ownPlaces given, span ∈ (names.index.members clause).map (·.span)) →
      (∀ name ∈ Grammar.spacesNames given, IsPlainName name) →
        Ensures (spaces names clause given) fun found => SpacesGrounded names.catalog visible found
  | [], _, _, _ => by
    rw [spaces]
    exact .pure trivial
  | ⟨root, joined, _⟩ :: rest, mirrors, known, plain => by
    simp only [Grammar.spacesNames, List.forall_mem_append] at plain
    obtain ⟨_, further⟩ := List.forall_mem_cons.mp known
    obtain ⟨behind, others⟩ := List.forall_mem_append.mp further
    rw [spaces]
    refine .skip fun node => ?_
    refine .bind (joins_grounds distinct linked sees joined mirrors.1 behind plain.1.2)
      fun joined grounded => ?_
    exact .bind (spaces_grounds distinct linked sees rest mirrors.2 others plain.2)
      fun rest remaining => .pure ⟨grounded, remaining⟩

/-- A query is resolved to one that is grounded in its own scope. -/
theorem querySpec_grounds (distinct : names.index.IsDistinct)
    (linked : names.index.IsLinked names.catalog) {parent : Option Nat} {outside : List FromNode}
    (sees : ∀ around ∈ parent, Sees names.index around outside) :
    ∀ given : Grammar.Query Grammar.Predicate, names.index.MirrorsQuery parent given →
      (∀ name ∈ Grammar.queryNames given, IsPlainName name) →
        Ensures (querySpec names given) fun found =>
          QueryGrounded names.catalog (found.elements ++ outside) found
  | ⟨select, ⟨items, span⟩, condition, _⟩, mirrors, plain => by
    obtain ⟨clause, opened, owned, inItems, inCondition⟩ := mirrors
    simp only [Grammar.queryNames, List.forall_mem_append] at plain
    have place := scopeAt_eq distinct opened
    have inside := sees_opened opened distinct.mirrored sees
    have registered : ∀ element ∈ names.index.members clause, element ∈ names.index.elements :=
      fun element member => List.mem_of_mem_filter member
    have own := areAt_elements distinct registered
    rw [owned] at own
    have known : Known names.index (Grammar.ownPlaces items) := by
      intro place listed
      rw [← owned] at listed
      obtain ⟨element, member, rfl⟩ := List.mem_map.mp listed
      exact List.mem_map_of_mem (registered element member)
    rw [querySpec]
    refine .bind (.lift fun found sought => Except.ok.inj (sought.symm.trans place))
      fun found same => ?_
    subst same
    refine .bind (selections_grounds inside _ plain.1.1) fun chosen chosenGrounded => ?_
    refine .bind (.both (spaces_finds distinct inside items inItems known).ensures
      (spaces_grounds distinct linked inside items inItems (fun span listed => owned ▸ listed)
        plain.1.2)) fun items ⟨itemsFound, itemsGrounded⟩ => ?_
    refine .bind (filter_grounds distinct linked inside condition inCondition plain.2)
      fun condition conditionGrounded => .pure ?_
    -- The sources of the result are those that are registered in the scope.
    have same := own.unique itemsFound.2.2
    rw [same] at chosenGrounded itemsGrounded conditionGrounded
    refine ⟨?_, itemsGrounded, conditionGrounded⟩
    split
    · exact chosenGrounded
    · intro selection listed
      obtain ⟨space, member, rfl⟩ := List.mem_map.mp listed
      refine Resolved.isGrounded_element.mpr ⟨space.root, List.mem_append_left _ ?_, rfl⟩
      exact List.mem_flatMap.mpr ⟨space, member, List.mem_cons_self⟩

end

/-! ## Statements -/

/-- An assignment is resolved with both sides grounded. -/
theorem assignment_grounds (sees : Sees names.index clause visible) (target : FromNode)
    (given : Grammar.Assignment)
    (plain : ∀ name ∈ Grammar.pathNames given.target ++ given.value.names, IsPlainName name) :
    Ensures (assignment names clause target given) fun found =>
      found.IsGrounded names.catalog visible := by
  rw [List.forall_mem_append] at plain
  unfold assignment
  refine .bind (path_grounds sees given.target plain.1) fun found grounded => ?_
  split
  · split
    · rename_i reference allowed
      simp only [Bool.and_eq_true, List.isEmpty_iff] at allowed
      refine .bind (expr_grounds sees given.value plain.2) fun value other => .pure ?_
      exact ⟨(Resolved.isGrounded_path.mp grounded).1, allowed.1.2, allowed.2, other⟩
    · exact .throw
  · exact .throw

/-- Resolving a tree with plain names gives a statement that is grounded in its own sources.

Proof: the root or the from-clause gives the sources of the statement, and all other parts are
resolved in their scope. -/
theorem statement_grounds (distinct : names.index.IsDistinct)
    (linked : names.index.IsLinked names.catalog) (tree : Grammar.Statement)
    (mirrors : names.index.Mirrors tree) (plain : ∀ name ∈ tree.names, IsPlainName name) :
    Ensures (statement names tree) fun found =>
      found.IsGrounded names.catalog found.elements := by
  cases tree with
  | select query order =>
    simp only [Grammar.Statement.names, List.forall_mem_append] at plain
    have around : ∀ outer ∈ (none : Option Nat), Sees names.index outer [] := by simp
    refine .bind (.both (querySpec_finds distinct around query mirrors).ensures
      (querySpec_grounds distinct linked around query mirrors plain.1))
      fun resolved both => ?_
    obtain ⟨⟨_, _, clause, place, sees⟩, grounded⟩ := both
    rw [List.append_nil] at sees grounded
    have keyGrounds : ∀ key ∈ order, Ensures (do
        let clause ← scopeAt names query.sources.span
        sortKey names clause key) fun found =>
          found.expr.IsGrounded names.catalog resolved.elements := by
      intro key listed
      refine .bind (.lift fun found sought => Except.ok.inj (sought.symm.trans place))
        fun found same => ?_
      subst same
      refine .bind (expr_grounds sees key.expr fun name member => ?_) fun _ keyGrounded =>
        .pure keyGrounded
      exact plain.2 name (List.mem_flatMap.mpr ⟨key, listed, member⟩)
    exact .bind (.each keyGrounds) fun order sorted => .pure ⟨grounded, sorted⟩
  | update target assignments condition =>
    simp only [Grammar.Statement.names, List.forall_mem_append] at plain
    obtain ⟨clause, opened, owned, inCondition⟩ := mirrors
    obtain ⟨atPlace, atSource⟩ := target_finds distinct opened owned
    refine .bind (.lift fun found sought => atPlace.told sought) fun found same => ?_
    subst same
    refine .bind (.lift fun node sought => (atSource.told sought).2) fun node sees => ?_
    refine .bind (.each fun given listed => assignment_grounds sees node given
      fun name member => ?_) fun assignments assigned => ?_
    · exact plain.1.2 name (List.mem_flatMap.mpr ⟨given, listed, member⟩)
    · exact .bind (filter_grounds distinct linked sees condition inCondition plain.2)
        fun condition grounded => .pure ⟨assigned, grounded⟩
  | delete target condition =>
    simp only [Grammar.Statement.names, List.forall_mem_append] at plain
    obtain ⟨clause, opened, owned, inCondition⟩ := mirrors
    obtain ⟨atPlace, atSource⟩ := target_finds distinct opened owned
    refine .bind (.lift fun found sought => atPlace.told sought) fun found same => ?_
    subst same
    refine .bind (.lift fun node sought => (atSource.told sought).2) fun node sees => ?_
    exact .bind (filter_grounds distinct linked sees condition inCondition plain.2)
      fun condition grounded => .pure grounded

end Resolution
end ObjectQuery

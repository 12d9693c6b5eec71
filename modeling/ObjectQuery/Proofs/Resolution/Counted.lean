import ObjectQuery.Proofs.Grammar.Parameters
import ObjectQuery.Proofs.Resolution.Found
import ObjectQuery.Proofs.Resolved.Parameters
import ObjectQuery.Resolution.Statement
/-!
# Parameters of a tree and of what it means

Resolving a tree keeps its parameters: the result has as many of them as the tree. Nothing that can
hold a parameter is dropped, because an index at the name of a source is refused, and paths of joins,
which are not resolved again, have none. The targets of assignments are the one part of a result whose
expressions are not visited, so their parameters are counted apart.

All of the result is written as SQL if the lists of the tree have values: a path to a collection has no
index at its end, since an element of a collection is no collection.
-/
namespace ObjectQuery

namespace Resolved

/-- The number of parameters among the expressions. -/
def countOf (nodes : List Expr) : Nat := (kindsOf nodes).card

variable {expr : Expr} {nodes later : List Expr}

/-- No nodes hold no parameter. -/
@[simp] theorem countOf_nil : countOf [] = 0 := rfl

/-- Two lists of nodes hold the parameters of both. -/
@[simp] theorem countOf_append : countOf (nodes ++ later) = countOf nodes + countOf later := by
  simp [countOf]

/-- A list of nodes holds the parameters of its first node and of the rest. -/
@[simp] theorem countOf_cons : countOf (expr :: nodes) = expr.ownKinds.card + countOf nodes := by
  simp [countOf]

/-- The nodes of several items hold what those of each item do. -/
@[simp] theorem countOf_flatMap {α : Type} (items : List α) (parts : α → List Expr) :
    countOf (items.flatMap parts) = (items.map fun item => countOf (parts item)).sum := by
  induction items with
  | nil => rfl
  | cons item rest ih => simp [ih]

/-- The nodes of a path are those of its parts, one behind the other. -/
theorem segmentNodes_append : ∀ first second : List (Segment Expr),
    segmentNodes (first ++ second) = segmentNodes first ++ segmentNodes second
  | [], second => rfl
  | ⟨_, _, index, _⟩ :: rest, second => by simp [segmentNodes, segmentNodes_append rest second]

/-- A path holds the parameters of its indices. -/
theorem countOf_path (reference : Reference Expr) :
    countOf (Expr.path reference).nodes = countOf (segmentNodes reference.segments) := by
  obtain ⟨source, sourceType, init, ⟨label, declared, index, after⟩, type⟩ := reference
  simp [Expr.nodes, Expr.ownKinds, Reference.segments, segmentNodes_append, segmentNodes]

/-- A path has the type that is reached by its last segment, which has the type that it should have. -/
def Expr.EndsTyped : Expr → Prop
  | .path reference => reference.type = reference.last.type ∧ reference.last.IsTyped
  | _ => True

/-- The number of parameters in the targets of assignments. -/
def Statement.targetCount : Statement → Nat
  | .update _ assignments _ =>
    (assignments.map fun assignment => countOf (Expr.path assignment.target).nodes).sum
  | _ => 0

/-- Every assignment is to a basic attribute of the target itself. -/
def Statement.AssignsBasic : Statement → Prop
  | .update _ assignments _ => ∀ assignment ∈ assignments,
      assignment.target.init = [] ∧ assignment.target.type.basic?.isSome = true
  | _ => True

end Resolved

namespace Resolution

open Resolved (Expr Segment countOf indexNodes segmentNodes queryNodes spaceNodes joinNodes filterNodes
  QueryWritesAll SpacesWriteAll JoinsWriteAll FilterWritesAll)

/-- Every result of the step is good. -/
def Ensures {α : Type} (step : Resolving α) (good : α → Prop) : Prop :=
  ∀ ⦃numbering value after⦄, step.run numbering = .ok (value, after) → good value

namespace Ensures

variable {α β : Type} {good : α → Prop} {outcome : β → Prop}

/-- A value that is good already is ensured. -/
theorem pure {value : α} (holds : good value) : Ensures (Pure.pure value) good := by
  intro numbering result after ran
  obtain ⟨rfl, _⟩ := Prod.mk.inj (Except.ok.inj ran)
  exact holds

/-- A failure ensures anything. -/
theorem throw {error : ResolutionError} : Ensures (MonadExcept.throw error : Resolving α) good := by
  intro numbering result after ran
  cases ran

/-- What the first step ensures may be used by the second. -/
theorem bind {step : Resolving α} {next : α → Resolving β} (ensures : Ensures step good)
    (later : ∀ value, good value → Ensures (next value) outcome) :
    Ensures (step >>= next) outcome := by
  intro numbering result after ran
  rw [StateT.run_bind] at ran
  obtain ⟨⟨value, between⟩, started, ran⟩ := except_bind_ok.mp ran
  exact later value (ensures started) ran

/-- Of a step whose result does not matter nothing need be known. -/
theorem skip {step : Resolving α} {next : α → Resolving β}
    (later : ∀ value, Ensures (next value) outcome) : Ensures (step >>= next) outcome :=
  bind (fun _ _ _ _ => trivial) fun value (_ : True) => later value

/-- Two things that every result is are both what it is. -/
theorem both {step : Resolving α} {goodToo : α → Prop} (ensures : Ensures step good)
    (ensuresToo : Ensures step goodToo) : Ensures step fun value => good value ∧ goodToo value :=
  fun _ _ _ ran => ⟨ensures ran, ensuresToo ran⟩

/-- A result that is there already ensures what is said of it. -/
theorem lift {result : Except ResolutionError α} (told : ∀ value, result = .ok value → good value) :
    Ensures (liftM result) good := by
  intro numbering value after ran
  cases result with
  | error failure => cases ran
  | ok found =>
    obtain ⟨rfl, _⟩ := Prod.mk.inj (Except.ok.inj ran)
    exact told found rfl

/-- A step for each item relates each item to its result. -/
theorem mapM {step : α → Resolving β} {related : α → β → Prop}
    (ensures : ∀ item, Ensures (step item) (related item)) :
    ∀ items : List α, Ensures (items.mapM step) (List.Forall₂ related items)
  | [] => by
    rw [List.mapM_nil]
    exact pure .nil
  | item :: rest => by
    rw [List.mapM_cons]
    refine bind (ensures item) fun first relates => ?_
    exact bind (mapM ensures rest) fun others relate => pure (.cons relates relate)

end Ensures

/-- Lists paired item by item with equal views have equal lists of views. -/
theorem map_of_forall₂ {α β γ : Type} {view : β → γ} {other : α → γ} {items : List α}
    {results : List β} (paired : List.Forall₂ (fun item result => view result = other item)
      items results) : results.map view = items.map other := by
  induction paired with
  | nil => rfl
  | cons same _ ih => rw [List.map_cons, List.map_cons, same, ih]

variable (names : Names) (clause : Nat)

/-! ## Expressions -/

/-- A positional parameter is resolved to one parameter. -/
theorem positional_counts (position : Option Nat) :
    Ensures (positional position) fun found => countOf found.nodes = 1 := by
  intro numbering value after ran
  cases position <;> cases numbering <;> cases ran <;> rfl

/-- A path that names a source with its first part has no index there. -/
theorem index_of_pathSource {names : Names} {clause : Nat} {name : String} {indexed : Bool}
    {source : FromElement} (found : pathSource names clause name indexed = .ok (source, true)) :
    indexed = false := by
  unfold pathSource at found
  split at found
  · split at found
    · cases found
    · rename_i plain
      exact Bool.eq_false_iff.mpr plain
  · obtain ⟨exposing, _, found⟩ := except_bind_ok.mp found
    cases exposing <;> cases found

/-- A path has the parameters of all its segments. -/
theorem pathOf_counts (source : FromElement) (segments : List (Segment Expr)) :
    countOf (pathOf source segments).nodes = countOf (segmentNodes segments) := by
  unfold pathOf
  split
  · rename_i empty
    obtain rfl := List.getLast?_eq_none_iff.mp empty
    rfl
  · rename_i last ends
    obtain ⟨init, rfl⟩ := List.getLast?_eq_some_iff.mp ends
    rw [List.dropLast_concat, Resolved.countOf_path]
    rfl

mutual

/-- An expression is resolved to a tree with as many parameters as it has. -/
theorem expr_counts : ∀ given : Grammar.Expr,
    Ensures (expr names clause given) fun found => countOf found.nodes = given.parameterCount
  | .path route => by
    rw [expr, Grammar.Expr.parameterCount]
    exact path_counts route
  | .literal _ value => by
    rw [expr]
    exact .pure rfl
  | .named _ name => by
    rw [expr]
    exact .pure rfl
  | .positional _ position => by
    rw [expr]
    exact positional_counts position
  | .arithmetic _ op left right => by
    rw [expr]
    refine .bind (expr_counts left) fun left counts => ?_
    refine .bind (expr_counts right) fun right countsToo => .skip fun _ => .pure ?_
    simp [Expr.nodes, Expr.ownKinds, Grammar.Expr.parameterCount, counts, countsToo]
  | .negate _ operand => by
    rw [expr]
    refine .bind (expr_counts operand) fun operand counts => .skip fun _ => .pure ?_
    simp [Expr.nodes, Expr.ownKinds, Grammar.Expr.parameterCount, counts]
  | .call _ name distinct argument => by
    rw [expr]
    refine .skip fun function => .skip fun _ => ?_
    refine .bind (optional_counts argument) fun argument counts => .skip fun _ => .pure ?_
    simp [Expr.nodes, Expr.ownKinds, Grammar.Expr.parameterCount, counts]

/-- An index that may be left out is resolved with as many parameters. -/
theorem optional_counts : ∀ given : Option Grammar.Expr,
    Ensures (optional names clause given) fun found =>
      countOf (indexNodes found) = Grammar.optionalParameters given
  | none => by
    rw [optional]
    exact .pure rfl
  | some given => by
    rw [optional]
    exact .bind (expr_counts given) fun _ counts => .pure counts

/-- A path is resolved with as many parameters as its indices have. -/
theorem path_counts : ∀ route : Grammar.Path Grammar.Expr,
    Ensures (path names clause route) fun found =>
      countOf found.nodes = Grammar.pathParameters route
  | ⟨⟨name, index⟩, rest, _⟩ => by
    rw [path, Grammar.pathParameters]
    refine .bind (.lift fun found sought => sought) fun (source, isSource) sought => ?_
    cases isSource with
    | true =>
      refine .bind (parts_counts (.source source) rest) fun segments counts => .pure ?_
      -- The first name leaves no segment behind, but an index there has been refused.
      have plain := index_of_pathSource sought
      rw [Option.isSome_eq_false_iff, Option.isNone_iff_eq_none] at plain
      simp only at plain
      rw [pathOf_counts, counts, plain, Grammar.optionalParameters, Nat.zero_add]
    | false =>
      refine .bind (part_counts (.source source) ⟨name, index⟩) fun segment counts => ?_
      refine .bind (parts_counts (.type segment.type) rest) fun segments others => .pure ?_
      obtain ⟨label, declared, value, after⟩ := segment
      rw [pathOf_counts, segmentNodes, Resolved.countOf_append, others]
      exact congrArg (· + Grammar.partParameters rest) counts

/-- One part of a path is resolved with as many parameters. -/
theorem part_counts (owner : Owner) : ∀ given : Grammar.PathPart Grammar.Expr,
    Ensures (part names clause owner given) fun found =>
      countOf (indexNodes found.index) = Grammar.optionalParameters given.index
  | ⟨name, index⟩ => by
    rw [part]
    refine .skip fun type => .skip fun _ => ?_
    exact .bind (optional_counts index) fun _ counts => .pure counts

/-- The parts of a path are resolved with as many parameters. -/
theorem parts_counts (owner : Owner) : ∀ given : List (Grammar.PathPart Grammar.Expr),
    Ensures (parts names clause owner given) fun found =>
      countOf (segmentNodes found) = Grammar.partParameters given
  | [] => by
    rw [parts]
    exact .pure rfl
  | ⟨name, index⟩ :: rest => by
    rw [parts, Grammar.partParameters]
    refine .bind (part_counts owner ⟨name, index⟩) fun segment counts => ?_
    refine .bind (parts_counts (.type segment.type) rest) fun segments others => .pure ?_
    obtain ⟨label, declared, value, after⟩ := segment
    rw [segmentNodes, Resolved.countOf_append, others]
    exact congrArg (· + Grammar.partParameters rest) counts

end

/-! ## How paths end -/

/-- An index is resolved where there is one. -/
theorem optional_isSome : ∀ given : Option Grammar.Expr,
    Ensures (optional names clause given) fun found => found.isSome = given.isSome
  | none => by
    rw [optional]
    exact .pure rfl
  | some given => by
    rw [optional]
    exact .skip fun _ => .pure rfl

/-- A segment has the type of its attribute, or of the elements if it has an index. -/
theorem part_isTyped (owner : Owner) : ∀ given : Grammar.PathPart Grammar.Expr,
    Ensures (part names clause owner given) Segment.IsTyped
  | ⟨name, index⟩ => by
    rw [part]
    refine .skip fun declared => ?_
    refine .bind (.lift fun type after => (typeAfter_gets name.value declared _).told after)
      fun type typed => ?_
    refine .bind (optional_isSome names clause index) fun index same => .pure ?_
    unfold Segment.IsTyped
    rw [same]
    exact typed

/-- All segments of a path have the types that they should have. -/
theorem parts_areTyped (owner : Owner) (given : List (Grammar.PathPart Grammar.Expr)) :
    Ensures (parts names clause owner given) fun found => ∀ segment ∈ found, segment.IsTyped := by
  induction given generalizing owner with
  | nil =>
    rw [parts]
    exact .pure (by simp)
  | cons first rest ih =>
    rw [parts]
    refine .bind (part_isTyped names clause owner first) fun segment typed => ?_
    refine .bind (ih (.type segment.type)) fun segments others => .pure ?_
    exact List.forall_mem_cons.mpr ⟨typed, others⟩

/-- Typed segments make a path that ends as it should. -/
theorem pathOf_endsTyped (source : FromElement) {segments : List (Segment Expr)}
    (typed : ∀ segment ∈ segments, segment.IsTyped) : (pathOf source segments).EndsTyped := by
  unfold pathOf
  split
  · trivial
  · rename_i last found
    exact ⟨rfl, typed last (List.mem_of_getLast? found)⟩

/-- A path ends with the type that it should have. -/
theorem path_endsTyped (route : Grammar.Path Grammar.Expr) :
    Ensures (path names clause route) Expr.EndsTyped := by
  obtain ⟨first, rest, _⟩ := route
  rw [path]
  refine .skip fun found => ?_
  obtain ⟨source, isSource⟩ := found
  cases isSource with
  | true =>
    refine .bind (parts_areTyped names clause (.source source) rest) fun segments typed => .pure ?_
    exact pathOf_endsTyped source typed
  | false =>
    refine .bind (part_isTyped names clause (.source source) first) fun segment typed => ?_
    refine .bind (parts_areTyped names clause (.type segment.type) rest) fun segments others => .pure ?_
    exact pathOf_endsTyped source (List.forall_mem_cons.mpr ⟨typed, others⟩)

/-! ## Conditions and queries -/

/-- A list of values is resolved to as many values with as many parameters. -/
theorem exprs_count (given : List Grammar.Expr) :
    Ensures (given.mapM (expr names clause)) fun found =>
      countOf (found.flatMap Expr.nodes) = (given.map Grammar.Expr.parameterCount).sum ∧
        found.length = given.length := by
  intro numbering found after ran
  have paired := Ensures.mapM (expr_counts names clause) given ran
  refine ⟨?_, paired.length_eq.symm⟩
  rw [Resolved.countOf_flatMap, map_of_forall₂ paired]

/-- The selections are resolved with as many parameters. -/
theorem selections_count (given : List Grammar.Selection) :
    Ensures (selections names clause given) fun found =>
      countOf (found.flatMap fun selection => selection.expr.nodes) =
        (given.map (·.expr.parameterCount)).sum := by
  have counts : ∀ selection : Grammar.Selection,
      Ensures (do
        let resolved ← expr names clause selection.expr
        return (⟨resolved, selection.label.map (·.value)⟩ : Resolved.Selection)) fun found =>
          countOf found.expr.nodes = selection.expr.parameterCount := fun selection =>
    .bind (expr_counts names clause selection.expr) fun _ counts => .pure counts
  intro numbering found after ran
  rw [Resolved.countOf_flatMap, map_of_forall₂ (Ensures.mapM counts given ran)]

/-- What is selected without a select list has no parameters. -/
theorem defaultSelections_count (items : List (Resolved.FromSpace Resolved.Predicate)) :
    countOf ((defaultSelections items).flatMap fun selection => selection.expr.nodes) = 0 := by
  induction items with
  | nil => rfl
  | cons space rest ih =>
    have alone : countOf (Expr.element space.root.label space.root.type).nodes = 0 := rfl
    rw [defaultSelections, List.map_cons, List.flatMap_cons, Resolved.countOf_append, alone,
      Nat.zero_add]
    exact ih

/-- A path to a collection keeps its parameters and ends without an index. -/
theorem collection_counts (route : Grammar.Path Grammar.Expr) :
    Ensures (collection names clause route) fun found =>
      countOf (Expr.path found).nodes = Grammar.pathParameters route ∧ found.last.index = none := by
  unfold collection
  refine .bind (.both (path_counts names clause route) (path_endsTyped names clause route))
    fun found ⟨counts, ends⟩ => ?_
  split
  · split
    · rename_i reference plural
      exact .pure ⟨counts, ends.2.index_of_isPlural (ends.1 ▸ plural)⟩
    · exact .throw
  · exact .throw

/-- The join has the condition that it is made with. -/
theorem predicate_of_make {kind : JoinKind} {fetch : Bool} {target : Resolved.FromNode}
    {condition : Option Resolved.Predicate} {join : Resolved.Join Resolved.Predicate}
    (made : Resolved.Join.make kind fetch target condition = .ok join) :
    join.predicate = condition := by
  unfold Resolved.Join.make at made
  split at made
  · cases made
  · split at made
    · cases made
    · obtain rfl := Except.ok.inj made
      rfl

mutual

/-- A predicate is resolved with as many parameters, all of which are written out.

Proof: by recursion over the predicate. Lists that the grammar does not leave empty stay so, and
therefore nothing that the tree holds is left unwritten. -/
theorem predicate_counts (clause : Nat) : ∀ given : Grammar.Predicate, given.JoinsPlainly →
    given.FillsLists → Ensures (predicate names clause given) fun found =>
      countOf found.nodes = given.parameterCount ∧ found.WritesAll
  | .and _ left right, plain, fills | .or _ left right, plain, fills => by
    rw [predicate]
    refine .bind (predicate_counts clause left plain.1 fills.1) fun left counts => ?_
    refine .bind (predicate_counts clause right plain.2 fills.2) fun right countsToo => .pure ?_
    refine ⟨?_, counts.2, countsToo.2⟩
    simp [Resolved.Predicate.nodes, Grammar.Predicate.parameterCount, counts.1, countsToo.1]
  | .not _ operand, plain, fills => by
    rw [predicate]
    exact .bind (predicate_counts clause operand plain fills) fun operand counts => .pure counts
  | .compare _ op left right, _, _ => by
    rw [predicate]
    refine .bind (expr_counts names clause left) fun left counts => ?_
    refine .bind (expr_counts names clause right) fun right countsToo => .pure ⟨?_, trivial⟩
    simp [Resolved.Predicate.nodes, Grammar.Predicate.parameterCount, counts, countsToo]
  | .inList _ test values negated, _, fills => by
    rw [predicate]
    refine .bind (expr_counts names clause test) fun test counts => ?_
    refine .bind (exprs_count names clause values) fun found countsToo => .pure ⟨?_, ?_⟩
    · rw [Resolved.Predicate.nodes, Resolved.countOf_append, counts, countsToo.1]
      rfl
    · rw [Resolved.Predicate.WritesAll, ← List.length_pos_iff, countsToo.2, List.length_pos_iff]
      exact fills
  | .inQuery _ test query negated, plain, fills => by
    rw [predicate]
    refine .bind (expr_counts names clause test) fun test counts => ?_
    refine .bind (querySpec_counts query plain fills) fun query countsToo => .pure ⟨?_, countsToo.2⟩
    simp [Resolved.Predicate.nodes, Grammar.Predicate.parameterCount, counts, countsToo.1]
  | .memberOf _ element route negated, _, _ => by
    rw [predicate]
    refine .bind (expr_counts names clause element) fun element counts => ?_
    refine .bind (collection_counts names clause route) fun reference countsToo =>
      .pure ⟨?_, countsToo.2⟩
    rw [Resolved.Predicate.nodes, Resolved.countOf_append, counts, countsToo.1]
    rfl
  | .isNull _ operand negated, _, _ => by
    rw [predicate]
    exact .bind (expr_counts names clause operand) fun operand counts => .pure ⟨counts, trivial⟩
  | .like _ operand pattern negated, _, _ => by
    rw [predicate]
    refine .bind (expr_counts names clause operand) fun operand counts => ?_
    refine .bind (expr_counts names clause pattern) fun pattern countsToo => .pure ⟨?_, trivial⟩
    simp [Resolved.Predicate.nodes, Grammar.Predicate.parameterCount, counts, countsToo]
  | .between _ operand low high negated, _, _ => by
    rw [predicate]
    refine .bind (expr_counts names clause operand) fun operand counts => ?_
    refine .bind (expr_counts names clause low) fun low countsLow => ?_
    refine .bind (expr_counts names clause high) fun high countsHigh => .pure ⟨?_, trivial⟩
    rw [Resolved.Predicate.nodes, Resolved.countOf_append, Resolved.countOf_append, counts,
      countsLow, countsHigh]
    rfl

/-- A filter that may be left out is resolved with as many parameters. -/
theorem filter_counts (clause : Nat) : ∀ given : Option Grammar.Predicate,
    Grammar.FilterJoinsPlainly given → Grammar.FilterFillsLists given →
      Ensures (filter names clause given) fun found =>
        countOf (filterNodes found) = Grammar.filterParameters given ∧ FilterWritesAll found
  | none, _, _ => by
    rw [filter]
    exact .pure ⟨rfl, trivial⟩
  | some condition, plain, fills => by
    rw [filter]
    exact .bind (predicate_counts clause condition plain fills) fun found counts => .pure counts

/-- The joins of a space are resolved with as many parameters. -/
theorem joins_count (clause : Nat) : ∀ given : List (Grammar.Join Grammar.Predicate),
    Grammar.JoinsArePlain given → Grammar.JoinsFillLists given →
      Ensures (joins names clause given) fun found =>
        countOf (joinNodes found) = Grammar.joinParameters given ∧ JoinsWriteAll found
  | [], _, _ => by
    rw [joins]
    exact .pure ⟨rfl, trivial⟩
  | ⟨kind, fetch, route, label, condition, span⟩ :: rest, plain, fills => by
    rw [joins]
    refine .skip fun target => ?_
    refine .bind (filter_counts clause condition plain.2.1 fills.1) fun found counts => ?_
    refine .bind (.lift fun join made => predicate_of_make made) fun join same => ?_
    refine .bind (joins_count clause rest plain.2.2 fills.2) fun others countsToo => .pure ?_
    obtain ⟨_, _, _, predicate⟩ := join
    obtain rfl : predicate = found := same
    -- The path of the join is not in the result, and has no parameters.
    refine ⟨?_, counts.2, countsToo.2⟩
    rw [joinNodes, Resolved.countOf_append, counts.1, countsToo.1, Grammar.joinParameters,
      Grammar.pathParameters_of_plain plain.1, Nat.zero_add]

/-- The spaces of a clause are resolved with as many parameters. -/
theorem spaces_count (clause : Nat) : ∀ given : List (Grammar.FromSpace Grammar.Predicate),
    Grammar.SpacesJoinPlainly given → Grammar.SpacesFillLists given →
      Ensures (spaces names clause given) fun found =>
        countOf (spaceNodes found) = Grammar.spaceParameters given ∧ SpacesWriteAll found
  | [], _, _ => by
    rw [spaces]
    exact .pure ⟨rfl, trivial⟩
  | ⟨root, joined, _⟩ :: rest, plain, fills => by
    rw [spaces]
    refine .skip fun target => ?_
    refine .bind (joins_count clause joined plain.1 fills.1) fun joined counts => ?_
    refine .bind (spaces_count clause rest plain.2 fills.2) fun others countsToo => .pure ?_
    refine ⟨?_, counts.2, countsToo.2⟩
    rw [spaceNodes, Resolved.countOf_append, counts.1, countsToo.1]
    rfl

/-- A query is resolved with as many parameters as its clauses have. -/
theorem querySpec_counts : ∀ given : Grammar.Query Grammar.Predicate,
    Grammar.QueryJoinsPlainly given → Grammar.QueryFillsLists given →
      Ensures (querySpec names given) fun found =>
        countOf (queryNodes found) = Grammar.queryParameters given ∧ QueryWritesAll found
  | ⟨select, ⟨items, span⟩, condition, _⟩, plain, fills => by
    rw [querySpec]
    refine .skip fun clause => ?_
    refine .bind (selections_count names clause _) fun chosen counts => ?_
    refine .bind (spaces_count clause items plain.1 fills.1) fun items countsItems => ?_
    refine .bind (filter_counts clause condition plain.2 fills.2) fun condition countsFilter =>
      .pure ⟨?_, countsItems.2, countsFilter.2⟩
    rw [queryNodes, Resolved.countOf_append, Resolved.countOf_append, countsItems.1, countsFilter.1,
      Grammar.queryParameters]
    congr 2
    cases select with
    | none => exact defaultSelections_count items
    | some select => exact counts

end

/-! ## Statements -/

/-- An assignment is resolved with as many parameters as its two sides have. -/
theorem assignment_counts (target : Resolved.FromNode) (given : Grammar.Assignment) :
    Ensures (assignment names clause target given) fun found =>
      countOf (Expr.path found.target).nodes + countOf found.value.nodes =
        Grammar.pathParameters given.target + given.value.parameterCount ∧
      found.target.init = [] ∧ found.target.type.basic?.isSome = true := by
  unfold assignment
  refine .bind (path_counts names clause given.target) fun found counts => ?_
  split
  · split
    · rename_i reference allowed
      simp only [Bool.and_eq_true, List.isEmpty_iff] at allowed
      refine .bind (expr_counts names clause given.value) fun value countsToo => .pure ?_
      exact ⟨by rw [counts, countsToo], allowed.1.2, allowed.2⟩
    · exact .throw
  · exact .throw

/-- Resolving a tree keeps its parameters.

Proof: by cases on the statement. The target of an assignment has no parameter but those of its
indices. -/
theorem statement_counts : ∀ given : Grammar.Statement, given.JoinsPlainly → given.FillsLists →
    Ensures (statement names given) fun found =>
      countOf found.nodes + found.targetCount = given.parameterCount ∧ found.WritesAll ∧
        found.AssignsBasic
  | .select query order, plain, fills => by
    rw [statement]
    have keyCounts : ∀ key : Grammar.SortSpec, Ensures (do
        let clause ← scopeAt names query.sources.span
        sortKey names clause key) fun found =>
          countOf found.expr.nodes = key.expr.parameterCount := fun key =>
      .skip fun clause => .bind (expr_counts names clause key.expr) fun _ counts => .pure counts
    refine .bind (querySpec_counts names query plain fills) fun query counts => ?_
    refine .bind (.mapM keyCounts order) fun keys paired => .pure ⟨?_, counts.2, trivial⟩
    rw [Resolved.Statement.nodes, Resolved.countOf_append, counts.1, Resolved.countOf_flatMap,
      map_of_forall₂ paired]
    rfl
  | .update target assignments condition, plain, fills => by
    rw [statement]
    refine .skip fun clause => .skip fun node => ?_
    refine .bind (.mapM (assignment_counts names clause node) assignments) fun found paired => ?_
    refine .bind (filter_counts names clause condition plain fills) fun condition counts =>
      .pure ⟨?_, counts.2, ?_⟩
    · have sums : (found.map fun done => countOf (Expr.path done.target).nodes).sum +
          (found.map fun done => countOf done.value.nodes).sum =
            (assignments.map fun written => Grammar.pathParameters written.target +
              written.value.parameterCount).sum := by
        rw [← List.sum_map_add, map_of_forall₂ (paired.imp fun _ _ same => same.1)]
      rw [Resolved.Statement.nodes, Resolved.Statement.targetCount, Resolved.countOf_append,
        Resolved.countOf_flatMap, counts.1, Grammar.Statement.parameterCount]
      omega
    · intro assignment listed
      obtain ⟨_, _, _, basic⟩ := exists_of_forall₂ paired listed
      exact basic
  | .delete target condition, plain, fills => by
    rw [statement]
    refine .skip fun clause => .skip fun node => ?_
    exact .bind (filter_counts names clause condition plain fills) fun condition counts =>
      .pure ⟨counts.1, counts.2, trivial⟩

end Resolution
end ObjectQuery

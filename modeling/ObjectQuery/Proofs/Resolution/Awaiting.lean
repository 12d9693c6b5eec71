import ObjectQuery.Proofs.Resolution.Counted
import ObjectQuery.Proofs.Resolved.Visited
/-!
# Parameters that await their types

Resolving a tree gives no type to any parameter. So whatever type a parameter has in the end, it has
been given to it afterwards.
-/
namespace ObjectQuery.Resolution

open Resolved (Expr Segment indexNodes segmentNodes queryNodes spaceNodes joinNodes filterNodes)

/-- All parameters among the expressions await their types. -/
def Await (nodes : List Expr) : Prop := ∀ expr ∈ nodes, expr.AwaitsType

variable {expr : Expr} {nodes later : List Expr}

/-- No nodes await nothing. -/
@[simp] theorem await_nil : Await [] := by simp [Await]

/-- A list of nodes awaits types if its first node and the rest do. -/
@[simp] theorem await_cons : Await (expr :: nodes) ↔ expr.AwaitsType ∧ Await nodes :=
  List.forall_mem_cons

/-- Two lists of nodes await types if both do. -/
@[simp] theorem await_append : Await (nodes ++ later) ↔ Await nodes ∧ Await later :=
  List.forall_mem_append

/-- The nodes of several items await types if those of each item do. -/
@[simp] theorem await_flatMap {α : Type} {items : List α} {parts : α → List Expr} :
    Await (items.flatMap parts) ↔ ∀ item ∈ items, Await (parts item) :=
  List.forall_mem_flatMap

/-- A parameter without a type awaits one. -/
theorem await_parameter (kind : ParameterKind) : Await (Expr.parameter ⟨kind, none⟩).nodes :=
  await_cons.mpr ⟨rfl, await_nil⟩

/-- A step for each item ensures of each result what it ensures of one. -/
theorem Ensures.all {α β : Type} {step : α → Resolving β} {good : β → Prop}
    (ensures : ∀ item, Ensures (step item) good) (items : List α) :
    Ensures (items.mapM step) fun found => ∀ result ∈ found, good result := by
  intro numbering found after ran result listed
  obtain ⟨_, _, holds⟩ := exists_of_forall₂ (Ensures.mapM ensures items ran) listed
  exact holds

variable (names : Names) (clause : Nat)

/-! ## Expressions -/

/-- A positional parameter is resolved without a type. -/
theorem positional_awaits (position : Option Nat) :
    Ensures (positional position) fun found => Await found.nodes := by
  intro numbering value after ran
  cases position <;> cases numbering <;> cases ran <;> exact await_parameter _

/-- A path awaits types if its indices do. -/
theorem pathOf_awaits {source : FromElement} {segments : List (Segment Expr)}
    (awaits : Await (segmentNodes segments)) : Await (pathOf source segments).nodes := by
  unfold pathOf
  split
  · simp [Resolved.Expr.nodes, Resolved.Expr.AwaitsType]
  · rename_i last ends
    obtain ⟨init, rfl⟩ := List.getLast?_eq_some_iff.mp ends
    obtain ⟨label, declared, index, after⟩ := last
    simpa [Resolved.segmentNodes_append, segmentNodes, Resolved.Expr.nodes,
      Resolved.Expr.AwaitsType] using awaits

mutual

/-- An expression is resolved with the types of its parameters open. -/
theorem expr_awaits : ∀ given : Grammar.Expr,
    Ensures (Resolution.expr names clause given) fun found => Await found.nodes
  | .path route => by
    rw [Resolution.expr]
    exact path_awaits route
  | .literal _ value => by
    rw [Resolution.expr]
    exact .pure (by simp [Resolved.Expr.nodes, Resolved.Expr.AwaitsType])
  | .named _ name => by
    rw [Resolution.expr]
    exact .pure (await_parameter _)
  | .positional _ position => by
    rw [Resolution.expr]
    exact positional_awaits position
  | .arithmetic _ op left right => by
    rw [Resolution.expr]
    refine .bind (expr_awaits left) fun left awaits => ?_
    refine .bind (expr_awaits right) fun right awaitsToo => .skip fun _ => .pure ?_
    simp [Resolved.Expr.nodes, Resolved.Expr.AwaitsType, awaits, awaitsToo]
  | .negate _ operand => by
    rw [Resolution.expr]
    refine .bind (expr_awaits operand) fun operand awaits => .skip fun _ => .pure ?_
    simp [Resolved.Expr.nodes, Resolved.Expr.AwaitsType, awaits]
  | .call _ name distinct argument => by
    rw [Resolution.expr]
    refine .skip fun function => .skip fun _ => ?_
    refine .bind (optional_awaits argument) fun argument awaits => .skip fun _ => .pure ?_
    simp [Resolved.Expr.nodes, Resolved.Expr.AwaitsType, awaits]

/-- An index that may be left out is resolved with its types open. -/
theorem optional_awaits : ∀ given : Option Grammar.Expr,
    Ensures (optional names clause given) fun found => Await (indexNodes found)
  | none => by
    rw [optional]
    exact .pure await_nil
  | some given => by
    rw [optional]
    exact .bind (expr_awaits given) fun _ awaits => .pure awaits

/-- A path is resolved with the types of its parameters open. -/
theorem path_awaits : ∀ route : Grammar.Path Grammar.Expr,
    Ensures (path names clause route) fun found => Await found.nodes
  | ⟨⟨name, index⟩, rest, _⟩ => by
    rw [path]
    refine .skip fun (source, isSource) => ?_
    cases isSource with
    | true => exact .bind (parts_await (.source source) rest) fun _ awaits => .pure (pathOf_awaits awaits)
    | false =>
      refine .bind (part_awaits (.source source) ⟨name, index⟩) fun segment awaits => ?_
      refine .bind (parts_await (.type segment.type) rest) fun segments others => .pure ?_
      obtain ⟨label, declared, value, after⟩ := segment
      exact pathOf_awaits (await_append.mpr ⟨awaits, others⟩)

/-- One part of a path is resolved with the types of its parameters open. -/
theorem part_awaits (owner : Owner) : ∀ given : Grammar.PathPart Grammar.Expr,
    Ensures (part names clause owner given) fun found => Await (indexNodes found.index)
  | ⟨name, index⟩ => by
    rw [part]
    refine .skip fun type => .skip fun _ => ?_
    exact .bind (optional_awaits index) fun _ awaits => .pure awaits

/-- The parts of a path are resolved with the types of their parameters open. -/
theorem parts_await (owner : Owner) : ∀ given : List (Grammar.PathPart Grammar.Expr),
    Ensures (parts names clause owner given) fun found => Await (segmentNodes found)
  | [] => by
    rw [parts]
    exact .pure await_nil
  | ⟨name, index⟩ :: rest => by
    rw [parts]
    refine .bind (part_awaits owner ⟨name, index⟩) fun segment awaits => ?_
    refine .bind (parts_await (.type segment.type) rest) fun segments others => .pure ?_
    obtain ⟨label, declared, value, after⟩ := segment
    exact await_append.mpr ⟨awaits, others⟩

end

/-! ## Conditions and queries -/

/-- Selections are resolved with the types of their parameters open. -/
theorem selections_await (given : List Grammar.Selection) :
    Ensures (selections names clause given) fun found =>
      Await (found.flatMap fun selection => selection.expr.nodes) := by
  have awaits : ∀ selection : Grammar.Selection,
      Ensures (do
        let resolved ← Resolution.expr names clause selection.expr
        return (⟨resolved, selection.label.map (·.value)⟩ : Resolved.Selection)) fun found =>
          Await found.expr.nodes := fun selection =>
    .bind (expr_awaits names clause selection.expr) fun _ awaits => .pure awaits
  intro numbering found after ran
  exact await_flatMap.mpr (Ensures.all awaits given ran)

/-- The selections of a query that names none hold no parameter. -/
theorem defaultSelections_await (items : List (Resolved.FromSpace Resolved.Predicate)) :
    Await ((defaultSelections items).flatMap fun selection => selection.expr.nodes) := by
  simp [defaultSelections, Resolved.Expr.nodes, Resolved.Expr.AwaitsType]

/-- A path to a collection is resolved with the types of its parameters open. -/
theorem collection_awaits (route : Grammar.Path Grammar.Expr) :
    Ensures (collection names clause route) fun found => Await (Expr.path found).nodes := by
  unfold collection
  refine .bind (path_awaits names clause route) fun found awaits => ?_
  split
  · split
    · exact .pure awaits
    · exact .throw
  · exact .throw

mutual

/-- A predicate is resolved with the types of its parameters open.

Proof: by recursion over the predicate. No step of the walk gives a type to a parameter. -/
theorem predicate_awaits (clause : Nat) : ∀ given : Grammar.Predicate,
    Ensures (predicate names clause given) fun found => Await found.nodes
  | .and _ left right | .or _ left right => by
    rw [predicate]
    refine .bind (predicate_awaits clause left) fun left awaits => ?_
    refine .bind (predicate_awaits clause right) fun right awaitsToo => .pure ?_
    exact await_append.mpr ⟨awaits, awaitsToo⟩
  | .not _ operand => by
    rw [predicate]
    exact .bind (predicate_awaits clause operand) fun operand awaits => .pure awaits
  | .compare _ op left right => by
    rw [predicate]
    refine .bind (expr_awaits names clause left) fun left awaits => ?_
    refine .bind (expr_awaits names clause right) fun right awaitsToo => .pure ?_
    exact await_append.mpr ⟨awaits, awaitsToo⟩
  | .inList _ test values negated => by
    rw [predicate]
    refine .bind (expr_awaits names clause test) fun test awaits => ?_
    refine .bind (.all (expr_awaits names clause) values) fun found awaitsToo => .pure ?_
    exact await_append.mpr ⟨awaits, await_flatMap.mpr awaitsToo⟩
  | .inQuery _ test query negated => by
    rw [predicate]
    refine .bind (expr_awaits names clause test) fun test awaits => ?_
    refine .bind (querySpec_awaits query) fun query awaitsToo => .pure ?_
    exact await_append.mpr ⟨awaits, awaitsToo⟩
  | .memberOf _ element route negated => by
    rw [predicate]
    refine .bind (expr_awaits names clause element) fun element awaits => ?_
    refine .bind (collection_awaits names clause route) fun reference awaitsToo => .pure ?_
    exact await_append.mpr ⟨awaits, awaitsToo⟩
  | .isNull _ operand negated => by
    rw [predicate]
    exact .bind (expr_awaits names clause operand) fun operand awaits => .pure awaits
  | .like _ operand pattern negated => by
    rw [predicate]
    refine .bind (expr_awaits names clause operand) fun operand awaits => ?_
    refine .bind (expr_awaits names clause pattern) fun pattern awaitsToo => .pure ?_
    exact await_append.mpr ⟨awaits, awaitsToo⟩
  | .between _ operand low high negated => by
    rw [predicate]
    refine .bind (expr_awaits names clause operand) fun operand awaits => ?_
    refine .bind (expr_awaits names clause low) fun low awaitsLow => ?_
    refine .bind (expr_awaits names clause high) fun high awaitsHigh => .pure ?_
    exact await_append.mpr ⟨await_append.mpr ⟨awaits, awaitsLow⟩, awaitsHigh⟩

/-- A filter is resolved with the types of its parameters open. -/
theorem filter_awaits (clause : Nat) : ∀ given : Option Grammar.Predicate,
    Ensures (filter names clause given) fun found => Await (filterNodes found)
  | none => by
    rw [filter]
    exact .pure await_nil
  | some condition => by
    rw [filter]
    exact .bind (predicate_awaits clause condition) fun found awaits => .pure awaits

/-- Joins are resolved with the types of their parameters open. -/
theorem joins_await (clause : Nat) : ∀ given : List (Grammar.Join Grammar.Predicate),
    Ensures (joins names clause given) fun found => Await (joinNodes found)
  | [] => by
    rw [joins]
    exact .pure await_nil
  | ⟨kind, fetch, route, label, condition, span⟩ :: rest => by
    rw [joins]
    refine .skip fun target => ?_
    refine .bind (filter_awaits clause condition) fun found awaits => ?_
    refine .bind (.lift fun join made => predicate_of_make made) fun join same => ?_
    refine .bind (joins_await clause rest) fun others awaitsToo => .pure ?_
    obtain ⟨_, _, _, predicate⟩ := join
    obtain rfl : predicate = found := same
    exact await_append.mpr ⟨awaits, awaitsToo⟩

/-- Spaces are resolved with the types of their parameters open. -/
theorem spaces_await (clause : Nat) : ∀ given : List (Grammar.FromSpace Grammar.Predicate),
    Ensures (spaces names clause given) fun found => Await (spaceNodes found)
  | [] => by
    rw [spaces]
    exact .pure await_nil
  | ⟨root, joined, _⟩ :: rest => by
    rw [spaces]
    refine .skip fun target => ?_
    refine .bind (joins_await clause joined) fun joined awaits => ?_
    refine .bind (spaces_await clause rest) fun others awaitsToo => .pure ?_
    exact await_append.mpr ⟨awaits, awaitsToo⟩

/-- A query is resolved with the types of its parameters open. -/
theorem querySpec_awaits : ∀ given : Grammar.Query Grammar.Predicate,
    Ensures (querySpec names given) fun found => Await (queryNodes found)
  | ⟨select, ⟨items, span⟩, condition, _⟩ => by
    rw [querySpec]
    refine .skip fun clause => ?_
    refine .bind (selections_await names clause _) fun chosen awaits => ?_
    refine .bind (spaces_await clause items) fun items awaitsItems => ?_
    refine .bind (filter_awaits clause condition) fun condition awaitsFilter => .pure ?_
    refine await_append.mpr ⟨await_append.mpr ⟨?_, awaitsItems⟩, awaitsFilter⟩
    cases select with
    | none => exact defaultSelections_await items
    | some select => exact awaits

end

/-! ## Statements -/

/-- The value of an assignment is resolved with the types of its parameters open. -/
theorem assignment_awaits (target : Resolved.FromNode) (given : Grammar.Assignment) :
    Ensures (assignment names clause target given) fun found => Await found.value.nodes := by
  unfold assignment
  refine .skip fun found => ?_
  split
  · split
    · exact .bind (expr_awaits names clause given.value) fun value awaits => .pure awaits
    · exact .throw
  · exact .throw

/-- Resolving a tree gives no type to any parameter. -/
theorem statement_awaits : ∀ given : Grammar.Statement,
    Ensures (statement names given) fun found => Await found.nodes
  | .select query order => by
    rw [statement]
    have keyAwaits : ∀ key : Grammar.SortSpec, Ensures (do
        let clause ← scopeAt names query.sources.span
        sortKey names clause key) fun found => Await found.expr.nodes := fun key =>
      .skip fun clause => .bind (expr_awaits names clause key.expr) fun _ awaits => .pure awaits
    refine .bind (querySpec_awaits names query) fun query awaits => ?_
    refine .bind (.all keyAwaits order) fun keys awaitsToo => .pure ?_
    exact await_append.mpr ⟨awaits, await_flatMap.mpr awaitsToo⟩
  | .update target assignments condition => by
    rw [statement]
    refine .skip fun clause => .skip fun node => ?_
    refine .bind (.all (assignment_awaits names clause node) assignments) fun found awaits => ?_
    refine .bind (filter_awaits names clause condition) fun condition awaitsToo => .pure ?_
    exact await_append.mpr ⟨await_flatMap.mpr awaits, awaitsToo⟩
  | .delete target condition => by
    rw [statement]
    refine .skip fun clause => .skip fun node => ?_
    exact .bind (filter_awaits names clause condition) fun condition awaits => .pure awaits

end ObjectQuery.Resolution

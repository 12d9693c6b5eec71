import Mathlib.Algebra.BigOperators.Group.Multiset.Basic
import Mathlib.Algebra.Order.Group.Multiset
import ObjectQuery.Proofs.Resolved.Stripped
/-!
# Parameters of resolved statements

The parameters of a statement are taken as a multiset, so that those of a whole are the sum of those of
its parts. Recorded types have no part in of which kinds they are.

Two things are left out when a predicate is written as SQL: a test for membership in a list without
items, and an index at the end of a path to a collection. A predicate that has neither is written out.
-/
namespace ObjectQuery.Resolved

variable {expr : Expr} {nodes later : List Expr}

/-- The kind of the parameter that an expression is, if it is one. -/
def Expr.ownKinds : Expr → Multiset ParameterKind
  | .parameter bound => {bound.kind}
  | _ => 0

/-- The kinds of the parameters among the expressions. -/
def kindsOf (nodes : List Expr) : Multiset ParameterKind :=
  Multiset.ofList ((nodes.filterMap Expr.parameter?).map (·.kind))

/-- No nodes have no kinds. -/
@[simp] theorem kindsOf_nil : kindsOf [] = 0 := rfl

/-- Two lists of nodes have the kinds of both. -/
@[simp] theorem kindsOf_append : kindsOf (nodes ++ later) = kindsOf nodes + kindsOf later := by
  simp [kindsOf]

/-- A list of nodes has the kinds of its first node and of the rest. -/
@[simp] theorem kindsOf_cons : kindsOf (expr :: nodes) = expr.ownKinds + kindsOf nodes := by
  unfold kindsOf Expr.ownKinds
  cases expr <;> simp [List.filterMap_cons, Expr.parameter?]

/-- The nodes of several items have the kinds of each item. -/
@[simp] theorem kindsOf_flatMap {α : Type} (items : List α) (parts : α → List Expr) :
    kindsOf (items.flatMap parts) = (items.map fun item => kindsOf (parts item)).sum := by
  induction items with
  | nil => rfl
  | cons item rest ih => simp [ih]

/-- The parameter that an expression is, if it is one. -/
def Expr.ownNeeds : Expr → Multiset Parameter
  | .parameter bound => {bound}
  | _ => 0

/-- The parameters among the expressions. -/
def needsOf (nodes : List Expr) : Multiset Parameter :=
  Multiset.ofList (nodes.filterMap Expr.parameter?)

/-- No nodes write no parameter. -/
@[simp] theorem needsOf_nil : needsOf [] = 0 := rfl

/-- Two lists of nodes write the parameters of both. -/
@[simp] theorem needsOf_append : needsOf (nodes ++ later) = needsOf nodes + needsOf later := by
  simp [needsOf]

/-- A list of nodes writes the parameters of its first node and of the rest. -/
@[simp] theorem needsOf_cons : needsOf (expr :: nodes) = expr.ownNeeds + needsOf nodes := by
  unfold needsOf Expr.ownNeeds
  cases expr <;> simp [List.filterMap_cons, Expr.parameter?]

/-- The nodes of several items write what those of each item do. -/
@[simp] theorem needsOf_flatMap {α : Type} (items : List α) (parts : α → List Expr) :
    needsOf (items.flatMap parts) = (items.map fun item => needsOf (parts item)).sum := by
  induction items with
  | nil => rfl
  | cons item rest ih => simp [ih]

/-- The parameters of a path. -/
def Reference.needs (reference : Reference Expr) : Multiset Parameter :=
  needsOf (segmentNodes reference.init) + needsOf (indexNodes reference.last.index)

/-- A path writes the parameters of its indices. -/
theorem Reference.needs_eq (reference : Reference Expr) :
    needsOf (Expr.path reference).nodes = reference.needs := by
  obtain ⟨source, sourceType, init, ⟨label, declared, index, after⟩, type⟩ := reference
  simp [Expr.nodes, needs, Expr.ownNeeds]

/-- The parameters of a statement, as often as they occur. -/
def Statement.needs (statement : Statement) : Multiset Parameter := needsOf statement.nodes

/-- A statement writes the occurrences its walk visits. -/
theorem Statement.needs_eq (statement : Statement) :
    statement.needs = Multiset.ofList statement.occurrences := rfl

/-- The kinds of the parameters of a statement, as often as they occur. -/
def Statement.kinds (statement : Statement) : Multiset ParameterKind := kindsOf statement.nodes

/-- The kinds of a statement are those of what it writes. -/
theorem Statement.kinds_eq (statement : Statement) :
    statement.kinds = statement.needs.map (·.kind) := rfl

/-! ## Recorded types have no part in it -/

mutual

/-- Taking the types off an expression leaves its kinds of parameters. -/
@[simp] theorem Expr.kindsOf_stripped : ∀ expr : Expr,
    kindsOf expr.stripped.nodes = kindsOf expr.nodes
  | .path ⟨source, sourceType, init, ⟨label, declared, index, after⟩, type⟩ => by
    simp [Expr.nodes, Expr.ownKinds, kindsOf_strippedSegments init, kindsOf_strippedIndex index]
  | .element label type => by simp [Expr.nodes, Expr.ownKinds]
  | .literal value => by simp [Expr.nodes]
  | .parameter bound => by simp [Expr.nodes, Expr.ownKinds]
  | .arithmetic op left right type => by
    simp [Expr.nodes, Expr.ownKinds, Expr.kindsOf_stripped left, Expr.kindsOf_stripped right]
  | .negate operand => by simp [Expr.nodes, Expr.ownKinds, Expr.kindsOf_stripped operand]
  | .call function distinct argument type => by
    simp [Expr.nodes, Expr.ownKinds, kindsOf_strippedIndex argument]

/-- Taking the types off an index leaves its kinds of parameters. -/
@[simp] theorem kindsOf_strippedIndex : ∀ index : Option Expr,
    kindsOf (indexNodes (strippedIndex index)) = kindsOf (indexNodes index)
  | none => rfl
  | some index => by simp [indexNodes, Expr.kindsOf_stripped index]

/-- Taking the types off a path leaves its kinds of parameters. -/
@[simp] theorem kindsOf_strippedSegments : ∀ segments : List (Segment Expr),
    kindsOf (segmentNodes (strippedSegments segments)) = kindsOf (segmentNodes segments)
  | [] => rfl
  | ⟨label, declared, index, after⟩ :: rest => by
    simp [segmentNodes, kindsOf_strippedIndex index, kindsOf_strippedSegments rest]

end

mutual

/-- All of the predicate is written as SQL. -/
def Predicate.WritesAll : Predicate → Prop
  | .and left right | .or left right => left.WritesAll ∧ right.WritesAll
  | .not operand => operand.WritesAll
  | .inList _ values _ => values ≠ []
  | .inQuery _ query _ => QueryWritesAll query
  | .memberOf _ collection _ => collection.last.index = none
  | _ => True

/-- All of the query is written as SQL. -/
def QueryWritesAll : Query Predicate → Prop
  | ⟨spaces, _, _, filter⟩ => SpacesWriteAll spaces ∧ FilterWritesAll filter

/-- All of the items of a from-clause is written as SQL. -/
def SpacesWriteAll : List (FromSpace Predicate) → Prop
  | [] => True
  | ⟨_, joins⟩ :: rest => JoinsWriteAll joins ∧ SpacesWriteAll rest

/-- All of the conditions of joins is written as SQL. -/
def JoinsWriteAll : List (Join Predicate) → Prop
  | [] => True
  | ⟨_, _, _, predicate⟩ :: rest => FilterWritesAll predicate ∧ JoinsWriteAll rest

/-- All of a condition that may be absent is written as SQL. -/
def FilterWritesAll : Option Predicate → Prop
  | none => True
  | some predicate => predicate.WritesAll

end

/-- All of the statement is written as SQL, the targets of assignments apart. -/
def Statement.WritesAll : Statement → Prop
  | .select query _ => QueryWritesAll query
  | .update _ _ filter | .delete _ filter => FilterWritesAll filter

mutual

/-- Taking the types off a predicate leaves its kinds and whether it writes all it holds. -/
theorem Predicate.same_stripped : ∀ predicate : Predicate,
    kindsOf predicate.stripped.nodes = kindsOf predicate.nodes ∧
      (predicate.stripped.WritesAll ↔ predicate.WritesAll)
  | .and left right | .or left right => by
    simp [Predicate.nodes, Predicate.WritesAll, left.same_stripped, right.same_stripped]
  | .not operand => by simp [Predicate.nodes, Predicate.WritesAll, operand.same_stripped]
  | .compare op left right => by simp [Predicate.nodes, Predicate.WritesAll]
  | .inList test values negated => by
    simp [Predicate.nodes, Predicate.WritesAll, Function.comp_def]
  | .inQuery test query negated => by
    simp [Predicate.nodes, Predicate.WritesAll, same_strippedQuery query]
  | .memberOf element collection negated => by
    have unindexed : (strippedIndex collection.last.index = none) ↔ collection.last.index = none := by
      cases collection.last.index <;> simp
    refine ⟨?_, unindexed⟩
    have same : kindsOf (Expr.path collection).stripped.nodes = kindsOf (Expr.path collection).nodes :=
      Expr.kindsOf_stripped _
    rw [Expr.stripped_path] at same
    rw [Predicate.stripped, Predicate.nodes, Predicate.nodes, kindsOf_append, kindsOf_append, same,
      Expr.kindsOf_stripped]
  | .isNull operand negated => by simp [Predicate.nodes, Predicate.WritesAll]
  | .like operand pattern negated => by simp [Predicate.nodes, Predicate.WritesAll]
  | .between operand low high negated => by simp [Predicate.nodes, Predicate.WritesAll]

/-- Taking the types off a query leaves its kinds and whether it writes all it holds. -/
theorem same_strippedQuery : ∀ query : Query Predicate,
    kindsOf (queryNodes (strippedQuery query)) = kindsOf (queryNodes query) ∧
      (QueryWritesAll (strippedQuery query) ↔ QueryWritesAll query)
  | ⟨spaces, distinct, selections, filter⟩ => by
    simp [queryNodes, QueryWritesAll, same_strippedSpaces spaces, same_strippedFilter filter,
      Function.comp_def]

/-- Taking the types off spaces leaves their kinds and whether they write all they hold. -/
theorem same_strippedSpaces : ∀ spaces : List (FromSpace Predicate),
    kindsOf (spaceNodes (strippedSpaces spaces)) = kindsOf (spaceNodes spaces) ∧
      (SpacesWriteAll (strippedSpaces spaces) ↔ SpacesWriteAll spaces)
  | [] => by simp
  | ⟨root, joins⟩ :: rest => by
    simp [spaceNodes, SpacesWriteAll, same_strippedJoins joins, same_strippedSpaces rest]

/-- Taking the types off joins leaves their kinds and whether they write all they hold. -/
theorem same_strippedJoins : ∀ joins : List (Join Predicate),
    kindsOf (joinNodes (strippedJoins joins)) = kindsOf (joinNodes joins) ∧
      (JoinsWriteAll (strippedJoins joins) ↔ JoinsWriteAll joins)
  | [] => by simp
  | ⟨kind, fetch, target, predicate⟩ :: rest => by
    simp [joinNodes, JoinsWriteAll, same_strippedFilter predicate, same_strippedJoins rest]

/-- Taking the types off a filter leaves its kinds and whether it writes all it holds. -/
theorem same_strippedFilter : ∀ filter : Option Predicate,
    kindsOf (filterNodes (strippedFilter filter)) = kindsOf (filterNodes filter) ∧
      (FilterWritesAll (strippedFilter filter) ↔ FilterWritesAll filter)
  | none => by simp
  | some predicate => by simp [filterNodes, FilterWritesAll, predicate.same_stripped]

end

/-- A statement has the parameters that it has without recorded types, and as much of it is
written. -/
theorem Statement.same_stripped (statement : Statement) :
    statement.stripped.kinds = statement.kinds ∧
      (statement.stripped.WritesAll ↔ statement.WritesAll) := by
  cases statement with
  | select query order =>
    simp [kinds, Statement.nodes, WritesAll, same_strippedQuery query, Function.comp_def]
  | update target assignments filter =>
    simp [kinds, Statement.nodes, WritesAll, same_strippedFilter filter, Function.comp_def]
  | delete target filter => simp [kinds, Statement.nodes, WritesAll, same_strippedFilter filter]

/-- Another root entity writes the same. -/
theorem Statement.writesAll_withRoot (entity : EntityType) (statement : Statement) :
    (statement.withRoot entity).WritesAll ↔ statement.WritesAll := by
  cases statement with
  | select query order =>
    obtain ⟨_ | ⟨⟨root, joins⟩, rest⟩, distinct, selections, filter⟩ := query <;> exact Iff.rfl
  | update target assignments filter => exact Iff.rfl
  | delete target filter => exact Iff.rfl

/-- Inferring types leaves the kinds of a statement and what it writes. -/
theorem Statement.same_infer (statement : Statement) :
    statement.infer.kinds = statement.kinds ∧
      (statement.infer.WritesAll ↔ statement.WritesAll) := by
  obtain ⟨kinds, writes⟩ := statement.infer.same_stripped
  rw [stripped_infer] at kinds writes
  exact ⟨kinds.symm.trans statement.same_stripped.1, writes.symm.trans statement.same_stripped.2⟩

mutual

/-- Another type for a source leaves whether a predicate writes all it holds. -/
theorem Predicate.writesAll_retype (new : Retyping) :
    ∀ predicate : Predicate, (predicate.retype new).WritesAll ↔ predicate.WritesAll
  | .and left right | .or left right => by
    simp [Predicate.retype, Predicate.WritesAll, left.writesAll_retype new, right.writesAll_retype new]
  | .not operand => by simp [Predicate.retype, Predicate.WritesAll, operand.writesAll_retype new]
  | .compare op left right => by simp [Predicate.retype, Predicate.WritesAll]
  | .inList test values negated => by simp [Predicate.retype, Predicate.WritesAll]
  | .inQuery test query negated => by
    simp [Predicate.retype, Predicate.WritesAll, queryWritesAll_retype new query]
  | .memberOf element collection negated => by
    cases index : collection.last.index <;>
      simp [Predicate.retype, Predicate.WritesAll, Reference.retype, retypeIndex, index]
  | .isNull operand negated => by simp [Predicate.retype, Predicate.WritesAll]
  | .like operand pattern negated => by simp [Predicate.retype, Predicate.WritesAll]
  | .between operand low high negated => by simp [Predicate.retype, Predicate.WritesAll]

/-- Another type for a source leaves whether a query writes all it holds. -/
theorem queryWritesAll_retype (new : Retyping) :
    ∀ query : Query Predicate, QueryWritesAll (retypeQuery new query) ↔ QueryWritesAll query
  | ⟨spaces, distinct, selections, filter⟩ => by
    simp [retypeQuery, QueryWritesAll, spacesWriteAll_retype new spaces,
      filterWritesAll_retype new filter]

/-- Another type for a source leaves whether spaces write all they hold. -/
theorem spacesWriteAll_retype (new : Retyping) : ∀ spaces : List (FromSpace Predicate),
    SpacesWriteAll (retypeSpaces new spaces) ↔ SpacesWriteAll spaces
  | [] => Iff.rfl
  | ⟨root, joins⟩ :: rest => by
    simp [retypeSpaces, SpacesWriteAll, joinsWriteAll_retype new joins, spacesWriteAll_retype new rest]

/-- Another type for a source leaves whether joins write all they hold. -/
theorem joinsWriteAll_retype (new : Retyping) : ∀ joins : List (Join Predicate),
    JoinsWriteAll (retypeJoins new joins) ↔ JoinsWriteAll joins
  | [] => Iff.rfl
  | ⟨kind, fetch, target, predicate⟩ :: rest => by
    simp [retypeJoins, JoinsWriteAll, filterWritesAll_retype new predicate,
      joinsWriteAll_retype new rest]

/-- Another type for a source leaves whether a filter writes all it holds. -/
theorem filterWritesAll_retype (new : Retyping) : ∀ filter : Option Predicate,
    FilterWritesAll (retypeFilter new filter) ↔ FilterWritesAll filter
  | none => Iff.rfl
  | some predicate => predicate.writesAll_retype new

end

/-- Narrowing a statement leaves whether it writes all it holds. -/
theorem Statement.writesAll_narrow (label : String) (entity : EntityType) (statement : Statement) :
    (statement.narrow label entity).WritesAll ↔ statement.WritesAll := by
  rw [narrow, writesAll_withRoot]
  cases statement with
  | select query order => exact queryWritesAll_retype _ query
  | update target assignments filter => exact filterWritesAll_retype _ filter
  | delete target filter => exact filterWritesAll_retype _ filter

/-- Typing the parameters of a statement and splitting it over implementors leaves nothing out. -/
theorem Statement.writesAll_of_split {statement part : Statement}
    (listed : part ∈ statement.infer.split) : part.WritesAll ↔ statement.WritesAll := by
  unfold split at listed
  split at listed
  · obtain ⟨entity, _, rfl⟩ := List.mem_map.mp listed
    rw [writesAll_narrow, statement.same_infer.2]
  · obtain rfl := List.mem_singleton.mp listed
    exact statement.same_infer.2

end ObjectQuery.Resolved

import ObjectQuery.Proofs.Resolution.Agreement
import ObjectQuery.Proofs.Resolved.Conditions
import ObjectQuery.Proofs.Sql.Skeleton
/-!
# The shape that a condition should have in SQL

An expression should have the shape of the text: every path and every source becomes a column, and the
rest stays. A test for membership becomes one for the keys in a sub-select. A sub-query has its sources
joined in order. A join along a path implies that two columns are equal, an inner join without any
condition is a cross join, and an outer join without one has a condition that always holds.

A count of all rows may be written with `distinct`. The shapes with and without that flag are both
given here, and they differ only if there is such a count.
-/
namespace ObjectQuery.Resolved

open Sql (TableRef)

/-- The call is a count of all rows that are distinct. -/
def Expr.countsDistinctRows : Expr → Bool
  | .call _ true none _ => true
  | _ => false

section

variable (keeps : Bool)

mutual

/-- The shape of an expression in SQL. What is said of it is whether a count of all rows keeps its
flag. -/
def Expr.skeleton : Expr → Sql.Expr
  | .path _ | .element _ _ => .leaf
  | .literal value => .literal value
  | .parameter bound => .parameter bound
  | .arithmetic op left right _ => .binary (.arithmetic op) left.skeleton right.skeleton
  | .negate operand => .negate operand.skeleton
  | .call function distinct argument _ =>
    match argumentSkeleton argument with
    | some value => .call function.sqlName distinct [value]
    | none => .call function.sqlName (distinct && keeps) [.star]

/-- The shape of an argument. -/
def argumentSkeleton : Option Expr → Option Sql.Expr
  | none => none
  | some argument => some argument.skeleton

end

/-- The shape of the sub-select of a test for membership. -/
def membershipSkeleton : Sql.Query Sql.Expr where
  distinct := false
  selections := [⟨.leaf, none⟩]
  source := none
  joins := []
  filter := some (Sql.Expr.equals .leaf .leaf)
  order := []

/-- The conditions that a join implies. -/
def impliedSkeleton : FromOrigin → List Sql.Expr
  | .pathJoin _ _ _ => [Sql.Expr.equals .leaf .leaf]
  | .root | .entityJoin => []

/-- The shape of a join with its condition. -/
def joinSkeleton : JoinKind → Option Sql.Expr → Sql.Join Sql.Expr
  | .inner, none => ⟨.cross, .blank, none⟩
  | .leftOuter, none => ⟨.leftOuter, .blank, some (.literal (.boolean true))⟩
  | kind, condition => ⟨kind, .blank, condition⟩

mutual

/-- The shape of a predicate in SQL. -/
def Predicate.skeleton : Predicate → Sql.Expr
  | .and left right => .binary .and left.skeleton right.skeleton
  | .or left right => .binary .or left.skeleton right.skeleton
  | .not operand => .not operand.skeleton
  | .compare op left right => .binary (.comparison op) (left.skeleton keeps) (right.skeleton keeps)
  | .inList test values negated =>
    .inList (test.skeleton keeps) (values.map (Expr.skeleton keeps)) negated
  | .inQuery test query negated => .inQuery (test.skeleton keeps) (querySkeleton query) negated
  | .memberOf element _ negated => .inQuery (element.skeleton keeps) membershipSkeleton negated
  | .isNull operand negated => .isNull (operand.skeleton keeps) negated
  | .like operand pattern negated => .like (operand.skeleton keeps) (pattern.skeleton keeps) negated
  | .between operand low high negated =>
    .between (operand.skeleton keeps) (low.skeleton keeps) (high.skeleton keeps) negated

/-- The shape of a sub-query. -/
def querySkeleton : Query Predicate → Sql.Query Sql.Expr
  | ⟨spaces, distinct, selections, filter⟩ =>
    { distinct := distinct
      selections := selections.map fun selection => ⟨selection.expr.skeleton keeps, selection.label⟩
      source := none
      joins := spaceSkeletons spaces
      filter := filterSkeleton filter
      order := [] }

/-- The shapes of the items of a from-clause. -/
def spaceSkeletons : List (FromSpace Predicate) → List (Sql.Join Sql.Expr)
  | [] => []
  | ⟨_, joins⟩ :: rest => ⟨.cross, .blank, none⟩ :: (joinSkeletons joins ++ spaceSkeletons rest)

/-- The shapes of joins. -/
def joinSkeletons : List (Join Predicate) → List (Sql.Join Sql.Expr)
  | [] => []
  | ⟨kind, _, target, predicate⟩ :: rest =>
    joinSkeleton kind (Sql.Expr.conjunction
      (impliedSkeleton target.origin ++ (filterSkeleton predicate).toList)) :: joinSkeletons rest

/-- The shape of a condition that may be absent. -/
def filterSkeleton : Option Predicate → Option Sql.Expr
  | none => none
  | some predicate => some predicate.skeleton

end

end

/-! ## Without counts of distinct rows -/

/-- None of the expressions is a count of distinct rows. -/
def CountsRows (nodes : List Expr) : Prop := ∀ node ∈ nodes, node.countsDistinctRows = false

/-- Two lists of nodes count rows plainly if both do. -/
theorem countsRows_append {nodes more : List Expr} :
    CountsRows (nodes ++ more) ↔ CountsRows nodes ∧ CountsRows more := List.forall_mem_append

/-- The nodes of several items count rows plainly if those of each item do. -/
theorem countsRows_flatMap {α : Type} {items : List α} {nodes : α → List Expr} :
    CountsRows (items.flatMap nodes) ↔ ∀ item ∈ items, CountsRows (nodes item) :=
  List.forall_mem_flatMap

mutual

/-- Without counts of distinct rows the two shapes of an expression are the same. -/
theorem Expr.skeleton_eq {keeps : Bool} : ∀ {expr : Expr}, CountsRows expr.nodes →
    expr.skeleton keeps = expr.skeleton false
  | .path reference, _ | .element label type, _ | .literal value, _ | .parameter bound, _ => by
    simp only [Expr.skeleton]
  | .arithmetic op left right type, counts => by
    rw [Expr.nodes, CountsRows, List.forall_mem_cons] at counts
    obtain ⟨first, second⟩ := countsRows_append.mp counts.2
    rw [Expr.skeleton, Expr.skeleton, Expr.skeleton_eq first, Expr.skeleton_eq second]
  | .negate operand, counts => by
    rw [Expr.nodes, CountsRows, List.forall_mem_cons] at counts
    rw [Expr.skeleton, Expr.skeleton, Expr.skeleton_eq counts.2]
  | .call function distinct argument type, counts => by
    rw [Expr.nodes, CountsRows, List.forall_mem_cons] at counts
    obtain ⟨own, counts⟩ := counts
    rw [Expr.skeleton, Expr.skeleton, argumentSkeleton_eq counts]
    cases argument with
    | some value => rfl
    | none =>
      obtain rfl : distinct = false := by
        cases distinct with
        | false => rfl
        | true => cases own
      rfl

/-- An argument that counts rows plainly looks the same with or without its flags. -/
theorem argumentSkeleton_eq {keeps : Bool} : ∀ {argument : Option Expr},
    CountsRows (indexNodes argument) → argumentSkeleton keeps argument = argumentSkeleton false argument
  | none, _ => rfl
  | some _, counts => congrArg some (Expr.skeleton_eq counts)

end

mutual

/-- So are those of a predicate. -/
theorem Predicate.skeleton_eq {keeps : Bool} : ∀ predicate : Predicate, CountsRows predicate.nodes →
    predicate.skeleton keeps = predicate.skeleton false
  | .and left right, counts | .or left right, counts => by
    rw [Predicate.nodes, countsRows_append] at counts
    rw [Predicate.skeleton, Predicate.skeleton, left.skeleton_eq counts.1,
      right.skeleton_eq counts.2]
  | .not operand, counts => by
    rw [Predicate.skeleton, operand.skeleton_eq counts, ← Predicate.skeleton]
  | .compare op left right, counts => by
    rw [Predicate.nodes, countsRows_append] at counts
    rw [Predicate.skeleton, Predicate.skeleton, Expr.skeleton_eq counts.1, Expr.skeleton_eq counts.2]
  | .inList test values negated, counts => by
    rw [Predicate.nodes, countsRows_append, countsRows_flatMap] at counts
    rw [Predicate.skeleton, Predicate.skeleton, Expr.skeleton_eq counts.1,
      List.map_congr_left fun value listed => Expr.skeleton_eq (counts.2 value listed)]
  | .inQuery test query negated, counts => by
    rw [Predicate.nodes, countsRows_append] at counts
    rw [Predicate.skeleton, Predicate.skeleton, Expr.skeleton_eq counts.1, querySkeleton_eq counts.2]
  | .memberOf element collection negated, counts => by
    rw [Predicate.nodes, countsRows_append] at counts
    rw [Predicate.skeleton, Predicate.skeleton, Expr.skeleton_eq counts.1]
  | .isNull operand negated, counts => by
    rw [Predicate.skeleton, Predicate.skeleton, Expr.skeleton_eq counts]
  | .like operand pattern negated, counts => by
    rw [Predicate.nodes, countsRows_append] at counts
    rw [Predicate.skeleton, Predicate.skeleton, Expr.skeleton_eq counts.1, Expr.skeleton_eq counts.2]
  | .between operand low high negated, counts => by
    rw [Predicate.nodes, countsRows_append, countsRows_append] at counts
    rw [Predicate.skeleton, Predicate.skeleton, Expr.skeleton_eq counts.1.1,
      Expr.skeleton_eq counts.1.2, Expr.skeleton_eq counts.2]

/-- A query that counts rows plainly looks the same with or without its flags. -/
theorem querySkeleton_eq {keeps : Bool} : ∀ {query : Query Predicate}, CountsRows (queryNodes query) →
    querySkeleton keeps query = querySkeleton false query
  | ⟨spaces, distinct, selections, filter⟩, counts => by
    rw [queryNodes, countsRows_append, countsRows_append, countsRows_flatMap] at counts
    obtain ⟨⟨selected, opened⟩, filtered⟩ := counts
    rw [querySkeleton, querySkeleton, spaceSkeletons_eq opened, filterSkeleton_eq filtered]
    rw [List.map_congr_left fun selection listed => by rw [Expr.skeleton_eq (selected selection listed)]]

/-- Spaces that count rows plainly look the same with or without their flags. -/
theorem spaceSkeletons_eq {keeps : Bool} : ∀ {spaces : List (FromSpace Predicate)},
    CountsRows (spaceNodes spaces) → spaceSkeletons keeps spaces = spaceSkeletons false spaces
  | [], _ => rfl
  | ⟨root, joins⟩ :: rest, counts => by
    rw [spaceNodes, countsRows_append] at counts
    rw [spaceSkeletons, spaceSkeletons, joinSkeletons_eq counts.1, spaceSkeletons_eq counts.2]

/-- Joins that count rows plainly look the same with or without their flags. -/
theorem joinSkeletons_eq {keeps : Bool} : ∀ {joins : List (Join Predicate)},
    CountsRows (joinNodes joins) → joinSkeletons keeps joins = joinSkeletons false joins
  | [], _ => rfl
  | ⟨kind, fetch, target, predicate⟩ :: rest, counts => by
    rw [joinNodes, countsRows_append] at counts
    rw [joinSkeletons, joinSkeletons, filterSkeleton_eq counts.1, joinSkeletons_eq counts.2]

/-- A filter that counts rows plainly looks the same with or without its flags. -/
theorem filterSkeleton_eq {keeps : Bool} : ∀ {filter : Option Predicate},
    CountsRows (filterNodes filter) → filterSkeleton keeps filter = filterSkeleton false filter
  | none, _ => rfl
  | some predicate, counts => congrArg some (predicate.skeleton_eq counts)

end

/-! ## Conditions inside conditions -/

mutual

/-- The sources in a condition are among those of what it stands in. -/
theorem Predicate.sources_of_mem {condition : Predicate} : ∀ predicate : Predicate,
    condition ∈ predicate.conditions → condition.sources ⊆ predicate.sources
  | .and left right, listed | .or left right, listed => by
    rw [Predicate.conditions, List.mem_cons, List.mem_append] at listed
    rcases listed with rfl | inLeft | inRight
    · exact List.Subset.refl _
    · exact List.subset_append_of_subset_left _ (Predicate.sources_of_mem left inLeft)
    · exact List.subset_append_of_subset_right _ (Predicate.sources_of_mem right inRight)
  | .not operand, listed => by
    rw [Predicate.conditions, List.mem_cons] at listed
    rcases listed with rfl | inside
    · exact List.Subset.refl _
    · exact Predicate.sources_of_mem operand inside
  | .inQuery test query negated, listed => by
    rw [Predicate.conditions, List.mem_cons] at listed
    rcases listed with rfl | inside
    · exact List.Subset.refl _
    · exact querySources_of_mem inside
  | .compare _ _ _, listed | .inList _ _ _, listed | .memberOf _ _ _, listed | .isNull _ _, listed
  | .like _ _ _, listed | .between _ _ _ _, listed => by
    rw [Predicate.conditions, List.mem_singleton] at listed
    · exact listed ▸ List.Subset.refl _
    all_goals exact nofun

/-- The sources of a condition of a query are among those of the query. -/
theorem querySources_of_mem {condition : Predicate} : ∀ {query : Query Predicate},
    condition ∈ queryConditions query → condition.sources ⊆ querySources query
  | ⟨spaces, distinct, selections, filter⟩, listed => by
    rw [queryConditions, List.mem_append] at listed
    rcases listed with opened | filtered
    · exact List.subset_append_of_subset_left _ (spaceSources_of_mem opened)
    · exact List.subset_append_of_subset_right _ (filterSources_of_mem filtered)

/-- The sources of a condition of spaces are among those of the spaces. -/
theorem spaceSources_of_mem {condition : Predicate} : ∀ {spaces : List (FromSpace Predicate)},
    condition ∈ spaceConditions spaces → condition.sources ⊆ spaceSources spaces
  | ⟨root, joins⟩ :: rest, listed => by
    rw [spaceConditions, List.mem_append] at listed
    rw [spaceSources]
    refine List.subset_cons_of_subset _ ?_
    rcases listed with joined | further
    · exact List.subset_append_of_subset_left _ (joinSources_of_mem joined)
    · exact List.subset_append_of_subset_right _ (spaceSources_of_mem further)

/-- The sources of a condition of joins are among those of the joins. -/
theorem joinSources_of_mem {condition : Predicate} : ∀ {joins : List (Join Predicate)},
    condition ∈ joinConditions joins → condition.sources ⊆ joinSources joins
  | ⟨kind, fetch, target, predicate⟩ :: rest, listed => by
    rw [joinConditions, List.mem_append] at listed
    rw [joinSources]
    refine List.subset_cons_of_subset _ ?_
    rcases listed with own | further
    · exact List.subset_append_of_subset_left _ (filterSources_of_mem own)
    · exact List.subset_append_of_subset_right _ (joinSources_of_mem further)

/-- The sources of a condition of a filter are among those of the filter. -/
theorem filterSources_of_mem {condition : Predicate} : ∀ {filter : Option Predicate},
    condition ∈ filterConditions filter → condition.sources ⊆ filterSources filter
  | some predicate, listed => Predicate.sources_of_mem predicate listed

end

/-- The sources in a condition of a statement are among those of the statement. -/
theorem Statement.sources_of_mem_conditions {statement : Statement} {condition : Predicate}
    (listed : condition ∈ statement.conditions) : condition.sources ⊆ statement.sources := by
  cases statement with
  | select query order => exact querySources_of_mem listed
  | update target assignments filter | delete target filter =>
    exact List.subset_cons_of_subset _ (filterSources_of_mem listed)

end ObjectQuery.Resolved

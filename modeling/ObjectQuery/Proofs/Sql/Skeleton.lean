import ObjectQuery.Proofs.Sql.JoinOrder
/-!
# The shape of an expression

Where an expression gets its values from is a matter of tables and columns. The skeleton of an
expression leaves this out: all its columns look the same, and so do all tables. What remains are the
operators and functions with their operands, the flags, the literals and the parameters.

A sub-select keeps its select list, its filter and its sort keys, each as a skeleton. Of its tables it
keeps the first of each given source, with the way in which it is joined and the condition. Further
tables, and tables that are joined for the sake of paths, belong to columns.
-/
namespace ObjectQuery.Sql

/-- The column that stands for all columns. -/
def Expr.leaf : Expr := .column none ""

/-- The table that stands for all tables. -/
def TableRef.blank : TableRef := ⟨"", none, false⟩

/-- Whether the table is the first one of a source. -/
def TableRef.isSource (sources : List String) (table : TableRef) : Bool :=
  sources.any fun source => table.label == some (TableGroup.tableLabel source 0)

section

variable (sources : List String)

mutual

/-- The expression with all columns made the same. -/
def Expr.skeleton : Expr → Expr
  | .column _ _ => .leaf
  | .literal value => .literal value
  | .parameter parameter => .parameter parameter
  | .binary op left right => .binary op left.skeleton right.skeleton
  | .not operand => .not operand.skeleton
  | .negate operand => .negate operand.skeleton
  | .call name distinct arguments => .call name distinct (skeletons arguments)
  | .inList test values negated => .inList test.skeleton (skeletons values) negated
  | .inQuery test query negated => .inQuery test.skeleton (querySkeleton query) negated
  | .between operand low high negated =>
    .between operand.skeleton low.skeleton high.skeleton negated
  | .isNull operand negated => .isNull operand.skeleton negated
  | .like operand pattern negated => .like operand.skeleton pattern.skeleton negated
  | .star => .star

/-- The skeletons of expressions. -/
def skeletons : List Expr → List Expr
  | [] => []
  | expr :: rest => expr.skeleton :: skeletons rest

/-- The items of a select list as skeletons. -/
def selectionSkeletons : List (Selection Expr) → List (Selection Expr)
  | [] => []
  | ⟨expr, label⟩ :: rest => ⟨expr.skeleton, label⟩ :: selectionSkeletons rest

/-- The skeleton of a condition that may be absent. -/
def conditionSkeleton : Option Expr → Option Expr
  | none => none
  | some condition => some condition.skeleton

/-- The joins of sources, with the skeletons of their conditions. -/
def joinSkeletons : List (Join Expr) → List (Join Expr)
  | [] => []
  | ⟨kind, table, condition⟩ :: rest =>
    if table.isSource sources then
      ⟨kind, .blank, conditionSkeleton condition⟩ :: joinSkeletons rest
    else joinSkeletons rest

/-- The sort keys as skeletons. -/
def sortSkeletons : List (SortKey Expr) → List (SortKey Expr)
  | [] => []
  | ⟨expr, order⟩ :: rest => ⟨expr.skeleton, order⟩ :: sortSkeletons rest

/-- The query with its tables left out, except that the sources remain. The first table is counted as
if it were cross joined to nothing. -/
def querySkeleton : Query Expr → Query Expr
  | ⟨distinct, selections, source, joins, filter, order⟩ =>
    { distinct := distinct
      selections := selectionSkeletons selections
      source := none
      joins := (source.toList.filter (·.isSource sources)).map (fun _ => ⟨.cross, .blank, none⟩) ++
        joinSkeletons joins
      filter := conditionSkeleton filter
      order := sortSkeletons order }

end

end

variable {sources : List String}

/-- The skeletons of values are theirs one by one. -/
theorem skeletons_eq_map (exprs : List Expr) :
    skeletons sources exprs = exprs.map (Expr.skeleton sources) := by
  induction exprs with
  | nil => rfl
  | cons expr rest ih => rw [skeletons, ih, List.map_cons]

/-- The skeleton of a condition is that of the condition there is. -/
theorem conditionSkeleton_eq_map (condition : Option Expr) :
    conditionSkeleton sources condition = condition.map (Expr.skeleton sources) := by
  cases condition <;> rfl

/-- The skeletons of selections are those of their values with the labels. -/
theorem selectionSkeletons_eq_map : ∀ selections : List (Selection Expr),
    selectionSkeletons sources selections =
      selections.map fun selection => ⟨selection.expr.skeleton sources, selection.label⟩
  | [] => rfl
  | selection :: rest => by rw [selectionSkeletons, selectionSkeletons_eq_map rest, List.map_cons]

/-- The join of a source, with the skeleton of its condition. -/
def Join.skeleton? (sources : List String) (join : Join Expr) : Option (Join Expr) :=
  if join.table.isSource sources then
    some ⟨join.kind, .blank, join.condition.map (Expr.skeleton sources)⟩
  else none

/-- The skeletons of joins are those of the joins over sources. -/
theorem joinSkeletons_eq_filterMap : ∀ joins : List (Join Expr),
    joinSkeletons sources joins = joins.filterMap (Join.skeleton? sources)
  | [] => rfl
  | join :: rest => by
    rw [joinSkeletons, List.filterMap_cons, Join.skeleton?, conditionSkeleton_eq_map,
      joinSkeletons_eq_filterMap rest]
    split <;> rfl

/-- The skeleton of a query over spaces has the sources among their tables. -/
theorem querySkeleton_toQuery (select : Select) : querySkeleton sources select.toQuery =
    { distinct := select.distinct
      selections := selectionSkeletons sources select.selections
      source := none
      joins := (entries select.spaces).filterMap (Join.skeleton? sources)
      filter := select.filter.map (Expr.skeleton sources)
      order := sortSkeletons sources select.order } := by
  have tables : ((select.spaces.head?.map (·.root.root.toRef)).toList.filter (·.isSource sources)).map
      (fun _ => (⟨.cross, .blank, none⟩ : Join Expr)) ++
        joinSkeletons sources (Select.joins select.spaces) =
        (entries select.spaces).filterMap (Join.skeleton? sources) := by
    rw [joinSkeletons_eq_filterMap]
    cases select.spaces with
    | nil => rfl
    | cons space rest =>
      have listed : entries (space :: rest) =
          ⟨.cross, space.root.root.toRef, none⟩ :: Select.joins (space :: rest) := by
        simp [entries, TableSpace.entries, Select.joins]
      rw [listed, List.filterMap_cons]
      by_cases own : space.root.root.toRef.isSource sources = true
      · simp [Join.skeleton?, own]
      · simp [Join.skeleton?, own]
  rw [Select.toQuery, querySkeleton, conditionSkeleton_eq_map, tables]

/-- The skeletons of conditions that hold together hold together. -/
theorem conjunction_skeleton (conditions : List Expr) :
    (Expr.conjunction conditions).map (Expr.skeleton sources) =
      Expr.conjunction (conditions.map (Expr.skeleton sources)) := by
  cases conditions with
  | nil => rfl
  | cons first rest =>
    rw [Expr.conjunction, List.map_cons, Expr.conjunction, Option.map_some]
    refine congrArg some ?_
    induction rest generalizing first with
    | nil => rfl
    | cons second rest ih => rw [List.foldl_cons, ih, List.map_cons, List.foldl_cons]; rfl

end ObjectQuery.Sql

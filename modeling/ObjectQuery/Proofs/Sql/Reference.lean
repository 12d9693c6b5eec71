import ObjectQuery.Proofs.Sql.Shape
/-!
# Which tables a statement refers to

A column is written with the name of its table. `Expr.references` lists the names that an expression
uses and does not introduce: inside a sub-select the names of its own tables do not count. The
condition of a join may use the names of the tables up to its own and those of the enclosing
levels; `Statement.OnScoped` says that it uses no others, at every level of a statement.

The join of an element of a collection compares a column with the value of an index. Whether that
value counts is left open by a flag, because it is written in another place than the join.
-/
namespace ObjectQuery.Sql

/-- Whether the table is that of an element selected by an index, whose names end in a bracket and
the position of the root. -/
def TableRef.isElement (table : TableRef) : Bool :=
  table.label.any fun label => "]_0".toList.isSuffixOf label.toList

/-- Whether a name is that of a table joined because a path goes through an association. Only the
names of such tables have a dot. -/
def isImplicit (label : String) : Bool := label.toList.contains '.'

/-- The names of the tables of joins. -/
def joinLabels (joins : List (Join Expr)) : List String := joins.filterMap (·.table.label)

/-- The names of the tables of a query. -/
def Query.labels (query : Query Expr) : List String :=
  (query.source.bind (·.label)).toList ++ joinLabels query.joins

mutual

/-- The tables that an expression refers to. Without `indices`, the values of indices in the joins of
sub-selects are passed over. -/
def Expr.references (indices : Bool) : Expr → List String
  | .column (some table) _ => [table]
  | .column none _ | .literal _ | .parameter _ | .star => []
  | .binary _ left right => left.references indices ++ right.references indices
  | .not operand | .negate operand | .isNull operand _ => operand.references indices
  | .call _ _ arguments => listReferences indices arguments
  | .inList test values _ => test.references indices ++ listReferences indices values
  | .inQuery test query _ => test.references indices ++ queryReferences indices query
  | .between operand low high _ =>
    operand.references indices ++ low.references indices ++ high.references indices
  | .like operand pattern _ => operand.references indices ++ pattern.references indices

/-- The tables that expressions refer to. -/
def listReferences (indices : Bool) : List Expr → List String
  | [] => []
  | expr :: rest => expr.references indices ++ listReferences indices rest

/-- The tables that the items of a select list refer to. -/
def selectionReferences (indices : Bool) : List (Selection Expr) → List String
  | [] => []
  | ⟨expr, _⟩ :: rest => expr.references indices ++ selectionReferences indices rest

/-- The tables that a condition refers to. -/
def conditionReferences (indices : Bool) : Option Expr → List String
  | none => []
  | some condition => condition.references indices

/-- The tables that the condition of a join refers to. The condition of an element ends with the
comparison of its position with the value of the index. -/
def onReferences (indices element : Bool) : Option Expr → List String
  | none => []
  | some (.binary .and bound (.binary (.comparison .eq) position value)) =>
    bound.references indices ++ position.references indices ++
      if element && !indices then [] else value.references indices
  | some condition => condition.references indices

/-- The tables that the conditions of joins refer to. -/
def joinReferences (indices : Bool) : List (Join Expr) → List String
  | [] => []
  | ⟨_, table, condition⟩ :: rest =>
    onReferences indices table.isElement condition ++ joinReferences indices rest

/-- The tables that sort keys refer to. -/
def sortReferences (indices : Bool) : List (SortKey Expr) → List String
  | [] => []
  | ⟨expr, _⟩ :: rest => expr.references indices ++ sortReferences indices rest

/-- The tables that a query refers to and does not introduce. -/
def queryReferences (indices : Bool) : Query Expr → List String
  | ⟨distinct, selections, source, joins, filter, order⟩ =>
    (selectionReferences indices selections ++ joinReferences indices joins ++
      conditionReferences indices filter ++ sortReferences indices order).filter fun label =>
        !(Query.labels ⟨distinct, selections, source, joins, filter, order⟩).contains label

end

/-- A query of a statement, and the names of the tables of the levels around it. -/
structure Level where
  outer : List String
  query : Query Expr

mutual

/-- The sub-selects inside an expression, at any depth, when the tables around it have the names
`outer`. -/
def Expr.levels (outer : List String) : Expr → List Level
  | .column _ _ | .literal _ | .parameter _ | .star => []
  | .binary _ left right => left.levels outer ++ right.levels outer
  | .not operand | .negate operand | .isNull operand _ => operand.levels outer
  | .call _ _ arguments => listLevels outer arguments
  | .inList test values _ => test.levels outer ++ listLevels outer values
  | .inQuery test query _ => test.levels outer ++ queryLevels outer query
  | .between operand low high _ =>
    operand.levels outer ++ low.levels outer ++ high.levels outer
  | .like operand pattern _ => operand.levels outer ++ pattern.levels outer

/-- The sub-selects inside expressions. -/
def listLevels (outer : List String) : List Expr → List Level
  | [] => []
  | expr :: rest => expr.levels outer ++ listLevels outer rest

/-- The sub-selects inside a select list. -/
def selectionLevels (outer : List String) : List (Selection Expr) → List Level
  | [] => []
  | ⟨expr, _⟩ :: rest => expr.levels outer ++ selectionLevels outer rest

/-- The sub-selects inside a condition. -/
def conditionLevels (outer : List String) : Option Expr → List Level
  | none => []
  | some condition => condition.levels outer

/-- The sub-selects inside the conditions of joins. -/
def joinLevels (outer : List String) : List (Join Expr) → List Level
  | [] => []
  | ⟨_, _, condition⟩ :: rest => conditionLevels outer condition ++ joinLevels outer rest

/-- The sub-selects inside sort keys. -/
def sortLevels (outer : List String) : List (SortKey Expr) → List Level
  | [] => []
  | ⟨expr, _⟩ :: rest => expr.levels outer ++ sortLevels outer rest

/-- The query itself and the sub-selects inside it, which see its tables. -/
def queryLevels (outer : List String) : Query Expr → List Level
  | ⟨distinct, selections, source, joins, filter, order⟩ =>
    let query : Query Expr := ⟨distinct, selections, source, joins, filter, order⟩
    let inside := query.labels ++ outer
    ⟨outer, query⟩ :: (selectionLevels inside selections ++ joinLevels inside joins ++
      conditionLevels inside filter ++ sortLevels inside order)

end

/-- All select levels of a statement. The table of a change is around the sub-selects in it. -/
def Statement.levels : Statement → List Level
  | .select query => queryLevels [] query.toQuery
  | .update change =>
    (change.assignments.flatMap fun assignment => assignment.2.levels [change.table]) ++
      conditionLevels [change.table] change.filter
  | .delete removal => conditionLevels [removal.table] removal.filter

/-- The tables that the condition of a join refers to. -/
def Join.references (indices : Bool) (join : Join Expr) : List String :=
  onReferences indices join.table.isElement join.condition

/-- A rule that holds of every join of a list, given the names of the tables before it and its own,
and the joins after it. -/
def EachJoin (rule : List String → Join Expr → List (Join Expr) → Prop) :
    List String → List (Join Expr) → Prop
  | _, [] => True
  | visible, join :: rest =>
    rule (visible ++ join.table.label.toList) join rest ∧
      EachJoin rule (visible ++ join.table.label.toList) rest

instance EachJoin.decide {rule : List String → Join Expr → List (Join Expr) → Prop}
    [∀ visible join rest, Decidable (rule visible join rest)] :
    ∀ visible joins, Decidable (EachJoin rule visible joins)
  | _, [] => inferInstanceAs (Decidable True)
  | visible, join :: rest =>
    have : Decidable (EachJoin rule (visible ++ join.table.label.toList) rest) :=
      EachJoin.decide (visible ++ join.table.label.toList) rest
    inferInstanceAs (Decidable (_ ∧ _))

/-- The rule that holds of every join of a level. -/
def Level.EachJoin (rule : List String → Join Expr → List (Join Expr) → Prop) (level : Level) :
    Prop :=
  Sql.EachJoin rule (level.outer ++ (level.query.source.bind (·.label)).toList) level.query.joins

/-- All tables that the condition refers to are visible. -/
def InOrder (visible : List String) (join : Join Expr) (_ : List (Join Expr)) : Prop :=
  ∀ label ∈ join.references true, label ∈ visible

/-- At every level, the condition of every join refers only to its own table, to tables that stand
before it, and to tables of the enclosing levels. -/
def Statement.OnScoped (statement : Statement) : Prop :=
  ∀ level ∈ statement.levels, level.EachJoin InOrder

section References

variable {indices : Bool} {label : String}

/-- Two lists of labels grow together if each of them grows. -/
theorem append_subset_append {before after first second : List String} (left : before ⊆ after)
    (right : first ⊆ second) : before ++ first ⊆ after ++ second :=
  List.append_subset.mpr ⟨List.subset_append_of_subset_left _ left,
    List.subset_append_of_subset_right _ right⟩

/-- A list refers to what one of its values refers to. -/
theorem mem_listReferences {exprs : List Expr} :
    label ∈ listReferences indices exprs ↔ ∃ expr ∈ exprs, label ∈ expr.references indices := by
  induction exprs with
  | nil => simp [listReferences]
  | cons expr rest ih => simp [listReferences, ih]

/-- Selections refer to what the value of one of them refers to. -/
theorem mem_selectionReferences {selections : List (Selection Expr)} :
    label ∈ selectionReferences indices selections ↔
      ∃ selection ∈ selections, label ∈ selection.expr.references indices := by
  induction selections with
  | nil => simp [selectionReferences]
  | cons selection rest ih => simp [selectionReferences, ih]

/-- Sort keys refer to what the value of one of them refers to. -/
theorem mem_sortReferences {keys : List (SortKey Expr)} :
    label ∈ sortReferences indices keys ↔ ∃ key ∈ keys, label ∈ key.expr.references indices := by
  induction keys with
  | nil => simp [sortReferences]
  | cons key rest ih => simp [sortReferences, ih]

/-- Joins refer to what one of them refers to. -/
theorem mem_joinReferences {joins : List (Join Expr)} :
    label ∈ joinReferences indices joins ↔ ∃ join ∈ joins, label ∈ join.references indices := by
  induction joins with
  | nil => simp [joinReferences]
  | cons join rest ih => simp [joinReferences, Join.references, ih]

/-- A query refers to what its parts refer to, less its own tables. -/
theorem mem_queryReferences {query : Query Expr} :
    label ∈ queryReferences indices query ↔
      (label ∈ selectionReferences indices query.selections ∨
        label ∈ joinReferences indices query.joins ∨
        label ∈ conditionReferences indices query.filter ∨
        label ∈ sortReferences indices query.order) ∧ label ∉ query.labels := by
  cases query
  simp only [queryReferences, List.mem_filter, List.mem_append, or_assoc, Bool.not_eq_true',
    List.contains_eq_mem, decide_eq_false_iff_not]

/-- Passing over the value of an index leaves a part of what the condition refers to. -/
theorem onReferences_subset {element : Bool} {condition : Option Expr}
    (mentioned : label ∈ onReferences indices element condition) :
    label ∈ conditionReferences indices condition := by
  fun_cases onReferences indices element condition with
  | case1 => simp [onReferences] at mentioned
  | case2 bound position value =>
    simp only [onReferences, List.mem_append] at mentioned
    simp only [conditionReferences, Expr.references, List.mem_append]
    rcases mentioned with (inBound | inPosition) | inValue
    · exact Or.inl inBound
    · exact Or.inr (Or.inl inPosition)
    · split at inValue
      · simp at inValue
      · exact Or.inr (Or.inr inValue)
  | case3 condition other => rwa [onReferences.eq_3 _ _ _ other] at mentioned

/-- With the values of indices, a join refers to all that its condition refers to. -/
theorem mem_onReferences_true {element : Bool} {condition : Option Expr}
    (mentioned : label ∈ conditionReferences true condition) :
    label ∈ onReferences true element condition := by
  fun_cases onReferences true element condition with
  | case1 => simp [conditionReferences] at mentioned
  | case2 bound position value =>
    simp only [conditionReferences, Expr.references, List.mem_append] at mentioned
    simpa [onReferences, or_assoc] using mentioned
  | case3 condition other => simpa only [conditionReferences] using mentioned

mutual

/-- Passing over the values of indices leaves a part of what an expression refers to. -/
theorem Expr.references_subset : ∀ expr : Expr, expr.references false ⊆ expr.references true
  | .column (some _) _ | .column none _ | .literal _ | .parameter _ | .star => by
    simp [Expr.references]
  | .binary _ left right => by
    simp only [Expr.references]
    exact append_subset_append left.references_subset right.references_subset
  | .not operand | .negate operand | .isNull operand _ => by
    simp only [Expr.references]
    exact operand.references_subset
  | .call _ _ arguments => by
    simp only [Expr.references]
    exact listReferences_subset arguments
  | .inList test values _ => by
    simp only [Expr.references]
    exact append_subset_append test.references_subset (listReferences_subset values)
  | .inQuery test query _ => by
    simp only [Expr.references]
    exact append_subset_append test.references_subset (queryReferences_subset query)
  | .between operand low high _ => by
    simp only [Expr.references]
    exact append_subset_append
      (append_subset_append operand.references_subset low.references_subset)
      high.references_subset
  | .like operand pattern _ => by
    simp only [Expr.references]
    exact append_subset_append operand.references_subset pattern.references_subset

/-- A list refers to no less once its indices count. -/
theorem listReferences_subset : ∀ exprs : List Expr,
    listReferences false exprs ⊆ listReferences true exprs
  | [] => by simp [listReferences]
  | expr :: rest => by
    simp only [listReferences]
    exact append_subset_append expr.references_subset (listReferences_subset rest)

/-- Selections refer to no less once their indices count. -/
theorem selectionReferences_subset : ∀ selections : List (Selection Expr),
    selectionReferences false selections ⊆ selectionReferences true selections
  | [] => by simp [selectionReferences]
  | ⟨expr, _⟩ :: rest => by
    simp only [selectionReferences]
    exact append_subset_append expr.references_subset (selectionReferences_subset rest)

/-- A condition refers to no less once its indices count. -/
theorem conditionReferences_subset : ∀ condition : Option Expr,
    conditionReferences false condition ⊆ conditionReferences true condition
  | none => by simp [conditionReferences]
  | some condition => by
    simp only [conditionReferences]
    exact condition.references_subset

/-- Joins refer to no less once their indices count. -/
theorem joinReferences_subset : ∀ joins : List (Join Expr),
    joinReferences false joins ⊆ joinReferences true joins
  | [] => by simp [joinReferences]
  | ⟨_, _, condition⟩ :: rest => by
    simp only [joinReferences]
    refine append_subset_append ?_ (joinReferences_subset rest)
    intro label mentioned
    exact mem_onReferences_true (conditionReferences_subset condition
      (onReferences_subset mentioned))

/-- Sort keys refer to no less once their indices count. -/
theorem sortReferences_subset : ∀ keys : List (SortKey Expr),
    sortReferences false keys ⊆ sortReferences true keys
  | [] => by simp [sortReferences]
  | ⟨expr, _⟩ :: rest => by
    simp only [sortReferences]
    exact append_subset_append expr.references_subset (sortReferences_subset rest)

/-- A query refers to no less once its indices count. -/
theorem queryReferences_subset : ∀ query : Query Expr,
    queryReferences false query ⊆ queryReferences true query
  | ⟨distinct, selections, source, joins, filter, order⟩ => by
    intro label mentioned
    obtain ⟨mentioned, foreign⟩ := mem_queryReferences.mp mentioned
    refine mem_queryReferences.mpr ⟨?_, foreign⟩
    exact mentioned.imp (@selectionReferences_subset selections label)
      (Or.imp (@joinReferences_subset joins label)
        (Or.imp (@conditionReferences_subset filter label) (@sortReferences_subset order label)))

end

/-- A join refers to no less once its indices count. -/
theorem Join.references_subset (join : Join Expr) : join.references false ⊆ join.references true := by
  intro label mentioned
  exact mem_onReferences_true (conditionReferences_subset join.condition
    (onReferences_subset mentioned))

end References

section Levels

variable {holds : Level → Prop} {outer : List String}

/-- What holds at every level of selections holds at every level of each of them. -/
theorem forall_selectionLevels {selections : List (Selection Expr)} :
    (∀ level ∈ selectionLevels outer selections, holds level) ↔
      ∀ selection ∈ selections, ∀ level ∈ selection.expr.levels outer, holds level := by
  induction selections with
  | nil => simp [selectionLevels]
  | cons selection rest ih => simp only [selectionLevels, List.forall_mem_append, ih,
      List.forall_mem_cons]

/-- What holds at every level of joins holds at every level of each condition. -/
theorem forall_joinLevels {joins : List (Join Expr)} :
    (∀ level ∈ joinLevels outer joins, holds level) ↔
      ∀ join ∈ joins, ∀ level ∈ conditionLevels outer join.condition, holds level := by
  induction joins with
  | nil => simp [joinLevels]
  | cons join rest ih => simp only [joinLevels, List.forall_mem_append, ih, List.forall_mem_cons]

/-- What holds at every level of sort keys holds at every level of each of them. -/
theorem forall_sortLevels {keys : List (SortKey Expr)} :
    (∀ level ∈ sortLevels outer keys, holds level) ↔
      ∀ key ∈ keys, ∀ level ∈ key.expr.levels outer, holds level := by
  induction keys with
  | nil => simp [sortLevels]
  | cons key rest ih => simp only [sortLevels, List.forall_mem_append, ih, List.forall_mem_cons]

/-- What holds of all levels of a query holds of the query itself and inside each of its parts. -/
theorem forall_queryLevels {query : Query Expr} :
    (∀ level ∈ queryLevels outer query, holds level) ↔ holds ⟨outer, query⟩ ∧
      (∀ level ∈ selectionLevels (query.labels ++ outer) query.selections, holds level) ∧
      (∀ level ∈ joinLevels (query.labels ++ outer) query.joins, holds level) ∧
      (∀ level ∈ conditionLevels (query.labels ++ outer) query.filter, holds level) ∧
      ∀ level ∈ sortLevels (query.labels ++ outer) query.order, holds level := by
  cases query
  simp only [queryLevels, List.forall_mem_cons, List.forall_mem_append, and_assoc]

/-- What holds of a level and stays true with more tables around it holds of the sub-selects of an
expression wherever the expression is put. -/
def Widening (holds : Level → Prop) : Prop :=
  ∀ ⦃outer wider : List String⦄ ⦃query : Query Expr⦄, outer ⊆ wider →
    holds ⟨outer, query⟩ → holds ⟨wider, query⟩

mutual

/-- What holds at the levels of an expression holds with more tables around it. -/
theorem Expr.levels_widen (widening : Widening holds) {outer wider : List String}
    (inside : outer ⊆ wider) : ∀ expr : Expr,
    (∀ level ∈ expr.levels outer, holds level) → ∀ level ∈ expr.levels wider, holds level
  | .column _ _ | .literal _ | .parameter _ | .star => by simp [Expr.levels]
  | .binary _ left right => by
    simp only [Expr.levels, List.forall_mem_append]
    exact And.imp (left.levels_widen widening inside) (right.levels_widen widening inside)
  | .not operand | .negate operand | .isNull operand _ => by
    simp only [Expr.levels]
    exact operand.levels_widen widening inside
  | .call _ _ arguments => by
    simp only [Expr.levels]
    exact listLevels_widen widening inside arguments
  | .inList test values _ => by
    simp only [Expr.levels, List.forall_mem_append]
    exact And.imp (test.levels_widen widening inside) (listLevels_widen widening inside values)
  | .inQuery test query _ => by
    simp only [Expr.levels, List.forall_mem_append]
    exact And.imp (test.levels_widen widening inside) (queryLevels_widen widening inside query)
  | .between operand low high _ => by
    simp only [Expr.levels, List.forall_mem_append]
    exact And.imp (And.imp (operand.levels_widen widening inside)
      (low.levels_widen widening inside)) (high.levels_widen widening inside)
  | .like operand pattern _ => by
    simp only [Expr.levels, List.forall_mem_append]
    exact And.imp (operand.levels_widen widening inside) (pattern.levels_widen widening inside)

/-- What holds at the levels of a list holds with more tables around it. -/
theorem listLevels_widen (widening : Widening holds) {outer wider : List String}
    (inside : outer ⊆ wider) : ∀ exprs : List Expr,
    (∀ level ∈ listLevels outer exprs, holds level) → ∀ level ∈ listLevels wider exprs, holds level
  | [] => by simp [listLevels]
  | expr :: rest => by
    simp only [listLevels, List.forall_mem_append]
    exact And.imp (expr.levels_widen widening inside) (listLevels_widen widening inside rest)

/-- What holds at the levels of selections holds with more tables around them. -/
theorem selectionLevels_widen (widening : Widening holds) {outer wider : List String}
    (inside : outer ⊆ wider) : ∀ selections : List (Selection Expr),
    (∀ level ∈ selectionLevels outer selections, holds level) →
      ∀ level ∈ selectionLevels wider selections, holds level
  | [] => by simp [selectionLevels]
  | ⟨expr, _⟩ :: rest => by
    simp only [selectionLevels, List.forall_mem_append]
    exact And.imp (expr.levels_widen widening inside) (selectionLevels_widen widening inside rest)

/-- What holds at the levels of a condition holds with more tables around it. -/
theorem conditionLevels_widen (widening : Widening holds) {outer wider : List String}
    (inside : outer ⊆ wider) : ∀ condition : Option Expr,
    (∀ level ∈ conditionLevels outer condition, holds level) →
      ∀ level ∈ conditionLevels wider condition, holds level
  | none => by simp [conditionLevels]
  | some condition => by
    simp only [conditionLevels]
    exact condition.levels_widen widening inside

/-- What holds at the levels of joins holds with more tables around them. -/
theorem joinLevels_widen (widening : Widening holds) {outer wider : List String}
    (inside : outer ⊆ wider) : ∀ joins : List (Join Expr),
    (∀ level ∈ joinLevels outer joins, holds level) → ∀ level ∈ joinLevels wider joins, holds level
  | [] => by simp [joinLevels]
  | ⟨_, _, condition⟩ :: rest => by
    simp only [joinLevels, List.forall_mem_append]
    exact And.imp (conditionLevels_widen widening inside condition)
      (joinLevels_widen widening inside rest)

/-- What holds at the levels of sort keys holds with more tables around them. -/
theorem sortLevels_widen (widening : Widening holds) {outer wider : List String}
    (inside : outer ⊆ wider) : ∀ keys : List (SortKey Expr),
    (∀ level ∈ sortLevels outer keys, holds level) → ∀ level ∈ sortLevels wider keys, holds level
  | [] => by simp [sortLevels]
  | ⟨expr, _⟩ :: rest => by
    simp only [sortLevels, List.forall_mem_append]
    exact And.imp (expr.levels_widen widening inside) (sortLevels_widen widening inside rest)

/-- What holds at the levels of a query holds with more tables around it. -/
theorem queryLevels_widen (widening : Widening holds) {outer wider : List String}
    (inside : outer ⊆ wider) : ∀ query : Query Expr,
    (∀ level ∈ queryLevels outer query, holds level) →
      ∀ level ∈ queryLevels wider query, holds level
  | ⟨distinct, selections, source, joins, filter, order⟩ => by
    simp only [queryLevels, List.forall_mem_cons, List.forall_mem_append]
    have within (labels : List String) : labels ++ outer ⊆ labels ++ wider :=
      append_subset_append (List.Subset.refl _) inside
    rintro ⟨here, ⟨⟨chosen, joined⟩, filtered⟩, sorted⟩
    exact ⟨widening inside here,
      ⟨⟨selectionLevels_widen widening (within _) selections chosen,
        joinLevels_widen widening (within _) joins joined⟩,
        conditionLevels_widen widening (within _) filter filtered⟩,
      sortLevels_widen widening (within _) order sorted⟩

end

mutual

/-- There is no sub-select in a value. -/
theorem Expr.levels_of_isValue {outer : List String} : ∀ expr : Expr, expr.isValue = true →
    expr.levels outer = []
  | .column _ _, _ | .literal _, _ | .parameter _, _ => by simp [Expr.levels]
  | .binary (.arithmetic _) left right, value => by
    simp only [Expr.isValue, Bool.and_eq_true] at value
    simp [Expr.levels, left.levels_of_isValue value.1, right.levels_of_isValue value.2]
  | .negate operand, value => by
    simp only [Expr.isValue] at value
    simp [Expr.levels, operand.levels_of_isValue value]
  | .call _ _ arguments, value => by
    simp only [Expr.levels]
    rcases Expr.isValue_call value with ⟨rfl, _⟩ | values
    · simp [listLevels, Expr.levels]
    · exact listLevels_of_areValues arguments values

/-- A list of plain values opens no level. -/
theorem listLevels_of_areValues {outer : List String} : ∀ exprs : List Expr,
    areValues exprs = true → listLevels outer exprs = []
  | [], _ => by simp [listLevels]
  | expr :: rest, values => by
    simp only [areValues, Bool.and_eq_true] at values
    simp [listLevels, expr.levels_of_isValue values.1, listLevels_of_areValues rest values.2]

end

end Levels

end ObjectQuery.Sql

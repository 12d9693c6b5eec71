import ObjectQuery.Proofs.Sql.Reference
/-!
# Which tables the columns of a query belong to

A column is qualified with the name of its table, or not qualified at all. `Expr.qualifiers` lists
the qualifiers of the columns that stand in an expression itself; those in its sub-selects belong to
other levels. A level qualifies its columns if every column of its select list, its filter and its
sort keys names a table of the level or of one around it, and a change does so if every column
outside its sub-selects names the table that it changes.
-/
namespace ObjectQuery.Sql

mutual

/-- The qualifiers of the columns of an expression outside its sub-selects. -/
def Expr.qualifiers : Expr → List (Option String)
  | .column table _ => [table]
  | .literal _ | .parameter _ | .star => []
  | .binary _ left right => left.qualifiers ++ right.qualifiers
  | .not operand | .negate operand | .isNull operand _ => operand.qualifiers
  | .call _ _ arguments => listQualifiers arguments
  | .inList test values _ => test.qualifiers ++ listQualifiers values
  | .inQuery test _ _ => test.qualifiers
  | .between operand low high _ => operand.qualifiers ++ low.qualifiers ++ high.qualifiers
  | .like operand pattern _ => operand.qualifiers ++ pattern.qualifiers

/-- The qualifiers of the columns of expressions outside their sub-selects. -/
def listQualifiers : List Expr → List (Option String)
  | [] => []
  | expr :: rest => expr.qualifiers ++ listQualifiers rest

end

/-- The qualifiers of the columns of the select list, the filter and the sort keys of a query. -/
def Query.qualifiers (query : Query Expr) : List (Option String) :=
  query.selections.flatMap (·.expr.qualifiers) ++ query.filter.toList.flatMap (·.qualifiers) ++
    query.order.flatMap (·.expr.qualifiers)

/-- The columns of the select list, the filter and the sort keys of a level are columns of its
tables or of those around it. -/
def Level.QualifiesColumns (level : Level) : Prop :=
  ∀ qualifier ∈ level.query.qualifiers,
    ∃ table ∈ level.query.labels ++ level.outer, qualifier = some table

/-- The columns of a change outside its sub-selects are columns of the table that it changes. -/
def Statement.QualifiesTarget : Statement → Prop
  | .select _ => True
  | .update change =>
    (∀ assignment ∈ change.assignments, ∀ qualifier ∈ assignment.2.qualifiers,
      qualifier = some change.table) ∧
      ∀ condition ∈ change.filter, ∀ qualifier ∈ condition.qualifiers, qualifier = some change.table
  | .delete removal =>
    ∀ condition ∈ removal.filter, ∀ qualifier ∈ condition.qualifiers, qualifier = some removal.table

/-- All columns of a statement outside the conditions of joins are columns of tables that stand at
their level or around it. -/
def Statement.QualifiesColumns (statement : Statement) : Prop :=
  (∀ level ∈ statement.levels, level.QualifiesColumns) ∧ statement.QualifiesTarget

/-- A list is qualified as one of its values is. -/
theorem mem_listQualifiers {exprs : List Expr} {qualifier : Option String} :
    qualifier ∈ listQualifiers exprs ↔ ∃ expr ∈ exprs, qualifier ∈ expr.qualifiers := by
  induction exprs with
  | nil => simp [listQualifiers]
  | cons expr rest ih => simp [listQualifiers, ih]

/-- The expression has no column without a table outside its sub-selects. -/
def Expr.IsQualified (expr : Expr) : Prop := none ∉ expr.qualifiers

mutual

/-- The tables that qualify the columns of an expression are among those that it refers to. -/
theorem Expr.references_of_qualifiers {table : String} {indices : Bool} : ∀ {expr : Expr},
    some table ∈ expr.qualifiers → table ∈ expr.references indices
  | .column none _ | .column (some _) _ | .literal _ | .parameter _ | .star => by
    simp [Expr.qualifiers, Expr.references]
  | .binary _ left right => by
    simp only [Expr.qualifiers, Expr.references, List.mem_append]
    exact Or.imp Expr.references_of_qualifiers Expr.references_of_qualifiers
  | .not operand | .negate operand | .isNull operand _ => by
    simp only [Expr.qualifiers, Expr.references]
    exact Expr.references_of_qualifiers
  | .call _ _ arguments => by
    simp only [Expr.qualifiers, Expr.references]
    exact listReferences_of_qualifiers
  | .inList test values _ => by
    simp only [Expr.qualifiers, Expr.references, List.mem_append]
    exact Or.imp Expr.references_of_qualifiers listReferences_of_qualifiers
  | .inQuery test query _ => by
    simp only [Expr.qualifiers, Expr.references, List.mem_append]
    exact fun own => Or.inl (Expr.references_of_qualifiers own)
  | .between operand low high _ => by
    simp only [Expr.qualifiers, Expr.references, List.mem_append]
    exact Or.imp (Or.imp Expr.references_of_qualifiers Expr.references_of_qualifiers)
      Expr.references_of_qualifiers
  | .like operand pattern _ => by
    simp only [Expr.qualifiers, Expr.references, List.mem_append]
    exact Or.imp Expr.references_of_qualifiers Expr.references_of_qualifiers

/-- A table that qualifies a column of a list is referred to by it. -/
theorem listReferences_of_qualifiers {table : String} {indices : Bool} : ∀ {exprs : List Expr},
    some table ∈ listQualifiers exprs → table ∈ listReferences indices exprs
  | [] => by simp [listQualifiers]
  | expr :: rest => by
    simp only [listQualifiers, listReferences, List.mem_append]
    exact Or.imp Expr.references_of_qualifiers listReferences_of_qualifiers

end

/-- The column of a table is qualified. -/
theorem Expr.isQualified_tableColumn {table name : String} :
    (Expr.tableColumn table name).IsQualified := by
  simp [Expr.IsQualified, Expr.tableColumn, Expr.qualifiers]

/-- A literal is qualified. -/
theorem Expr.isQualified_literal {value : Literal} : (Expr.literal value).IsQualified := by
  simp [Expr.IsQualified, Expr.qualifiers]

/-- An operation is qualified if both operands are. -/
theorem Expr.isQualified_binary {op : BinaryOp} {left right : Expr} :
    (Expr.binary op left right).IsQualified ↔ left.IsQualified ∧ right.IsQualified := by
  simp [Expr.IsQualified, Expr.qualifiers]

/-- A qualified expression whose references are among the given tables takes its columns from
them. -/
theorem Expr.IsQualified.tables {expr : Expr} {tables : List String} {indices : Bool}
    (qualified : expr.IsQualified) (references : expr.references indices ⊆ tables) :
    ∀ qualifier ∈ expr.qualifiers, ∃ table ∈ tables, qualifier = some table := by
  intro qualifier member
  cases qualifier with
  | none => exact (qualified member).elim
  | some table => exact ⟨table, references (Expr.references_of_qualifiers member), rfl⟩

/-- A qualified expression that refers to one table has all its columns from there. -/
theorem Expr.IsQualified.only {expr : Expr} {table : String} {indices : Bool}
    (qualified : expr.IsQualified) (references : expr.references indices ⊆ [table]) :
    ∀ qualifier ∈ expr.qualifiers, qualifier = some table := by
  intro qualifier member
  obtain ⟨only, listed, same⟩ := qualified.tables references qualifier member
  rw [same, List.mem_singleton.mp listed]

end ObjectQuery.Sql

import ObjectQuery.Proofs.Lowering.StoredTables
/-!
# What the text of a statement says

The text of a statement is scanned by the database that runs it. Over a model without derived tables
the scanner finds what the tokens say: names and strings end at their quotation marks whatever is in
them, and no two tokens run into one another, with one exception. A negation directly under a negation
is written as two minus signs, and they begin a comment that swallows the rest of the statement.
-/
namespace ObjectQuery

open Sql

variable {catalog : Catalog} {policy : JoinPolicy} {source : String}
  {statements : List Sql.Statement} {statement : Sql.Statement}

/-- Every token of a compiled statement is plain. -/
theorem compile_plain (stored : catalog.StoresTables)
    (compiled : compile catalog policy source = .ok statements) (member : statement ∈ statements) :
    ∀ token ∈ statement.tokens, token.isPlain = true := by
  obtain ⟨given, part, after, _, _, run⟩ := compile_statement compiled member
  obtain ⟨_, plain⟩ := Lowering.statement_plain stored part (by simp) run
  exact plain

/-- Scanning the text of a compiled statement gives the pieces of its tokens in order exactly if no
negation has a negation or a negative number for its operand. -/
theorem compile_scan (stored : catalog.StoresTables)
    (compiled : compile catalog policy source = .ok statements) (member : statement ∈ statements) :
    scan statement.text = some (statement.tokens.flatMap Token.pieces) ↔
      ∀ operand ∈ statement.negated, operand.meetsMinus = false :=
  statement.saysItsTokens_iff (compile_plain stored compiled member)

/-- A model stores its tables if those of its entities are no queries. -/
theorem Model.storesTables {model : Model}
    (stored : ∀ mapped ∈ model.entities, ∀ table ∈ mapped.shape.tables, table.isDerived = false) :
    model.catalog.StoresTables := by
  intro entity shape found
  obtain ⟨mapped, known, rfl⟩ := Option.map_eq_some_iff.mp found
  exact stored mapped (List.mem_of_find?_eq_some known)

/-- The orders, customers and items are stored in tables. -/
theorem shop_storesTables {model : Model} (built : Model.ofDefinitions shop = .ok model) :
    model.catalog.StoresTables := by
  have all : (Model.ofDefinitions shop).toOption.all (fun model => model.entities.all fun mapped =>
      mapped.shape.tables.all (!·.isDerived)) = true := by decide +kernel
  rw [built] at all
  refine Model.storesTables ?_
  simpa [Except.toOption] using all

/-- A single negation is scanned as it is meant. -/
theorem compile_scan_negation : ∃ model statements statement,
    Model.ofDefinitions shop = .ok model ∧ model.catalog.StoresTables ∧
      compile model.catalog .outer "select o.id from Order o where -o.a = 3" = .ok statements ∧
        statement ∈ statements ∧ statement.negated ≠ [] ∧
          scan statement.text = some (statement.tokens.flatMap Token.pieces) := by
  have passed : compilesTo shop .outer "select o.id from Order o where -o.a = 3" (fun statement =>
      !statement.negated.isEmpty && statement.negated.all (!·.meetsMinus)) = true := by
    decide +kernel
  obtain ⟨model, statements, statement, built, compiled, member, checked⟩ :=
    exists_of_compilesTo passed
  have stored := shop_storesTables built
  simp only [Bool.and_eq_true, Bool.not_eq_true', List.isEmpty_eq_false_iff, List.all_eq_true]
    at checked
  exact ⟨model, statements, statement, built, stored, compiled, member, checked.1,
    (compile_scan stored compiled member).mpr checked.2⟩

/-- A negation under a negation is written as a comment. -/
theorem compile_not_scan : ∃ model statements statement,
    Model.ofDefinitions shop = .ok model ∧ model.catalog.StoresTables ∧
      compile model.catalog .outer "select o.id from Order o where - -o.a = 3" = .ok statements ∧
        statement ∈ statements ∧
          scan statement.text ≠ some (statement.tokens.flatMap Token.pieces) := by
  have passed : compilesTo shop .outer "select o.id from Order o where - -o.a = 3" (fun statement =>
      scan statement.text != some (statement.tokens.flatMap Token.pieces)) = true := by
    decide +kernel
  obtain ⟨model, statements, statement, built, compiled, member, checked⟩ :=
    exists_of_compilesTo passed
  exact ⟨model, statements, statement, built, shop_storesTables built, compiled, member,
    bne_iff_ne.mp checked⟩

end ObjectQuery

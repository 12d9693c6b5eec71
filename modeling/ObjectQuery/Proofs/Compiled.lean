import ObjectQuery.Compile
import ObjectQuery.Model.Build
import ObjectQuery.Proofs.Lowering.Run
/-!
# Statements of compiled texts

A text is compiled in steps, and `compile_statement` says which steps have led to one of the
statements that come out. `compilesTo` runs a text against a model and looks at the statements that
come out. It decides statements of the form: there is a model with these definitions, and the text
compiles to a statement with that property. `means` does the same for the statement that a text means.
-/
namespace ObjectQuery

/-- Whether the definitions make a model in which the text compiles to a statement that passes the
check. -/
def compilesTo (definitions : List EntityDefinition) (policy : JoinPolicy) (source : String)
    (check : Sql.Statement → Bool) : Bool :=
  match Model.ofDefinitions definitions with
  | .error _ => false
  | .ok model =>
    match compile model.catalog policy source with
    | .error _ => false
    | .ok statements => statements.any check

/-- Whether the definitions make a model in which the text means a statement that passes the check. -/
def means (definitions : List EntityDefinition) (source : String)
    (check : Resolved.Statement → Bool) : Bool :=
  match Model.ofDefinitions definitions with
  | .error _ => false
  | .ok model =>
    match interpret model.catalog source with
    | .error _ => false
    | .ok statement => check statement

/-- Orders of customers with lists of items. The names of customers stand in a further table. -/
def shop : List EntityDefinition := [
  { name := "Order"
    table := some "orders"
    attributes := [
      ⟨"id", "long", none, none, none⟩, ⟨"a", "integer", none, none, none⟩,
      ⟨"b", "integer", none, none, none⟩, ⟨"customer", "Customer", none, none, none⟩,
      ⟨"items", "list<Item>", none, some "order_id", some "pos"⟩] },
  { name := "Customer"
    table := some "customers"
    attributes := [⟨"id", "long", none, none, none⟩, ⟨"name", "string", none, none, none⟩]
    secondaryTables := [⟨"names", "id", ["name"], true⟩] },
  { name := "Item"
    table := some "items"
    attributes := [⟨"id", "long", none, none, none⟩, ⟨"n", "integer", none, none, none⟩] }]

/-- The check on a text finds the statement it is compiled to. -/
theorem exists_of_compilesTo {definitions : List EntityDefinition} {policy : JoinPolicy}
    {source : String} {check : Sql.Statement → Bool}
    (passed : compilesTo definitions policy source check = true) :
    ∃ model statements statement, Model.ofDefinitions definitions = .ok model ∧
      compile model.catalog policy source = .ok statements ∧ statement ∈ statements ∧
        check statement = true := by
  unfold compilesTo at passed
  split at passed
  · cases passed
  · rename_i model built
    split at passed
    · cases passed
    · rename_i statements compiled
      obtain ⟨statement, member, checked⟩ := List.any_eq_true.mp passed
      exact ⟨model, statements, statement, built, compiled, member, checked⟩

/-- The check on a text finds the tree it means. -/
theorem exists_of_means {definitions : List EntityDefinition} {source : String}
    {check : Resolved.Statement → Bool} (passed : means definitions source check = true) :
    ∃ model statement, Model.ofDefinitions definitions = .ok model ∧
      interpret model.catalog source = .ok statement ∧ check statement = true := by
  unfold means at passed
  split at passed
  · cases passed
  · rename_i model accepted
    split at passed
    · cases passed
    · rename_i statement interpreted
      exact ⟨model, statement, accepted, interpreted, passed⟩

/-- A statement is lowered by a run that starts with no levels. -/
theorem Resolved.Statement.lower_ok {context : LoweringContext} {given : Resolved.Statement}
    {statement : Sql.Statement} (lowered : given.lower context = .ok statement) :
    ∃ after, Lowering.Yields (Lowering.statement context given) ⟨[], 0⟩ statement after := by
  unfold Resolved.Statement.lower StateT.run' at lowered
  cases ran : Lowering.statement context given ⟨[], 0⟩ with
  | error failure => simp [ran, Functor.map, Except.map] at lowered
  | ok result =>
    obtain ⟨value, after⟩ := result
    refine ⟨after, ?_⟩
    rw [ran] at lowered
    obtain rfl := Except.ok.inj lowered
    exact ran

/-- A statement of a compiled text is the SQL form of one of the parts of the statement that the text
means. -/
theorem compile_statement {catalog : Catalog} {policy : JoinPolicy} {source : String}
    {statements : List Sql.Statement} {statement : Sql.Statement}
    (compiled : compile catalog policy source = .ok statements) (member : statement ∈ statements) :
    ∃ given part after, interpret catalog source = .ok given ∧ part ∈ given.split ∧
      Lowering.Yields (Lowering.statement ⟨catalog, policy⟩ part) ⟨[], 0⟩ statement after := by
  unfold compile at compiled
  obtain ⟨given, interpreted, lowered⟩ := except_bind_ok.mp compiled
  obtain ⟨part, listed, lowered⟩ := mem_of_mapM_ok (mapError_ok lowered) statement member
  obtain ⟨after, run⟩ := Resolved.Statement.lower_ok lowered
  exact ⟨given, part, after, interpreted, listed, run⟩

end ObjectQuery

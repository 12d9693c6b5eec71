import ObjectQuery.Proofs.Compiled
import ObjectQuery.Proofs.Lowering.Statement
import ObjectQuery.Proofs.Parts
/-!
# What the columns of a statement refer to

While a query is lowered, columns are taken from groups that are found by name, and the tables of
its from-clause are collected in spaces. That the two stay in step shows in the result: at every
level of every statement that a text compiles to, the columns of the select list, the filter and the
sort keys are qualified with tables that stand there or around it.

The condition of a join refers to its own table, to the tables before it and to those around it, with
two kinds of exceptions. What is raised while the condition of a join of the text is lowered is put
directly behind the join, so such a condition may refer to tables there: to further tables of the
entity that is joined, and to tables that are joined for paths. And the value of an index may come from
anywhere, since the element is joined where its owner stands.
-/
namespace ObjectQuery

open Sql

variable {catalog : Catalog} {policy : JoinPolicy} {source : String}
  {statements : List Sql.Statement} {statement : Sql.Statement}

/-! ## Select lists, filters and sort keys -/

/-- In every select level of every statement that a text compiles to, each column of the select list,
the filter and the sort keys is qualified with the name of a table of that level or of a level around
it, and each column of a change outside its sub-selects with the name of the changed table. -/
theorem compile_qualifiesColumns (compiled : compile catalog policy source = .ok statements)
    (member : statement ∈ statements) : statement.QualifiesColumns := by
  obtain ⟨_, part, _, interpreted, listed, run⟩ := compile_statement compiled member
  obtain ⟨levels, target⟩ := Lowering.statement_scoped (plain_of_mem_split interpreted listed) run
  exact ⟨fun level listed => (levels level listed).columns, target⟩

/-- A statement of two levels, with columns of the outer level in the inner one. -/
theorem compile_qualifiesColumns_nested : ∃ catalog statements statement,
    compile catalog .outer "select o.id from Order o where o.a in
      (select i.n from Item i where i.id = o.customer.id) order by o.customer.name" =
        .ok statements ∧
      statement ∈ statements ∧ statement.levels.length = 2 ∧ statement.QualifiesColumns := by
  have checked : compilesTo shop .outer "select o.id from Order o where o.a in
      (select i.n from Item i where i.id = o.customer.id) order by o.customer.name"
      (fun statement => statement.levels.length == 2) = true := by decide +kernel
  obtain ⟨model, statements, statement, _, compiled, member, nested⟩ := exists_of_compilesTo checked
  exact ⟨model.catalog, statements, statement, compiled, member, by simpa using nested,
    compile_qualifiesColumns compiled member⟩

/-! ## Conditions of joins -/

/-- All joins of a statement obey the rule. -/
def Sql.Statement.EachJoin (rule : List String → Join Expr → List (Join Expr) → Prop)
    (statement : Sql.Statement) : Prop := ∀ level ∈ statement.levels, level.EachJoin rule

/-- Nothing is ahead of a table that is joined for a path: the condition refers only to visible
tables. -/
theorem Sql.Reaches.subset_of_isImplicit {visible : List String} {join : Join Sql.Expr}
    {rest : List (Join Sql.Expr)} (reaches : Reaches visible join rest) {own : String}
    (named : join.table.label = some own) (implicit : isImplicit own = true) :
    join.references false ⊆ visible := by
  intro label mentioned
  refine (reaches label mentioned).resolve_right ?_
  rintro ⟨group, _, same, written, _⟩
  obtain rfl := Option.some.inj (named.symm.trans same)
  rw [Lowering.isImplicit_tableLabel, written] at implicit
  cases implicit

/-- In every statement that a text compiles to, the condition of every join refers, apart from the
value of an index, to its own table, to tables before it and to tables of the enclosing levels. Only
the condition of a join that the text names may besides refer to tables that stand directly behind the
join, before the next table that the text names: to further tables of the joined entity and to tables
that are joined for paths. -/
theorem compile_onClauses (compiled : compile catalog policy source = .ok statements)
    (member : statement ∈ statements) : statement.EachJoin Reaches := by
  obtain ⟨_, part, _, interpreted, listed, run⟩ := compile_statement compiled member
  have plain := plain_of_mem_split interpreted listed
  exact fun level found => ((Lowering.statement_scoped plain run).1 level found).joins

/-- A text with a path in the condition of a join and one in its filter. -/
def pathInCondition : String :=
  "select o.id from Order o join Customer c on o.customer.name = c.name where c.id = 3"

/-- The conditions of a statement with a table ahead of a join. -/
theorem compile_onClauses_path : ∃ catalog statements statement,
    compile catalog .outer pathInCondition = .ok statements ∧
      statement ∈ statements ∧ statement.EachJoin Reaches := by
  have checked : compilesTo shop .outer pathInCondition (fun _ => true) = true := by
    decide +kernel
  obtain ⟨model, statements, statement, _, compiled, member, _⟩ := exists_of_compilesTo checked
  exact ⟨model.catalog, statements, statement, compiled, member, compile_onClauses compiled member⟩

instance (visible : List String) (join : Sql.Join Sql.Expr) (rest : List (Sql.Join Sql.Expr)) :
    Decidable (InOrder visible join rest) :=
  inferInstanceAs (Decidable (∀ label ∈ join.references true, label ∈ visible))

instance (rule : List String → Sql.Join Sql.Expr → List (Sql.Join Sql.Expr) → Prop)
    [∀ visible join rest, Decidable (rule visible join rest)] (level : Level) :
    Decidable (level.EachJoin rule) :=
  inferInstanceAs (Decidable (EachJoin rule _ _))

instance (statement : Sql.Statement) : Decidable statement.OnScoped :=
  inferInstanceAs (Decidable (∀ level ∈ statement.levels, level.EachJoin InOrder))

/-- The text compiles to a statement with a condition that is not in order. -/
def BreaksOrder (source : String) : Prop :=
  ∃ model statements statement, Model.ofDefinitions shop = .ok model ∧
    compile model.catalog .outer source = .ok statements ∧ statement ∈ statements ∧
      ¬ statement.OnScoped

/-- The check on a text finds a condition that reads a table joined behind it. -/
theorem breaksOrder_of_compilesTo
    (checked : compilesTo shop .outer source (fun statement => !decide statement.OnScoped) = true) :
    BreaksOrder source := by
  obtain ⟨model, statements, statement, built, compiled, member, broken⟩ :=
    exists_of_compilesTo checked
  exact ⟨model, statements, statement, built, compiled, member, by simpa using broken⟩

/-- A path in the condition of a join, a further table of the joined entity, and an index that comes
from a later item of the from-clause or from a sub-select each break the order. -/
theorem compile_not_onScoped :
    BreaksOrder "select o.id from Order o join Customer c on o.customer.id = c.id" ∧
      BreaksOrder "select o.id from Order o join Customer c on c.name = 'x'" ∧
      BreaksOrder "select o.id from Order o, Customer c where o.items[c.id].n = 3" ∧
      BreaksOrder "select o.id from Order o where o.id in
        (select i.id from Item i where o.items[i.n].n = 3)" := by
  refine ⟨?_, ?_, ?_, ?_⟩ <;> exact breaksOrder_of_compilesTo (by decide +kernel)

end ObjectQuery

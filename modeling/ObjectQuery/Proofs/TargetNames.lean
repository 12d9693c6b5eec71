import ObjectQuery.Proofs.Lowering.Arranged
import ObjectQuery.Proofs.Lowering.Change
import ObjectQuery.Proofs.Parts
/-!
# The name of the table that is changed

A change calls its table by the name that the table has in the model, also inside sub-selects, while
the tables of sub-selects are called after their sources and numbered. If a table of a sub-select goes
by the name of the changed table, it captures the columns that are meant for the latter. This can
happen only if the model gives to a table a name that is made like one for a sub-select, and then it
does happen.
-/
namespace ObjectQuery

namespace Sql

/-! ## What sub-selects see -/

/-- Between the level and the tables `outer`, no table has the name. -/
def Level.Sees (name : String) (outer : List String) (level : Level) : Prop :=
  ∃ between, level.outer = between ++ outer ∧ name ∉ between

/-- A level that sees a name through labels other than it sees it from outside. -/
theorem Level.Sees.through {name : String} {outer labels : List String} {level : Level}
    (sees : level.Sees name (labels ++ outer)) (unnamed : name ∉ labels) : level.Sees name outer := by
  obtain ⟨between, around, apart⟩ := sees
  exact ⟨between ++ labels, by rw [around, List.append_assoc],
    fun listed => (List.mem_append.mp listed).elim apart unnamed⟩

section Sees

variable {name : String}

-- The tables around a sub-select are those of the sub-selects on the way to it, which are levels
-- themselves. So it is enough that the name is missing from the tables of every level.
mutual

/-- The levels of an expression see a name that none of them labels a table with. -/
theorem Expr.levels_see {outer : List String} : ∀ expr : Expr,
    (∀ level ∈ expr.levels outer, name ∉ level.query.labels) →
      ∀ level ∈ expr.levels outer, level.Sees name outer
  | .column _ _ | .literal _ | .parameter _ | .star => by simp [Expr.levels]
  | .binary _ left right => by
    simp only [Expr.levels, List.forall_mem_append]
    exact And.imp left.levels_see right.levels_see
  | .not operand | .negate operand | .isNull operand _ => by
    simp only [Expr.levels]
    exact operand.levels_see
  | .call _ _ arguments => by
    simp only [Expr.levels]
    exact listLevels_see arguments
  | .inList test values _ => by
    simp only [Expr.levels, List.forall_mem_append]
    exact And.imp test.levels_see (listLevels_see values)
  | .inQuery test query _ => by
    simp only [Expr.levels, List.forall_mem_append]
    exact And.imp test.levels_see (queryLevels_see query)
  | .between operand low high _ => by
    simp only [Expr.levels, List.forall_mem_append]
    exact And.imp (And.imp operand.levels_see low.levels_see) high.levels_see
  | .like operand pattern _ => by
    simp only [Expr.levels, List.forall_mem_append]
    exact And.imp operand.levels_see pattern.levels_see

/-- The levels of a list see a name that none of them labels a table with. -/
theorem listLevels_see {outer : List String} : ∀ exprs : List Expr,
    (∀ level ∈ listLevels outer exprs, name ∉ level.query.labels) →
      ∀ level ∈ listLevels outer exprs, level.Sees name outer
  | [] => by simp [listLevels]
  | expr :: rest => by
    simp only [listLevels, List.forall_mem_append]
    exact And.imp expr.levels_see (listLevels_see rest)

/-- The levels of selections see a name that none of them labels a table with. -/
theorem selectionLevels_see {outer : List String} : ∀ selections : List (Selection Expr),
    (∀ level ∈ selectionLevels outer selections, name ∉ level.query.labels) →
      ∀ level ∈ selectionLevels outer selections, level.Sees name outer
  | [] => by simp [selectionLevels]
  | ⟨expr, _⟩ :: rest => by
    simp only [selectionLevels, List.forall_mem_append]
    exact And.imp expr.levels_see (selectionLevels_see rest)

/-- The levels of a condition see a name that none of them labels a table with. -/
theorem conditionLevels_see {outer : List String} : ∀ condition : Option Expr,
    (∀ level ∈ conditionLevels outer condition, name ∉ level.query.labels) →
      ∀ level ∈ conditionLevels outer condition, level.Sees name outer
  | none => by simp [conditionLevels]
  | some condition => by
    simp only [conditionLevels]
    exact condition.levels_see

/-- The levels of joins see a name that none of them labels a table with. -/
theorem joinLevels_see {outer : List String} : ∀ joins : List (Join Expr),
    (∀ level ∈ joinLevels outer joins, name ∉ level.query.labels) →
      ∀ level ∈ joinLevels outer joins, level.Sees name outer
  | [] => by simp [joinLevels]
  | ⟨_, _, condition⟩ :: rest => by
    simp only [joinLevels, List.forall_mem_append]
    exact And.imp (conditionLevels_see condition) (joinLevels_see rest)

/-- The levels of sort keys see a name that none of them labels a table with. -/
theorem sortLevels_see {outer : List String} : ∀ keys : List (SortKey Expr),
    (∀ level ∈ sortLevels outer keys, name ∉ level.query.labels) →
      ∀ level ∈ sortLevels outer keys, level.Sees name outer
  | [] => by simp [sortLevels]
  | ⟨expr, _⟩ :: rest => by
    simp only [sortLevels, List.forall_mem_append]
    exact And.imp expr.levels_see (sortLevels_see rest)

/-- The levels of a query see a name that none of them labels a table with. -/
theorem queryLevels_see {outer : List String} : ∀ query : Query Expr,
    (∀ level ∈ queryLevels outer query, name ∉ level.query.labels) →
      ∀ level ∈ queryLevels outer query, level.Sees name outer
  | ⟨distinct, selections, source, joins, filter, order⟩ => by
    simp only [queryLevels, List.forall_mem_cons, List.forall_mem_append]
    rintro ⟨here, ⟨⟨chosen, joined⟩, filtered⟩, sorted⟩
    exact ⟨⟨[], rfl, List.not_mem_nil⟩,
      ⟨⟨fun level nested => (selectionLevels_see selections chosen level nested).through here,
        fun level nested => (joinLevels_see joins joined level nested).through here⟩,
        fun level nested => (conditionLevels_see filter filtered level nested).through here⟩,
      fun level nested => (sortLevels_see order sorted level nested).through here⟩

end

end Sees

/-- Every sub-select of a change sees the changed table: neither a table of its own nor one of a
sub-select around it has the same name. -/
def Statement.ShowsTarget (statement : Statement) : Prop :=
  ∀ table, statement.table? = some table →
    ∀ level ∈ statement.levels, table ∉ level.query.labels ∧ level.Sees table [table]

/-- A statement shows its target where no level labels a table with its name. -/
theorem Statement.showsTarget_iff {statement : Statement} : statement.ShowsTarget ↔
    ∀ table, statement.table? = some table →
      ∀ level ∈ statement.levels, table ∉ level.query.labels := by
  refine ⟨fun shows table changed level nested => (shows table changed level nested).1,
    fun apart table changed level nested => ⟨apart table changed level nested, ?_⟩⟩
  specialize apart table changed
  cases statement with
  | select query => cases changed
  | update change =>
    obtain rfl := Option.some.inj changed
    rw [Statement.levels, List.forall_mem_append] at apart
    rcases List.mem_append.mp nested with assigned | filtered
    · obtain ⟨assignment, listed, inside⟩ := List.mem_flatMap.mp assigned
      exact assignment.2.levels_see
        (fun level inside => apart.1 level (List.mem_flatMap_of_mem listed inside)) level inside
    · exact conditionLevels_see change.filter apart.2 level filtered
  | delete removal =>
    obtain rfl := Option.some.inj changed
    exact conditionLevels_see removal.filter apart level nested

end Sql

/-! ## Names for the tables of sub-selects -/

open Sql
open Lowering (NamedAfter IsGroup IsArranged)

/-- The name is made for a table of a sub-select: it begins with a source, may lead on from there, and
has a number. -/
def IsTableLabel (sources : List String) (table : String) : Prop :=
  ∃ name position, NamedAfter sources name ∧ table = TableGroup.tableLabel name position

namespace Lowering

variable {context : LoweringContext} {sources : List String} {label : String}

/-- The labels of a group are labels of tables. -/
theorem IsGroup.isTableLabel {group : TableGroup} (grouped : IsGroup context sources group)
    (listed : label ∈ group.labels) : IsTableLabel sources label := by
  obtain ⟨position, same⟩ := (tableGroup_named grouped.built).tables label listed
  exact ⟨group.label, position, grouped.named, same⟩

/-- All tables of an arranged query have names that are made for them. -/
theorem IsArranged.isTableLabel {query : Query Sql.Expr} (arranged : IsArranged context sources query)
    (listed : label ∈ query.labels) : IsTableLabel sources label := by
  cases arranged with
  | @groups select spaces =>
    rw [labels_toQuery, entries, joinLabels, List.filterMap_flatMap, List.mem_flatMap] at listed
    obtain ⟨space, there, listed⟩ := listed
    have own : label ∈ space.labels := by
      rw [← joinLabels_entries]
      exact listed
    obtain ⟨group, among, listed⟩ := List.mem_flatMap.mp own
    rcases List.mem_cons.mp among with rfl | joined
    · exact (spaces space there).root.isTableLabel listed
    · obtain ⟨join, member, rfl⟩ := List.mem_map.mp joined
      exact ((spaces space there).joined join member).isTableLabel listed
  | membership named source alone =>
    rw [Query.labels, source, alone, Option.bind_some, TableSpec.toRef_label] at listed
    obtain rfl := List.mem_singleton.mp (by simpa [joinLabels] using listed)
    exact ⟨_, 0, named.extend _, rfl⟩

end Lowering

variable {parser : SqlParser} {definitions : List EntityDefinition} {model : Model}
  {policy : JoinPolicy} {source : String} {given : Resolved.Statement}
  {statements : List Sql.Statement} {statement : Sql.Statement}

/-- All sub-selects of a compiled change see the changed table, unless the model gives to that table a
name that is made for tables of sub-selects. -/
theorem compile_showsTarget (accepted : Model.build parser definitions = .ok model)
    (interpreted : interpret model.catalog source = .ok given)
    (compiled : compile model.catalog policy source = .ok statements) (member : statement ∈ statements)
    (unlike : ∀ table, statement.table? = some table → ¬ IsTableLabel given.labels table) :
    statement.ShowsTarget := by
  obtain ⟨other, part, after, same, listed, run⟩ := compile_statement compiled member
  obtain rfl := Except.ok.inj (interpreted.symm.trans same)
  obtain ⟨_, ready⟩ := ready_of_mem_split accepted interpreted listed policy
  refine Statement.showsTarget_iff.mpr fun table changed level nested hides => unlike table changed ?_
  rw [← Resolved.Statement.labels_of_split listed]
  exact (Lowering.statement_arranged (List.forall_mem_map.mpr ready.coming.plain) run level
    nested).isTableLabel hides

/-- A name without an underscore is not made for tables of sub-selects. -/
theorem not_isTableLabel {sources : List String} {table : String} (plain : '_' ∉ table.toList) :
    ¬ IsTableLabel sources table := by
  rintro ⟨name, position, _, rfl⟩
  apply plain
  simp [TableGroup.tableLabel]

/-- A text that uses the target in a query inside and in a test for membership there. -/
def ordersOfItems : String :=
  "update Order o set o.a = 1 where o.id in " ++
  "(select i.id from Item i where i.n = o.b and i member of o.items)"

/-- The query inside uses the orders by the name of their table. -/
theorem compile_showsTarget_ordersOfItems : ∃ model statements statement,
    Model.ofDefinitions shop = .ok model ∧
    compile model.catalog .outer ordersOfItems = .ok statements ∧ statement ∈ statements ∧
    statement.table? = some "orders" ∧
    (statement.levels.map fun level => level.query.qualifiers) =
      [[some "i_0", some "i_0", some "orders", some "i_0"],
        [some "o.items_0", some "o.items_0", some "orders"]] ∧
    statement.ShowsTarget := by
  have checked : compilesTo shop .outer ordersOfItems (fun statement =>
      statement.table? == some "orders" && (statement.levels.map fun level => level.query.qualifiers) ==
        [[some "i_0", some "i_0", some "orders", some "i_0"],
          [some "o.items_0", some "o.items_0", some "orders"]]) = true := by decide +kernel
  obtain ⟨model, statements, statement, accepted, compiled, member, passed⟩ := exists_of_compilesTo checked
  obtain ⟨changed, qualifiers⟩ := Bool.and_eq_true_iff.mp passed
  obtain ⟨given, interpreted, _⟩ := except_bind_ok.mp compiled
  have target : statement.table? = some "orders" := by simpa using changed
  refine ⟨model, statements, statement, accepted, compiled, member, target, by simpa using qualifiers,
    compile_showsTarget accepted interpreted compiled member fun table changed => ?_⟩
  obtain rfl := Option.some.inj (target.symm.trans changed)
  exact not_isTableLabel (by decide)

/-! ## A table that is captured -/

/-- Orders and items, with the orders in a table of the given name. -/
def ordersIn (table : String) : List EntityDefinition := [
  { name := "Order"
    table := some table
    attributes := [
      ⟨"id", "long", none, none, none⟩, ⟨"a", "integer", none, none, none⟩,
      ⟨"b", "integer", none, none, none⟩] },
  { name := "Item"
    table := some "items"
    attributes := [⟨"id", "long", none, none, none⟩, ⟨"n", "integer", none, none, none⟩] }]

/-- A text that uses the target in a query inside. -/
def ordersWithItem : String :=
  "update Order o set o.a = 1 where o.id in (select i.id from Item i where i.n = o.b)"

/-- In the only sub-select of the statement, the last column is qualified with the name of the changed
table, and the tables are called as given. -/
def usesTarget (table : String) (labels : List String) (statement : Sql.Statement) : Bool :=
  statement.table? == some table && statement.levels.map (·.query.labels) == [labels] &&
    statement.levels.map (·.query.qualifiers.getLast?) == [some (some table)]

/-- In the sub-select the last column stands for one of the changed table. If that is called `i_0`, the
column belongs to the table of the items instead. -/
theorem compile_hidesTarget :
    compilesTo (ordersIn "orders") .outer ordersWithItem (usesTarget "orders" ["i_0"]) = true ∧
    compilesTo (ordersIn "i_0") .outer ordersWithItem (usesTarget "i_0" ["i_0"]) = true ∧
    ∃ model statements statement, Model.ofDefinitions (ordersIn "i_0") = .ok model ∧
      compile model.catalog .outer ordersWithItem = .ok statements ∧ statement ∈ statements ∧
      ¬ statement.ShowsTarget := by
  have captured : compilesTo (ordersIn "i_0") .outer ordersWithItem (usesTarget "i_0" ["i_0"]) = true := by
    decide +kernel
  refine ⟨by decide +kernel, captured, ?_⟩
  obtain ⟨model, statements, statement, accepted, compiled, member, passed⟩ :=
    exists_of_compilesTo captured
  refine ⟨model, statements, statement, accepted, compiled, member, fun shows => ?_⟩
  simp only [usesTarget, Bool.and_eq_true, beq_iff_eq] at passed
  obtain ⟨⟨changed, labels⟩, -⟩ := passed
  obtain ⟨level, only, called⟩ := List.map_eq_singleton_iff.mp labels
  have seen := (shows "i_0" changed level (only ▸ List.mem_singleton_self level)).1
  rw [called] at seen
  exact seen (List.mem_singleton_self _)

end ObjectQuery

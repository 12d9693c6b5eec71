import ObjectQuery.Proofs.Parts
/-!
# The tables of compiled selects

Tables are named after the way to their group, and groups are shared by looking these names up. This
comes out right: in a select that a text compiles to no table name is used twice, whatever the level,
and each association that a path goes through has been joined once, next to the source that the path
starts from.
-/
namespace ObjectQuery

open Sql
open Lowering (Shelters Neat Laid)

/-- The tables at the levels of a select are told apart by their names, and each trail of the statement
has one table. -/
structure TellsTablesApart (given : Resolved.Statement) (levels : List Level) : Prop where
  /-- No name is used twice in all from-clauses together, those of tests for membership apart. -/
  distinct : (tableLabels levels).Nodup
  /-- The table of a test for membership has another name than all tables around it. -/
  apart : ∀ level ∈ levels, level.isMembership = true →
    ∀ label ∈ level.query.labels, label ∉ level.outer
  /-- One table in the whole select is the root table of the group at the end of a trail. -/
  once : ∀ trail ∈ given.trails,
    (levels.flatMap (·.query.labels)).count (TableGroup.tableLabel trail.name 0) = 1
  /-- It stands at the level, and in the item of the from-clause, of the source of the trail. -/
  home : ∀ trail ∈ given.trails, Shelters given.layouts levels trail

namespace Lowering

variable {catalog : Catalog} {roots : String → Option String} {sources : List String}
  {levels : List Level} {label : String}

/-- The name of a table of a group is used once, also if the tests for membership are counted. -/
theorem Neat.count_eq_one (neat : Neat catalog roots sources levels)
    (member : label ∈ tableLabels levels) : (levels.flatMap (·.query.labels)).count label = 1 := by
  have parted := ((List.filter_append_perm (!·.isMembership) levels).flatMap_right
    (·.query.labels)).count_eq label
  have others : label ∉ (levels.filter fun level => !!level.isMembership).flatMap (·.query.labels) := by
    intro listed
    obtain ⟨level, found, here⟩ := List.mem_flatMap.mp listed
    obtain ⟨known, isMember⟩ := List.mem_filter.mp found
    exact neat.apart level known (by simpa using isMember) label here
      ⟨sources, neat.owned label member⟩
  rw [← parted, List.flatMap_append, List.count_append, List.count_eq_zero_of_not_mem others]
  exact List.count_eq_one_of_mem neat.distinct member

/-- A sheltered trail labels a table of one of the levels. -/
theorem Shelters.mem_tableLabels {layouts : List (List String)} {trail : Resolved.Trail}
    (shelters : Shelters layouts levels trail) :
    TableGroup.tableLabel trail.name 0 ∈ tableLabels levels := by
  obtain ⟨level, known, other, _, _, blocks, divides, block, among, _, here⟩ := shelters
  refine Sql.mem_tableLabels.mpr ⟨level, known, other, ?_⟩
  rw [divides.whole]
  exact List.mem_flatten.mpr ⟨block, among, here⟩

end Lowering

variable {parser : SqlParser} {definitions : List EntityDefinition} {model : Model}
  {policy : JoinPolicy} {source : String} {given : Resolved.Statement}
  {statements : List Sql.Statement} {select : Select}

/-- In every select that a text compiles to, no two tables of from-clauses have the same name, those of
the queries in it included; the table of a test for membership differs from all tables around it; and
each way along associations that a path takes has one table, at the level and in the item of the
from-clause where its source stands. -/
theorem compile_tellsTablesApart (accepted : Model.build parser definitions = .ok model)
    (interpreted : interpret model.catalog source = .ok given)
    (compiled : compile model.catalog policy source = .ok statements)
    (member : .select select ∈ statements) :
    TellsTablesApart given (Sql.Statement.select select).levels := by
  obtain ⟨found, part, after, same, listed, run⟩ := compile_statement compiled member
  obtain rfl := Except.ok.inj (same.symm.trans interpreted)
  obtain ⟨visible, ready⟩ := ready_of_mem_split accepted interpreted listed policy
  have mapped := Model.catalog_isMapped accepted
  obtain ⟨_, laid⟩ := (Lowering.statement_meets mapped ready).yields run
  obtain ⟨neat, trails⟩ := laid select rfl
  obtain ⟨sameTrails, sameLayouts, _⟩ := kept_of_mem_split accepted interpreted listed
  rw [sameTrails, sameLayouts] at trails
  refine ⟨neat.distinct, fun level known isMember label here around => ?_,
    fun trail along => neat.count_eq_one (trails trail along).2.mem_tableLabels,
    fun trail along => (trails trail along).2⟩
  exact neat.apart level known isMember label here (neat.around level known label around)

/-- A text with paths from both items of its from-clause, of which one is taken again in a query inside
the filter, next to a test for membership. -/
def pathsInLevels : String :=
  "select o.id from Order o, Order p join p.customer c where o.customer.name = c.name and o.a in " ++
  "(select i.n from Item i where i.id = o.customer.id and i member of o.items) order by p.customer.id"

/-- The tables of the text with paths on both levels are told apart. -/
theorem compile_tellsTablesApart_pathsInLevels : ∃ model given statements select,
    Model.ofDefinitions shop = .ok model ∧ interpret model.catalog pathsInLevels = .ok given ∧
      compile model.catalog .outer pathsInLevels = .ok statements ∧ .select select ∈ statements ∧
      (Sql.Statement.select select).levels.map Level.isMembership = [false, false, true] ∧
      TellsTablesApart given (Sql.Statement.select select).levels := by
  have checked : compilesTo shop .outer pathsInLevels (fun
      | .select select => (Sql.Statement.select select).levels.map Level.isMembership ==
          [false, false, true]
      | _ => false) = true := by decide +kernel
  obtain ⟨model, statements, statement, accepted, compiled, member, nested⟩ :=
    exists_of_compilesTo checked
  obtain ⟨given, interpreted, _⟩ := except_bind_ok.mp compiled
  cases statement with
  | select select =>
    exact ⟨model, given, statements, select, accepted, interpreted, compiled, member,
      by simpa using nested, compile_tellsTablesApart accepted interpreted compiled member⟩
  | update change | delete removal => cases nested

end ObjectQuery

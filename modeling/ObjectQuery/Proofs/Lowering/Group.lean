import ObjectQuery.Proofs.Lowering.Run
import ObjectQuery.Proofs.Sql.JoinOrder
/-!
# Groups of tables

`tableGroup_ok` says what the group of an entity is made of. A group is coherent if its columns are
columns of its own tables and if its further tables are joined to its root and to nothing else; all
groups that are ever built are.
-/
namespace ObjectQuery

open Sql

namespace Sql

/-- A group refers to no tables but its own. -/
structure TableGroup.Coherent (group : TableGroup) : Prop where
  columns : ∀ binding ∈ group.columns, binding.table ∈ group.labels
  secondary : ∀ join ∈ group.secondary, ∃ rootColumn column, join.condition =
    some (Expr.equals (.tableColumn group.root.label rootColumn)
      (.tableColumn join.table.label column))

/-- The tables of the group are named after it and their positions. -/
structure TableGroup.Named (group : TableGroup) : Prop where
  root : group.root.label = TableGroup.tableLabel group.label 0
  tables : ∀ name ∈ group.labels, ∃ position, name = TableGroup.tableLabel group.label position

namespace TableGroup

variable {group : TableGroup}

/-- The root table is one of the group. -/
theorem root_mem_labels : group.root.label ∈ group.labels := by
  simp [labels, tables]

/-- The key of a group refers to its root table. -/
theorem key_references {indices : Bool} : group.key.references indices = [group.root.label] := by
  simp [key, Expr.tableColumn, Expr.references]

/-- The column of an attribute is one of the bindings of the group. -/
theorem column?_eq_some {name : String} {column : Expr} (found : group.column? name = some column) :
    ∃ binding ∈ group.columns, column = binding.expr := by
  simp only [column?, binding?, Option.map_eq_some_iff] at found
  obtain ⟨binding, chosen, rfl⟩ := found
  exact ⟨binding, List.mem_of_find?_eq_some chosen, rfl⟩

end TableGroup

/-- The column of an attribute refers to the table that stores it. -/
theorem ColumnBinding.expr_references {binding : ColumnBinding} {indices : Bool} :
    binding.expr.references indices = [binding.table] := by
  simp [ColumnBinding.expr, Expr.tableColumn, Expr.references]

/-- Every column of a coherent group is a column of one of its tables. -/
theorem TableGroup.Coherent.allColumns {group : TableGroup} (coherent : group.Coherent)
    {column : Expr} (member : column ∈ group.allColumns) :
    ∃ table ∈ group.labels, ∃ name, column = .tableColumn table name := by
  simp only [TableGroup.allColumns, List.mem_cons, List.mem_map, List.mem_filter] at member
  rcases member with rfl | ⟨binding, ⟨stored, _⟩, rfl⟩
  · exact ⟨group.root.label, TableGroup.root_mem_labels, group.keyColumn, rfl⟩
  · exact ⟨binding.table, coherent.columns binding stored, binding.column, rfl⟩

end Sql

namespace Lowering

variable {context : LoweringContext}

/-- A join of a table is made of the parts it is given. -/
theorem tableJoin_ok {kind : JoinKind} {table : TableSpec} {condition : Option Sql.Expr}
    {join : TableJoin} (built : tableJoin kind table condition = .ok join) :
    join = ⟨kind, table, condition⟩ := by
  simp only [tableJoin, except_bind_ok, pure, Except.pure, Except.ok.injEq] at built
  obtain ⟨_, _, rfl⟩ := built
  rfl

/-- A join of a group is made of the parts it is given. -/
theorem groupJoin_ok {kind : JoinKind} {group : TableGroup} {condition : Option Sql.Expr}
    {join : GroupJoin} (built : groupJoin kind group condition = .ok join) :
    join = ⟨kind, group, condition⟩ := by
  simp only [groupJoin, except_bind_ok, pure, Except.pure, Except.ok.injEq] at built
  obtain ⟨_, _, rfl⟩ := built
  rfl

/-- The join of the further table at a position to the root of its group. -/
def furtherJoin (policy : JoinPolicy) (label keyColumn : String) (table : MappedTable)
    (position : Nat) : TableJoin where
  kind := policy.joinKind table.optional table.identifying
  table := ⟨table.name, TableGroup.tableLabel label position⟩
  condition := some (Sql.Expr.equals (.tableColumn (TableGroup.tableLabel label 0) keyColumn)
    (.tableColumn (TableGroup.tableLabel label position) table.keyColumn))

/-- The root table of an entity is the one of its shape. -/
theorem rootTable_ok {entity : String} {table : MappedTable}
    (found : context.rootTable entity = .ok table) :
    ∃ shape, context.shape entity = .ok shape ∧ shape.root? = some table := by
  simp only [LoweringContext.rootTable, except_bind_ok] at found
  obtain ⟨shape, known, rooted⟩ := found
  refine ⟨shape, known, ?_⟩
  split at rooted
  · rename_i chosen first
    simp only [pure, Except.pure, Except.ok.injEq] at rooted
    rw [first, rooted]
  · cases rooted

/-- The group of an entity has its root table, then its further tables, and the columns of all of
them, each table named after its position. -/
theorem tableGroup_ok {label entity : String} {group : TableGroup}
    (built : context.tableGroup label entity = .ok group) :
    ∃ shape table, context.shape entity = .ok shape ∧ shape.root? = some table ∧ group = {
      label := label
      entity := entity
      root := ⟨table.name, TableGroup.tableLabel label 0⟩
      keyColumn := table.keyColumn
      secondary := (shape.secondary.zipIdx 1).map fun (further, position) =>
        furtherJoin context.policy label table.keyColumn further position
      columns := shape.tables.zipIdx.flatMap fun (further, position) =>
        further.columns.map fun column =>
          ⟨column.label, TableGroup.tableLabel label position, column.column⟩ } := by
  simp only [LoweringContext.tableGroup, except_bind_ok, pure, Except.pure, Except.ok.injEq] at built
  obtain ⟨shape, known, table, rooted, secondary, joined, rfl⟩ := built
  obtain ⟨shape', known', first⟩ := rootTable_ok rooted
  obtain rfl : shape' = shape := Except.ok.inj (known'.symm.trans known)
  refine ⟨shape', table, known, first, ?_⟩
  congr
  refine mapM_eq_map ?_ joined
  rintro ⟨further, position⟩ join given
  exact tableJoin_ok given

/-- The names of the tables of a group are those of its positions. -/
theorem tableLabel_mem_labels {label entity : String} {group : TableGroup}
    (built : context.tableGroup label entity = .ok group) {shape : TableShape}
    (known : context.shape entity = .ok shape) {position : Nat}
    (stored : position < shape.tables.length) :
    TableGroup.tableLabel label position ∈ group.labels := by
  obtain ⟨shape', table, known', first, rfl⟩ := tableGroup_ok built
  obtain rfl : shape' = shape := Except.ok.inj (known'.symm.trans known)
  cases position with
  | zero => exact TableGroup.root_mem_labels
  | succ earlier =>
    have further : earlier < shape'.secondary.length := by
      simp only [TableShape.secondary, List.length_tail]
      omega
    have listed : (shape'.secondary[earlier], earlier + 1) ∈ shape'.secondary.zipIdx 1 := by
      rw [List.mk_mem_zipIdx_iff_le_and_getElem?_sub]
      simp [further]
    simp only [TableGroup.labels, TableGroup.tables, List.map_cons, List.map_map, List.mem_cons,
      List.mem_map]
    exact Or.inr ⟨_, listed, rfl⟩

/-- A group that is built is coherent. -/
theorem tableGroup_coherent {label entity : String} {group : TableGroup}
    (built : context.tableGroup label entity = .ok group) : group.Coherent := by
  have named := @tableLabel_mem_labels context label entity group built
  obtain ⟨shape, table, known, first, rfl⟩ := tableGroup_ok built
  refine ⟨?_, ?_⟩
  · intro binding member
    simp only [List.mem_flatMap, List.mem_map, Prod.exists] at member
    obtain ⟨further, position, listed, column, _, rfl⟩ := member
    exact named known (List.snd_lt_of_mem_zipIdx listed)
  · intro join member
    simp only [List.mem_map, Prod.exists] at member
    obtain ⟨further, position, _, rfl⟩ := member
    exact ⟨_, _, rfl⟩

/-- A group that is built has the label it is built for. -/
theorem tableGroup_label {label entity : String} {group : TableGroup}
    (built : context.tableGroup label entity = .ok group) : group.label = label := by
  obtain ⟨_, _, _, _, rfl⟩ := tableGroup_ok built
  rfl

/-- The tables of a group that is built are named after its label. -/
theorem tableGroup_named {label entity : String} {group : TableGroup}
    (built : context.tableGroup label entity = .ok group) : group.Named := by
  obtain ⟨_, _, _, _, rfl⟩ := tableGroup_ok built
  refine ⟨rfl, ?_⟩
  intro name member
  simp only [TableGroup.labels, TableGroup.tables, List.map_cons, List.map_map, List.mem_cons,
    List.mem_map, Prod.exists, Function.comp_apply] at member
  rcases member with rfl | ⟨further, position, _, rfl⟩
  · exact ⟨0, rfl⟩
  · exact ⟨position, rfl⟩

/-- The group of the target of a change has one table, which is no query and goes by its own name. -/
theorem targetGroup_ok {verb : BulkVerb} {target : Resolved.FromNode} {group : TableGroup}
    (built : targetGroup context verb target = .ok group) :
    ∃ (entity : String) (table : MappedTable), table.isDerived = false ∧ group = {
      label := target.label
      entity := entity
      root := ⟨table.name, table.name⟩
      keyColumn := table.keyColumn
      secondary := []
      columns := table.columns.map fun column => ⟨column.label, table.name, column.column⟩ } := by
  unfold targetGroup at built
  split at built
  · rename_i entity _
    simp only [pure_bind, except_bind_ok] at built
    obtain ⟨shape, _, built⟩ := built
    split at built
    · rename_i table _
      split at built
      · cases built
      · rename_i stored
        rw [Bool.not_eq_true] at stored
        exact ⟨entity.name, table, stored, (Except.ok.inj built).symm⟩
    · cases built
  · cases built

end Lowering
end ObjectQuery

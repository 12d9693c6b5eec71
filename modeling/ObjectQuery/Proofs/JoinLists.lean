import ObjectQuery.Proofs.Lowering.Arranged
import ObjectQuery.Proofs.Parts
/-!
# The join lists of compiled statements

A query puts the tables of all its groups into one list of joins. In that list the tables of a group
stand together, in the order in which the entity has them, and the way in which a further table is
joined follows from the way its group is joined, from what the model says about the table, and from the
policy. A join without a condition is a cross join, and no cross join has one.
-/
namespace ObjectQuery

open Sql

/-! ## Groups in a join list -/

/-- The tables of a query with the ways in which they are joined. The first table is counted as if it
were cross joined to nothing. -/
def Sql.Query.joined (query : Query Sql.Expr) : List (JoinKind × TableRef) :=
  (query.source.map fun table => (.cross, table)).toList ++
    query.joins.map fun join => (join.kind, join.table)

/-- A group as it stands in a join list: how it is joined, its name and the tables of its entity. -/
structure JoinedGroup where
  kind : JoinKind
  label : String
  entity : String
  shape : TableShape

namespace JoinedGroup

/-- How the table at a position of the group is joined. In a group that is left joined all tables are.
In all others a further table is inner joined if every entity has a row there, and else as the policy
has it. -/
def kindAt (group : JoinedGroup) (policy : JoinPolicy) (table : MappedTable) : Nat → JoinKind
  | 0 => group.kind
  | _ + 1 =>
    if group.kind = .leftOuter then .leftOuter
    else if table.identifying then .inner
    else match policy with
      | .outer => .leftOuter
      | .inner => .inner
      | .mapped => if table.optional then .leftOuter else .inner

/-- The tables of the group, each once and in the order of its shape. -/
def joined (group : JoinedGroup) (policy : JoinPolicy) : List (JoinKind × TableRef) :=
  group.shape.tables.zipIdx.map fun (table, position) =>
    (group.kindAt policy table position,
      (TableSpec.mk table.name (TableGroup.tableLabel group.label position)).toRef)

end JoinedGroup

/-- The joins of a level are those of groups, joined as the policy has it, and just the cross joins have
no condition. The level of a test for membership has no joins. -/
structure Sql.Level.FollowsPolicy (catalog : Catalog) (policy : JoinPolicy) (level : Level) : Prop where
  crossed : ∀ join ∈ level.query.joins, join.condition = none ↔ join.kind = .cross
  grouped : level.isMembership = false → ∃ groups : List JoinedGroup,
    (∀ group ∈ groups, catalog.shape? group.entity = some group.shape ∧ group.shape.tables ≠ []) ∧
      level.query.joined = groups.flatMap (·.joined policy)
  alone : level.isMembership = true → level.query.joins = []

namespace Lowering

variable {context : LoweringContext} {sources : List String}

/-- All groups of spaces with their joins, as if the first of a space were cross joined. -/
def groupJoins (spaces : List TableSpace) : List GroupJoin :=
  spaces.flatMap fun space => standIn space.root :: space.joins

/-- The joins of spaces are those of their groups in order. -/
theorem entries_eq_groupJoins {spaces : List TableSpace} :
    entries spaces = (groupJoins spaces).flatMap (·.toJoins) := by
  rw [entries, groupJoins, List.flatMap_assoc]
  refine congrArg (List.flatMap · spaces) (funext fun space => ?_)
  simp [TableSpace.entries, TableSpace.toJoins, standIn, GroupJoin.toJoins]

/-- A query joins the tables of its spaces. -/
theorem joined_toQuery {select : Select} :
    select.toQuery.joined = (entries select.spaces).map fun join => (join.kind, join.table) := by
  unfold Query.joined Select.toQuery
  cases select.spaces with
  | nil => rfl
  | cons space rest => simp [Select.joins, TableSpace.entries, entries]

/-- A group of an arranged level stands in the join list with all tables of its entity. -/
theorem IsGroup.joined {join : GroupJoin} (grouped : IsGroup context sources join.group) :
    ∃ shape, context.catalog.shape? join.group.entity = some shape ∧ shape.tables ≠ [] ∧
      join.toJoins.map (fun given => (given.kind, given.table)) =
        JoinedGroup.joined ⟨join.kind, join.group.label, join.group.entity, shape⟩ context.policy := by
  obtain ⟨shape, table, shaped, rooted, same⟩ := tableGroup_ok grouped.built
  obtain ⟨further, listed⟩ : ∃ further, shape.tables = table :: further :=
    ⟨_, (List.cons_head?_tail rooted).symm⟩
  refine ⟨shape, shape?_of_shape shaped, by simp [listed], ?_⟩
  have secondary : shape.secondary = further := by simp [TableShape.secondary, listed]
  rw [GroupJoin.toJoins, same, JoinedGroup.joined, listed, List.zipIdx_cons, secondary]
  simp only [List.map_cons, List.map_map]
  refine congrArg₂ _ rfl (List.map_congr_left fun entry member => ?_)
  obtain ⟨other, position⟩ := entry
  obtain ⟨before, rfl⟩ := Nat.exists_eq_add_of_le (List.le_snd_of_mem_zipIdx member)
  rw [Nat.add_comm]
  by_cases left : join.kind = .leftOuter <;> cases context.policy <;>
    simp [left, furtherJoin, TableJoin.toJoin, JoinedGroup.kindAt, JoinPolicy.joinKind]

/-- Just the cross joins among the joins of a group have no condition. -/
theorem IsGroup.crossed {join : GroupJoin} (grouped : IsGroup context sources join.group)
    (crossed : join.condition = none ↔ join.kind = .cross) :
    ∀ given ∈ join.toJoins, given.condition = none ↔ given.kind = .cross := by
  obtain ⟨shape, table, _, _, same⟩ := tableGroup_ok grouped.built
  intro given member
  rcases List.mem_cons.mp member with rfl | further
  · exact crossed
  · obtain ⟨tableJoin, listed, rfl⟩ := List.mem_map.mp further
    rw [same] at listed
    obtain ⟨⟨other, position⟩, _, rfl⟩ := List.mem_map.mp listed
    have inside (optional identifying : Bool) :
        context.policy.joinKind optional identifying ≠ .cross := by
      cases context.policy <;> cases optional <;> cases identifying <;> decide
    split <;> simp [furtherJoin, TableJoin.toJoin, inside]

/-- The groups of an arranged space, its root with a cross join. -/
theorem IsSpace.groupJoins {space : TableSpace} (arranged : IsSpace context sources space) :
    ∀ join ∈ standIn space.root :: space.joins, IsGroup context sources join.group ∧
      (join.condition = none ↔ join.kind = .cross) := by
  refine List.forall_mem_cons.mpr ⟨⟨arranged.root, by simp [standIn]⟩, fun join member => ?_⟩
  exact ⟨arranged.joined join member, arranged.crossed join member⟩

/-- An arranged level over plain sources follows the policy. -/
theorem IsArranged.followsPolicy {outer : List String} {query : Query Sql.Expr}
    (arranged : IsArranged context sources query) (plain : ∀ source ∈ sources, IsPlainName source) :
    Level.FollowsPolicy context.catalog context.policy ⟨outer, query⟩ := by
  cases arranged with
  | membership named source alone =>
    have member : Level.isMembership ⟨outer, query⟩ = true := by
      simp [Level.isMembership, Query.labels, source, TableSpec.toRef_label, isImplicit,
        TableGroup.tableLabel]
    refine ⟨by simp [alone], fun other => ?_, fun _ => alone⟩
    cases member.symm.trans other
  | @groups select spaces =>
    have each : ∀ join ∈ groupJoins select.spaces, IsGroup context sources join.group ∧
        (join.condition = none ↔ join.kind = .cross) := by
      intro join member
      obtain ⟨space, there, within⟩ := List.mem_flatMap.mp member
      exact (spaces space there).groupJoins join within
    refine ⟨fun join member => ?_, fun _ => ?_, fun member => ?_⟩
    · have listed := mem_joins member
      rw [entries_eq_groupJoins] at listed
      obtain ⟨group, among, within⟩ := List.mem_flatMap.mp listed
      obtain ⟨grouped, crossed⟩ := each group among
      exact grouped.crossed crossed join within
    · change ∃ groups : List JoinedGroup, _ ∧ select.toQuery.joined = _
      rw [joined_toQuery, entries_eq_groupJoins]
      generalize groupJoins select.spaces = joins at each
      induction joins with
      | nil => exact ⟨[], List.forall_mem_nil _, rfl⟩
      | cons join rest ih =>
        obtain ⟨⟨grouped, _⟩, others⟩ := List.forall_mem_cons.mp each
        obtain ⟨shape, shaped, stored, same⟩ := grouped.joined
        obtain ⟨groups, known, further⟩ := ih others
        refine ⟨⟨join.kind, join.group.label, join.group.entity, shape⟩ :: groups,
          List.forall_mem_cons.mpr ⟨⟨shaped, stored⟩, known⟩, ?_⟩
        rw [List.flatMap_cons, List.map_append, same, further, List.flatMap_cons]
    · -- The first table is that of a source, so its name has no dot.
      rw [Level.isMembership] at member
      cases listed : select.spaces with
      | nil => simp [Query.labels, Select.toQuery, listed, Select.joins, joinLabels] at member
      | cons space rest =>
        have arranged := spaces space (by simp [listed])
        have root := (tableGroup_named arranged.root.built).root
        simp [Query.labels, Select.toQuery, listed, TableSpec.toRef_label, root,
          isImplicit_tableLabel, isImplicit_of_isPlainName (plain _ arranged.source)] at member

end Lowering

variable {parser : SqlParser} {definitions : List EntityDefinition} {model : Model}
  {policy : JoinPolicy} {source : String} {statements : List Sql.Statement}
  {statement : Sql.Statement}

/-- In every select level of every statement that a text compiles to, a join has no condition exactly if
it is a cross join. Except for the queries of tests for membership, which have one table, the tables of
a level are those of groups, each with all tables of its entity in their order; those of a left joined
group are left joined, and a further table of another group is inner joined if every entity has a row
there and else as the policy has it. -/
theorem compile_followsPolicy (accepted : Model.build parser definitions = .ok model)
    (compiled : compile model.catalog policy source = .ok statements)
    (member : statement ∈ statements) :
    ∀ level ∈ statement.levels, level.FollowsPolicy model.catalog policy := by
  obtain ⟨given, part, after, interpreted, listed, run⟩ := compile_statement compiled member
  obtain ⟨_, ready⟩ := ready_of_mem_split accepted interpreted listed policy
  have plain : ∀ source ∈ part.sources.map (·.label), IsPlainName source :=
    List.forall_mem_map.mpr ready.coming.plain
  intro level found
  exact (Lowering.statement_arranged plain run level found).followsPolicy plain

/-- A text with a left join, an entity in two tables, a path and a test for membership in a query
inside. -/
def joinsInLevels : String :=
  "select o.id from Item j, Order o left join o.customer c where c.name = 'x' and o.a in " ++
  "(select p.b from Order p, Customer d where p.customer.name = d.name and j member of p.items)"

/-- The joins of the text follow the policy on all of its levels. -/
theorem compile_followsPolicy_joinsInLevels : ∃ model statements statement,
    Model.ofDefinitions shop = .ok model ∧
      compile model.catalog .mapped joinsInLevels = .ok statements ∧ statement ∈ statements ∧
      (statement.levels.map fun level => level.query.joined.map (·.1)) =
        [[.cross, .cross, .leftOuter, .leftOuter],
          [.cross, .inner, .leftOuter, .cross, .leftOuter], [.cross]] ∧
      ∀ level ∈ statement.levels, level.FollowsPolicy model.catalog .mapped := by
  have checked : compilesTo shop .mapped joinsInLevels (fun statement =>
      (statement.levels.map fun level => level.query.joined.map (·.1)) ==
        [[.cross, .cross, .leftOuter, .leftOuter],
          [.cross, .inner, .leftOuter, .cross, .leftOuter], [.cross]]) = true := by decide +kernel
  obtain ⟨model, statements, statement, accepted, compiled, member, kinds⟩ :=
    exists_of_compilesTo checked
  exact ⟨model, statements, statement, accepted, compiled, member, by simpa using kinds,
    compile_followsPolicy accepted compiled member⟩

end ObjectQuery

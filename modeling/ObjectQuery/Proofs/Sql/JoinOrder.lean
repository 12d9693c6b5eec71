import ObjectQuery.Proofs.Sql.Columns
/-!
# The order of joins

The tables of a query stand in one list, in the order of the spaces and of the groups in each space.
`entries` is that list with the first table in it. A table that is joined for a path is put at the end
of a space, so what stands directly behind a table that the text names may get further tables for
paths, but no others. `Filled` says how the names of the tables change, and a rule about joins that is
stable under such changes survives them.
-/
namespace ObjectQuery.Sql

/-- The name is that of a table that may stand between the root table of the group and the next table
that the text names: a further table of the group, or one that is joined for a path. -/
def Follows (group name : String) : Prop :=
  isImplicit name = true ∨ ∃ position, name = TableGroup.tableLabel group position

/-- The name is that of a table ahead of the root table of a group that the text names. The tables
ahead stand directly behind it, before any other table that the text names. -/
def Ahead (join : Join Expr) (rest : List (Join Expr)) (label : String) : Prop :=
  ∃ group near, join.table.label = some (TableGroup.tableLabel group 0) ∧
    isImplicit group = false ∧ near <+: joinLabels rest ∧ (∀ name ∈ near, Follows group name) ∧
      label ∈ near

/-- Every table that the condition refers to is visible or ahead. The value of an index in the
condition is passed over. -/
def Reaches (visible : List String) (join : Join Expr) (rest : List (Join Expr)) : Prop :=
  ∀ label ∈ join.references false, label ∈ visible ∨ Ahead join rest label

/-- The joins of a level reach their tables, and its columns outside the conditions of joins are
qualified. -/
structure Level.IsScoped (level : Level) : Prop where
  joins : level.EachJoin Reaches
  columns : level.QualifiesColumns

/-- The tables of a space with its root, as if the root were cross joined to what stands before. -/
def TableSpace.entries (space : TableSpace) : List (Join Expr) :=
  ⟨.cross, space.root.root.toRef, none⟩ :: space.toJoins

/-- The tables of spaces, one after the other. -/
def entries (spaces : List TableSpace) : List (Join Expr) := spaces.flatMap (·.entries)

/-- The names of the tables of a group. -/
def TableGroup.labels (group : TableGroup) : List String := group.tables.map (·.label)

/-- The names of the tables of a space. -/
def TableSpace.labels (space : TableSpace) : List String := space.groups.flatMap (·.labels)

/-- A table is written with its label. -/
theorem TableSpec.toRef_label (table : TableSpec) : table.toRef.label = some table.label := by
  unfold TableSpec.toRef
  split <;> rfl

/-- Two lists of joins have the labels of both. -/
theorem joinLabels_append {joins more : List (Join Expr)} :
    joinLabels (joins ++ more) = joinLabels joins ++ joinLabels more :=
  List.filterMap_append

/-- Joins have the label of the first and those of the rest. -/
theorem joinLabels_cons {join : Join Expr} {rest : List (Join Expr)} :
    joinLabels (join :: rest) = join.table.label.toList ++ joinLabels rest := by
  cases named : join.table.label <;> simp [joinLabels, named]

/-- The joins of the further tables have their labels. -/
theorem joinLabels_secondary {group : TableGroup} :
    joinLabels (group.secondary.map (·.toJoin)) = group.secondary.map (·.table.label) := by
  rw [joinLabels, List.filterMap_map, ← List.filterMap_eq_map]
  congr 1
  funext table
  exact table.table.toRef_label

/-- A group brings its tables into a query. -/
theorem joinLabels_toJoins {join : GroupJoin} :
    joinLabels join.toJoins = join.group.labels := by
  have further : (join.group.secondary.map fun table =>
      if join.kind = .leftOuter then { table.toJoin with kind := .leftOuter } else table.toJoin).filterMap
        (·.table.label) = join.group.secondary.map (·.table.label) := by
    rw [List.filterMap_map, ← List.filterMap_eq_map]
    congr 1
    funext table
    simp only [Function.comp_apply]
    split <;> simp [TableJoin.toJoin, TableSpec.toRef_label]
  simp only [GroupJoin.toJoins, joinLabels_cons, TableSpec.toRef_label, TableGroup.labels,
    TableGroup.tables, List.map_cons, List.map_map]
  simp only [joinLabels, further]
  rfl

/-- The joins of a space have the labels of the space. -/
theorem joinLabels_entries {space : TableSpace} : joinLabels space.entries = space.labels := by
  simp only [TableSpace.entries, TableSpace.toJoins, joinLabels_cons, joinLabels_append,
    TableSpec.toRef_label, joinLabels_secondary, TableSpace.labels, TableSpace.groups,
    List.flatMap_cons, List.flatMap_map]
  have joined : joinLabels (space.joins.flatMap (·.toJoins)) =
      space.joins.flatMap (·.group.labels) := by
    induction space.joins with
    | nil => rfl
    | cons join rest ih =>
      rw [List.flatMap_cons, joinLabels_append, joinLabels_toJoins, ih, List.flatMap_cons]
  rw [joined]
  simp [TableGroup.labels, TableGroup.tables, Function.comp_def]

/-- Two lists of spaces show the joins of both. -/
theorem entries_append {spaces more : List TableSpace} :
    entries (spaces ++ more) = entries spaces ++ entries more := List.flatMap_append

/-- Spaces show the joins of the first and those of the rest. -/
theorem entries_cons {space : TableSpace} {rest : List TableSpace} :
    entries (space :: rest) = space.entries ++ entries rest := List.flatMap_cons

/-- The names of the tables of spaces are those of their groups. -/
theorem mem_entries {spaces : List TableSpace} {label : String} :
    label ∈ joinLabels (entries spaces) ↔ ∃ space ∈ spaces, label ∈ space.labels := by
  induction spaces with
  | nil => simp [entries, joinLabels]
  | cons space rest ih =>
    rw [entries_cons, joinLabels_append, List.mem_append, ih, joinLabels_entries]
    simp

/-! ## More tables -/

/-- The second list of names comes from the first one when tables for paths are put in anywhere and
other tables at the end. -/
inductive Filled : List String → List String → Prop where
  | done (more : List String) : Filled [] more
  | keep {old new : List String} (label : String) (filled : Filled old new) :
      Filled (label :: old) (label :: new)
  | raise {old new : List String} {label : String} (implicit : isImplicit label = true)
      (filled : Filled old new) : Filled old (label :: new)

namespace Filled

variable {old new : List String}

/-- What stands before the change is kept. -/
theorem append_left (before : List String) (filled : Filled old new) :
    Filled (before ++ old) (before ++ new) := by
  induction before with
  | nil => exact filled
  | cons label before ih => exact ih.keep label

/-- Labels are filled by nothing. -/
theorem refl (labels : List String) : Filled labels labels := by
  simpa using (done []).append_left labels

/-- More tables at the end. -/
theorem append (labels more : List String) : Filled labels (labels ++ more) := by
  simpa using (done more).append_left labels

/-- Tables for paths before the rest. -/
theorem raised {labels : List String} (implicit : ∀ label ∈ labels, isImplicit label = true)
    (rest : List String) : Filled rest (labels ++ rest) := by
  induction labels with
  | nil => exact refl rest
  | cons label labels ih =>
    obtain ⟨here, others⟩ := List.forall_mem_cons.mp implicit
    exact (ih others).raise here

/-- No table is lost. -/
theorem subset (filled : Filled old new) : old ⊆ new := by
  induction filled with
  | done more => exact List.nil_subset more
  | keep label _ ih => exact List.cons_subset_cons label ih
  | raise _ _ ih => exact List.subset_cons_of_subset _ ih

/-- The tables directly behind the root of a group still stand there, perhaps with tables for paths
among them. -/
theorem near {group : String} (filled : Filled old new) {near : List String} (first : near <+: old)
    (follow : ∀ name ∈ near, Follows group name) :
    ∃ near', near' <+: new ∧ near ⊆ near' ∧ ∀ name ∈ near', Follows group name := by
  induction filled generalizing near with
  | done more =>
    obtain rfl := List.prefix_nil.mp first
    exact ⟨[], List.nil_prefix, List.nil_subset _, nofun⟩
  | keep label filled ih =>
    cases near with
    | nil => exact ⟨[], List.nil_prefix, List.nil_subset _, nofun⟩
    | cons name near =>
      obtain ⟨rfl, further⟩ := List.cons_prefix_cons.mp first
      obtain ⟨here, others⟩ := List.forall_mem_cons.mp follow
      obtain ⟨near', first', kept, follow'⟩ := ih further others
      exact ⟨name :: near', List.cons_prefix_cons.mpr ⟨rfl, first'⟩,
        List.cons_subset_cons name kept, List.forall_mem_cons.mpr ⟨here, follow'⟩⟩
  | @raise _ _ label implicit filled ih =>
    obtain ⟨near', first', kept, follow'⟩ := ih first follow
    exact ⟨label :: near', List.cons_prefix_cons.mpr ⟨rfl, first'⟩,
      List.subset_cons_of_subset label kept, List.forall_mem_cons.mpr ⟨.inl implicit, follow'⟩⟩

end Filled

/-! ## Rules -/

/-- What is ahead is joined further on. -/
theorem Ahead.mem {join : Join Expr} {rest : List (Join Expr)} {label : String}
    (ahead : Ahead join rest label) : label ∈ joinLabels rest := by
  obtain ⟨_, _, _, _, first, _, listed⟩ := ahead
  exact first.subset listed

section EachJoin

variable {rule : List String → Join Expr → List (Join Expr) → Prop}

/-- A rule that stays true when more tables are visible, more tables are joined for paths, and more
tables follow at the end. -/
def Stable (rule : List String → Join Expr → List (Join Expr) → Prop) : Prop :=
  ∀ ⦃visible wider : List String⦄ ⦃join : Join Expr⦄ ⦃rest more : List (Join Expr)⦄,
    visible ⊆ wider → Filled (joinLabels rest) (joinLabels more) → rule visible join rest →
      rule wider join more

/-- What is ahead stays ahead. -/
theorem stable_reaches : Stable Reaches := by
  intro visible wider join rest more inside filled reaches label mentioned
  rcases reaches label mentioned with known | ⟨group, near, named, written, first, follow, listed⟩
  · exact Or.inl (inside known)
  · obtain ⟨near', first', kept, follow'⟩ := filled.near first follow
    exact Or.inr ⟨group, near', named, written, first', follow', kept listed⟩

/-- The rule for the joins of a list stays true when more tables are visible. -/
theorem EachJoin.widen (stable : Stable rule) : ∀ {joins : List (Join Expr)}
    {visible wider : List String}, visible ⊆ wider → EachJoin rule visible joins →
      EachJoin rule wider joins
  | [], _, _, _, _ => trivial
  | join :: rest, visible, wider, inside, ⟨here, further⟩ => by
    have within : visible ++ join.table.label.toList ⊆ wider ++ join.table.label.toList :=
      append_subset_append inside (List.Subset.refl _)
    exact ⟨stable within (.refl _) here, EachJoin.widen stable within further⟩

/-- The joins after some point give way to others that bring the same tables and more. -/
theorem EachJoin.replace (stable : Stable rule) {old new : List (Join Expr)}
    (filled : Filled (joinLabels old) (joinLabels new)) :
    ∀ {before : List (Join Expr)} {visible : List String}, EachJoin rule visible (before ++ old) →
      EachJoin rule (visible ++ joinLabels before) new → EachJoin rule visible (before ++ new)
  | [], visible, _, replaced => by simpa [joinLabels] using replaced
  | join :: before, visible, ⟨here, further⟩, replaced => by
    refine ⟨stable (List.Subset.refl _) ?_ here, further.replace stable filled ?_⟩
    · change Filled (joinLabels (before ++ old)) (joinLabels (before ++ new))
      rw [joinLabels_append, joinLabels_append]
      exact filled.append_left (joinLabels before)
    · rwa [List.append_assoc, ← joinLabels_cons]

/-- Joins that need nothing of what follows can be put before it. -/
theorem EachJoin.append (stable : Stable rule) {rest : List (Join Expr)} :
    ∀ {joins : List (Join Expr)} {visible : List String}, EachJoin rule visible joins →
      EachJoin rule (visible ++ joinLabels joins) rest → EachJoin rule visible (joins ++ rest)
  | [], visible, _, further => by simpa [joinLabels] using further
  | join :: joins, visible, ⟨here, others⟩, further => by
    refine ⟨stable (List.Subset.refl _) ?_ here, others.append stable ?_⟩
    · change Filled (joinLabels joins) (joinLabels (joins ++ rest))
      exact joinLabels_append ▸ .append (joinLabels joins) (joinLabels rest)
    · rwa [List.append_assoc, ← joinLabels_cons]

/-- The joins after some point can be looked at on their own. -/
theorem EachJoin.drop {rest : List (Join Expr)} :
    ∀ {joins : List (Join Expr)} {visible : List String}, EachJoin rule visible (joins ++ rest) →
      EachJoin rule (visible ++ joinLabels joins) rest
  | [], visible, each => by simpa [joinLabels] using each
  | join :: joins, visible, ⟨_, further⟩ => by
    have := further.drop
    rwa [List.append_assoc, ← joinLabels_cons] at this

end EachJoin

/-- The query over some spaces satisfies a rule if their tables do. -/
theorem eachJoin_toQuery {rule : List String → Join Expr → List (Join Expr) → Prop}
    {outer : List String} {select : Select} (ordered : EachJoin rule outer (entries select.spaces)) :
    Level.EachJoin rule ⟨outer, select.toQuery⟩ := by
  unfold Level.EachJoin Select.toQuery
  cases listed : select.spaces with
  | nil => trivial
  | cons space rest =>
    rw [listed, entries_cons, TableSpace.entries] at ordered
    simpa [Select.joins, entries, TableSpace.entries] using ordered.2

/-- The names of the tables of a query over spaces. -/
theorem labels_toQuery {select : Select} :
    select.toQuery.labels = joinLabels (entries select.spaces) := by
  unfold Query.labels Select.toQuery
  cases listed : select.spaces with
  | nil => rfl
  | cons space rest =>
    rw [entries_cons, TableSpace.entries, List.cons_append, joinLabels_cons]
    simp [Select.joins, entries, TableSpace.entries]

/-- The joins of a query over spaces are among the tables of the spaces. -/
theorem mem_joins {spaces : List TableSpace} {join : Join Expr}
    (member : join ∈ Select.joins spaces) : join ∈ entries spaces := by
  cases spaces with
  | nil => simp [Select.joins] at member
  | cons space rest =>
    rw [entries_cons, TableSpace.entries]
    simp only [Select.joins, entries, TableSpace.entries] at member ⊢
    exact List.mem_cons_of_mem _ member

end ObjectQuery.Sql

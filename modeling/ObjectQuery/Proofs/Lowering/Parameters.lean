import ObjectQuery.Proofs.Lowering.Collected
/-!
# Parameters of lowered statements

Every step of the lowering collects the parameters of what it lowers. Those of an index go into the
condition of the join that the index asks for, which may be in a level further out; all others stay in
the value. A to-one association has no parameters, so it does not matter that its join is shared.
-/
namespace ObjectQuery

open Sql

/-- A coherent group joins its tables by columns alone, so it writes no parameter. -/
theorem Sql.TableGroup.Coherent.needs {group : TableGroup} (coherent : group.Coherent) :
    group.needs = 0 := by
  apply List.sum_eq_zero
  intro needs member
  obtain ⟨join, listed, rfl⟩ := List.mem_map.mp member
  obtain ⟨rootColumn, column, condition⟩ := coherent.secondary join listed
  simp [condition, conditionNeeds]

namespace Lowering

open Resolved (Segment Reference FromSpace needsOf)

variable {context : LoweringContext} {shape : List Nat}

/-! ## Paths -/

/-- A column of a table writes no parameter. -/
theorem columnOf_needs {owner : TableGroup} {label : String} {column : Sql.Expr}
    (found : columnOf owner label = .ok column) : column.needs = 0 := by
  obtain ⟨binding, _, rfl⟩ := columnOf_ok found
  exact Expr.needs_tableColumn _ _

/-- The key of a group writes no parameter. -/
theorem key_needs (group : TableGroup) : group.key.needs = 0 := Expr.needs_tableColumn _ _

/-- A group is joined on a condition, and its name is given. -/
theorem attached_collects {owner name : String} {kind : JoinKind} {target : TableGroup}
    {condition : Sql.Expr} (coherent : target.Coherent) :
    Collects shape shape (fun _ => 0) condition.needs (do
      let join ← groupJoin kind target (some condition)
      attach owner join
      return name) := by
  refine .bindLift fun join built => ?_
  obtain rfl := groupJoin_ok built
  have needs : GroupJoin.needs ⟨kind, target, some condition⟩ + 0 = condition.needs := by
    simp [GroupJoin.needs, conditionNeeds, coherent.needs]
  refine (Collects.bind 0 .attach fun _ => ?_).congr needs
  exact .pure (add_zero _).symm

/-- A join for a to-one step writes no parameter. -/
theorem toOneJoin_collects (owner label : String) :
    Collects shape shape (fun _ => 0) 0 (toOneJoin context owner label) := by
  unfold toOneJoin
  refine .bindKnown fun known => ?_
  split
  · exact .pure rfl
  · refine .bindGroup fun ownerGroup => .bindLift fun entity _ => ?_
    refine .bindLift fun foreignKey keyed => .bindLift fun target built => ?_
    refine (attached_collects (tableGroup_coherent built)).congr ?_
    simp [columnOf_needs keyed, key_needs]

/-- The value of an index goes into the condition of a join. -/
theorem indexJoin_collects (owner label : String) (type : DataType) (index : Sql.Expr) :
    Collects shape shape (fun _ => 0) index.needs (indexJoin context owner label type index) := by
  unfold indexJoin
  refine .bindLift fun entity _ => .bindNumber fun number => ?_
  refine .bindGroup fun ownerGroup => .bindLift fun mapping _ => ?_
  refine .bindLift fun column _ => .bindLift fun target built => ?_
  refine (attached_collects (tableGroup_coherent built)).congr ?_
  simp [key_needs]

/-- A step into a path writes the parameters of its index. -/
theorem step_collects (owner label : String) (type : DataType) (index : Option Sql.Expr) :
    Collects shape shape (fun _ => 0) (conditionNeeds index) (step context owner label type index) := by
  cases index with
  | none => exact toOneJoin_collects owner label
  | some value => exact indexJoin_collects owner label type value

/-! ## Expressions -/

/-- A literal writes no parameter. -/
theorem literal_needs {given : Literal} {value : Sql.Expr} (lowered : literal given = .ok value) :
    value.needs = 0 := by
  unfold literal at lowered
  split at lowered
  · split at lowered
    · obtain rfl := Except.ok.inj lowered
      exact Expr.needs_literal _
    · cases lowered
  · obtain rfl := Except.ok.inj lowered
    exact Expr.needs_literal _

/-- The column of an attribute writes no parameter. -/
theorem columnValue_collects (dotted owner label : String) (type : DataType) :
    Collects shape shape Expr.needs 0 (columnValue dotted owner label type) := by
  unfold columnValue
  split
  · exact .bindThrow
  · exact .bindGroup fun _ => .lift fun _ => columnOf_needs

/-- A call writes the parameters of its argument. -/
theorem call_needs {callee : Function} {distinct : Bool} {argument : Option Sql.Expr}
    {value : Sql.Expr} (lowered : call callee distinct argument = .ok value) :
    value.needs = conditionNeeds argument := by
  unfold call at lowered
  split at lowered
  · obtain rfl := Except.ok.inj lowered
    simp [conditionNeeds]
  · split at lowered
    · obtain rfl := Except.ok.inj lowered
      rfl
    · cases lowered

mutual

/-- An expression is written with the parameters of the tree it is written from.

Proof: by recursion over the expression. A path writes the parameters of its indices into the joins
that it raises, and these belong to the scopes and not to the value. -/
theorem expr_collects : ∀ given : Resolved.Expr,
    Collects shape shape Expr.needs (needsOf given.nodes) (expr context given)
  | .path ⟨source, sourceType, init, ⟨label, declared, index, after⟩, type⟩ => by
    rw [expr]
    refine (Collects.bind (needsOf (Resolved.indexNodes index)) (navigate_collects init source)
      fun owner => ?_).congr (by simp [Resolved.Expr.nodes, Resolved.Expr.ownNeeds])
    refine (Collects.bind 0 (optional_collects index) fun position => ?_).congr (by simp)
    cases position with
    | some value =>
      refine (Collects.bind 0 (indexJoin_collects owner label declared value) fun element => ?_).congr
        (by simp [conditionNeeds])
      exact .bindGroup fun found => .pure (by simp [key_needs])
    | none => exact (columnValue_collects _ owner label declared).congr (by simp [conditionNeeds])
  | .element label _ => by
    rw [expr]
    exact .bindGroup fun found => .pure (by
      simp [key_needs, Resolved.Expr.nodes, Resolved.Expr.ownNeeds])
  | .literal value => by
    rw [expr]
    exact .lift fun _ lowered => by
      simp [literal_needs lowered, Resolved.Expr.nodes, Resolved.Expr.ownNeeds]
  | .parameter bound => by
    rw [expr]
    exact .pure (by simp [Resolved.Expr.nodes, Resolved.Expr.ownNeeds])
  | .arithmetic op left right _ => by
    rw [expr]
    refine (Collects.pair (expr_collects left) (expr_collects right) ?_).congr
      (by simp [Resolved.Expr.nodes, Resolved.Expr.ownNeeds])
    exact fun lowered other => Expr.needs_binary lowered other _
  | .negate operand => by
    rw [expr]
    exact (Collects.map (expr_collects operand) Expr.needs_negate).congr
      (by simp [Resolved.Expr.nodes, Resolved.Expr.ownNeeds])
  | .call callee distinct argument _ => by
    rw [expr]
    refine (Collects.bind 0 (optional_collects argument) fun given => ?_).congr
      (by simp [Resolved.Expr.nodes, Resolved.Expr.ownNeeds])
    exact .lift fun _ lowered => by simp [call_needs lowered]

/-- An index that may be left out is written with its parameters. -/
theorem optional_collects : ∀ given : Option Resolved.Expr,
    Collects shape shape conditionNeeds (needsOf (Resolved.indexNodes given)) (optional context given)
  | none => by
    rw [optional]
    exact .pure rfl
  | some given => by
    rw [optional]
    exact (expr_collects given).map fun index => rfl

/-- The segments of a path write the parameters of their indices. -/
theorem navigate_collects : ∀ (segments : List (Segment Resolved.Expr)) (owner : String),
    Collects shape shape (fun _ => 0) (needsOf (Resolved.segmentNodes segments))
      (navigate context segments owner)
  | [], owner => by
    rw [navigate]
    exact .pure rfl
  | ⟨label, declared, index, after⟩ :: rest, owner => by
    rw [navigate]
    refine (Collects.bind (needsOf (Resolved.segmentNodes rest)) (optional_collects index)
      fun position => ?_).congr (by simp [Resolved.segmentNodes])
    refine Collects.bind _ (step_collects owner label declared position) fun next => ?_
    exact (navigate_collects rest next).congr (zero_add _).symm

end

/-- The table group of a path is found by writing the parameters of the path. -/
theorem pathGroup_collects (reference : Reference Resolved.Expr) :
    Collects shape shape (fun _ => 0) reference.needs (pathGroup context reference) := by
  unfold pathGroup
  refine Collects.bind _ (navigate_collects reference.init reference.source) fun owner => ?_
  refine (Collects.bind 0 (optional_collects reference.last.index) fun index => ?_).congr (by simp)
  refine Collects.bind 0 (step_collects owner _ _ index) fun target => ?_
  exact .congr .group (add_zero _).symm

/-! ## Select lists -/

/-- The columns of several selections write what each of them does. -/
theorem selectionNeeds_flatten (lists : List (List (Sql.Selection Sql.Expr))) :
    selectionNeeds lists.flatten = (lists.map selectionNeeds).sum := by
  induction lists with
  | nil => rfl
  | cons list rest ih => simp [selectionNeeds, ← ih]

/-- The items of a select list collect what each of them collects. -/
theorem selections_collect {step : Resolved.Selection → Lowering (List (Sql.Selection Sql.Expr))}
    (collects : ∀ selection : Resolved.Selection,
      Collects shape shape selectionNeeds (needsOf selection.expr.nodes) (step selection))
    (given : List Resolved.Selection) :
    Collects shape shape (fun chosen => selectionNeeds chosen.flatten)
      (needsOf (given.flatMap fun selection => selection.expr.nodes)) (given.mapM step) := by
  simp only [selectionNeeds_flatten, Resolved.needsOf_flatMap]
  exact .mapM fun selection _ => collects selection

/-- A selection of a sub-query is written with the parameters of its value. -/
theorem innerSelection_collects (given : Resolved.Selection) :
    Collects shape shape selectionNeeds (needsOf given.expr.nodes) (innerSelection context given) := by
  unfold innerSelection
  exact (expr_collects given.expr).map fun value => by simp [selectionNeeds]

/-- The columns a whole entity is shown with write no parameter. -/
theorem columns_collects (group : TableGroup) :
    Collects shape shape selectionNeeds 0 (topSelection.columns group) := by
  refine .pure (List.sum_eq_zero fun needs member => ?_)
  simp only [TableGroup.allColumns, List.map_cons, List.map_map, List.mem_cons, List.mem_map,
    Function.comp_apply] at member
  rcases member with rfl | ⟨binding, _, rfl⟩
  · exact key_needs group
  · exact Expr.needs_tableColumn _ _

/-- A selection is written with the parameters of its value, shown as an entity or not. -/
theorem topSelection_collects (given : Resolved.Selection) :
    Collects shape shape selectionNeeds (needsOf given.expr.nodes) (topSelection context given) := by
  have single : Collects shape shape selectionNeeds (needsOf given.expr.nodes)
      (topSelection.single context given) := innerSelection_collects given
  unfold topSelection
  split
  · rename_i source type chosen
    rw [chosen]
    refine .bindGroup fun found => (columns_collects found).congr ?_
    simp [Resolved.Expr.nodes, Resolved.Expr.ownNeeds]
  · rename_i reference chosen
    split
    · refine (Collects.bind 0 (pathGroup_collects reference) fun found => ?_).congr ?_
      · exact (columns_collects found).congr (add_zero _).symm
      · rw [chosen, add_zero, ← Reference.needs_eq]
    · exact single
  · exact single

/-! ## Conditions -/

/-- Of a path to a collection everything is lowered but an index at its end. -/
theorem memberOf_collects (element : Resolved.Expr) (collection : Reference Resolved.Expr)
    (negated : Bool) (unindexed : collection.last.index = none) :
    Collects shape shape Expr.needs
      (needsOf element.nodes + needsOf (Resolved.Expr.path collection).nodes)
      (memberOf context element collection negated) := by
  have path : needsOf (Resolved.Expr.path collection).nodes =
      needsOf (Resolved.segmentNodes collection.init) := by
    have needs : needsOf (Resolved.Expr.path collection).nodes = collection.needs :=
      collection.needs_eq
    rw [needs, Reference.needs, unindexed]
    exact add_zero _
  rw [path]
  unfold memberOf
  refine Collects.bind _ (expr_collects element) fun test => ?_
  refine (Collects.bind test.needs (navigate_collects collection.init collection.source)
    fun owner => ?_).congr (add_comm _ _)
  split
  · refine .bindGroup fun ownerGroup => .bindLift fun mapping _ => ?_
    refine .bindLift fun elementTable _ => .pure ?_
    simp [tokenNeeds_query, selectionNeeds, joinNeeds, conditionNeeds, sortNeeds, key_needs]
  · exact .throw

/-- The condition that follows an association writes no parameter. -/
theorem associationCondition_collects (owner : String) (path : List String) (plural : Bool)
    (target : TableGroup) :
    Collects shape shape Expr.needs 0 (associationCondition context owner path plural target) := by
  unfold associationCondition
  split
  · exact .throw
  · refine (Collects.bind 0 (.foldlM toOneJoin_collects path.dropLast owner) fun last => ?_).congr
      (add_zero _)
    refine .bindGroup fun ownerGroup => ?_
    split
    · exact .bindLift fun mapping _ => .pure (by simp [key_needs])
    · exact .bindLift fun foreignKey found => .pure (by simp [columnOf_needs found, key_needs])

/-- The condition a source of a clause implies writes no parameter. -/
theorem impliedCondition_collects (origin : FromOrigin) (target : TableGroup) :
    Collects shape shape conditionNeeds 0 (impliedCondition context origin target) := by
  unfold impliedCondition
  split
  · rename_i owner path plural
    exact (associationCondition_collects owner path plural target).map fun condition => rfl
  · exact .pure rfl
  · exact .pure rfl

/-- The group of a source is coherent. -/
theorem sourceGroup_coherent {node : Resolved.FromNode} {group : TableGroup}
    (built : sourceGroup context node = .ok group) : group.Coherent := by
  unfold sourceGroup at built
  split at built
  · exact tableGroup_coherent built
  · cases built

/-- A join of a coherent group writes the parameters of its condition. -/
theorem joinOf_needs {kind : JoinKind} {target : TableGroup} {condition : Option Sql.Expr}
    {join : GroupJoin} (coherent : target.Coherent) (built : joinOf kind target condition = .ok join) :
    join.needs = conditionNeeds condition := by
  unfold joinOf at built
  split at built
  all_goals
    obtain rfl := groupJoin_ok built
    simp [GroupJoin.needs, coherent.needs, conditionNeeds]

/-- Two conditions joined by `and` write what both of them do. -/
theorem conditionNeeds_conjunction (first second : Option Sql.Expr) :
    conditionNeeds (Sql.Expr.conjunction (first.toList ++ second.toList)) =
      conditionNeeds first + conditionNeeds second := by
  rw [conditionNeeds, Expr.needs_conjunction]
  cases first <;> cases second <;> simp [conditionNeeds]

mutual

/-- A predicate is written with the parameters of the tree, all of them where it writes all it
holds.

Proof: by recursion over the predicate. The indices of a path are written into the joins and not
where the path stands, so the parameters are counted as a multiset. -/
theorem predicate_collects {shape : List Nat} : ∀ given : Resolved.Predicate, given.WritesAll →
    Collects shape shape Expr.needs (needsOf given.nodes) (predicate context given)
  | .and left right, writes => by
    rw [predicate, Resolved.Predicate.nodes, Resolved.needsOf_append]
    exact .pair (predicate_collects left writes.1) (predicate_collects right writes.2)
      fun first second => Expr.needs_binary first second _
  | .or left right, writes => by
    rw [predicate, Resolved.Predicate.nodes, Resolved.needsOf_append]
    exact .pair (predicate_collects left writes.1) (predicate_collects right writes.2)
      fun first second => Expr.needs_binary first second _
  | .not operand, writes => by
    rw [predicate, Resolved.Predicate.nodes]
    exact (predicate_collects operand writes).map Expr.needs_not
  | .compare op left right, _ => by
    rw [predicate, Resolved.Predicate.nodes, Resolved.needsOf_append]
    exact .pair (expr_collects left) (expr_collects right)
      fun first second => Expr.needs_binary first second _
  | .inList test values negated, filled => by
    rw [predicate, Resolved.Predicate.nodes, Resolved.needsOf_append, Resolved.needsOf_flatMap]
    intro state value later shaped run
    simp only [yields_bind, yields_pure] at run
    obtain ⟨lowered, between, ranTest, items, _, ranItems, rfl, rfl⟩ := run
    obtain ⟨shapedBetween, kept⟩ := expr_collects test shaped ranTest
    obtain ⟨shapedLater, keptItems⟩ :=
      Collects.mapM (fun given _ => expr_collects given) shapedBetween ranItems
    have some_item : items ≠ [] := by
      rw [← List.length_pos_iff, length_of_mapM ranItems, List.length_pos_iff]
      exact filled
    refine ⟨shapedLater, ?_⟩
    rw [Expr.needs_inList lowered some_item]
    calc later.needs + (lowered.needs + (items.map Expr.needs).sum)
      _ = later.needs + (items.map Expr.needs).sum + lowered.needs := by abel
      _ = between.needs + lowered.needs + (values.map fun given => needsOf given.nodes).sum := by
        rw [keptItems]
        abel
      _ = state.needs + (needsOf test.nodes + (values.map fun given => needsOf given.nodes).sum) := by
        rw [kept, add_assoc]
  | .inQuery test query negated, writes => by
    rw [predicate, Resolved.Predicate.nodes, Resolved.needsOf_append]
    exact .pair (expr_collects test) (subQuery_collects query writes)
      fun lowered select => Expr.needs_inQuery lowered negated _
  | .memberOf element collection negated, unindexed => by
    rw [predicate, Resolved.Predicate.nodes, Resolved.needsOf_append]
    exact memberOf_collects element collection negated unindexed
  | .isNull operand negated, _ => by
    rw [predicate, Resolved.Predicate.nodes]
    exact (expr_collects operand).map fun lowered => Expr.needs_isNull lowered negated
  | .like operand pattern negated, _ => by
    rw [predicate, Resolved.Predicate.nodes, Resolved.needsOf_append]
    exact .pair (expr_collects operand) (expr_collects pattern)
      fun first second => Expr.needs_like first second negated
  | .between operand low high negated, _ => by
    rw [predicate, Resolved.Predicate.nodes, Resolved.needsOf_append, Resolved.needsOf_append,
      add_assoc]
    refine Collects.bind _ (expr_collects operand) fun first => ?_
    refine (Collects.bind (first.needs + needsOf high.nodes) (expr_collects low)
      fun second => ?_).congr (add_left_comm _ _ _)
    refine (Collects.bind (first.needs + second.needs) (expr_collects high)
      fun third => .pure ?_).congr (by abel)
    rw [Expr.needs_between]
    abel

/-- A filter that may be left out is written with its parameters. -/
theorem filter_collects {shape : List Nat} : ∀ given : Option Resolved.Predicate,
    Resolved.FilterWritesAll given →
      Collects shape shape conditionNeeds (needsOf (Resolved.filterNodes given)) (filter context given)
  | none, _ => by
    rw [filter]
    exact .pure rfl
  | some given, writes => by
    rw [filter, Resolved.filterNodes]
    exact (predicate_collects given writes).map fun lowered => rfl

/-- The joins of a space are written with the parameters of their conditions.

Proof: by induction on the joins. The condition of a join is written with the join when it is put
into its space. -/
theorem joins_collect {count : Nat} {outer : List Nat} (space : Nat) (bound : space < count) :
    ∀ given : List (Resolved.Join Resolved.Predicate), Resolved.JoinsWriteAll given →
      Collects (count :: outer) (count :: outer) (fun _ => 0) (needsOf (Resolved.joinNodes given))
        (joins context space given)
  | [], _ => by
    rw [joins]
    exact .pure rfl
  | ⟨kind, fetch, node, condition⟩ :: rest, writes => by
    rw [joins, Resolved.joinNodes, Resolved.needsOf_append]
    refine .bindLift fun target built => ?_
    have coherent := sourceGroup_coherent built
    refine (Collects.bind _ (impliedCondition_collects node.origin target) fun implied => ?_).congr
      (zero_add _)
    have grouped : ∀ scope : LoweringScope, scope.spaces.length = count → scope.IsSettled →
        (scope.addGroup space target).spaces.length = count ∧
          (scope.addGroup space target).IsSettled ∧
            (scope.addGroup space target).needs = scope.needs + 0 := by
      intro scope length settled
      exact ⟨length, settled.addGroup (length ▸ bound), (add_zero _).symm⟩
    refine (Collects.bind _ (.changeScope grouped) fun _ => ?_).congr (zero_add _)
    refine .bindScope fun before _ => ?_
    refine (Collects.bind (conditionNeeds implied + needsOf (Resolved.joinNodes rest))
      (filter_collects condition writes.1) fun written => ?_).congr (by abel)
    refine .bindLift fun join joined => ?_
    have inserted : ∀ scope : LoweringScope, scope.spaces.length = count → scope.IsSettled →
        (scope.insertJoin space (before.joinCount space) join).spaces.length = count ∧
          (scope.insertJoin space (before.joinCount space) join).IsSettled ∧
            (scope.insertJoin space (before.joinCount space) join).needs =
              scope.needs + join.needs := by
      intro scope length settled
      have same : (scope.insertJoin space (before.joinCount space) join).spaces.length =
          scope.spaces.length := by simp [LoweringScope.insertJoin]
      exact ⟨same.trans length, settled.insertJoin _,
        LoweringScope.needs_insertJoin (length ▸ bound) _⟩
    refine (Collects.bind (needsOf (Resolved.joinNodes rest)) (.changeScope inserted)
      fun _ => ?_).congr ?_
    · exact (joins_collect space bound rest writes.2).congr (zero_add _).symm
    · rw [joinOf_needs coherent joined, conditionNeeds_conjunction]
      abel

/-- The spaces of a clause are written with the parameters of their joins. -/
theorem spaces_collect {count : Nat} {outer : List Nat} :
    ∀ given : List (Resolved.FromSpace Resolved.Predicate), Resolved.SpacesWriteAll given →
      Collects (count :: outer) ((count + given.length) :: outer) (fun _ => 0)
        (needsOf (Resolved.spaceNodes given)) (spaces context given)
  | [], _ => by
    rw [spaces]
    exact .pure rfl
  | ⟨node, joined⟩ :: rest, writes => by
    rw [spaces, Resolved.spaceNodes, Resolved.needsOf_append]
    refine .bindLift fun root built => .bindScope fun before length => ?_
    have opened : ∀ scope : LoweringScope, scope.spaces.length = count → scope.IsSettled →
        (scope.addSpace root).spaces.length = count + 1 ∧ (scope.addSpace root).IsSettled ∧
          (scope.addSpace root).needs = scope.needs + 0 := by
      intro scope length settled
      have plain := (sourceGroup_coherent built).needs
      refine ⟨by simp [LoweringScope.addSpace, length], settled.addSpace plain, ?_⟩
      rw [LoweringScope.needs_addSpace, plain]
    have longer : count + (FromSpace.mk node joined :: rest).length = count + 1 + rest.length := by
      rw [List.length_cons]
      omega
    rw [longer, length]
    refine (Collects.bind _ (.changeScope opened) fun _ => ?_).congr (zero_add _)
    refine (Collects.bind (needsOf (Resolved.spaceNodes rest))
      (joins_collect count (Nat.lt_succ_self count) joined writes.1) fun _ => ?_).congr
        (zero_add _).symm
    exact (spaces_collect rest writes.2).congr (zero_add _).symm

/-- A sub-query is written with the parameters of all its clauses. -/
theorem subQuery_collects {shape : List Nat} : ∀ given : Resolved.Query Resolved.Predicate,
    Resolved.QueryWritesAll given →
      Collects shape shape (fun select => tokenNeeds select.toQuery.tokens)
        (needsOf (Resolved.queryNodes given)) (subQuery context given)
  | ⟨items, distinct, selections, condition⟩, writes => by
    rw [subQuery]
    have body : Collects (0 :: shape) ((0 + items.length) :: shape)
        (fun result => selectionNeeds result.1 + conditionNeeds result.2)
        (needsOf (Resolved.queryNodes ⟨items, distinct, selections, condition⟩)) (do
          spaces context items
          let chosen ← selections.mapM (innerSelection context)
          let condition ← filter context condition
          return (chosen.flatten, condition)) := by
      refine (Collects.bind (needsOf (selections.flatMap fun selection => selection.expr.nodes) +
        needsOf (Resolved.filterNodes condition)) (spaces_collect items writes.1) fun _ => ?_).congr ?_
      · exact .congr (.pair (selections_collect innerSelection_collects selections)
          (filter_collects condition writes.2) fun _ _ => rfl) (zero_add _).symm
      · rw [Resolved.queryNodes, Resolved.needsOf_append, Resolved.needsOf_append]
        abel
    refine (Collects.bind 0 (.inScope rfl LoweringScope.isSettled_empty body) ?_).congr (add_zero _)
    rintro ⟨⟨chosen, lowered⟩, scope⟩
    refine .pure ?_
    rw [Select.tokenNeeds_toQuery]
    simp only [sortNeeds, LoweringScope.needs, List.map_nil, List.sum_nil]
    abel

end

/-! ## Statements -/

/-- A selecting statement is written with the parameters of its clauses and its sort keys.

Proof: every clause is collected into the level or into its own list, and the query writes each of
them once. -/
theorem select_collects (query : Resolved.QuerySpec) (order : List Resolved.SortKey)
    (writes : Resolved.QueryWritesAll query) :
    Collects shape shape (fun select => tokenNeeds select.toQuery.tokens)
      (needsOf (Resolved.queryNodes query ++ order.flatMap fun key => key.expr.nodes))
        (select context query order) := by
  obtain ⟨items, distinct, selections, condition⟩ := query
  unfold select
  have keys : Collects ((0 + items.length) :: shape) ((0 + items.length) :: shape) sortNeeds
      (needsOf (order.flatMap fun key => key.expr.nodes)) (order.mapM (sortKey context)) := by
    rw [Resolved.needsOf_flatMap]
    exact .mapM fun key _ => (expr_collects key.expr).map fun value => rfl
  have body : Collects (0 :: shape) ((0 + items.length) :: shape)
      (fun result => selectionNeeds result.1 + (conditionNeeds result.2.1 + sortNeeds result.2.2))
      (needsOf (Resolved.spaceNodes items) +
        (needsOf (selections.flatMap fun selection => selection.expr.nodes) +
          (needsOf (Resolved.filterNodes condition) +
            needsOf (order.flatMap fun key => key.expr.nodes)))) (do
        spaces context items
        let chosen ← selections.mapM (topSelection context)
        let condition ← filter context condition
        let keys ← order.mapM (sortKey context)
        return (chosen.flatten, condition, keys)) := by
    refine Collects.bind _ (spaces_collect items writes.1) fun _ => ?_
    refine (Collects.bind _ (selections_collect topSelection_collects selections)
      fun chosen => ?_).congr (zero_add _).symm
    refine (Collects.bind (selectionNeeds chosen.flatten +
      needsOf (order.flatMap fun key => key.expr.nodes)) (filter_collects condition writes.2)
        fun lowered => ?_).congr (add_left_comm _ _ _)
    refine (Collects.bind (selectionNeeds chosen.flatten + conditionNeeds lowered) keys
      fun sorted => .pure ?_).congr (by abel)
    abel
  refine (Collects.bind 0 (.inScope rfl LoweringScope.isSettled_empty body) ?_).congr ?_
  · rintro ⟨⟨chosen, lowered, sorted⟩, scope⟩
    refine .pure ?_
    rw [Select.tokenNeeds_toQuery]
    simp only [LoweringScope.needs]
    abel
  · simp only [Resolved.queryNodes, Resolved.needsOf_append]
    abel

/-- In the level of a change nothing is joined in the end, so everything is in the value. -/
theorem inTargetScope_collects {α : Type} {view : α → Multiset Parameter}
    {met : Multiset Parameter} (verb : BulkVerb) {group : TableGroup} {body : Lowering α}
    (plain : group.needs = 0) (collects : Collects (1 :: shape) (1 :: shape) view met body) :
    Collects shape shape view met (inTargetScope verb group body) := by
  intro state value later shaped run
  simp only [inTargetScope, yields_bind] at run
  obtain ⟨⟨result, scope⟩, between, ranScope, run⟩ := run
  obtain ⟨inner, ran, levels, _⟩ := yields_inScope.mp ranScope
  have target : (LoweringScope.empty.addSpace group).IsSettled :=
    LoweringScope.isSettled_empty.addSpace plain
  have opened : LoweringState.HasShape (1 :: shape)
      { state with scopes := LoweringScope.empty.addSpace group :: state.scopes } :=
    ⟨by simp [shaped.lengths, LoweringScope.addSpace, LoweringScope.empty],
      List.forall_mem_cons.mpr ⟨target, shaped.settled⟩⟩
  obtain ⟨⟨lengths, settled⟩, kept⟩ := collects opened ran
  rw [levels, List.map_cons] at lengths
  rw [levels, List.forall_mem_cons] at settled
  split at run
  · obtain ⟨_, _, thrown, _⟩ := yields_bind.mp run
    exact (yields_throw thrown).elim
  · rename_i unjoined
    obtain ⟨rfl, rfl⟩ := yields_pure.mp run
    have joinless : ∀ space ∈ scope.spaces, space.joins = [] := by simpa using unjoined
    have empty : scope.needs = 0 := settled.1.needs_of_joinless joinless
    have start : (LoweringScope.empty.addSpace group).needs = 0 := by
      rw [LoweringScope.needs_addSpace, plain]
      rfl
    refine ⟨⟨(List.cons.inj lengths).2, settled.2⟩, ?_⟩
    simpa [LoweringState.needs, levels, empty, start] using kept

/-- An assignment writes the parameters of its value. -/
theorem assignment_collects (given : Resolved.Assignment) :
    Collects shape shape (·.2.needs) (needsOf given.value.nodes) (assignment context given) := by
  unfold assignment
  refine .bindGroup fun owner => ?_
  split
  · exact .throw
  · exact (expr_collects given.value).map fun value => rfl

/-- The table a bulk statement changes writes no parameter. -/
theorem targetGroup_needs {verb : BulkVerb} {target : Resolved.FromNode} {group : TableGroup}
    (built : targetGroup context verb target = .ok group) : group.needs = 0 := by
  obtain ⟨entity, table, _, rfl⟩ := targetGroup_ok built
  rfl

/-- The placeholders of a lowered statement stand for its parameters, each as often as it occurs. -/
theorem statement_collects (given : Resolved.Statement) (writes : given.WritesAll) :
    Collects shape shape (fun lowered => tokenNeeds lowered.tokens) given.needs
      (statement context given) := by
  cases given with
  | select query order => exact (select_collects query order writes).map fun lowered => rfl
  | update target assignments condition =>
    refine .bindLift fun group built => ?_
    refine inTargetScope_collects .update (targetGroup_needs built) ?_
    rw [Resolved.Statement.needs, Resolved.Statement.nodes, Resolved.needsOf_append,
      Resolved.needsOf_flatMap]
    refine .pair (.mapM fun given _ => assignment_collects given) (filter_collects condition writes) ?_
    intro lowered filtered
    exact Update.tokenNeeds_tokens _
  | delete target condition =>
    refine .bindLift fun group built => ?_
    refine inTargetScope_collects .delete (targetGroup_needs built) ?_
    exact (filter_collects condition writes).map fun lowered => Delete.tokenNeeds_tokens _

end Lowering
end ObjectQuery

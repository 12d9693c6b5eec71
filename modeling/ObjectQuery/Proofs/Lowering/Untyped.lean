import ObjectQuery.Proofs.Lowering.Group
import ObjectQuery.Proofs.Lowering.Mirrored
import ObjectQuery.Proofs.Resolved.Stripped
/-!
# The lowering looks at no recorded types

The types that a resolved statement records are there for the parameters. Lowering a statement
without them does what lowering the statement does: there is the same error, or there is the same SQL
but for the types of its parameters. Statements that differ only in recorded types therefore have the
same texts and the same parameters at the same positions.
-/
namespace ObjectQuery.Lowering

open Sql
open Resolved (Segment Reference)

variable {context : LoweringContext}

/-! ## Groups and joins -/

/-- A group whose tables are joined on columns has no parameters. -/
theorem stripped_of_coherent {group : TableGroup} (coherent : group.Coherent) :
    group.stripped = group := by
  have kept : ∀ join ∈ group.secondary, join.stripped = id join := by
    intro join member
    obtain ⟨rootColumn, column, joined⟩ := coherent.secondary join member
    have plain : strippedCondition join.condition = join.condition := by
      simp [joined, Sql.Expr.equals, Sql.Expr.tableColumn]
    rw [TableJoin.stripped, plain, id]
  unfold TableGroup.stripped
  rw [List.map_congr_left kept, List.map_id]

/-- The group of an entity has no recorded types. -/
theorem tableGroup_stripped (context : LoweringContext) (label entity : String) :
    context.tableGroup label entity = (context.tableGroup label entity).map TableGroup.stripped := by
  cases built : context.tableGroup label entity with
  | error failure => rfl
  | ok group => rw [Except.map, stripped_of_coherent (tableGroup_coherent built)]

/-- A stripped group has the stripped column of an attribute. -/
theorem columnOf_stripped (owner : TableGroup) (label : String) :
    columnOf owner.stripped label = (columnOf owner label).map Sql.Expr.stripped := by
  have found : owner.stripped.column? label = owner.column? label := rfl
  unfold columnOf
  rw [found]
  unfold TableGroup.column?
  cases owner.binding? label with
  | none => rfl
  | some binding => simp [ColumnBinding.expr, Sql.Expr.tableColumn, Except.map]

/-- A stripped group is joined in the same way. -/
theorem groupJoin_stripped (kind : JoinKind) (group : TableGroup) (condition : Option Sql.Expr) :
    groupJoin kind group.stripped (strippedCondition condition) =
      (groupJoin kind group condition).map GroupJoin.stripped := by
  unfold groupJoin checkJoin
  rw [strippedCondition_eq_map, Option.isSome_map]
  split
  · rfl
  · simp [GroupJoin.stripped, strippedCondition_eq_map, Except.map, bind, Except.bind, pure,
      Except.pure]

/-- So are stripped joins attached to their owners. -/
theorem attached_mirrors (target : TableGroup) (condition : Sql.Expr) (owner name : String) :
    Mirrors id
      (do let join ← groupJoin .inner target (some condition); attach owner join; return name)
      (do let join ← groupJoin .inner target.stripped (some condition.stripped); attach owner join
          return name) := by
  refine .bind (.lift ?_) fun join => .bind (.attach owner join) fun _ => .pure name
  exact groupJoin_stripped .inner target (some condition)

/-- Joining along an association does not depend on recorded types. -/
theorem toOneJoin_mirrors (owner label : String) :
    Mirrors id (toOneJoin context owner label) (toOneJoin context owner label) := by
  unfold toOneJoin
  refine .bind (.isKnown _) fun known => .ite known (.pure _) ?_
  refine .bind (.group owner) fun ownerGroup => .bind (Mirrors.same _) fun entity => ?_
  refine .bind (.lift (columnOf_stripped ownerGroup label)) fun foreignKey => ?_
  refine .bind (.lift (tableGroup_stripped context _ entity)) fun target => ?_
  exact attached_mirrors target (foreignKey.equals target.key) owner _

/-- Nor does joining an element. -/
theorem indexJoin_mirrors (owner label : String) (type : DataType) (index : Sql.Expr) :
    Mirrors id (indexJoin context owner label type index)
      (indexJoin context owner label type index.stripped) := by
  unfold indexJoin
  refine .bind (.same _) fun entity => .bind .nextIndexJoin fun number => ?_
  refine .bind (.group owner) fun ownerGroup => .bind (.same _) fun mapping => ?_
  refine .bind (.same _) fun column => ?_
  refine .bind (.lift (tableGroup_stripped context _ entity)) fun target => ?_
  exact attached_mirrors target (Sql.Expr.both
    (ownerGroup.key.equals (.tableColumn target.root.label mapping.ownerColumn))
    (Sql.Expr.equals (.tableColumn target.root.label column) index)) owner _

/-- Nor does any step of a path. -/
theorem step_mirrors (owner label : String) (type : DataType) (index : Option Sql.Expr) :
    Mirrors id (step context owner label type index)
      (step context owner label type (strippedCondition index)) := by
  cases index with
  | none => exact toOneJoin_mirrors owner label
  | some value => exact indexJoin_mirrors owner label type value

/-! ## Expressions -/

/-- A literal has no recorded type. -/
theorem literal_stripped (value : Literal) :
    literal value = (literal value).map Sql.Expr.stripped := by
  cases value with
  | decimal number =>
    change (if number.isFinite then _ else _) = Except.map _ (if number.isFinite then _ else _)
    split <;> rfl
  | _ => rfl

/-- The column at the end of a path does not depend on recorded types. -/
theorem columnValue_mirrors (dotted owner label : String) (type : DataType) :
    Mirrors Sql.Expr.stripped (columnValue dotted owner label type)
      (columnValue dotted owner label type) := by
  unfold columnValue
  refine .ite type.isPlural ?_ ?_
  · exact .bind (.throw _ : Mirrors id _ _) fun _ => .bind (.group owner) fun ownerGroup =>
      .lift (columnOf_stripped ownerGroup label)
  · exact .bind (.group owner) fun ownerGroup => .lift (columnOf_stripped ownerGroup label)

/-- A call does not depend on recorded types. -/
theorem call_stripped (callee : Function) (distinct : Bool) (argument : Option Sql.Expr) :
    call callee distinct (strippedCondition argument) =
      (call callee distinct argument).map Sql.Expr.stripped := by
  cases argument with
  | some value => simp [call, Except.map]
  | none =>
    simp only [call, strippedCondition]
    split <;> rfl

mutual

/-- Nor does any expression. -/
theorem expr_mirrors : ∀ given : Resolved.Expr,
    Mirrors Sql.Expr.stripped (expr context given) (expr context given.stripped)
  | .path ⟨source, sourceType, init, ⟨label, declared, index, after⟩, type⟩ => by
    rw [Resolved.Expr.stripped, expr, expr]
    refine .bind (navigate_mirrors init source) fun owner => ?_
    refine .bind (optional_mirrors index) fun position => ?_
    cases position with
    | some value =>
      refine .bind (indexJoin_mirrors owner label declared value) fun element => ?_
      exact .bind (.group element) fun found => .pure found.key
    | none =>
      let reference : Reference Resolved.Expr :=
        ⟨source, sourceType, init, ⟨label, declared, index, after⟩, type⟩
      change Mirrors _ (columnValue reference.dotted owner label declared)
        (columnValue reference.stripped.dotted owner label declared)
      rw [Reference.dotted_stripped]
      exact columnValue_mirrors reference.dotted owner label declared
  | .element label _ => by
    rw [Resolved.Expr.stripped, expr, expr]
    exact .bind (.group label) fun found => .pure found.key
  | .literal value => by
    rw [Resolved.Expr.stripped, expr]
    exact .lift (literal_stripped value)
  | .parameter bound => by
    rw [Resolved.Expr.stripped, expr, expr]
    exact .pure _
  | .arithmetic op left right _ => by
    rw [Resolved.Expr.stripped, expr, expr]
    exact .bind (expr_mirrors left) fun first => .bind (expr_mirrors right) fun second =>
      .pure (Expr.binary (.arithmetic op) first second)
  | .negate operand => by
    rw [Resolved.Expr.stripped, expr, expr]
    exact .bind (expr_mirrors operand) fun value => .pure value.negate
  | .call callee distinct argument _ => by
    rw [Resolved.Expr.stripped, expr, expr]
    refine .bind (optional_mirrors argument) fun given => ?_
    exact .lift (call_stripped callee distinct given)

/-- Nor does an index or argument. -/
theorem optional_mirrors : ∀ given : Option Resolved.Expr,
    Mirrors strippedCondition (optional context given) (optional context (Resolved.strippedIndex given))
  | none => by
    rw [Resolved.strippedIndex, optional]
    exact .pure none
  | some given => by
    rw [Resolved.strippedIndex, optional, optional]
    exact .bind (expr_mirrors given) fun value => .pure (some value)

/-- Nor does the way along segments. -/
theorem navigate_mirrors : ∀ (segments : List (Segment Resolved.Expr)) (owner : String),
    Mirrors id (navigate context segments owner)
      (navigate context (Resolved.strippedSegments segments) owner)
  | [], owner => by
    rw [Resolved.strippedSegments, navigate]
    exact .pure owner
  | ⟨label, declared, index, after⟩ :: rest, owner => by
    rw [Resolved.strippedSegments, navigate, navigate]
    refine .bind (optional_mirrors index) fun position => ?_
    exact .bind (step_mirrors owner label declared position) fun next => navigate_mirrors rest next

end

/-- Nor does the entity at the end of a path. -/
theorem pathGroup_mirrors (reference : Reference Resolved.Expr) :
    Mirrors TableGroup.stripped (pathGroup context reference)
      (pathGroup context reference.stripped) := by
  unfold pathGroup
  refine .bind (navigate_mirrors reference.init reference.source) fun owner => ?_
  refine .bind (optional_mirrors reference.last.index) fun index => ?_
  exact .bind (step_mirrors owner _ _ index) fun target => .group target

/-- Nor does an item of a sub-select. -/
theorem innerSelection_mirrors (given : Resolved.Selection) :
    Mirrors (List.map Selection.stripped) (innerSelection context given)
      (innerSelection context given.stripped) := by
  unfold innerSelection
  exact .bind (expr_mirrors given.expr) fun value => .pure [Selection.mk value given.label]

/-- Nor do the columns of a group. -/
theorem columns_mirrors (group : TableGroup) :
    Mirrors (List.map Selection.stripped) (topSelection.columns group)
      (topSelection.columns group.stripped) := by
  let items := group.allColumns.map fun column => Selection.mk column none
  have kept : items.map Selection.stripped = items := by
    simp [items, TableGroup.allColumns, TableGroup.key, ColumnBinding.expr, Sql.Expr.tableColumn,
      Selection.stripped]
  have mirrors : Mirrors (List.map Selection.stripped) (pure items)
      (pure (items.map Selection.stripped)) := .pure items
  rwa [kept] at mirrors

/-- Nor does an item of the outermost select list. -/
theorem topSelection_mirrors (given : Resolved.Selection) :
    Mirrors (List.map Selection.stripped) (topSelection context given)
      (topSelection context given.stripped) := by
  have single : Mirrors (List.map Selection.stripped) (topSelection.single context given)
      (topSelection.single context given.stripped) :=
    .bind (expr_mirrors given.expr) fun value => .pure [Selection.mk value given.label]
  obtain ⟨chosen, label⟩ := given
  cases chosen with
  | element source type => exact .bind (.group source) fun found => columns_mirrors found
  | path reference =>
    change Mirrors _ (if reference.type.entity?.isSome then _ else _)
      (if reference.stripped.type.entity?.isSome then _ else _)
    rw [Reference.type_stripped]
    exact .ite _ (.bind (pathGroup_mirrors reference) fun found => columns_mirrors found) single
  | _ => exact single

/-- Nor does a test for membership. -/
theorem memberOf_mirrors (element : Resolved.Expr) (collection : Reference Resolved.Expr)
    (negated : Bool) :
    Mirrors Sql.Expr.stripped (memberOf context element collection negated)
      (memberOf context element.stripped collection.stripped negated) := by
  unfold memberOf
  refine .bind (expr_mirrors element) fun test => ?_
  refine .bind (navigate_mirrors collection.init collection.source) fun owner => ?_
  have declared : collection.stripped.last.declared = collection.last.declared := rfl
  rw [Reference.dotted_stripped, declared]
  cases collection.last.declared.element?.bind DataType.entity? with
  | none => exact .throw _
  | some entity =>
    refine .bind (.group owner) fun ownerGroup => .bind (.same _) fun mapping => ?_
    refine .bind (.same _) fun elementTable => ?_
    exact .pure (Sql.Expr.inQuery test _ negated)

/-! ## Predicates and queries -/

/-- Nor does the condition along an association. -/
theorem associationCondition_mirrors (owner : String) (path : List String) (plural : Bool)
    (target : TableGroup) :
    Mirrors Sql.Expr.stripped (associationCondition context owner path plural target)
      (associationCondition context owner path plural target.stripped) := by
  unfold associationCondition
  cases path.getLast? with
  | none => exact .throw _
  | some last =>
    refine .bind (.foldlM toOneJoin_mirrors path.dropLast owner) fun reached => ?_
    refine .bind (.group reached) fun ownerGroup => .ite plural ?_ ?_
    · exact .bind (.same _) fun mapping => .pure (ownerGroup.key.equals
        (.tableColumn target.root.label mapping.ownerColumn))
    · exact .bind (.lift (columnOf_stripped ownerGroup last)) fun foreignKey =>
        .pure (foreignKey.equals target.key)

/-- Nor does the condition that a join implies. -/
theorem impliedCondition_mirrors (origin : FromOrigin) (target : TableGroup) :
    Mirrors strippedCondition (impliedCondition context origin target)
      (impliedCondition context origin target.stripped) := by
  cases origin with
  | pathJoin owner path plural =>
    exact .bind (associationCondition_mirrors owner path plural target) fun condition =>
      .pure (some condition)
  | root => exact .pure none
  | entityJoin => exact .pure none

/-- The group of a source has no recorded types. -/
theorem sourceGroup_stripped (node : Resolved.FromNode) :
    sourceGroup context node = (sourceGroup context node).map TableGroup.stripped := by
  unfold sourceGroup
  split
  · exact tableGroup_stripped context node.label _
  · rfl

/-- A stripped join is made in the same way. -/
theorem joinOf_stripped (kind : JoinKind) (target : TableGroup) (condition : Option Sql.Expr) :
    joinOf kind target.stripped (strippedCondition condition) =
      (joinOf kind target condition).map GroupJoin.stripped := by
  cases kind with
  | cross => exact groupJoin_stripped .cross target condition
  | inner => cases condition with
    | none => exact groupJoin_stripped .cross target none
    | some given => exact groupJoin_stripped .inner target (some given)
  | leftOuter => cases condition with
    | none => exact groupJoin_stripped .leftOuter target (some (.literal (.boolean true)))
    | some given => exact groupJoin_stripped .leftOuter target (some given)

/-- Stripped conditions are joined to a stripped conjunction. -/
theorem conjunction_stripped (first second : Option Sql.Expr) :
    Sql.Expr.conjunction ((strippedCondition first).toList ++ (strippedCondition second).toList) =
      strippedCondition (Sql.Expr.conjunction (first.toList ++ second.toList)) := by
  cases first <;> cases second <;> rfl

mutual

/-- Lowering a predicate does not depend on recorded types.

Proof: by recursion over the predicate. No step of the lowering reads the type of a parameter; it is
only written into placeholders. -/
theorem predicate_mirrors : ∀ given : Resolved.Predicate,
    Mirrors Sql.Expr.stripped (predicate context given) (predicate context given.stripped)
  | .and left right => by
    rw [Resolved.Predicate.stripped, predicate, predicate]
    exact .bind (predicate_mirrors left) fun first => .bind (predicate_mirrors right) fun second =>
      .pure (Expr.binary .and first second)
  | .or left right => by
    rw [Resolved.Predicate.stripped, predicate, predicate]
    exact .bind (predicate_mirrors left) fun first => .bind (predicate_mirrors right) fun second =>
      .pure (Expr.binary .or first second)
  | .not operand => by
    rw [Resolved.Predicate.stripped, predicate, predicate]
    exact .bind (predicate_mirrors operand) fun value => .pure value.not
  | .compare op left right => by
    rw [Resolved.Predicate.stripped, predicate, predicate]
    exact .bind (expr_mirrors left) fun first => .bind (expr_mirrors right) fun second =>
      .pure (Expr.binary (.comparison op) first second)
  | .inList test values negated => by
    rw [Resolved.Predicate.stripped, predicate, predicate]
    refine .bind (expr_mirrors test) fun first => ?_
    refine .bind (.mapM expr_mirrors values) fun others => ?_
    rw [← strippedList_eq_map]
    exact .pure (Expr.inList first others negated)
  | .inQuery test query negated => by
    rw [Resolved.Predicate.stripped, predicate, predicate]
    refine .bind (expr_mirrors test) fun first => .bind (subQuery_mirrors query) fun select => ?_
    rw [Select.toQuery_stripped]
    exact .pure (Expr.inQuery first select.toQuery negated)
  | .memberOf element collection negated => by
    rw [Resolved.Predicate.stripped, predicate, predicate]
    exact memberOf_mirrors element collection negated
  | .isNull operand negated => by
    rw [Resolved.Predicate.stripped, predicate, predicate]
    exact .bind (expr_mirrors operand) fun value => .pure (value.isNull negated)
  | .like operand pattern negated => by
    rw [Resolved.Predicate.stripped, predicate, predicate]
    exact .bind (expr_mirrors operand) fun value => .bind (expr_mirrors pattern) fun second =>
      .pure (value.like second negated)
  | .between operand low high negated => by
    rw [Resolved.Predicate.stripped, predicate, predicate]
    exact .bind (expr_mirrors operand) fun value => .bind (expr_mirrors low) fun least =>
      .bind (expr_mirrors high) fun greatest => .pure (value.between least greatest negated)

/-- Nor does a condition that may be absent. -/
theorem filter_mirrors : ∀ given : Option Resolved.Predicate,
    Mirrors strippedCondition (filter context given) (filter context (Resolved.strippedFilter given))
  | none => by
    rw [Resolved.strippedFilter, filter]
    exact .pure none
  | some given => by
    rw [Resolved.strippedFilter, filter, filter]
    exact .bind (predicate_mirrors given) fun condition => .pure (some condition)

/-- Nor do joins. -/
theorem joins_mirrors (space : Nat) : ∀ given : List (Resolved.Join Resolved.Predicate),
    Mirrors id (joins context space given) (joins context space (Resolved.strippedJoins given))
  | [] => by
    rw [Resolved.strippedJoins, joins]
    exact .pure ()
  | ⟨kind, _, node, condition⟩ :: rest => by
    rw [Resolved.strippedJoins, joins, joins]
    refine .bind (.lift (sourceGroup_stripped node)) fun target => ?_
    refine .bind (impliedCondition_mirrors node.origin target) fun implied => ?_
    refine .bind (.changeScope fun scope => scope.stripped_addGroup space target) fun _ => ?_
    refine .bind .currentScope fun before => .bind (filter_mirrors condition) fun written => ?_
    rw [conjunction_stripped, LoweringScope.joinCount_stripped]
    refine .bind (.lift (joinOf_stripped kind target _)) fun join => ?_
    refine .bind (.changeScope fun scope => scope.stripped_insertJoin space _ join) fun _ => ?_
    exact joins_mirrors space rest

/-- Nor do the items of a from-clause. -/
theorem spaces_mirrors : ∀ given : List (Resolved.FromSpace Resolved.Predicate),
    Mirrors id (spaces context given) (spaces context (Resolved.strippedSpaces given))
  | [] => by
    rw [Resolved.strippedSpaces, spaces]
    exact .pure ()
  | ⟨node, joined⟩ :: rest => by
    rw [Resolved.strippedSpaces, spaces, spaces]
    refine .bind (.lift (sourceGroup_stripped node)) fun root => .bind .currentScope fun before => ?_
    refine .bind (.changeScope fun scope => scope.stripped_addSpace root) fun _ => ?_
    have opened : before.stripped.spaces.length = before.spaces.length := by
      simp [LoweringScope.stripped]
    rw [opened]
    exact .bind (joins_mirrors before.spaces.length joined) fun _ => spaces_mirrors rest

/-- Nor does a sub-query. -/
theorem subQuery_mirrors : ∀ given : Resolved.Query Resolved.Predicate,
    Mirrors Select.stripped (subQuery context given) (subQuery context (Resolved.strippedQuery given))
  | ⟨items, distinct, selections, condition⟩ => by
    rw [Resolved.strippedQuery, subQuery, subQuery]
    refine .bind (.inScope .empty (?_ : Mirrors (Prod.map (List.map Selection.stripped)
      strippedCondition) _ _)) fun result => ?_
    · refine .bind (spaces_mirrors items) fun _ => ?_
      refine .bind (.mapM innerSelection_mirrors selections) fun chosen => ?_
      refine .bind (filter_mirrors condition) fun written => ?_
      rw [← List.map_flatten]
      exact .pure (chosen.flatten, written)
    · obtain ⟨⟨chosen, written⟩, scope⟩ := result
      exact .pure (Select.mk distinct chosen scope.spaces written [])

end

/-! ## Statements -/

/-- Nor does a sort key. -/
theorem sortKey_mirrors (key : Resolved.SortKey) :
    Mirrors SortKey.stripped (sortKey context key) (sortKey context key.stripped) := by
  unfold sortKey
  exact .bind (expr_mirrors key.expr) fun value => .pure (SortKey.mk value key.order)

/-- Nor does the query of a statement. -/
theorem select_mirrors (query : Resolved.QuerySpec) (order : List Resolved.SortKey) :
    Mirrors Select.stripped (select context query order)
      (select context (Resolved.strippedQuery query) (order.map Resolved.SortKey.stripped)) := by
  obtain ⟨items, distinct, selections, condition⟩ := query
  unfold select
  refine .bind (.inScope .empty (?_ : Mirrors (Prod.map (List.map Selection.stripped)
    (Prod.map strippedCondition (List.map SortKey.stripped))) _ _)) fun result => ?_
  · rw [Resolved.strippedQuery]
    refine .bind (spaces_mirrors items) fun _ => ?_
    refine .bind (.mapM topSelection_mirrors selections) fun chosen => ?_
    refine .bind (filter_mirrors condition) fun written => ?_
    refine .bind (.mapM sortKey_mirrors order) fun keys => ?_
    rw [← List.map_flatten]
    exact .pure (chosen.flatten, written, keys)
  · obtain ⟨⟨chosen, written, keys⟩, scope⟩ := result
    exact .pure (Select.mk distinct chosen scope.spaces written keys)

/-- The one table of a change has no recorded types. -/
theorem targetGroup_stripped (verb : BulkVerb) (target : Resolved.FromNode) :
    targetGroup context verb target = (targetGroup context verb target).map TableGroup.stripped := by
  cases built : targetGroup context verb target with
  | error failure => rfl
  | ok group =>
    obtain ⟨entity, table, _, rfl⟩ := targetGroup_ok built
    rfl

/-- What is lowered at the level of a change may mirror there as elsewhere. -/
theorem inTargetScope_mirrors {α β : Type} {view : α → β} (verb : BulkVerb) (group : TableGroup)
    {body : Lowering α} {image : Lowering β} (mirrors : Mirrors view body image) :
    Mirrors view (inTargetScope verb group body) (inTargetScope verb group.stripped image) := by
  unfold inTargetScope
  rw [← LoweringScope.stripped_empty, ← LoweringScope.stripped_addSpace]
  refine .bind (.inScope _ mirrors) fun result => ?_
  obtain ⟨value, scope⟩ := result
  have joined : scope.stripped.spaces.any (!·.joins.isEmpty) =
      scope.spaces.any (!·.joins.isEmpty) := by
    simp [LoweringScope.stripped, TableSpace.stripped, List.any_map, Function.comp_def]
  simp only [Prod.map, joined]
  exact .ite _ (.bind (.throw _ : Mirrors id _ _) fun _ => .pure value) (.pure value)

/-- What is assigned does not depend on recorded types. -/
theorem assignment_mirrors (given : Resolved.Assignment) :
    Mirrors (Prod.map id Sql.Expr.stripped) (assignment context given)
      (assignment context given.stripped) := by
  unfold assignment
  refine .bind (.group given.target.source) fun owner => ?_
  have bound : owner.stripped.binding? given.stripped.target.last.label =
      owner.binding? given.target.last.label := rfl
  rw [bound]
  cases owner.binding? given.target.last.label with
  | none => exact .throw _
  | some binding =>
    exact .bind (expr_mirrors given.value) fun value => .pure (binding.column, value)

/-- Lowering a statement without recorded types mirrors lowering the statement. -/
theorem statement_mirrors (given : Resolved.Statement) :
    Mirrors Sql.Statement.stripped (statement context given) (statement context given.stripped) := by
  cases given with
  | select query order =>
    rw [Resolved.Statement.stripped, statement, statement]
    exact .bind (select_mirrors query order) fun lowered => .pure (Sql.Statement.select lowered)
  | update target assignments condition =>
    rw [Resolved.Statement.stripped, statement, statement]
    refine .bind (.lift (targetGroup_stripped .update target)) fun group => ?_
    refine inTargetScope_mirrors .update group ?_
    refine .bind (.mapM assignment_mirrors assignments) fun assigned => ?_
    refine .bind (filter_mirrors condition) fun written => ?_
    exact .pure (Sql.Statement.update ⟨group.root.name, assigned, written⟩)
  | delete target condition =>
    rw [Resolved.Statement.stripped, statement, statement]
    refine .bind (.lift (targetGroup_stripped .delete target)) fun group => ?_
    refine inTargetScope_mirrors .delete group ?_
    refine .bind (filter_mirrors condition) fun written => ?_
    exact .pure (Sql.Statement.delete ⟨group.root.name, written⟩)

end ObjectQuery.Lowering

namespace ObjectQuery.Resolved

/-- A statement without recorded types is lowered to the same, without recorded types. -/
theorem Statement.lower_stripped (context : LoweringContext) (statement : Statement) :
    statement.stripped.lower context = (statement.lower context).map Sql.Statement.stripped := by
  let start : LoweringState := ⟨[], 0⟩
  have mirrors : (Lowering.statement context statement.stripped).run start =
      ((Lowering.statement context statement).run start).map
        (Prod.map Sql.Statement.stripped LoweringState.stripped) :=
    Lowering.statement_mirrors statement start
  change ((Lowering.statement context statement.stripped).run start).map Prod.fst =
    (((Lowering.statement context statement).run start).map Prod.fst).map Sql.Statement.stripped
  rw [mirrors]
  cases (Lowering.statement context statement).run start <;> rfl

/-- Statements that differ only in recorded types are lowered to the same texts with the same
parameters, or fail for the same reason. -/
theorem Statement.outline_lower (context : LoweringContext) {statement other : Statement}
    (alike : statement.stripped = other.stripped) :
    (statement.lower context).map Sql.Statement.outline =
      (other.lower context).map Sql.Statement.outline := by
  have outlines : ∀ given : Statement, (given.lower context).map Sql.Statement.outline =
      (given.stripped.lower context).map Sql.Statement.outline := by
    intro given
    rw [Statement.lower_stripped]
    cases given.lower context with
    | error failure => rfl
    | ok lowered => simp [Except.map, Sql.Statement.outline_stripped]
  rw [outlines statement, outlines other, alike]

end ObjectQuery.Resolved

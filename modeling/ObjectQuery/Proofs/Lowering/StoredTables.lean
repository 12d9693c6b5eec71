import ObjectQuery.Proofs.Compiled
import ObjectQuery.Proofs.Lowering.Group
import ObjectQuery.Proofs.Lowering.Kept
import ObjectQuery.Proofs.Sql.PlainTokens
/-!
# Statements over stored tables

If no table of a model is a query, every token of every statement over it is plain: no text is passed
on unseen, and the names of functions are words. The lowering keeps the tables and join conditions of
all levels plain, and every expression that it gives is plain.
-/
namespace ObjectQuery

open Sql

/-- No table of the model is a query in parentheses. -/
def Catalog.StoresTables (catalog : Catalog) : Prop :=
  ∀ ⦃entity shape⦄, catalog.shape? entity = some shape →
    ∀ table ∈ shape.tables, table.isDerived = false

/-- All spaces of the level are plain. -/
def LoweringScope.IsPlain (scope : LoweringScope) : Prop := ∀ space ∈ scope.spaces, space.IsPlain

namespace LoweringScope

variable {scope : LoweringScope}

/-- There are no tables at an empty level. -/
theorem isPlain_empty : empty.IsPlain := by
  intro space member
  cases member

/-- A space of a plain group leaves the level plain. -/
theorem IsPlain.addSpace (plain : scope.IsPlain) {root : TableGroup} (plainRoot : root.IsPlain) :
    (scope.addSpace root).IsPlain := by
  refine List.forall_mem_append.mpr ⟨plain, ?_⟩
  intro space member
  obtain rfl := List.mem_singleton.mp member
  exact ⟨plainRoot, by simp⟩

/-- Changing the joins of one space to plain ones leaves the level plain. -/
theorem IsPlain.modify (plain : scope.IsPlain) (position : Nat)
    (change : List GroupJoin → List GroupJoin)
    (keeps : ∀ joins : List GroupJoin, (∀ join ∈ joins, join.IsPlain) →
      ∀ join ∈ change joins, join.IsPlain) :
    ∀ space ∈ scope.spaces.modify position fun found => { found with joins := change found.joins },
      space.IsPlain := by
  intro space member
  obtain ⟨place, bound, rfl⟩ := List.mem_iff_getElem.mp member
  have inside : place < scope.spaces.length := by simpa using bound
  have plainSpace := plain _ (List.getElem_mem inside)
  rw [List.getElem_modify]
  split
  · exact ⟨plainSpace.root, keeps _ plainSpace.joins⟩
  · exact plainSpace

/-- A plain join at the end of a space leaves the level plain. -/
theorem IsPlain.addJoin (plain : scope.IsPlain) {space : Nat} {join : GroupJoin}
    (plainJoin : join.IsPlain) : (scope.addJoin space join).IsPlain := by
  refine plain.modify space (· ++ [join]) ?_
  intro joins plainJoins
  refine List.forall_mem_append.mpr ⟨plainJoins, ?_⟩
  intro given member
  obtain rfl := List.mem_singleton.mp member
  exact plainJoin

/-- A plain join inside a space leaves the level plain. -/
theorem IsPlain.insertJoin (plain : scope.IsPlain) {space count : Nat} {join : GroupJoin}
    (plainJoin : join.IsPlain) : (scope.insertJoin space count join).IsPlain := by
  refine plain.modify space (fun joins => joins.take count ++ join :: joins.drop count) ?_
  intro joins plainJoins
  refine List.forall_mem_append.mpr ⟨?_, List.forall_mem_cons.mpr ⟨plainJoin, ?_⟩⟩
  · intro given member
    exact plainJoins given (List.mem_of_mem_take member)
  · intro given member
    exact plainJoins given (List.mem_of_mem_drop member)

end LoweringScope

namespace Lowering

open Resolved (Segment Reference)

variable {context : LoweringContext} {α : Type}

/-- The levels stay plain, and the result is good. -/
abbrev KeepsPlain (step : Lowering α) (good : α → Prop) : Prop :=
  Keeps LoweringScope.IsPlain step good

/-- A shape that is found is the one that the catalog has. -/
theorem shape_ok {entity : String} {shape : TableShape} (found : context.shape entity = .ok shape) :
    context.catalog.shape? entity = some shape := by
  unfold LoweringContext.shape at found
  split at found
  · rename_i known given
    rw [given, Except.ok.inj found]
  · cases found

/-! ## Groups and paths -/

/-- The root table of an entity is stored. -/
theorem rootTable_stored (stored : context.catalog.StoresTables) {entity : String}
    {table : MappedTable} (found : context.rootTable entity = .ok table) :
    table.isDerived = false := by
  obtain ⟨shape, known, first⟩ := rootTable_ok found
  exact stored (shape_ok known) table (List.mem_of_mem_head? first)

/-- The group of an entity has only stored tables. -/
theorem tableGroup_plain (stored : context.catalog.StoresTables) {label entity : String}
    {group : TableGroup} (built : context.tableGroup label entity = .ok group) : group.IsPlain := by
  obtain ⟨shape, table, known, first, rfl⟩ := tableGroup_ok built
  have storedTables := stored (shape_ok known)
  constructor
  · exact storedTables table (List.mem_of_mem_head? first)
  · intro join member
    simp only [List.mem_map, Prod.exists] at member
    obtain ⟨further, position, listed, rfl⟩ := member
    have among : further ∈ shape.tables :=
      List.mem_of_mem_tail (List.fst_mem_of_mem_zipIdx listed)
    constructor
    · exact TableSpec.plain_toRef (storedTables further among)
    · rintro condition ⟨⟩
      exact .binary _ Expr.isPlain_tableColumn Expr.isPlain_tableColumn

/-- The key of a group is plain. -/
theorem key_plain (group : TableGroup) : group.key.IsPlain := Expr.isPlain_tableColumn

/-- The column of an attribute is plain. -/
theorem columnOf_plain {owner : TableGroup} {label : String} {column : Sql.Expr}
    (found : columnOf owner label = .ok column) : column.IsPlain := by
  unfold columnOf at found
  split at found
  · rename_i stored known
    obtain rfl := Except.ok.inj found
    obtain ⟨binding, _, rfl⟩ := TableGroup.column?_eq_some known
    exact Expr.isPlain_tableColumn
  · cases found

/-- A plain group is joined on a plain condition. -/
theorem attach_plain {owner name : String} {kind : JoinKind} {target : TableGroup}
    {condition : Sql.Expr} (plainTarget : target.IsPlain) (plainCondition : condition.IsPlain) :
    KeepsPlain (do
      let join ← groupJoin kind target (some condition)
      attach owner join
      return name) (fun _ => True) := by
  refine .bind .lift fun join built => ?_
  obtain rfl := groupJoin_ok built
  have plainJoin : GroupJoin.IsPlain ⟨kind, target, some condition⟩ := by
    refine ⟨plainTarget, ?_⟩
    rintro given ⟨⟩
    exact plainCondition
  refine .bind (.attach fun scope space plain => plain.addJoin plainJoin) fun _ _ => ?_
  exact .pure trivial

/-- Joining along an association keeps the levels plain. -/
theorem toOneJoin_plain (stored : context.catalog.StoresTables) (owner label : String) :
    KeepsPlain (toOneJoin context owner label) (fun _ => True) := by
  unfold toOneJoin
  refine .bind .isKnown fun known _ => ?_
  split
  · exact .pure trivial
  · refine .bind .group fun ownerGroup _ => .bind .lift fun entity _ => ?_
    refine .bind .lift fun foreignKey keyed => .bind .lift fun target built => ?_
    exact attach_plain (tableGroup_plain stored built)
      (.binary _ (columnOf_plain keyed) (key_plain target))

/-- Joining an element keeps the levels plain. -/
theorem indexJoin_plain (stored : context.catalog.StoresTables) (owner label : String)
    (type : DataType) {index : Sql.Expr} (plain : index.IsPlain) :
    KeepsPlain (indexJoin context owner label type index) (fun _ => True) := by
  unfold indexJoin
  refine .bind .lift fun entity _ => .bind .nextIndexJoin fun number _ => ?_
  refine .bind .group fun ownerGroup _ => .bind .lift fun mapping _ => ?_
  refine .bind .lift fun column _ => .bind .lift fun target built => ?_
  refine attach_plain (tableGroup_plain stored built) (.binary _ ?_ ?_)
  · exact .binary _ (key_plain ownerGroup) Expr.isPlain_tableColumn
  · exact .binary _ Expr.isPlain_tableColumn plain

/-- So does any step of a path. -/
theorem step_plain (stored : context.catalog.StoresTables) (owner label : String) (type : DataType)
    (index : Option Sql.Expr) (plain : ∀ value ∈ index, value.IsPlain) :
    KeepsPlain (step context owner label type index) (fun _ => True) := by
  cases index with
  | none => exact toOneJoin_plain stored owner label
  | some value => exact indexJoin_plain stored owner label type (plain value rfl)

/-! ## Expressions -/

/-- A literal is plain. -/
theorem literal_plain {given : Literal} {value : Sql.Expr} (lowered : literal given = .ok value) :
    value.IsPlain := by
  have isPlain : (Sql.Expr.literal given).IsPlain := by
    rw [Expr.IsPlain, Sql.Expr.tokens]
    refine plain_nil.cons ?_
    cases given with
    | boolean value => cases value <;> rfl
    | _ => rfl
  unfold literal at lowered
  split at lowered
  · split at lowered
    · obtain rfl := Except.ok.inj lowered
      exact isPlain
    · cases lowered
  · obtain rfl := Except.ok.inj lowered
    exact isPlain

/-- The column at the end of a path is plain. -/
theorem columnValue_plain (dotted owner label : String) (type : DataType) :
    KeepsPlain (columnValue dotted owner label type) Expr.IsPlain := by
  unfold columnValue
  split
  · exact .bind .throw fun _ => False.elim
  · exact .bind .group fun _ _ => .weaken .lift fun _ => columnOf_plain

/-- Functions have words for names. -/
theorem isPlain_call (callee : Function) (distinct : Bool) {arguments : List Sql.Expr}
    (plain : ∀ argument ∈ arguments, argument.IsPlain) :
    (Sql.Expr.call callee.sqlName distinct arguments).IsPlain := by
  rw [Expr.IsPlain, Sql.Expr.tokens]
  refine .cons ?_ (.parenthesised (.append ?_ (plain_separated (plain_list plain))))
  · cases callee <;> decide
  · cases distinct with
    | true => exact (plain_nil.cons rfl).cons rfl
    | false => exact plain_nil

/-- A call of a plain argument is plain. -/
theorem call_plain {callee : Function} {distinct : Bool} {argument : Option Sql.Expr}
    {value : Sql.Expr} (plain : ∀ given ∈ argument, given.IsPlain)
    (lowered : call callee distinct argument = .ok value) : value.IsPlain := by
  unfold call at lowered
  split at lowered
  · rename_i given
    obtain rfl := Except.ok.inj lowered
    exact isPlain_call callee distinct (List.forall_mem_singleton.mpr (plain given rfl))
  · split at lowered
    · obtain rfl := Except.ok.inj lowered
      refine isPlain_call .count false (List.forall_mem_singleton.mpr ?_)
      rw [Expr.IsPlain, Sql.Expr.tokens]
      exact plain_nil.cons rfl
    · cases lowered

mutual

/-- Every expression is lowered to a plain one. -/
theorem expr_plain (stored : context.catalog.StoresTables) : ∀ given : Resolved.Expr,
    KeepsPlain (expr context given) Expr.IsPlain
  | .path ⟨source, sourceType, init, ⟨label, declared, index, after⟩, type⟩ => by
    rw [expr]
    refine .bind (navigate_plain stored init source) fun owner _ => ?_
    refine .bind (optional_plain stored index) fun position plain => ?_
    cases position with
    | some value =>
      refine .bind (indexJoin_plain stored owner label declared (plain value rfl)) fun element _ => ?_
      exact .bind .group fun found _ => .pure (key_plain found)
    | none => exact columnValue_plain _ owner label declared
  | .element label _ => by
    rw [expr]
    exact .bind .group fun found _ => .pure (key_plain found)
  | .literal value => by
    rw [expr]
    exact .weaken .lift fun _ => literal_plain
  | .parameter bound => by
    rw [expr]
    refine .pure ?_
    rw [Expr.IsPlain, Sql.Expr.tokens]
    exact plain_nil.cons rfl
  | .arithmetic op left right _ => by
    rw [expr]
    refine .bind (expr_plain stored left) fun _ plainLeft =>
      .bind (expr_plain stored right) fun _ plainRight => ?_
    exact .pure (.binary _ plainLeft plainRight)
  | .negate operand => by
    rw [expr]
    exact .bind (expr_plain stored operand) fun _ plain => .pure plain.negate
  | .call callee distinct argument _ => by
    rw [expr]
    refine .bind (optional_plain stored argument) fun given plain => ?_
    exact .weaken .lift fun _ => call_plain plain

/-- So is an index or argument. -/
theorem optional_plain (stored : context.catalog.StoresTables) : ∀ given : Option Resolved.Expr,
    KeepsPlain (optional context given) (fun value => ∀ index ∈ value, index.IsPlain)
  | none => by
    rw [optional]
    exact .pure (by simp)
  | some given => by
    rw [optional]
    refine .bind (expr_plain stored given) fun index plain => .pure ?_
    rintro _ ⟨⟩
    exact plain

/-- Going along segments keeps the levels plain. -/
theorem navigate_plain (stored : context.catalog.StoresTables) :
    ∀ (segments : List (Segment Resolved.Expr)) (owner : String),
    KeepsPlain (navigate context segments owner) (fun _ => True)
  | [], owner => by
    rw [navigate]
    exact .pure trivial
  | ⟨label, declared, index, after⟩ :: rest, owner => by
    rw [navigate]
    refine .bind (optional_plain stored index) fun position plain => ?_
    exact .bind (step_plain stored owner label declared position plain) fun next _ =>
      navigate_plain stored rest next

end

/-- So does going to the entity at the end of a path. -/
theorem pathGroup_plain (stored : context.catalog.StoresTables)
    (reference : Reference Resolved.Expr) :
    KeepsPlain (pathGroup context reference) (fun _ => True) := by
  unfold pathGroup
  refine .bind (navigate_plain stored reference.init reference.source) fun owner _ => ?_
  refine .bind (optional_plain stored reference.last.index) fun index plain => ?_
  exact .bind (step_plain stored _ _ _ index plain) fun _ _ => .group

/-- All items of the select list are plain. -/
def PlainItems (chosen : List (Sql.Selection Sql.Expr)) : Prop :=
  ∀ item ∈ chosen, item.expr.IsPlain

/-- Plain lists of items make one plain list. -/
theorem plainItems_flatten {lists : List (List (Sql.Selection Sql.Expr))}
    (plain : ∀ chosen ∈ lists, PlainItems chosen) : PlainItems lists.flatten := by
  intro item member
  obtain ⟨chosen, listed, among⟩ := List.mem_flatten.mp member
  exact plain chosen listed item among

/-- An item of a sub-select is lowered to plain ones. -/
theorem innerSelection_plain (stored : context.catalog.StoresTables) (given : Resolved.Selection) :
    KeepsPlain (innerSelection context given) PlainItems := by
  unfold innerSelection
  exact .bind (expr_plain stored given.expr) fun _ plain =>
    .pure (List.forall_mem_singleton.mpr plain)

/-- The columns of a group are plain. -/
theorem plainItems_allColumns (group : TableGroup) :
    PlainItems (group.allColumns.map fun column => ⟨column, none⟩) := by
  intro item member
  obtain ⟨column, listed, rfl⟩ := List.mem_map.mp member
  simp only [TableGroup.allColumns, List.mem_cons, List.mem_map] at listed
  rcases listed with rfl | ⟨binding, _, rfl⟩
  · exact key_plain group
  · exact Expr.isPlain_tableColumn

/-- An item of the outermost select list is lowered to plain ones. -/
theorem topSelection_plain (stored : context.catalog.StoresTables) (given : Resolved.Selection) :
    KeepsPlain (topSelection context given) PlainItems := by
  have single : KeepsPlain (topSelection.single context given) PlainItems :=
    .bind (expr_plain stored given.expr) fun _ plain => .pure (List.forall_mem_singleton.mpr plain)
  unfold topSelection
  split
  · exact .bind .group fun found _ => .pure (plainItems_allColumns found)
  · split
    · rename_i reference _ _
      exact .bind (pathGroup_plain stored reference) fun found _ => .pure (plainItems_allColumns found)
    · exact single
  · exact single

/-- A test for membership is lowered to a plain condition. -/
theorem memberOf_plain (stored : context.catalog.StoresTables) (element : Resolved.Expr)
    (collection : Reference Resolved.Expr) (negated : Bool) :
    KeepsPlain (memberOf context element collection negated) Expr.IsPlain := by
  unfold memberOf
  refine .bind (expr_plain stored element) fun test plainTest => ?_
  refine .bind (navigate_plain stored collection.init collection.source) fun owner _ => ?_
  split
  · refine .bind .group fun ownerGroup _ => .bind .lift fun mapping _ => ?_
    refine .bind .lift fun elementTable found => .pure (plainTest.inQuery ?_ negated)
    refine plain_query ?_ ?_ (by simp) ?_ (by simp)
    · exact List.forall_mem_singleton.mpr Expr.isPlain_tableColumn
    · rintro table ⟨⟩
      exact TableSpec.plain_toRef (rootTable_stored stored found)
    · rintro condition ⟨⟩
      exact .binary _ Expr.isPlain_tableColumn (key_plain ownerGroup)
  · exact .weaken .throw fun _ => False.elim

/-! ## Predicates and queries -/

/-- The condition along an association is plain. -/
theorem associationCondition_plain (stored : context.catalog.StoresTables) (owner : String)
    (path : List String) (plural : Bool) (target : TableGroup) :
    KeepsPlain (associationCondition context owner path plural target) Expr.IsPlain := by
  unfold associationCondition
  split
  · exact .weaken .throw fun _ => False.elim
  · refine .bind (.foldlM (toOneJoin_plain stored) path.dropLast trivial) fun last _ => ?_
    refine .bind .group fun ownerGroup _ => ?_
    split
    · refine .bind .lift fun mapping _ => .pure ?_
      exact .binary _ (key_plain ownerGroup) Expr.isPlain_tableColumn
    · refine .bind .lift fun foreignKey found => .pure ?_
      exact .binary _ (columnOf_plain found) (key_plain target)

/-- So is the condition that a join implies. -/
theorem impliedCondition_plain (stored : context.catalog.StoresTables) (origin : FromOrigin)
    (target : TableGroup) :
    KeepsPlain (impliedCondition context origin target)
      (fun condition => ∀ given ∈ condition, given.IsPlain) := by
  unfold impliedCondition
  split
  · rename_i owner path plural
    refine .bind (associationCondition_plain stored owner path plural target) fun condition plain => ?_
    refine .pure ?_
    rintro _ ⟨⟩
    exact plain
  · exact .pure (by simp)
  · exact .pure (by simp)

/-- The group of a source has only stored tables. -/
theorem sourceGroup_plain (stored : context.catalog.StoresTables) {node : Resolved.FromNode}
    {group : TableGroup} (built : sourceGroup context node = .ok group) : group.IsPlain := by
  unfold sourceGroup at built
  split at built
  · exact tableGroup_plain stored built
  · cases built

/-- A join with a plain condition is plain. -/
theorem joinOf_plain {kind : JoinKind} {target : TableGroup} {condition : Option Sql.Expr}
    {join : GroupJoin} (plainTarget : target.IsPlain) (plain : ∀ given ∈ condition, given.IsPlain)
    (built : joinOf kind target condition = .ok join) : join.IsPlain := by
  have always : (Sql.Expr.literal (.boolean true)).IsPlain := by
    rw [Expr.IsPlain, Sql.Expr.tokens]
    exact plain_nil.cons rfl
  unfold joinOf at built
  split at built
  all_goals
    obtain rfl := groupJoin_ok built
    refine ⟨plainTarget, ?_⟩
  · exact plain
  · exact plain
  · exact plain
  · rintro _ ⟨⟩
    exact always
  · exact plain

mutual

/-- Every predicate is lowered to a plain condition.

Proof: by recursion over the predicate. All tables of the catalog are stored, so every name is
written in quotes. -/
theorem predicate_plain (stored : context.catalog.StoresTables) : ∀ given : Resolved.Predicate,
    KeepsPlain (predicate context given) Expr.IsPlain
  | .and left right | .or left right => by
    rw [predicate]
    refine .bind (predicate_plain stored left) fun _ plainLeft => ?_
    exact .bind (predicate_plain stored right) fun _ plainRight =>
      .pure (.binary _ plainLeft plainRight)
  | .not operand => by
    rw [predicate]
    exact .bind (predicate_plain stored operand) fun _ plain => .pure plain.not
  | .compare op left right => by
    rw [predicate]
    refine .bind (expr_plain stored left) fun _ plainLeft => ?_
    exact .bind (expr_plain stored right) fun _ plainRight => .pure (.binary _ plainLeft plainRight)
  | .inList test values negated => by
    rw [predicate]
    refine .bind (expr_plain stored test) fun _ plain => ?_
    exact .bind (.mapM (expr_plain stored) values) fun _ plainValues =>
      .pure (plain.inList plainValues negated)
  | .inQuery test query negated => by
    rw [predicate]
    refine .bind (expr_plain stored test) fun _ plain => ?_
    exact .bind (subQuery_plain stored query) fun _ plainQuery =>
      .pure (plain.inQuery plainQuery negated)
  | .memberOf element collection negated => by
    rw [predicate]
    exact memberOf_plain stored element collection negated
  | .isNull operand negated => by
    rw [predicate]
    exact .bind (expr_plain stored operand) fun _ plain => .pure (plain.isNull negated)
  | .like operand pattern negated => by
    rw [predicate]
    refine .bind (expr_plain stored operand) fun _ plain => ?_
    exact .bind (expr_plain stored pattern) fun _ plainPattern =>
      .pure (plain.like plainPattern negated)
  | .between operand low high negated => by
    rw [predicate]
    refine .bind (expr_plain stored operand) fun _ plain => ?_
    refine .bind (expr_plain stored low) fun _ plainLow => ?_
    exact .bind (expr_plain stored high) fun _ plainHigh =>
      .pure (plain.between plainLow plainHigh negated)

/-- So is a condition that may be absent. -/
theorem filter_plain (stored : context.catalog.StoresTables) :
    ∀ given : Option Resolved.Predicate,
      KeepsPlain (filter context given) (fun condition => ∀ value ∈ condition, value.IsPlain)
  | none => by
    rw [filter]
    exact .pure (by simp)
  | some given => by
    rw [filter]
    refine .bind (predicate_plain stored given) fun condition plain => .pure ?_
    rintro _ ⟨⟩
    exact plain

/-- Joins keep the levels plain. -/
theorem joins_plain (stored : context.catalog.StoresTables) (space : Nat) :
    ∀ given : List (Resolved.Join Resolved.Predicate),
      KeepsPlain (joins context space given) (fun _ => True)
  | [] => by
    rw [joins]
    exact .pure trivial
  | ⟨kind, _, node, condition⟩ :: rest => by
    rw [joins]
    refine .bind .lift fun target built => ?_
    have plainTarget := sourceGroup_plain stored built
    refine .bind (impliedCondition_plain stored node.origin target) fun implied plainImplied => ?_
    refine .bind (.changeScope fun scope plain => plain) fun _ _ => .bind .currentScope fun before _ => ?_
    refine .bind (filter_plain stored condition) fun written plainWritten => ?_
    refine .bind .lift fun join joined => ?_
    have plainBoth : ∀ given ∈ implied.toList ++ written.toList, given.IsPlain := by
      intro given member
      rcases List.mem_append.mp member with first | second
      · exact plainImplied given (Option.mem_toList.mp first)
      · exact plainWritten given (Option.mem_toList.mp second)
    have plainJoin := joinOf_plain plainTarget (Expr.isPlain_conjunction plainBoth) joined
    refine .bind (.changeScope fun scope plain => plain.insertJoin plainJoin) fun _ _ => ?_
    exact joins_plain stored space rest

/-- So do the items of a from-clause. -/
theorem spaces_plain (stored : context.catalog.StoresTables) :
    ∀ given : List (Resolved.FromSpace Resolved.Predicate),
      KeepsPlain (spaces context given) (fun _ => True)
  | [] => by
    rw [spaces]
    exact .pure trivial
  | ⟨node, joined⟩ :: rest => by
    rw [spaces]
    refine .bind .lift fun root built => .bind .currentScope fun before _ => ?_
    have plainRoot := sourceGroup_plain stored built
    refine .bind (.changeScope fun scope plain => plain.addSpace plainRoot) fun _ _ => ?_
    exact .bind (joins_plain stored before.spaces.length joined) fun _ _ => spaces_plain stored rest

/-- A sub-query is lowered to a plain query. -/
theorem subQuery_plain (stored : context.catalog.StoresTables) :
    ∀ given : Resolved.Query Resolved.Predicate,
      KeepsPlain (subQuery context given) (fun select => Plain select.toQuery.tokens)
  | ⟨items, distinct, selections, condition⟩ => by
    rw [subQuery]
    refine .bind (.inScope LoweringScope.isPlain_empty (?_ : KeepsPlain _ fun parts =>
      PlainItems parts.1 ∧ ∀ value ∈ parts.2, value.IsPlain)) fun result plain => .pure ?_
    · refine .bind (spaces_plain stored items) fun _ _ => ?_
      refine .bind (.mapM (innerSelection_plain stored) selections) fun chosen plainChosen => ?_
      refine .bind (filter_plain stored condition) fun written plainWritten => .pure ?_
      exact ⟨plainItems_flatten plainChosen, plainWritten⟩
    · obtain ⟨⟨plainChosen, plainFilter⟩, plainScope⟩ := plain
      exact Select.plain_toQuery plainScope plainChosen plainFilter (by simp)

end

/-! ## Statements -/

/-- A sort key is lowered to a plain one. -/
theorem sortKey_plain (stored : context.catalog.StoresTables) (key : Resolved.SortKey) :
    KeepsPlain (sortKey context key) (fun sorted => sorted.expr.IsPlain) := by
  unfold sortKey
  exact .bind (expr_plain stored key.expr) fun _ plain => .pure plain

/-- The query of a statement is lowered to a plain query. -/
theorem select_plain (stored : context.catalog.StoresTables) (query : Resolved.QuerySpec)
    (order : List Resolved.SortKey) :
    KeepsPlain (select context query order) (fun select => Plain select.toQuery.tokens) := by
  unfold select
  refine .bind (.inScope LoweringScope.isPlain_empty (?_ : KeepsPlain _ fun parts =>
    PlainItems parts.1 ∧ (∀ value ∈ parts.2.1, value.IsPlain) ∧
      ∀ key ∈ parts.2.2, key.expr.IsPlain)) fun result plain => .pure ?_
  · refine .bind (spaces_plain stored query.spaces) fun _ _ => ?_
    refine .bind (.mapM (topSelection_plain stored) query.selections) fun chosen plainChosen => ?_
    refine .bind (filter_plain stored query.filter) fun written plainWritten => ?_
    refine .bind (.mapM (sortKey_plain stored) order) fun keys plainKeys => .pure ?_
    exact ⟨plainItems_flatten plainChosen, plainWritten, plainKeys⟩
  · obtain ⟨⟨plainChosen, plainFilter, plainKeys⟩, plainScope⟩ := plain
    exact Select.plain_toQuery plainScope plainChosen plainFilter plainKeys

/-- The one table of a change is stored. -/
theorem targetGroup_plain {verb : BulkVerb} {target : Resolved.FromNode} {group : TableGroup}
    (built : targetGroup context verb target = .ok group) : group.IsPlain := by
  obtain ⟨entity, table, stored, rfl⟩ := targetGroup_ok built
  exact ⟨stored, by simp⟩

/-- What is lowered at the level of a change keeps it plain. -/
theorem inTargetScope_plain {verb : BulkVerb} {group : TableGroup} {body : Lowering α}
    {good : α → Prop} (plain : group.IsPlain) (keeps : KeepsPlain body good) :
    KeepsPlain (inTargetScope verb group body) good := by
  unfold inTargetScope
  refine .bind (.inScope (LoweringScope.isPlain_empty.addSpace plain) keeps) fun result kept => ?_
  obtain ⟨value, scope⟩ := result
  dsimp only
  split
  · exact .bind .throw fun _ => False.elim
  · exact .pure kept.1

/-- What is assigned is lowered to a plain value. -/
theorem assignment_plain (stored : context.catalog.StoresTables) (given : Resolved.Assignment) :
    KeepsPlain (assignment context given) (fun assigned => assigned.2.IsPlain) := by
  unfold assignment
  refine .bind .group fun owner _ => ?_
  split
  · exact .weaken .throw fun _ => False.elim
  · exact .bind (expr_plain stored given.value) fun _ plain => .pure plain

/-- Every token of a lowered statement is plain. -/
theorem statement_plain (stored : context.catalog.StoresTables) (given : Resolved.Statement) :
    KeepsPlain (statement context given) (fun lowered => Plain lowered.tokens) := by
  cases given with
  | select query order =>
    rw [statement]
    exact .bind (select_plain stored query order) fun _ plain => .pure plain
  | update target assignments condition =>
    rw [statement]
    refine .bind .lift fun group built => inTargetScope_plain (targetGroup_plain built) ?_
    refine .bind (.mapM (assignment_plain stored) assignments) fun assigned plainAssigned => ?_
    refine .bind (filter_plain stored condition) fun written plainWritten => .pure ?_
    exact Update.plain_tokens plainAssigned plainWritten
  | delete target condition =>
    rw [statement]
    refine .bind .lift fun group built => inTargetScope_plain (targetGroup_plain built) ?_
    refine .bind (filter_plain stored condition) fun written plainWritten => .pure ?_
    exact Delete.plain_tokens plainWritten

end Lowering
end ObjectQuery

import ObjectQuery.Proofs.Lowering.Group
import ObjectQuery.Proofs.Lowering.Route
import ObjectQuery.Proofs.Resolution.Counted
import ObjectQuery.Proofs.Resolved.Skeleton
/-!
# Lowering keeps shapes

What an expression is lowered to has the skeleton of the expression. On the way paths ask for joins,
and these are appended to the spaces of the levels. They are hidden: no skeleton shows them, since their
groups are not named after sources. So the outline of a level, which has the joins of its sources in
order, grows by the from-clause and by nothing else. A sub-select takes its outline from its level.
-/
namespace ObjectQuery

open Sql

/-! ## Lists that correspond -/

/-- Lists that correspond to a third one correspond to each other. -/
theorem forall₂_trans {α : Type} {related : α → α → Prop} {items others further : List α}
    (paired : List.Forall₂ related items others) (pairedNext : List.Forall₂ related others further)
    (trans : ∀ first second third, related first second → related second third →
      related first third) : List.Forall₂ related items further := by
  induction paired generalizing further with
  | nil => exact pairedNext
  | cons here _ ih =>
    cases pairedNext with
    | cons next rest => exact .cons (trans _ _ _ here next) (ih rest)

/-- A change to one element, if it is related to what it changes. -/
theorem forall₂_modify {α : Type} {related : α → α → Prop} (refl : ∀ item, related item item)
    {change : α → α} (changes : ∀ item, related item (change item)) (items : List α) (number : Nat) :
    List.Forall₂ related items (items.modify number change) := by
  induction items generalizing number with
  | nil =>
    rw [List.modify_nil]
    exact .nil
  | cons item rest ih =>
    cases number with
    | zero => exact .cons (changes item) (List.forall₂_same.mpr fun other _ => refl other)
    | succ number => exact .cons (refl item) (ih number)

/-- The last element of a list changed. -/
theorem modify_concat {α : Type} (items : List α) (last : α) (change : α → α) :
    (items ++ [last]).modify items.length change = items ++ [change last] := by
  induction items with
  | nil => rfl
  | cons item rest ih => exact congrArg (item :: ·) ih

/-! ## Outlines -/

/-- No skeleton shows the join. -/
def Sql.GroupJoin.IsHidden (sources : List String) (join : GroupJoin) : Prop :=
  join.toJoins.filterMap (Join.skeleton? sources) = []

/-- The joins of sources at a level, in order, as skeletons. -/
def LoweringScope.outline (sources : List String) (scope : LoweringScope) : List (Join Sql.Expr) :=
  (entries scope.spaces).filterMap (Join.skeleton? sources)

/-- The second space is the first one with hidden joins at the end. -/
def Sql.TableSpace.Pads (sources : List String) (space padded : TableSpace) : Prop :=
  ∃ more : List GroupJoin, (∀ join ∈ more, join.IsHidden sources) ∧
    padded = ⟨space.root, space.joins ++ more⟩

/-- The spaces of the second level are those of the first one with hidden joins at their ends. -/
def LoweringScope.Pads (sources : List String) (scope padded : LoweringScope) : Prop :=
  List.Forall₂ (TableSpace.Pads sources) scope.spaces padded.spaces

variable {sources : List String} {scope padded : LoweringScope}

namespace Sql.TableSpace

variable {space padded : TableSpace}

/-- A space may stay as it is. -/
theorem Pads.refl (space : TableSpace) : space.Pads sources space :=
  ⟨[], nofun, by rw [List.append_nil]⟩

/-- Hidden joins may be added twice. -/
theorem Pads.trans {further : TableSpace} (pads : space.Pads sources padded)
    (padsNext : padded.Pads sources further) : space.Pads sources further := by
  obtain ⟨more, hidden, rfl⟩ := pads
  obtain ⟨rest, hiddenNext, rfl⟩ := padsNext
  exact ⟨more ++ rest, List.forall_mem_append.mpr ⟨hidden, hiddenNext⟩, by rw [List.append_assoc]⟩

/-- The skeletons of joins, whatever is in front of them. -/
theorem entries_eq (space : TableSpace) :
    space.entries = TableSpace.entries ⟨space.root, []⟩ ++ space.joins.flatMap (·.toJoins) := by
  simp [TableSpace.entries, TableSpace.toJoins]

/-- Hidden joins show nothing. -/
theorem filterMap_hidden {joins : List GroupJoin} (hidden : ∀ join ∈ joins, join.IsHidden sources) :
    (joins.flatMap (·.toJoins)).filterMap (Join.skeleton? sources) = [] := by
  rw [List.filterMap_flatMap, List.flatMap_eq_nil_iff]
  exact hidden

/-- Hidden joins leave what a space shows. -/
theorem Pads.entries (pads : space.Pads sources padded) :
    padded.entries.filterMap (Join.skeleton? sources) =
      space.entries.filterMap (Join.skeleton? sources) := by
  obtain ⟨more, hidden, rfl⟩ := pads
  rw [entries_eq, entries_eq space, List.flatMap_append, ← List.append_assoc, List.filterMap_append,
    filterMap_hidden hidden, List.append_nil]

end Sql.TableSpace

namespace LoweringScope

/-- A level may stay as it is. -/
theorem Pads.refl (scope : LoweringScope) : scope.Pads sources scope :=
  List.forall₂_same.mpr fun space _ => .refl space

/-- Hidden joins may be added to a level twice. -/
theorem Pads.trans {further : LoweringScope} (pads : scope.Pads sources padded)
    (padsNext : padded.Pads sources further) : scope.Pads sources further :=
  forall₂_trans pads padsNext fun _ _ _ => TableSpace.Pads.trans

/-- Hidden joins do not show in the outline. -/
theorem Pads.outline (pads : scope.Pads sources padded) :
    padded.outline sources = scope.outline sources := by
  rw [LoweringScope.outline, LoweringScope.outline, entries, entries, List.filterMap_flatMap,
    List.filterMap_flatMap]
  unfold LoweringScope.Pads at pads
  generalize scope.spaces = spaces, padded.spaces = others at pads
  induction pads with
  | nil => rfl
  | cons here _ ih => rw [List.flatMap_cons, List.flatMap_cons, here.entries, ih]

/-- A hidden join at the end of a space is one more hidden join. -/
theorem pads_addJoin {join : GroupJoin} (hidden : join.IsHidden sources) (scope : LoweringScope)
    (number : Nat) : scope.Pads sources (scope.addJoin number join) :=
  forall₂_modify TableSpace.Pads.refl
    (fun _ => ⟨[join], List.forall_mem_singleton.mpr hidden, rfl⟩) scope.spaces number

/-- A new space shows its root behind what the level shows. -/
theorem outline_addSpace (scope : LoweringScope) (root : TableGroup) :
    (scope.addSpace root).outline sources = scope.outline sources ++
      (TableSpace.entries ⟨root, []⟩).filterMap (Join.skeleton? sources) := by
  simp [LoweringScope.outline, LoweringScope.addSpace, entries]

/-- A join in the last space goes behind all that is in the outline, if only hidden joins have been
appended since its place was chosen. -/
theorem outline_insertJoin {space : Nat} (join : GroupJoin) (pads : scope.Pads sources padded)
    (last : padded.spaces.length = space + 1) :
    (padded.insertJoin space (scope.joinCount space) join).outline sources =
      padded.outline sources ++ join.toJoins.filterMap (Join.skeleton? sources) := by
  obtain ⟨init, final, listed⟩ : ∃ init final, padded.spaces = init ++ [final] :=
    (List.eq_nil_or_concat' padded.spaces).resolve_left fun empty => by simp [empty] at last
  obtain rfl : space = init.length := by simpa [listed] using last.symm
  unfold LoweringScope.Pads at pads
  rw [listed] at pads
  have ends := List.forall₂_drop_append _ _ _ pads
  obtain ⟨found, rest, ⟨more, hidden, rfl⟩, nothing, left⟩ := List.forall₂_cons_right_iff.mp ends
  obtain rfl := List.forall₂_nil_right_iff.mp nothing
  have count : scope.joinCount init.length = found.joins.length := by
    have stored : scope.spaces[init.length]? = some found := by
      rw [← List.head?_drop, left]
      rfl
    rw [joinCount, stored]
    rfl
  simp only [insertJoin, LoweringScope.outline, listed, modify_concat, count, List.take_left,
    List.drop_left, entries, List.flatMap_append, List.flatMap_singleton, List.filterMap_append]
  rw [TableSpace.entries_eq, TableSpace.entries_eq ⟨found.root, found.joins ++ more⟩]
  simp only [List.flatMap_append, List.flatMap_cons, List.filterMap_append,
    TableSpace.filterMap_hidden hidden, List.append_nil, List.append_assoc]

end LoweringScope

namespace Lowering

open Resolved (Segment Reference FromNode FromSpace argumentSkeleton filterSources joinSources spaceSources
  querySources filterSkeleton joinSkeleton joinSkeletons spaceSkeletons)

variable {α β : Type} {context : LoweringContext} {scopes later outer : List LoweringScope}
  {name : String}

/-! ## Which tables show -/

/-- The first table of a group shows if the group is named after a source, and no further table does. -/
theorem isSource_toRef {table : String} {position : Nat} :
    (TableSpec.mk table (TableGroup.tableLabel name position)).toRef.isSource sources = true ↔
      name ∈ sources ∧ position = 0 := by
  rw [TableRef.isSource, TableSpec.toRef_label, List.any_eq_true]
  constructor
  · rintro ⟨source, listed, same⟩
    obtain ⟨rfl, rfl⟩ := tableLabel_inj (Option.some.inj (beq_iff_eq.mp same))
    exact ⟨listed, rfl⟩
  · rintro ⟨listed, rfl⟩
    exact ⟨name, listed, beq_self_eq_true _⟩

/-- The further tables of a group do not show. -/
theorem secondary_skeleton {entity : String} {group : TableGroup}
    (built : context.tableGroup name entity = .ok group) {further : TableJoin}
    (listed : further ∈ group.secondary) : further.table.toRef.isSource sources = false := by
  obtain ⟨shape, table, _, _, rfl⟩ := tableGroup_ok built
  obtain ⟨⟨mapped, position⟩, stored, rfl⟩ := List.mem_map.mp listed
  rw [Bool.eq_false_iff]
  intro shows
  have first := (isSource_toRef.mp shows).2
  have later := List.le_snd_of_mem_zipIdx stored
  omega

/-- Of the tables of a group, at most the first one shows. -/
theorem toJoins_skeleton {entity : String} {group : TableGroup}
    (built : context.tableGroup name entity = .ok group) (kind : JoinKind) (condition : Option Sql.Expr) :
    (GroupJoin.mk kind group condition).toJoins.filterMap (Join.skeleton? sources) =
      if name ∈ sources then [⟨kind, .blank, condition.map (Sql.Expr.skeleton sources)⟩] else [] := by
  have others : ∀ join ∈ group.secondary.map fun table =>
      if kind = .leftOuter then { table.toJoin with kind := .leftOuter } else table.toJoin,
      Join.skeleton? sources join = none := by
    refine List.forall_mem_map.mpr fun further listed => ?_
    have unseen : further.table.toRef.isSource sources = false := secondary_skeleton built listed
    split <;> simp [Join.skeleton?, TableJoin.toJoin, unseen]
  have root : group.root.toRef.isSource sources = true ↔ name ∈ sources := by
    obtain ⟨shape, table, _, _, rfl⟩ := tableGroup_ok built
    rw [isSource_toRef, and_iff_left rfl]
  rw [GroupJoin.toJoins, List.filterMap_cons, List.filterMap_eq_nil_iff.mpr others, Join.skeleton?]
  by_cases listed : name ∈ sources
  · simp [root.mpr listed, listed]
  · simp [Bool.eq_false_iff.mpr (mt root.mp listed), listed]

/-- What leads on from a name is no source. -/
theorem not_mem_of_onwards (plain : ∀ source ∈ sources, IsPlainName source) (owner rest : String) :
    owner ++ "." ++ rest ∉ sources := by
  intro listed
  refine Route.not_mem_of_isPlainName (plain _ listed) (c := '.') rfl ?_
  simp

/-! ## Steps that append hidden joins -/

/-- The later levels are the levels with hidden joins appended to their spaces. -/
def Padded (sources : List String) (scopes later : List LoweringScope) : Prop :=
  List.Forall₂ (LoweringScope.Pads sources) scopes later

/-- The levels may stay as they are. -/
theorem Padded.refl (scopes : List LoweringScope) : Padded sources scopes scopes :=
  List.forall₂_same.mpr fun scope _ => .refl scope

/-- Hidden joins may be added to the levels twice. -/
theorem Padded.trans {further : List LoweringScope} (padded : Padded sources scopes later)
    (paddedNext : Padded sources later further) : Padded sources scopes further :=
  forall₂_trans padded paddedNext fun _ _ _ => LoweringScope.Pads.trans

/-- The step appends hidden joins, and its result is good. -/
def Draws (sources : List String) (step : Lowering α) (good : α → Prop) : Prop :=
  ∀ ⦃state value after⦄, Yields step state value after →
    Padded sources state.scopes after.scopes ∧ good value

namespace Draws

variable {good : α → Prop} {fine : β → Prop}

/-- A value is given without any join. -/
theorem pure {value : α} (isGood : good value) : Draws sources (Pure.pure value) good := by
  intro state result after run
  obtain ⟨rfl, rfl⟩ := yields_pure.mp run
  exact ⟨.refl _, isGood⟩

/-- A failure gives nothing. -/
theorem throw {error : LoweringError} : Draws sources (throw error) good :=
  fun _ _ _ run => (yields_throw run).elim

/-- A result that is there already raises no joins. -/
theorem lift {result : Except LoweringError α} :
    Draws sources (liftM result) fun value => result = .ok value := by
  intro state value after run
  obtain ⟨succeeded, rfl⟩ := yields_lift.mp run
  exact ⟨.refl _, succeeded⟩

/-- Steps in a row raise hidden joins if each of them does. -/
theorem bind {first : Lowering α} {next : α → Lowering β} (draws : Draws sources first good)
    (drawsNext : ∀ value, good value → Draws sources (next value) fine) :
    Draws sources (first >>= next) fine := by
  intro state result after run
  obtain ⟨value, between, ran, ranNext⟩ := yields_bind.mp run
  obtain ⟨padded, isGood⟩ := draws ran
  obtain ⟨paddedNext, isFine⟩ := drawsNext value isGood ranNext
  exact ⟨padded.trans paddedNext, isFine⟩

/-- What is said of the value may be less. -/
theorem weaken {step : Lowering α} {better : α → Prop} (draws : Draws sources step better)
    (enough : ∀ value, better value → good value) : Draws sources step good := by
  intro state value after run
  obtain ⟨padded, isBetter⟩ := draws run
  exact ⟨padded, enough value isBetter⟩

/-- A step for each item raises hidden joins if it does so for any item. -/
theorem mapM {step : α → Lowering β} {related : α → β → Prop} : ∀ items : List α,
    (∀ item, Draws sources (step item) (related item)) →
      Draws sources (items.mapM step) (List.Forall₂ related items)
  | [], _ => by
    rw [List.mapM_nil]
    exact pure .nil
  | item :: rest, draws => by
    rw [List.mapM_cons]
    exact bind (draws item) fun value relates => bind (mapM rest draws) fun values relate =>
      pure (.cons relates relate)

/-- Looking up a group raises nothing. -/
theorem group {label : String} : Draws sources (group label) fun _ => True := by
  intro state found after run
  obtain ⟨rfl, _⟩ := yields_group.mp run
  exact ⟨.refl _, trivial⟩

/-- Asking for a name raises nothing. -/
theorem isKnown {label : String} : Draws sources (isKnown label) fun _ => True := by
  intro state known after run
  obtain ⟨_, rfl⟩ := yields_isKnown.mp run
  exact ⟨.refl _, trivial⟩

/-- Taking a number raises nothing. -/
theorem nextIndexJoin : Draws sources nextIndexJoin fun _ => True := by
  intro state number after run
  obtain ⟨_, rfl⟩ := yields_nextIndexJoin.mp run
  exact ⟨.refl _, trivial⟩

/-- A hidden join is attached. -/
theorem attach {owner : String} {join : GroupJoin} (hidden : join.IsHidden sources) :
    Draws sources (attach owner join) fun _ => True := by
  intro state value after run
  obtain ⟨level, found, _, rfl⟩ := yields_attach.mp run
  exact ⟨forall₂_modify LoweringScope.Pads.refl
    (fun scope => LoweringScope.pads_addJoin hidden scope found.space) _ level, trivial⟩

end Draws

/-! ## Expressions -/

/-- The column of an attribute is a leaf. -/
theorem columnOf_skeleton {owner : TableGroup} {label : String} {value : Sql.Expr}
    (found : columnOf owner label = .ok value) : value.skeleton sources = .leaf := by
  unfold columnOf at found
  split at found
  · rename_i column given
    obtain rfl := Except.ok.inj found
    obtain ⟨binding, _, rfl⟩ := Option.map_eq_some_iff.mp given
    rfl
  · cases found

/-- The column at the end of a path is a leaf. -/
theorem columnValue_draws {dotted owner label : String} {type : DataType} :
    Draws sources (columnValue dotted owner label type) fun value => value.skeleton sources = .leaf := by
  rw [columnValue]
  split
  · exact fun _ _ _ run => (by simp at run)
  · exact .bind .group fun _ _ => .weaken .lift fun _ => columnOf_skeleton

/-- A literal stays the literal. -/
theorem literal_skeleton {value : Literal} {lowered : Sql.Expr} (given : literal value = .ok lowered) :
    lowered = .literal value := by
  unfold literal at given
  split at given
  · split at given
    · exact (Except.ok.inj given).symm
    · cases given
  · exact (Except.ok.inj given).symm

/-- A call keeps its flag, except if it is a count of all rows. -/
theorem call_skeleton {function : Function} {distinct : Bool} {argument : Option Sql.Expr}
    {lowered : Sql.Expr} (called : call function distinct argument = .ok lowered) :
    lowered.skeleton sources = match argument.map (Sql.Expr.skeleton sources) with
      | some value => .call function.sqlName distinct [value]
      | none => .call function.sqlName false [.star] := by
  unfold call at called
  split at called
  · obtain rfl := Except.ok.inj called
    rfl
  · split at called
    · rename_i count
      obtain rfl := Except.ok.inj called
      rw [count]
      rfl
    · cases called

/-- Joining along an association raises a hidden join at most. -/
theorem toOneJoin_draws (plain : ∀ source ∈ sources, IsPlainName source) {owner label : String} :
    Draws sources (toOneJoin context owner label) fun _ => True := by
  rw [toOneJoin]
  refine .bind .isKnown fun known _ => ?_
  split
  · exact .pure trivial
  · refine .bind .group fun _ _ => .bind .lift fun _ _ => .bind .lift fun _ _ =>
      .bind .lift fun group built => .bind .lift fun join joined =>
        .bind (.attach ?_) fun _ _ => .pure trivial
    rw [groupJoin_ok joined, GroupJoin.IsHidden, toJoins_skeleton built,
      if_neg (not_mem_of_onwards plain owner label)]

/-- Joining an element raises a hidden join. -/
theorem indexJoin_draws (plain : ∀ source ∈ sources, IsPlainName source) {owner label : String}
    {type : DataType} {index : Sql.Expr} :
    Draws sources (indexJoin context owner label type index) fun _ => True := by
  rw [indexJoin]
  refine .bind .lift fun _ _ => .bind .nextIndexJoin fun number _ => .bind .group fun _ _ =>
    .bind .lift fun _ _ => .bind .lift fun _ _ => .bind .lift fun group built =>
      .bind .lift fun join joined => .bind (.attach ?_) fun _ _ => .pure trivial
  rw [groupJoin_ok joined, GroupJoin.IsHidden, toJoins_skeleton built, if_neg]
  simpa only [String.append_assoc] using not_mem_of_onwards plain owner _

/-- So does any step of a path, if it raises a join. -/
theorem step_draws (plain : ∀ source ∈ sources, IsPlainName source) {owner label : String}
    {type : DataType} {index : Option Sql.Expr} :
    Draws sources (step context owner label type index) fun _ => True := by
  cases index with
  | none => exact toOneJoin_draws plain
  | some index => exact indexJoin_draws plain

mutual

/-- An expression is lowered to one with its skeleton. -/
theorem expr_draws (plain : ∀ source ∈ sources, IsPlainName source) : ∀ given : Resolved.Expr,
    Draws sources (expr context given) fun value => value.skeleton sources = given.skeleton false
  | .path ⟨source, sourceType, init, ⟨label, declared, index, after⟩, type⟩ => by
    rw [expr]
    refine .bind (navigate_draws plain init source) fun owner _ =>
      .bind (optional_draws plain index) fun value _ => ?_
    cases value with
    | some value => exact .bind (indexJoin_draws plain) fun _ _ => .bind .group fun _ _ => .pure rfl
    | none => exact columnValue_draws
  | .element label type => by
    rw [expr]
    exact .bind .group fun _ _ => .pure rfl
  | .literal value => by
    rw [expr]
    refine .weaken .lift fun lowered given => ?_
    rw [literal_skeleton given]
    rfl
  | .parameter bound => by
    rw [expr]
    exact .pure rfl
  | .arithmetic op left right type => by
    rw [expr]
    refine .bind (expr_draws plain left) fun first same =>
      .bind (expr_draws plain right) fun second same' => .pure ?_
    rw [Sql.Expr.skeleton, same, same', Resolved.Expr.skeleton]
  | .negate operand => by
    rw [expr]
    refine .bind (expr_draws plain operand) fun value same => .pure ?_
    rw [Sql.Expr.skeleton, same, Resolved.Expr.skeleton]
  | .call function distinct argument type => by
    rw [expr]
    refine .bind (optional_draws plain argument) fun value same => .weaken .lift fun lowered called => ?_
    rw [call_skeleton called, same, Resolved.Expr.skeleton]
    cases argument with
    | none => rw [argumentSkeleton, Bool.and_false]
    | some value => rfl

/-- So is an index or an argument, if there is one. -/
theorem optional_draws (plain : ∀ source ∈ sources, IsPlainName source) :
    ∀ given : Option Resolved.Expr, Draws sources (optional context given) fun value =>
      value.map (Sql.Expr.skeleton sources) = argumentSkeleton false given
  | none => by
    rw [optional]
    exact .pure rfl
  | some given => by
    rw [optional]
    exact .bind (expr_draws plain given) fun _ same => .pure (congrArg some same)

/-- Going along segments raises hidden joins. -/
theorem navigate_draws (plain : ∀ source ∈ sources, IsPlainName source) :
    ∀ (segments : List (Segment Resolved.Expr)) (owner : String),
      Draws sources (navigate context segments owner) fun _ => True
  | [], owner => by
    rw [navigate]
    exact .pure trivial
  | ⟨label, declared, index, after⟩ :: rest, owner => by
    rw [navigate]
    exact .bind (optional_draws plain index) fun _ _ => .bind (step_draws plain) fun next _ =>
      navigate_draws plain rest next

end

/-! ## Conditions and queries -/

/-- So does going along associations. -/
theorem toOneJoins_draws (plain : ∀ source ∈ sources, IsPlainName source) :
    ∀ (path : List String) (owner : String),
      Draws sources (path.foldlM (toOneJoin context) owner) fun _ => True
  | [], owner => by
    rw [List.foldlM_nil]
    exact .pure trivial
  | label :: rest, owner => by
    rw [List.foldlM_cons]
    exact .bind (toOneJoin_draws plain) fun next _ => toOneJoins_draws plain rest next

/-- A join along a path implies that two columns are equal. -/
theorem impliedCondition_draws (plain : ∀ source ∈ sources, IsPlainName source) (origin : FromOrigin)
    (target : TableGroup) : Draws sources (impliedCondition context origin target) fun implied =>
      implied.toList.map (Sql.Expr.skeleton sources) = Resolved.impliedSkeleton origin := by
  unfold impliedCondition
  split
  · rename_i owner path plural
    suffices equates : Draws sources (associationCondition context owner path plural target) fun value =>
        value.skeleton sources = Sql.Expr.equals .leaf .leaf from
      .bind equates fun value same => .pure (congrArg (fun value => [value]) same)
    rw [associationCondition]
    split
    · exact .throw
    · refine .bind (toOneJoins_draws plain path.dropLast owner) fun _ _ => .bind .group fun _ _ => ?_
      split
      · exact .bind .lift fun _ _ => .pure rfl
      · refine .bind .lift fun foreignKey found => .pure ?_
        rw [Sql.Expr.equals, Sql.Expr.skeleton, columnOf_skeleton found]
        rfl
  · exact .pure rfl
  · exact .pure rfl

/-- A test for membership becomes a test against a sub-select of keys. -/
theorem memberOf_draws (plain : ∀ source ∈ sources, IsPlainName source) (element : Resolved.Expr)
    (collection : Reference Resolved.Expr) (negated : Bool) :
    Draws sources (memberOf context element collection negated) fun value =>
      value.skeleton sources = .inQuery (element.skeleton false) Resolved.membershipSkeleton negated := by
  rw [memberOf]
  refine .bind (expr_draws plain element) fun test same =>
    .bind (navigate_draws plain collection.init collection.source) fun owner _ => ?_
  split
  · refine .bind .group fun _ _ => .bind .lift fun _ _ => .bind .lift fun table _ => .pure ?_
    have unseen : (TableSpec.mk table.name
        (TableGroup.tableLabel (owner ++ "." ++ collection.last.label) 0)).toRef.isSource sources = false :=
      Bool.eq_false_iff.mpr fun shows =>
        not_mem_of_onwards plain owner collection.last.label (isSource_toRef.mp shows).1
    rw [Sql.Expr.skeleton, same, Sql.querySkeleton]
    simp only [Option.toList_some, List.filter_cons, unseen]
    rfl
  · exact .throw

/-- An item of a sub-select keeps its skeleton and its label. -/
theorem innerSelection_draws (plain : ∀ source ∈ sources, IsPlainName source)
    (selection : Resolved.Selection) : Draws sources (innerSelection context selection) fun chosen =>
      selectionSkeletons sources chosen = [⟨selection.expr.skeleton false, selection.label⟩] := by
  rw [innerSelection]
  refine .bind (expr_draws plain selection.expr) fun value same => .pure ?_
  rw [selectionSkeletons, same]
  rfl

/-- The group of a source shows with the way in which it is joined and the condition. -/
theorem sourceGroup_skeleton {node : FromNode} {target : TableGroup}
    (built : sourceGroup context node = .ok target) (listed : node.label ∈ sources)
    (kind : JoinKind) (condition : Option Sql.Expr) :
    (GroupJoin.mk kind target condition).toJoins.filterMap (Join.skeleton? sources) =
      [⟨kind, .blank, condition.map (Sql.Expr.skeleton sources)⟩] := by
  unfold sourceGroup at built
  split at built
  · rw [toJoins_skeleton built, if_pos listed]
  · cases built

/-- The join of a source shows as one join with its condition. -/
theorem joinOf_skeleton {node : FromNode} {target : TableGroup}
    (built : sourceGroup context node = .ok target) (listed : node.label ∈ sources)
    {kind : JoinKind} {condition : Option Sql.Expr} {join : GroupJoin}
    (joined : joinOf kind target condition = .ok join) :
    join.toJoins.filterMap (Join.skeleton? sources) =
      [joinSkeleton kind (condition.map (Sql.Expr.skeleton sources))] := by
  have shows := sourceGroup_skeleton built listed
  unfold joinOf at joined
  split at joined
  all_goals
    rw [groupJoin_ok joined, shows]
    rfl

/-- The innermost level has come to show more, and hidden joins have been appended around it. -/
inductive Shows (sources : List String) (shown : List (Join Sql.Expr)) :
    List LoweringScope → List LoweringScope → Prop where
  | level {scope scope' : LoweringScope} {outer outer' : List LoweringScope}
      (outline : scope'.outline sources = scope.outline sources ++ shown)
      (around : Padded sources outer outer') : Shows sources shown (scope :: outer) (scope' :: outer')

/-- What shows first stands before what shows next. -/
theorem Shows.trans {shown more : List (Join Sql.Expr)} {further : List LoweringScope}
    (shows : Shows sources shown scopes later) (showsNext : Shows sources more later further) :
    Shows sources (shown ++ more) scopes further := by
  obtain ⟨outline, around⟩ := shows
  obtain ⟨outlineNext, aroundNext⟩ := showsNext
  exact .level (by rw [outlineNext, outline, List.append_assoc]) (around.trans aroundNext)

mutual

/-- A predicate is lowered to an expression with its skeleton.

Proof: by recursion over the predicate. Joins that are raised on the way are hidden, so the skeleton
of a level stays what it was. -/
theorem predicate_draws (plain : ∀ source ∈ sources, IsPlainName source) :
    ∀ given : Resolved.Predicate, given.sources.map (·.label) ⊆ sources →
      Draws sources (predicate context given) fun value =>
        value.skeleton sources = given.skeleton false
  | .and left right, listed | .or left right, listed => by
    simp only [Resolved.Predicate.sources, List.map_append, List.append_subset] at listed
    rw [predicate]
    refine .bind (predicate_draws plain left listed.1) fun first same =>
      .bind (predicate_draws plain right listed.2) fun second same' => .pure ?_
    rw [Sql.Expr.skeleton, same, same', Resolved.Predicate.skeleton]
  | .not operand, listed => by
    rw [predicate]
    refine .bind (predicate_draws plain operand listed) fun value same => .pure ?_
    rw [Sql.Expr.skeleton, same, Resolved.Predicate.skeleton]
  | .compare op left right, listed => by
    rw [predicate]
    refine .bind (expr_draws plain left) fun first same =>
      .bind (expr_draws plain right) fun second same' => .pure ?_
    rw [Sql.Expr.skeleton, same, same', Resolved.Predicate.skeleton]
  | .inList test values negated, listed => by
    rw [predicate]
    refine .bind (expr_draws plain test) fun first same =>
      .bind (.mapM values (expr_draws plain)) fun others paired => .pure ?_
    rw [Sql.Expr.skeleton, same, skeletons_eq_map, Resolution.map_of_forall₂ paired,
      Resolved.Predicate.skeleton]
  | .inQuery test query negated, listed => by
    rw [predicate]
    refine .bind (expr_draws plain test) fun first same =>
      .bind (subQuery_draws plain query listed) fun select same' => .pure ?_
    rw [Sql.Expr.skeleton, same, same', Resolved.Predicate.skeleton]
  | .memberOf element collection negated, listed => by
    rw [predicate]
    exact memberOf_draws plain element collection negated
  | .isNull operand negated, listed => by
    rw [predicate]
    refine .bind (expr_draws plain operand) fun value same => .pure ?_
    rw [Sql.Expr.skeleton, same, Resolved.Predicate.skeleton]
  | .like operand pattern negated, listed => by
    rw [predicate]
    refine .bind (expr_draws plain operand) fun first same =>
      .bind (expr_draws plain pattern) fun second same' => .pure ?_
    rw [Sql.Expr.skeleton, same, same', Resolved.Predicate.skeleton]
  | .between operand low high negated, listed => by
    rw [predicate]
    refine .bind (expr_draws plain operand) fun first same =>
      .bind (expr_draws plain low) fun second same' =>
      .bind (expr_draws plain high) fun third same'' => .pure ?_
    rw [Sql.Expr.skeleton, same, same', same'', Resolved.Predicate.skeleton]

/-- So is a condition, if there is one. -/
theorem filter_draws (plain : ∀ source ∈ sources, IsPlainName source) :
    ∀ given : Option Resolved.Predicate, (filterSources given).map (·.label) ⊆ sources →
      Draws sources (filter context given) fun value =>
        value.map (Sql.Expr.skeleton sources) = filterSkeleton false given
  | none, listed => by
    rw [filter]
    exact .pure rfl
  | some given, listed => by
    rw [filter]
    exact .bind (predicate_draws plain given listed) fun _ same => .pure (congrArg some same)

/-- Joins show in order, at the end of the last space.

Proof: by induction on the joins. What is raised for the condition of a join is hidden, and the join
itself is put behind all that show. -/
theorem joins_shows (plain : ∀ source ∈ sources, IsPlainName source) :
    ∀ (given : List (Resolved.Join Resolved.Predicate)) {space : Nat} {state after : LoweringState}
      {scope : LoweringScope} {outer : List LoweringScope} {value : Unit},
      (joinSources given).map (·.label) ⊆ sources → state.scopes = scope :: outer →
        scope.spaces.length = space + 1 → Yields (joins context space given) state value after →
          Shows sources (joinSkeletons false given) state.scopes after.scopes
  | [], space, state, after, scope, outer, value, listed, levels, last, run => by
    rw [joins] at run
    obtain ⟨_, rfl⟩ := yields_pure.mp run
    rw [levels]
    exact .level (List.append_nil _).symm (.refl _)
  | ⟨kind, fetch, node, condition⟩ :: rest, space, state, after, scope, outer, value, listed, levels,
      last, run => by
    simp only [joinSources, List.map_cons, List.map_append, List.cons_subset,
      List.append_subset] at listed
    obtain ⟨own, inCondition, inRest⟩ := listed
    simp only [joins, yields_bind, yields_lift, yields_changeScope, yields_currentScope] at run
    obtain ⟨target, _, ⟨built, rfl⟩, implied, first, ranImplied, _, _, ⟨scope₁, outer₁, levels₁, rfl⟩,
      before, _, ⟨rfl, _, known⟩, written, second, ranFilter, join, _, ⟨joined, rfl⟩, _, _,
      ⟨scope₂, outer₂, levels₂, rfl⟩, ranRest⟩ := run
    obtain ⟨padded, sameImplied⟩ := impliedCondition_draws plain node.origin target ranImplied
    obtain ⟨paddedNext, sameWritten⟩ := filter_draws plain condition inCondition ranFilter
    obtain ⟨rfl, _⟩ := List.cons.inj known
    rw [levels, levels₁] at padded
    rw [levels₂] at paddedNext
    cases padded with | cons pads around => ?_
    cases paddedNext with | cons padsNext aroundNext => ?_
    have stillLast : scope₂.spaces.length = space + 1 :=
      padsNext.length_eq.symm.trans (pads.length_eq.symm.trans last)
    have placed : Shows sources [joinSkeleton kind (Sql.Expr.conjunction
        (Resolved.impliedSkeleton node.origin ++ (filterSkeleton false condition).toList))]
        (scope :: outer) (scope₂.insertJoin space ((scope₁.addGroup space target).joinCount space) join ::
          outer₂) := by
      refine .level ?_ (Padded.trans around aroundNext)
      rw [LoweringScope.outline_insertJoin join padsNext stillLast, padsNext.outline,
        joinOf_skeleton built own joined, conjunction_skeleton, List.map_append, sameImplied,
        ← Option.toList_map, sameWritten]
      exact congrArg (· ++ _) pads.outline
    rw [levels]
    refine placed.trans (joins_shows plain rest inRest rfl ?_ ranRest)
    simpa [LoweringScope.insertJoin] using stillLast

/-- So do the items of a from-clause. -/
theorem spaces_shows (plain : ∀ source ∈ sources, IsPlainName source) :
    ∀ (given : List (FromSpace Resolved.Predicate)) {state after : LoweringState}
      {scope : LoweringScope} {outer : List LoweringScope} {value : Unit},
      (spaceSources given).map (·.label) ⊆ sources → state.scopes = scope :: outer →
        Yields (spaces context given) state value after →
          Shows sources (spaceSkeletons false given) state.scopes after.scopes
  | [], state, after, scope, outer, value, listed, levels, run => by
    rw [spaces] at run
    obtain ⟨_, rfl⟩ := yields_pure.mp run
    rw [levels]
    exact .level (List.append_nil _).symm (.refl _)
  | ⟨node, joined⟩ :: rest, state, after, scope, outer, value, listed, levels, run => by
    simp only [spaceSources, List.map_cons, List.map_append, List.cons_subset,
      List.append_subset] at listed
    obtain ⟨own, inJoins, inRest⟩ := listed
    simp only [spaces, yields_bind, yields_lift, yields_changeScope, yields_currentScope] at run
    obtain ⟨root, _, ⟨built, rfl⟩, before, _, ⟨rfl, _, known⟩, _, _, ⟨scope₁, outer₁, levels₁, rfl⟩, _,
      between, ranJoins, ranRest⟩ := run
    obtain ⟨rfl, rfl⟩ := List.cons.inj (levels.symm.trans levels₁)
    obtain ⟨rfl, _⟩ := List.cons.inj (levels.symm.trans known)
    have opened : Shows sources [⟨.cross, .blank, none⟩] (scope :: outer)
        (scope.addSpace root :: outer) := by
      refine .level ?_ (.refl _)
      have shown := sourceGroup_skeleton built own .cross none
      rw [LoweringScope.outline_addSpace]
      simpa [TableSpace.entries, TableSpace.toJoins, GroupJoin.toJoins] using shown
    rw [levels]
    have filled := joins_shows plain joined inJoins rfl (by simp [LoweringScope.addSpace]) ranJoins
    obtain ⟨scope₂, outer₂, levels₂⟩ : ∃ scope₂ outer₂, between.scopes = scope₂ :: outer₂ := by
      generalize between.scopes = later at filled
      obtain ⟨_, _⟩ := filled
      exact ⟨_, _, rfl⟩
    exact opened.trans (filled.trans (spaces_shows plain rest inRest levels₂ ranRest))

/-- A sub-query is lowered to a query with its skeleton. -/
theorem subQuery_draws (plain : ∀ source ∈ sources, IsPlainName source) :
    ∀ given : Resolved.Query Resolved.Predicate, (querySources given).map (·.label) ⊆ sources →
      Draws sources (subQuery context given) fun select =>
        Sql.querySkeleton sources select.toQuery = Resolved.querySkeleton false given
  | ⟨items, distinct, selections, condition⟩, listed => by
    simp only [querySources, List.map_append, List.append_subset] at listed
    intro state select after run
    simp only [subQuery, yields_bind, yields_pure] at run
    obtain ⟨⟨⟨chosen, filtered⟩, scope⟩, _, ranScope, rfl, rfl⟩ := run
    obtain ⟨inner, ran, levels, _⟩ := yields_inScope.mp ranScope
    simp only [yields_bind, yields_pure] at ran
    obtain ⟨_, opened, ranSpaces, items', between, ranItems, condition', _, ranFilter, same, rfl⟩ := ran
    have shows := spaces_shows plain items listed.1 rfl ranSpaces
    obtain ⟨padded, paired⟩ := Draws.mapM selections (innerSelection_draws plain) ranItems
    obtain ⟨paddedNext, sameFilter⟩ := filter_draws plain condition listed.2 ranFilter
    obtain ⟨rfl, rfl⟩ := Prod.mk.inj same
    rw [levels] at paddedNext
    generalize opened.scopes = first at shows padded
    generalize between.scopes = second at padded paddedNext
    obtain ⟨outline, around⟩ := shows
    cases padded with | cons pads aroundNext => ?_
    cases paddedNext with | cons padsNext aroundLast => ?_
    refine ⟨Padded.trans around (Padded.trans aroundNext aroundLast), ?_⟩
    have drawn : (entries scope.spaces).filterMap (Join.skeleton? sources) = spaceSkeletons false items :=
      padsNext.outline.trans (pads.outline.trans outline)
    have chosen : selectionSkeletons sources items'.flatten =
        selections.map fun selection => ⟨selection.expr.skeleton false, selection.label⟩ := by
      rw [selectionSkeletons_eq_map, List.map_flatten, ← funext selectionSkeletons_eq_map,
        Resolution.map_of_forall₂ paired, ← List.flatMap_def, List.map_eq_flatMap]
    show Sql.querySkeleton sources
      (Select.toQuery ⟨distinct, items'.flatten, scope.spaces, filtered, []⟩) = _
    rw [querySkeleton_toQuery, Resolved.querySkeleton, drawn, sameFilter, chosen]
    rfl

end

end Lowering
end ObjectQuery

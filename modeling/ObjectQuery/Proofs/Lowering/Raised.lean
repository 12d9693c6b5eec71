import Mathlib.Logic.Relation
import ObjectQuery.Proofs.Lowering.Group
/-!
# What expressions do to the levels

An expression changes the levels in one way only: it joins groups at the ends of the spaces of their
owners. `Raised` lists the two kinds of joins that it can ask for, `Raises` is one such change, and
every expression, path or membership test is lowered by a sequence of them. The value that comes out
refers only to tables of groups that the levels have by then.
-/
namespace ObjectQuery

open Sql

/-- The names of the tables of the groups of a level. -/
def LoweringScope.labels (scope : LoweringScope) : List String :=
  scope.groups.flatMap (·.2.group.labels)

namespace Lowering

open Resolved (Segment Reference)

variable {context : LoweringContext} {state after : LoweringState} {scope : LoweringScope}
  {scopes outer later : List LoweringScope} {owner : String} {found : ScopedGroup}

/-- The names of the tables of the groups of all levels. -/
def visible (scopes : List LoweringScope) : List String := scopes.flatMap (·.labels)

/-- All groups of the levels are coherent. -/
def Coherent (scopes : List LoweringScope) : Prop :=
  ∀ scope ∈ scopes, ∀ entry ∈ scope.groups, entry.2.group.Coherent

/-- The joins that a path asks for, given the name of the owner and its group. -/
inductive Raised (context : LoweringContext) (owner : String) (ownerGroup : TableGroup) :
    GroupJoin → Prop where
  | toOne {label entity : String} {foreignKey : Sql.Expr} {target : TableGroup}
      (leads : associationEntity context ownerGroup label = .ok entity)
      (stored : columnOf ownerGroup label = .ok foreignKey)
      (built : context.tableGroup (owner ++ "." ++ label) entity = .ok target) :
      Raised context owner ownerGroup
        ⟨.inner, target, some (foreignKey.equals target.key)⟩
  | element {label entity column : String} {type : DataType} {number : Nat}
      {mapping : CollectionMapping} {target : TableGroup} {index : Sql.Expr}
      (leads : elementEntity label type = .ok entity)
      (mapped : context.collection ownerGroup.entity label = .ok mapping)
      (indexed : indexColumn ownerGroup.entity label mapping = .ok column)
      (built : context.tableGroup
        (owner ++ "." ++ label ++ "[" ++ toString number ++ "]") entity = .ok target)
      (value : index.isValue = true) :
      Raised context owner ownerGroup ⟨.inner, target, some (Sql.Expr.both
        (ownerGroup.key.equals (.tableColumn target.root.label mapping.ownerColumn))
        (Sql.Expr.equals (.tableColumn target.root.label column) index))⟩

/-- One join is added to the space of its owner. -/
inductive Raises (context : LoweringContext) : List LoweringScope → List LoweringScope → Prop where
  | join {scopes : List LoweringScope} {owner : String} {level : Nat} {found : ScopedGroup}
      {join : GroupJoin} (located : locate? scopes owner = some (level, found))
      (raised : Raised context owner found.group join) :
      Raises context scopes (scopes.modify level (·.addJoin found.space join))

/-- One join is added to a level. -/
inductive Widens (context : LoweringContext) : LoweringScope → LoweringScope → Prop where
  | join {scope : LoweringScope} {owner : String} {found : ScopedGroup} {join : GroupJoin}
      (known : scope.find? owner = some found) (raised : Raised context owner found.group join) :
      Widens context scope (scope.addJoin found.space join)

/-- The groups of the innermost level hide those of the levels around it. -/
theorem locate?_cons {label : String} :
    locate? (scope :: outer) label = match scope.find? label with
      | some found => some (0, found)
      | none => (locate? outer label).map fun (level, found) => (level + 1, found) := by
  simp only [locate?, List.zipIdx_cons, List.findSome?_cons]
  cases scope.find? label with
  | some found => rfl
  | none =>
    simp only [Option.map_none, Nat.zero_add]
    rw [show outer.zipIdx 1 = (outer.zipIdx 0).map (fun entry => (entry.1, entry.2 + 1)) from by
      rw [List.zipIdx_succ]]
    rw [List.findSome?_map, List.map_findSome?]
    congr 1
    funext entry
    simp only [Function.comp_apply]
    cases entry.1.find? label <;> rfl

/-- What is located is one of the groups of its level. -/
theorem locate?_mem {level : Nat} (located : locate? scopes owner = some (level, found)) :
    ∃ scope, scopes[level]? = some scope ∧ scope.find? owner = some found := by
  induction scopes generalizing level with
  | nil => simp [locate?] at located
  | cons scope outer ih =>
    rw [locate?_cons] at located
    split at located
    · rename_i known
      obtain ⟨rfl, rfl⟩ := Prod.mk.inj (Option.some.inj located)
      exact ⟨scope, rfl, known⟩
    · obtain ⟨⟨level, entry⟩, further, same⟩ := Option.map_eq_some_iff.mp located
      obtain ⟨rfl, rfl⟩ := Prod.mk.inj same
      obtain ⟨scope, listed, known⟩ := ih further
      exact ⟨scope, by simpa using listed, known⟩

/-- A group that is found is kept. -/
theorem find?_mem (known : scope.find? owner = some found) : (owner, found) ∈ scope.groups := by
  obtain ⟨before, after, listed, _⟩ := List.lookup_eq_some_iff.mp known
  simp [listed]

/-- A change adds a join to the innermost level or is one of the levels around it. -/
theorem Raises.cons_cases (raises : Raises context (scope :: outer) later) :
    (∃ scope', Widens context scope scope' ∧ later = scope' :: outer) ∨
      ∃ outer', Raises context outer outer' ∧ later = scope :: outer' := by
  obtain ⟨located, raised⟩ := raises
  rw [locate?_cons] at located
  split at located
  · rename_i known
    obtain ⟨rfl, rfl⟩ := Prod.mk.inj (Option.some.inj located)
    exact Or.inl ⟨_, .join known raised, rfl⟩
  · obtain ⟨⟨level, entry⟩, further, same⟩ := Option.map_eq_some_iff.mp located
    obtain ⟨rfl, rfl⟩ := Prod.mk.inj same
    exact Or.inr ⟨_, .join further raised, rfl⟩

/-- Any number of changes. -/
abbrev Grows (context : LoweringContext) : List LoweringScope → List LoweringScope → Prop :=
  Relation.ReflTransGen (Raises context)

/-- Changes to all levels are changes to the innermost one and changes to the levels around it. -/
theorem Grows.cons_cases (grows : Grows context (scope :: outer) later) :
    ∃ scope' outer', later = scope' :: outer' ∧
      Relation.ReflTransGen (Widens context) scope scope' ∧ Grows context outer outer' := by
  induction grows with
  | refl => exact ⟨scope, outer, rfl, .refl, .refl⟩
  | tail _ raises ih =>
    obtain ⟨scope', outer', rfl, widened, grown⟩ := ih
    rcases raises.cons_cases with ⟨scope'', widens, rfl⟩ | ⟨outer'', further, rfl⟩
    · exact ⟨scope'', outer', rfl, widened.tail widens, grown⟩
    · exact ⟨scope', outer'', rfl, widened, grown.tail further⟩

/-- The group of a raised join is coherent. -/
theorem Raised.coherent {ownerGroup : TableGroup} {join : GroupJoin}
    (raised : Raised context owner ownerGroup join) : join.group.Coherent := by
  cases raised with
  | toOne leads stored built => exact tableGroup_coherent built
  | element leads mapped indexed built value => exact tableGroup_coherent built

/-- A further join keeps its group in front of the others. -/
theorem addJoin_groups {space : Nat} {join : GroupJoin} :
    (scope.addJoin space join).groups = (join.group.label, ⟨space, join.group⟩) :: scope.groups :=
  rfl

/-- Raising a join keeps the groups coherent. -/
theorem Raises.coherent (raises : Raises context scopes later) (coherent : Coherent scopes) :
    Coherent later := by
  obtain ⟨located, raised⟩ := raises
  intro scope member entry listed
  obtain ⟨level, found⟩ := List.getElem?_of_mem member
  rw [List.getElem?_modify] at found
  obtain ⟨before, known, changed⟩ := Option.map_eq_some_iff.mp found
  have earlier := coherent before (List.mem_of_getElem? known)
  split at changed
  · subst changed
    rcases List.mem_cons.mp listed with rfl | listed
    · exact raised.coherent
    · exact earlier entry listed
  · subst changed
    exact earlier entry listed

/-- Raising a join hides no table. -/
theorem Raises.visible_subset (raises : Raises context scopes later) :
    visible scopes ⊆ visible later := by
  obtain ⟨located, raised⟩ := raises
  intro label member
  obtain ⟨scope, listed, named⟩ := List.mem_flatMap.mp member
  obtain ⟨position, stored⟩ := List.getElem?_of_mem listed
  rename_i level found join
  by_cases changed : level = position
  · refine List.mem_flatMap.mpr ⟨scope.addJoin found.space join, ?_, ?_⟩
    · exact List.mem_of_getElem? (i := position) (by simp [stored, changed])
    · rw [LoweringScope.labels, addJoin_groups, List.flatMap_cons]
      exact List.mem_append_right _ named
  · exact List.mem_flatMap.mpr ⟨scope, List.mem_of_getElem? (i := position)
      (by simp [stored, changed]), named⟩

/-- Growing scopes keep their groups coherent. -/
theorem Grows.coherent (grows : Grows context scopes later) (coherent : Coherent scopes) :
    Coherent later := by
  induction grows with
  | refl => exact coherent
  | tail _ raises ih => exact raises.coherent ih

/-- Growing scopes hide no table. -/
theorem Grows.visible_subset (grows : Grows context scopes later) :
    visible scopes ⊆ visible later := by
  induction grows with
  | refl => exact List.Subset.refl _
  | tail _ raises ih => exact List.Subset.trans ih raises.visible_subset

/-- A group that is located is coherent, and its tables are visible. -/
theorem located_group (coherent : Coherent scopes) {level space : Nat} {group : TableGroup}
    (located : locate? scopes owner = some (level, ⟨space, group⟩)) :
    group.Coherent ∧ group.labels ⊆ visible scopes := by
  obtain ⟨scope, listed, known⟩ := locate?_mem located
  have member : scope ∈ scopes := List.mem_of_getElem? listed
  refine ⟨coherent scope member _ (find?_mem known), ?_⟩
  intro label named
  exact List.mem_flatMap.mpr ⟨scope, member, List.mem_flatMap.mpr ⟨_, find?_mem known, named⟩⟩

/-- The column of an attribute is one of the columns of its group. -/
theorem columnOf_ok {group : TableGroup} {label : String} {column : Sql.Expr}
    (stored : columnOf group label = .ok column) :
    ∃ binding ∈ group.columns, column = binding.expr := by
  unfold columnOf at stored
  split at stored
  · rename_i found
    exact TableGroup.column?_eq_some (Except.ok.inj stored ▸ found)
  · cases stored

/-- The value that an expression gives: a value in the sense of SQL, over tables that the levels
have. -/
structure Within (scopes : List LoweringScope) (value : Sql.Expr) : Prop where
  isValue : value.isValue = true
  references : ∀ indices, value.references indices ⊆ visible scopes
  qualified : value.IsQualified

/-- A value within scopes is within them once they have grown. -/
theorem Within.mono {value : Sql.Expr} (within : Within scopes value)
    (grows : Grows context scopes later) : Within later value :=
  ⟨within.isValue, fun indices => List.Subset.trans (within.references indices)
    grows.visible_subset, within.qualified⟩

/-- A column of a visible table is within scopes. -/
theorem within_tableColumn {table name : String} (known : table ∈ visible scopes) :
    Within scopes (.tableColumn table name) := by
  refine ⟨rfl, ?_, Sql.Expr.isQualified_tableColumn⟩
  intro indices label member
  simp only [Sql.Expr.tableColumn, Sql.Expr.references, List.mem_singleton] at member
  exact member ▸ known

/-- A group that a run has found gives its key. -/
theorem within_key (coherent : Coherent state.scopes) {label : String} {group : TableGroup}
    (run : Yields (Lowering.group label) state group after) :
    after = state ∧ Within state.scopes group.key := by
  obtain ⟨rfl, level, space, located⟩ := yields_group.mp run
  have labels := (located_group coherent located).2
  exact ⟨rfl, within_tableColumn (labels TableGroup.root_mem_labels)⟩

/-- A column of a located group is within scopes. -/
theorem within_column (coherent : Coherent scopes) {level space : Nat} {group : TableGroup}
    (located : locate? scopes owner = some (level, ⟨space, group⟩)) {label : String}
    {column : Sql.Expr} (stored : columnOf group label = .ok column) : Within scopes column := by
  obtain ⟨binding, listed, rfl⟩ := columnOf_ok stored
  obtain ⟨groupCoherent, labels⟩ := located_group coherent located
  exact within_tableColumn (labels (groupCoherent.columns binding listed))

/-- A to-one association is joined to its owner, unless it has been joined before. -/
theorem toOneJoin_grows {label name : String}
    (run : Yields (toOneJoin context owner label) state name after) :
    Grows context state.scopes after.scopes := by
  simp only [toOneJoin, yields_bind, yields_isKnown] at run
  obtain ⟨_, _, ⟨rfl, rfl⟩, run⟩ := run
  split at run
  · obtain ⟨_, rfl⟩ := yields_pure.mp run
    exact .refl
  · simp only [yields_bind, yields_group, yields_lift, yields_attach, yields_pure] at run
    obtain ⟨ownerGroup, _, ⟨rfl, level, space, located⟩, entity, _, ⟨leads, rfl⟩, foreignKey, _,
      ⟨stored, rfl⟩, target, _, ⟨built, rfl⟩, join, _, ⟨joined, rfl⟩, _, _,
      ⟨level', found, located', rfl⟩, _, rfl⟩ := run
    obtain ⟨rfl, rfl⟩ := Prod.mk.inj (Option.some.inj (located.symm.trans located'))
    rw [groupJoin_ok joined]
    exact .single (.join located (.toOne leads stored built))

/-- The element that an index selects is joined to the owner of the collection. -/
theorem indexJoin_grows {label name : String} {type : DataType} {index : Sql.Expr}
    (value : index.isValue = true)
    (run : Yields (indexJoin context owner label type index) state name after) :
    Grows context state.scopes after.scopes := by
  simp only [indexJoin, yields_bind, yields_lift, yields_nextIndexJoin, yields_group, yields_attach,
    yields_pure] at run
  obtain ⟨entity, _, ⟨leads, rfl⟩, number, _, ⟨rfl, rfl⟩, ownerGroup, _,
    ⟨rfl, level, space, located⟩, mapping, _, ⟨mapped, rfl⟩, column, _, ⟨indexed, rfl⟩, target, _,
    ⟨built, rfl⟩, join, _, ⟨joined, rfl⟩, _, _, ⟨level', found, located', rfl⟩, _, rfl⟩ := run
  obtain ⟨rfl, rfl⟩ := Prod.mk.inj (Option.some.inj (located.symm.trans located'))
  rw [groupJoin_ok joined]
  exact .single (.join located (.element leads mapped indexed built value))

/-- A step into a path makes the scopes grow. -/
theorem step_grows {label name : String} {type : DataType} :
    ∀ {index : Option Sql.Expr}, (∀ value ∈ index, value.isValue = true) →
      Yields (step context owner label type index) state name after →
        Grows context state.scopes after.scopes
  | some _, values, run => indexJoin_grows (values _ rfl) run
  | none, _, run => toOneJoin_grows run

/-- A literal is within any scopes. -/
theorem literal_within {given : Literal} {value : Sql.Expr} (lowered : literal given = .ok value) :
    Within scopes value := by
  have same : value = .literal given := by
    unfold literal at lowered
    split at lowered
    · split at lowered
      · exact (Except.ok.inj lowered).symm
      · cases lowered
    · exact (Except.ok.inj lowered).symm
  subst same
  exact ⟨rfl, fun indices => by simp [Sql.Expr.references], Sql.Expr.isQualified_literal⟩

/-- A call is within scopes if its argument is. -/
theorem call_within {function : Function} {distinct : Bool} {argument : Option Sql.Expr}
    {value : Sql.Expr} (arguments : ∀ given ∈ argument, Within scopes given)
    (lowered : call function distinct argument = .ok value) : Within scopes value := by
  unfold call at lowered
  split at lowered
  · rename_i given
    obtain rfl := Except.ok.inj lowered
    have within := arguments given rfl
    refine ⟨?_, fun indices => ?_, ?_⟩
    · exact Sql.Expr.isValue_call_of_areValues (by simp [areValues, within.isValue])
    · simpa [Sql.Expr.references, listReferences] using within.references indices
    · simpa [Sql.Expr.IsQualified, Sql.Expr.qualifiers, listQualifiers] using within.qualified
  · split at lowered
    · obtain rfl := Except.ok.inj lowered
      refine ⟨rfl, fun indices => ?_, ?_⟩
      · simp [Sql.Expr.countStar, Sql.Expr.references, listReferences]
      · simp [Sql.Expr.countStar, Sql.Expr.IsQualified, Sql.Expr.qualifiers, listQualifiers]
    · cases lowered

end Lowering
end ObjectQuery

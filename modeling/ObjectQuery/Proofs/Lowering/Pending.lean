import ObjectQuery.Proofs.Lowering.Placement
/-!
# A join whose condition is being lowered

While the condition of a join is lowered, the group of the join is known but has no place yet, and
what the condition asks for is joined behind the place that it will get. The level is looked at as
if the group stood there already, cross joined. It is sound in this view all the time, and in the
end the join with its condition takes the place of the cross join.
-/
namespace ObjectQuery.Lowering

open Sql

variable {context : LoweringContext} {outer : List String} {scope scope' : LoweringScope}
  {target : TableGroup} {space count : Nat}

/-- The group stands for the join of it that is still to come. -/
def standIn (target : TableGroup) : GroupJoin := ⟨.cross, target, none⟩

/-- The group of a join is about to be placed in the last space, behind the first `count` joins;
only joins for paths stand behind its place. -/
structure Pending (outer : List String) (target : TableGroup) (space count : Nat)
    (scope : LoweringScope) : Prop where
  last : space + 1 = scope.spaces.length
  counted : ∀ found, scope.spaces[space]? = some found → count ≤ found.joins.length
  implicit : ∀ found, scope.spaces[space]? = some found → ∀ join ∈ found.joins.drop count,
    ∀ label ∈ join.group.labels, isImplicit label = true
  sound : Sound outer (scope.insertJoin space count (standIn target))

/-- The last space of a level. -/
theorem last_space (last : space + 1 = scope.spaces.length) :
    ∃ front found, scope.spaces = front ++ [found] ∧ front.length = space ∧
      scope.spaces[space]? = some found ∧
        ∀ change, scope.spaces.modify space change = front ++ [change found] := by
  obtain ⟨found, stored⟩ : ∃ found, scope.spaces[space]? = some found :=
    ⟨_, List.getElem?_eq_getElem (by omega)⟩
  obtain ⟨front, back, whole, length, changed⟩ := modify_around stored
  obtain rfl : back = [] := by
    have counted := congrArg List.length whole
    simp only [List.length_append, List.length_cons] at counted
    exact List.eq_nil_of_length_eq_zero (by omega)
  exact ⟨front, found, whole, length, stored, changed⟩

/-- A join at the end of a space and a join among the earlier ones do not get into each other's
way. -/
theorem insertJoin_addJoin {position : Nat} {join given : GroupJoin}
    (counted : ∀ found, scope.spaces[space]? = some found → count ≤ found.joins.length) :
    (scope.addJoin position join).insertJoin space count given =
      (scope.insertJoin space count given).addJoin position join := by
  simp only [LoweringScope.addJoin, LoweringScope.insertJoin, LoweringScope.addGroup,
    LoweringScope.mk.injEq, and_true]
  by_cases same : position = space
  · subst same
    rw [List.modify_modify_eq, List.modify_modify_eq]
    refine List.ext_getElem? fun index => ?_
    simp only [List.getElem?_modify]
    by_cases here : position = index
    · subst here
      cases stored : scope.spaces[position]? with
      | none => rfl
      | some found =>
        have within := counted found stored
        simp [List.take_append_of_le_length within, List.drop_append_of_le_length within]
    · simp [here]
  · exact List.modify_modify_ne _ _ _ same

/-- The view starts out sound: nothing stands behind the place. -/
theorem Sound.pending (sound : Sound outer scope) (last : space + 1 = scope.spaces.length)
    (coherent : target.Coherent) (named : target.Named) :
    Pending outer target space (scope.joinCount space) (scope.addGroup space target) := by
  obtain ⟨front, ⟨root, joins⟩, whole, length, stored, changed⟩ := last_space last
  have counted : scope.joinCount space = joins.length := by
    simp [LoweringScope.joinCount, stored]
  refine ⟨last, ?_, ?_, ?_⟩
  · intro found listed
    obtain rfl := Option.some.inj (stored.symm.trans listed)
    exact Nat.le_of_eq counted
  · intro found listed join member
    obtain rfl := Option.some.inj (stored.symm.trans listed)
    simp [counted] at member
  · have empty : scope.spaces = front ++ ⟨root, joins ++ ([] ++ [])⟩ :: [] := by simpa using whole
    have view : ((scope.addGroup space target).insertJoin space (scope.joinCount space)
        (standIn target)).spaces = front ++ ⟨root, joins ++ standIn target :: []⟩ :: [] := by
      simp [LoweringScope.insertJoin, LoweringScope.addGroup, changed, counted]
    refine sound.place empty (by simp) (.done _) coherent named ?_ ?_ view ?_
    · simp [GroupReaches, standIn, onReferences]
    · simp [standIn, conditionLevels]
    · intro entry member
      rcases List.mem_cons.mp member with rfl | earlier
      · exact Or.inr (by rw [length]; rfl)
      · exact Or.inl earlier

/-- A pending clause stays so with more tables around it. -/
theorem Pending.widen {wider : List String} (pending : Pending outer target space count scope)
    (inside : outer ⊆ wider) : Pending wider target space count scope :=
  ⟨pending.last, pending.counted, pending.implicit, pending.sound.widen inside⟩

/-- Joins that paths ask for are put at the ends of spaces, behind the place. -/
theorem Pending.widens (pending : Pending outer target space count scope)
    (widens : Widens context scope scope') : Pending outer target space count scope' := by
  obtain ⟨known, raised⟩ := widens
  rename_i owner entry join
  have same : (scope.addJoin entry.space join).insertJoin space count (standIn target) =
      (scope.insertJoin space count (standIn target)).addJoin entry.space join :=
    insertJoin_addJoin pending.counted
  have listed (found : TableSpace) (stored : (scope.addJoin entry.space join).spaces[space]? =
      some found) : ∃ earlier, scope.spaces[space]? = some earlier ∧
        (found.joins = earlier.joins ∨ found.joins = earlier.joins ++ [join]) := by
    rw [LoweringScope.addJoin, List.getElem?_modify] at stored
    obtain ⟨earlier, known, changed⟩ := Option.map_eq_some_iff.mp stored
    refine ⟨earlier, known, ?_⟩
    split at changed
    · exact Or.inr (by rw [← changed])
    · exact Or.inl (by rw [← changed])
  refine ⟨?_, ?_, ?_, ?_⟩
  · simpa [LoweringScope.addJoin, LoweringScope.addGroup] using pending.last
  · intro found stored
    obtain ⟨earlier, known, joins | joins⟩ := listed found stored
    · exact joins ▸ pending.counted earlier known
    · have := pending.counted earlier known
      rw [joins, List.length_append]
      omega
  · intro found stored given member
    obtain ⟨earlier, known, joins | joins⟩ := listed found stored
    · exact pending.implicit earlier known given (joins ▸ member)
    · rw [joins, List.drop_append_of_le_length (pending.counted earlier known),
        List.mem_append, List.mem_singleton] at member
      rcases member with before | rfl
      · exact pending.implicit earlier known given before
      · exact raised.implicit
  · rw [same]
    exact pending.sound.widens (.join known raised)

/-- A pending clause stays so however often its scope is widened. -/
theorem Pending.widened (pending : Pending outer target space count scope)
    (widened : Relation.ReflTransGen (Widens context) scope scope') :
    Pending outer target space count scope' := by
  induction widened with
  | refl => exact pending
  | tail _ widens ih => exact ih.widens widens

/-- The join takes its place with its condition, which is about tables of the level as it is now and
of those around it.

Proof: the stand-in for the join gives way to the join itself. What its condition refers to stands
in front of it, is its own, or belongs to joins raised behind it for this very condition. -/
theorem Pending.close {kind : JoinKind} {condition : Option Sql.Expr}
    (pending : Pending outer target space count scope) (coherent : target.Coherent)
    (named : target.Named) (written : isImplicit target.label = false)
    (references : conditionReferences false condition ⊆ scope.labels ++ outer)
    (inside : ∀ level ∈ conditionLevels (scope.labels ++ outer) condition, level.IsScoped) :
    Sound outer (scope.insertJoin space count ⟨kind, target, condition⟩) := by
  obtain ⟨front, ⟨root, joins⟩, whole, length, stored, changed⟩ := last_space pending.last
  have view : (scope.insertJoin space count (standIn target)).spaces =
      front ++ ⟨root, joins.take count ++ ([standIn target] ++ joins.drop count)⟩ :: [] := by
    simp [LoweringScope.insertJoin, changed]
  have closed : (scope.insertJoin space count ⟨kind, target, condition⟩).spaces =
      front ++ ⟨root, joins.take count ++ ⟨kind, target, condition⟩ :: joins.drop count⟩ :: [] := by
    simp [LoweringScope.insertJoin, changed]
  have around {label : String} (named : label ∈ scope.labels) :
      label ∈ joinLabels (entries front ++ TableSpace.entries ⟨root, joins.take count⟩) ∨
        label ∈ target.labels ∨
        label ∈ joinLabels ((joins.drop count).flatMap (·.toJoins) ++ entries []) := by
    have placed := pending.sound.labels_subset named
    rw [view] at placed
    exact mem_entries_around.mp placed
  have behind {label : String}
      (later : label ∈ joinLabels ((joins.drop count).flatMap (·.toJoins) ++ entries [])) :
      isImplicit label = true := by
    simp only [entries, List.flatMap_nil, List.append_nil, joinLabels, List.filterMap_flatMap,
      List.mem_flatMap] at later
    obtain ⟨join, member, named⟩ := later
    exact pending.implicit _ stored join member label (joinLabels_toJoins ▸ named)
  have same : joinLabels ([standIn target].flatMap (·.toJoins)) =
      joinLabels (GroupJoin.toJoins ⟨kind, target, condition⟩) := by
    rw [List.flatMap_singleton, joinLabels_toJoins, joinLabels_toJoins]
    rfl
  have wider : scope.labels ++ outer ⊆ joinLabels (entries
      (scope.insertJoin space count ⟨kind, target, condition⟩).spaces) ++ outer := by
    refine append_subset_append ?_ (List.Subset.refl _)
    intro label named
    rw [closed]
    exact mem_entries_around.mpr (around named)
  refine pending.sound.place view (by simp [standIn]) ?_ coherent named ?_ ?_ closed ?_
  · rw [joinLabels_append, same, ← joinLabels_append]
    exact .refl _
  · intro label mentioned
    have visible := references (onReferences_subset mentioned)
    rcases List.mem_append.mp visible with here | enclosing
    · rcases around here with before | inside
      · exact Or.inl (List.mem_append_right _ before)
      · exact Or.inr (Or.inr ⟨written, _, List.prefix_rfl, fun _ => behind,
          List.mem_append.mpr inside⟩)
    · exact Or.inl (List.mem_append_left _ enclosing)
  · exact conditionLevels_widen widening_isScoped wider condition inside
  · intro entry member
    exact Or.inl member

/-- A space is opened for a group. -/
theorem Sound.addSpace {root : TableGroup} (sound : Sound outer scope) (coherent : root.Coherent) :
    Sound outer (scope.addSpace root) := by
  have whole : entries (scope.addSpace root).spaces =
      entries scope.spaces ++ (standIn root).toJoins := by
    simp [LoweringScope.addSpace, entries, TableSpace.entries, TableSpace.toJoins, standIn,
      GroupJoin.toJoins]
  have toRoot : ∀ further ∈ (standIn root).toJoins.tail, ToRoot root.root.label further :=
    toRoot_tail coherent
  refine ⟨?_, ?_, ?_, ?_⟩
  · intro entry member
    rcases List.mem_cons.mp member with rfl | earlier
    · exact coherent
    · exact sound.coherent entry earlier
  · intro entry member
    rcases List.mem_cons.mp member with rfl | earlier
    · exact ⟨⟨root, []⟩, by simp [LoweringScope.addSpace], by simp [TableSpace.groups]⟩
    · obtain ⟨space, stored, grouped⟩ := sound.placed entry earlier
      have inside := (List.getElem?_eq_some_iff.mp stored).1
      exact ⟨space, by simpa [LoweringScope.addSpace, List.getElem?_append_left inside], grouped⟩
  · rw [whole]
    refine EachJoin.append stable_reaches sound.ordered ⟨?_, ?_⟩
    · intro label mentioned
      simp [standIn, Join.references, onReferences] at mentioned
    · refine eachJoin_toRoot ?_ toRoot
      simp [standIn, TableSpec.toRef_label]
  · rw [whole]
    intro join member
    rcases List.mem_append.mp member with earlier | own
    · refine conditionLevels_widen widening_isScoped ?_ join.condition (sound.nested join earlier)
      rw [joinLabels_append]
      intro label member
      simp only [List.mem_append] at member ⊢
      exact member.imp_left Or.inl
    · rcases List.mem_cons.mp own with rfl | further
      · simp [standIn, conditionLevels]
      · simp [(toRoot join further).levels]

end ObjectQuery.Lowering

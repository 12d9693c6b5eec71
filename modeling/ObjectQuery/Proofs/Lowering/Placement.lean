import ObjectQuery.Proofs.Lowering.Expression
/-!
# The level under construction

A level is sound if all its groups have their place in its spaces and every join in it reaches the
tables that its condition refers to. `Sound.place` is the one step from which everything else
follows: a join can be put anywhere into a space, as long as its own condition reaches its tables.
The joins that paths ask for are put at the end of the space of their owner, where the owner has its
tables behind it.
-/
namespace ObjectQuery.Lowering

open Sql
open Resolved (Segment Reference)

variable {context : LoweringContext} {outer : List String} {scope scope' : LoweringScope}

/-- The groups of the level have their places, and the conditions in it reach their tables, those of
sub-selects included. -/
structure Sound (outer : List String) (scope : LoweringScope) : Prop where
  coherent : ∀ entry ∈ scope.groups, entry.2.group.Coherent
  placed : ∀ entry ∈ scope.groups, ∃ space, scope.spaces[entry.2.space]? = some space ∧
    entry.2.group ∈ space.groups
  ordered : EachJoin Reaches outer (entries scope.spaces)
  nested : ∀ join ∈ entries scope.spaces, ∀ level ∈
    conditionLevels (joinLabels (entries scope.spaces) ++ outer) join.condition,
      level.IsScoped

/-- Sub-selects that are scoped stay so with more tables around them. -/
theorem widening_isScoped : Widening Level.IsScoped := by
  intro outer wider query inside level
  refine ⟨?_, ?_⟩
  · exact EachJoin.widen stable_reaches (append_subset_append inside (List.Subset.refl _))
      level.joins
  · intro qualifier member
    obtain ⟨table, known, same⟩ := level.columns qualifier member
    exact ⟨table, append_subset_append (List.Subset.refl _) inside known, same⟩

/-- The empty scope is sound. -/
theorem sound_empty : Sound outer .empty where
  coherent := by simp [LoweringScope.empty]
  placed := by simp [LoweringScope.empty]
  ordered := trivial
  nested := by simp [LoweringScope.empty, entries]

/-- A sound scope stays so with more tables around it. -/
theorem Sound.widen {wider : List String} (sound : Sound outer scope) (inside : outer ⊆ wider) :
    Sound wider scope where
  coherent := sound.coherent
  placed := sound.placed
  ordered := EachJoin.widen stable_reaches inside sound.ordered
  nested := by
    intro join member
    exact conditionLevels_widen widening_isScoped (append_subset_append (List.Subset.refl _) inside)
      join.condition (sound.nested join member)

/-- All tables of a sound level stand in its list of tables. -/
theorem Sound.labels_subset (sound : Sound outer scope) :
    scope.labels ⊆ joinLabels (entries scope.spaces) := by
  intro label member
  obtain ⟨entry, listed, named⟩ := List.mem_flatMap.mp member
  obtain ⟨space, found, grouped⟩ := sound.placed entry listed
  exact mem_entries.mpr ⟨space, List.mem_of_getElem? found,
    List.mem_flatMap.mpr ⟨entry.2.group, grouped, named⟩⟩

/-- The condition of the join compares a column of a root table with one of its own. -/
def ToRoot (root : String) (join : Join Sql.Expr) : Prop :=
  ∃ own rootColumn column, join.table.label = some own ∧ join.condition =
    some (Sql.Expr.equals (.tableColumn root rootColumn) (.tableColumn own column))

/-- All joins of a group but the first are to its root. -/
theorem toRoot_tail {join : GroupJoin} (coherent : join.group.Coherent) :
    ∀ further ∈ join.toJoins.tail, ToRoot join.group.root.label further := by
  intro further member
  obtain ⟨table, stored, rfl⟩ := List.mem_map.mp member
  obtain ⟨rootColumn, column, on⟩ := coherent.secondary table stored
  refine ⟨table.table.label, rootColumn, column, ?_⟩
  split <;> exact ⟨TableSpec.toRef_label _, on⟩

/-- A join to the root opens no level. -/
theorem ToRoot.levels {root : String} {join : Join Sql.Expr} (toRoot : ToRoot root join) :
    conditionLevels outer join.condition = [] := by
  obtain ⟨own, rootColumn, column, _, condition⟩ := toRoot
  simp [condition, conditionLevels, Sql.Expr.equals, Sql.Expr.tableColumn, Sql.Expr.levels]

/-- Joins to a root reach their tables once the root is there. -/
theorem eachJoin_toRoot {visible : List String} {root : String} (known : root ∈ visible)
    {joins : List (Join Sql.Expr)} (toRoot : ∀ join ∈ joins, ToRoot root join) :
    EachJoin Reaches visible joins := by
  induction joins generalizing visible with
  | nil => trivial
  | cons join rest ih =>
    obtain ⟨⟨own, rootColumn, column, named, condition⟩, others⟩ := List.forall_mem_cons.mp toRoot
    refine ⟨?_, ih (List.mem_append_left _ known) others⟩
    intro label mentioned
    rw [Join.references, condition] at mentioned
    have either : label = root ∨ label = own := by
      simpa [onReferences, Sql.Expr.equals, Sql.Expr.tableColumn, Sql.Expr.references]
        using mentioned
    refine Or.inl (List.mem_append.mpr ?_)
    rcases either with rfl | rfl
    · exact Or.inl known
    · exact Or.inr (by simp [named])

/-- What the condition of the join refers to is visible, or it is the root table of the group. If the
text names the group, it may also be a further table of it, or one of the tables that are joined for
paths directly behind it. -/
def GroupReaches (visible : List String) (join : GroupJoin) (rest : List (Join Sql.Expr)) : Prop :=
  ∀ label ∈ onReferences false join.group.root.toRef.isElement join.condition,
    label ∈ visible ∨ label = join.group.root.label ∨
      isImplicit join.group.label = false ∧ ∃ near, near <+: joinLabels rest ∧
        (∀ name ∈ near, isImplicit name = true) ∧ label ∈ join.group.labels ++ near

/-- The tables behind the root table of a group are ahead of it. -/
theorem ahead_of_near {join : Join Sql.Expr} {group : TableGroup} {further rest : List (Join Sql.Expr)}
    {near : List String} {label : String} (named : group.Named)
    (rooted : join.table.label = some group.root.label)
    (own : group.root.label :: joinLabels further = group.labels)
    (written : isImplicit group.label = false) (first : near <+: joinLabels rest)
    (implicit : ∀ name ∈ near, isImplicit name = true) (listed : label ∈ joinLabels further ++ near) :
    Ahead join (further ++ rest) label := by
  refine ⟨group.label, joinLabels further ++ near, named.root ▸ rooted, written, ?_, ?_, listed⟩
  · rw [joinLabels_append]
    exact (List.prefix_append_right_inj _).mpr first
  · refine List.forall_mem_append.mpr ⟨fun name member => ?_, fun name member => ?_⟩
    · exact .inr (named.tables name (own ▸ List.mem_cons_of_mem _ member))
    · exact .inl (implicit name member)

/-- The root table of a group is joined to what stands before it, and the further tables to the
root. -/
theorem eachJoin_toJoins {visible : List String} {join : GroupJoin} {rest : List (Join Sql.Expr)}
    (coherent : join.group.Coherent) (named : join.group.Named)
    (reaches : GroupReaches visible join rest)
    (further : EachJoin Reaches (visible ++ join.group.labels) rest) :
    EachJoin Reaches visible (join.toJoins ++ rest) := by
  have labels : joinLabels join.toJoins = join.group.labels := joinLabels_toJoins
  rw [← labels] at further
  obtain ⟨root, secondary, listed, rooted, condition⟩ : ∃ root secondary,
      join.toJoins = root :: secondary ∧ root.table = join.group.root.toRef ∧
        root.condition = join.condition := ⟨_, _, rfl, rfl, rfl⟩
  rw [listed, joinLabels_cons, rooted, TableSpec.toRef_label] at labels further
  rw [listed, List.cons_append]
  refine ⟨?_, EachJoin.append stable_reaches ?_ ?_⟩
  · intro label mentioned
    rw [Join.references, rooted, condition] at mentioned
    rw [rooted, TableSpec.toRef_label]
    rcases reaches label mentioned with known | rfl | ⟨written, near, first, implicit, behind⟩
    · exact Or.inl (List.mem_append_left _ known)
    · exact Or.inl (by simp)
    · rw [← labels, List.append_assoc, Option.toList_some, List.singleton_append] at behind
      rcases List.mem_cons.mp behind with rfl | behind
      · exact Or.inl (by simp)
      · exact Or.inr (ahead_of_near named (rooted ▸ TableSpec.toRef_label _) labels written first
          implicit behind)
  · rw [rooted, TableSpec.toRef_label]
    have visibleRoot : join.group.root.label ∈ visible ++ [join.group.root.label] := by simp
    have toRoot := toRoot_tail coherent
    rw [listed] at toRoot
    exact eachJoin_toRoot visibleRoot toRoot
  · simpa [rooted, TableSpec.toRef_label] using further

/-- The tables of a level around one of the joins of a space. -/
theorem entries_around {front back : List TableSpace} {root : TableGroup}
    {before after : List GroupJoin} :
    entries (front ++ ⟨root, before ++ after⟩ :: back) =
      (entries front ++ TableSpace.entries ⟨root, before⟩) ++
        (after.flatMap (·.toJoins) ++ entries back) := by
  simp [entries_append, entries_cons, TableSpace.entries, TableSpace.toJoins]

/-- The names of the tables of a level around one of the joins of a space. -/
theorem mem_entries_around {front back : List TableSpace} {root : TableGroup}
    {before after : List GroupJoin} {join : GroupJoin} {label : String} :
    label ∈ joinLabels (entries (front ++ ⟨root, before ++ join :: after⟩ :: back)) ↔
      label ∈ joinLabels (entries front ++ TableSpace.entries ⟨root, before⟩) ∨
        label ∈ join.group.labels ∨
        label ∈ joinLabels (after.flatMap (·.toJoins) ++ entries back) := by
  rw [entries_around, List.flatMap_cons, List.append_assoc join.toJoins, ← joinLabels_toJoins]
  simp only [joinLabels_append, List.mem_append]

/-- The groups of the space at a place, after one of its joins has been replaced or a new one has
been put there. -/
theorem placed_around {front back : List TableSpace} {space space' : TableSpace}
    {entry : ScopedGroup} (more : ∀ group ∈ space.groups, group ∈ space'.groups)
    (placed : ∃ found, (front ++ space :: back)[entry.space]? = some found ∧
      entry.group ∈ found.groups) :
    ∃ found, (front ++ space' :: back)[entry.space]? = some found ∧ entry.group ∈ found.groups := by
  obtain ⟨found, listed, grouped⟩ := placed
  by_cases here : entry.space = front.length
  · rw [here, List.getElem?_append_right (Nat.le_refl _)] at listed ⊢
    simp only [Nat.sub_self, List.getElem?_cons_zero, Option.some.injEq] at listed ⊢
    exact ⟨space', rfl, more _ (listed ▸ grouped)⟩
  · refine ⟨found, ?_, grouped⟩
    rw [← listed]
    by_cases earlier : entry.space < front.length
    · rw [List.getElem?_append_left earlier, List.getElem?_append_left earlier]
    · obtain ⟨further, position⟩ : ∃ further, entry.space - front.length = further + 1 :=
        ⟨entry.space - front.length - 1, by omega⟩
      rw [List.getElem?_append_right (by omega), List.getElem?_append_right (by omega), position,
        List.getElem?_cons_succ, List.getElem?_cons_succ]

/-- The groups of a space are all there when a join takes the place of joins of its own group. -/
theorem groups_replaced {root : TableGroup} {before old after : List GroupJoin} {join : GroupJoin}
    (same : ∀ given ∈ old, given.group = join.group) :
    ∀ group ∈ TableSpace.groups ⟨root, before ++ (old ++ after)⟩,
      group ∈ TableSpace.groups ⟨root, before ++ join :: after⟩ := by
  intro group member
  simp only [TableSpace.groups, List.map_append, List.map_cons, List.mem_cons, List.mem_append,
    List.mem_map] at member ⊢
  rcases member with isRoot | isBefore | ⟨given, isOld, rfl⟩ | isAfter
  · exact Or.inl isRoot
  · exact Or.inr (Or.inl isBefore)
  · exact Or.inr (Or.inr (Or.inl (same given isOld)))
  · exact Or.inr (Or.inr (Or.inr isAfter))

/-- Joins of one group bring no other labels than those of the group. -/
theorem joinLabels_subset_of_same {group : TableGroup} {joins : List GroupJoin}
    (same : ∀ given ∈ joins, given.group = group) :
    joinLabels (joins.flatMap (·.toJoins)) ⊆ group.labels := by
  intro label member
  simp only [joinLabels, List.filterMap_flatMap, List.mem_flatMap] at member
  obtain ⟨given, listed, named⟩ := member
  have own : label ∈ given.group.labels := by
    rwa [← joinLabels_toJoins]
  exact same given listed ▸ own

/-- A join is put into a space. It may take the place of joins of the same group. What stands ahead
of the joins before it must stay ahead of them.

Proof: the conditions in front see the labels they saw before, since the labels behind them are
filled; those behind see no fewer; and the new join reaches its tables by assumption. -/
theorem Sound.place {front back : List TableSpace} {root : TableGroup}
    {before old after : List GroupJoin} {join : GroupJoin} (sound : Sound outer scope)
    (listed : scope.spaces = front ++ ⟨root, before ++ (old ++ after)⟩ :: back)
    (same : ∀ given ∈ old, given.group = join.group)
    (filled : Filled
      (joinLabels (old.flatMap (·.toJoins) ++ (after.flatMap (·.toJoins) ++ entries back)))
      (joinLabels (join.toJoins ++ (after.flatMap (·.toJoins) ++ entries back))))
    (coherent : join.group.Coherent) (named : join.group.Named)
    (reaches : GroupReaches
      (outer ++ joinLabels (entries front ++ TableSpace.entries ⟨root, before⟩)) join
      (after.flatMap (·.toJoins) ++ entries back))
    (inside : ∀ level ∈ conditionLevels (joinLabels (entries scope'.spaces) ++ outer)
      join.condition, level.IsScoped)
    (listed' : scope'.spaces = front ++ ⟨root, before ++ join :: after⟩ :: back)
    (groups : ∀ entry ∈ scope'.groups,
      entry ∈ scope.groups ∨ entry.2 = ⟨front.length, join.group⟩) : Sound outer scope' := by
  have wholeOld : entries scope.spaces = (entries front ++ TableSpace.entries ⟨root, before⟩) ++
      (old.flatMap (·.toJoins) ++ (after.flatMap (·.toJoins) ++ entries back)) := by
    rw [listed, entries_around, List.flatMap_append, List.append_assoc (old.flatMap _)]
  have wholeNew : entries scope'.spaces = (entries front ++ TableSpace.entries ⟨root, before⟩) ++
      (join.toJoins ++ (after.flatMap (·.toJoins) ++ entries back)) := by
    rw [listed', entries_around, List.flatMap_cons, List.append_assoc join.toJoins]
  refine ⟨?_, ?_, ?_, ?_⟩
  · intro entry member
    rcases groups entry member with earlier | here
    · exact sound.coherent entry earlier
    · exact here ▸ coherent
  · intro entry member
    rw [listed']
    rcases groups entry member with earlier | here
    · exact placed_around (groups_replaced same) (listed ▸ sound.placed entry earlier)
    · refine ⟨⟨root, before ++ join :: after⟩, ?_, ?_⟩
      · simp [here]
      · simp [here, TableSpace.groups]
  · have ordered := sound.ordered
    rw [wholeOld] at ordered
    rw [wholeNew]
    refine EachJoin.replace stable_reaches filled ordered ?_
    refine eachJoin_toJoins coherent named reaches ?_
    refine EachJoin.widen stable_reaches ?_ ordered.drop.drop
    intro label member
    rw [List.mem_append] at member ⊢
    exact member.imp_right fun own => joinLabels_subset_of_same same own
  · have wider : joinLabels (entries scope.spaces) ++ outer ⊆
        joinLabels (entries scope'.spaces) ++ outer := by
      rw [wholeOld, wholeNew]
      intro label member
      rw [joinLabels_append, List.mem_append, List.mem_append] at member ⊢
      exact member.imp_left (Or.imp_right fun later => filled.subset later)
    intro given member
    rw [wholeNew] at member
    have either : given ∈ join.toJoins ∨ given ∈ entries scope.spaces := by
      rw [wholeOld]
      rcases List.mem_append.mp member with ahead | behind
      · exact Or.inr (List.mem_append_left _ ahead)
      · exact (List.mem_append.mp behind).imp_right fun later =>
          List.mem_append_right _ (List.mem_append_right _ later)
    rcases either with own | earlier
    · rcases List.mem_cons.mp own with rfl | further
      · exact inside
      · simp [(toRoot_tail coherent given further).levels]
    · exact conditionLevels_widen widening_isScoped wider given.condition
        (sound.nested given earlier)

/-- A place in a list and what a change there makes of the list. -/
theorem modify_around {α : Type} {items : List α} {position : Nat} {item : α}
    (found : items[position]? = some item) :
    ∃ front back, items = front ++ item :: back ∧ front.length = position ∧
      ∀ change, items.modify position change = front ++ change item :: back := by
  obtain ⟨inside, rfl⟩ := List.getElem?_eq_some_iff.mp found
  refine ⟨items.take position, items.drop (position + 1), ?_, ?_, ?_⟩
  · simp
  · exact List.length_take_of_le (Nat.le_of_lt inside)
  · intro change
    exact List.modify_eq_take_cons_drop inside

section Raised

variable {owner : String} {ownerGroup : TableGroup} {join : GroupJoin}

/-- The tables of a raised join are named after its label. -/
theorem Raised.named (raised : Raised context owner ownerGroup join) : join.group.Named := by
  cases raised with
  | toOne leads stored built => exact tableGroup_named built
  | element leads mapped indexed built value => exact tableGroup_named built

/-- The tables that are joined for a path have a dot in their names. -/
theorem Raised.implicit (raised : Raised context owner ownerGroup join) :
    ∀ label ∈ join.group.labels, isImplicit label = true := by
  intro label member
  obtain ⟨position, rfl⟩ := raised.named.tables label member
  cases raised with
  | toOne leads stored built =>
    rw [tableGroup_label built]
    simp [isImplicit, TableGroup.tableLabel]
  | element leads mapped indexed built value =>
    rw [tableGroup_label built]
    simp [isImplicit, TableGroup.tableLabel]

/-- The join of an element is recognised by the name of its table. -/
theorem isElement_bracket {name collection : String} {number : Nat} {table : TableSpec}
    (labelled : table.label =
      TableGroup.tableLabel (name ++ "." ++ collection ++ "[" ++ toString number ++ "]") 0) :
    table.toRef.isElement = true := by
  simp only [TableRef.isElement, TableSpec.toRef_label, Option.any_some, labelled,
    List.isSuffixOf_iff_suffix]
  exact ⟨(name ++ "." ++ collection ++ "[" ++ toString number).toList, by
    simp [TableGroup.tableLabel]⟩

/-- The condition of a join that a path asks for is about its owner and the joined root. -/
theorem Raised.references (raised : Raised context owner ownerGroup join)
    (coherent : ownerGroup.Coherent) :
    ∀ label ∈ onReferences false join.group.root.toRef.isElement join.condition,
      label ∈ ownerGroup.labels ∨ label = join.group.root.label := by
  intro label mentioned
  cases raised with
  | toOne leads stored built =>
    obtain ⟨binding, listed, rfl⟩ := columnOf_ok stored
    rw [Sql.Expr.equals, onReferences.eq_3 _ _ _ (by simp)] at mentioned
    simp only [Sql.Expr.references, ColumnBinding.expr_references, TableGroup.key_references,
      List.mem_append, List.mem_singleton] at mentioned
    rcases mentioned with rfl | rfl
    · exact Or.inl (coherent.columns binding listed)
    · exact Or.inr rfl
  | element leads mapped indexed built value =>
    have labelled := (tableGroup_named built).root
    rw [tableGroup_label built] at labelled
    have element := isElement_bracket labelled
    simp only [onReferences, Sql.Expr.both, Sql.Expr.equals, Sql.Expr.tableColumn, element,
      Sql.Expr.references, TableGroup.key_references, Bool.not_false, Bool.and_self, if_true,
      List.mem_append, List.mem_singleton, List.not_mem_nil, or_false] at mentioned
    rcases mentioned with (rfl | rfl) | rfl
    · exact Or.inl TableGroup.root_mem_labels
    · exact Or.inr rfl
    · exact Or.inr rfl

/-- There is no sub-select in the condition of a join that a path asks for. -/
theorem Raised.levels (raised : Raised context owner ownerGroup join) :
    conditionLevels outer join.condition = [] := by
  cases raised with
  | toOne leads stored built =>
    obtain ⟨binding, listed, rfl⟩ := columnOf_ok stored
    simp [conditionLevels, Sql.Expr.equals, Sql.Expr.levels, ColumnBinding.expr,
      Sql.Expr.tableColumn, TableGroup.key]
  | element leads mapped indexed built value =>
    simp [conditionLevels, Sql.Expr.both, Sql.Expr.equals, Sql.Expr.levels, Sql.Expr.tableColumn,
      TableGroup.key, Sql.Expr.levels_of_isValue _ value]

end Raised

/-- A join that a path asks for keeps the level sound: its owner stands before it. -/
theorem Sound.widens (sound : Sound outer scope) (widens : Widens context scope scope') :
    Sound outer scope' := by
  obtain ⟨known, raised⟩ := widens
  rename_i owner found join
  have listed := find?_mem known
  have coherent := sound.coherent _ listed
  obtain ⟨⟨root, joins⟩, stored, grouped⟩ := sound.placed _ listed
  obtain ⟨front, back, whole, length, changed⟩ := modify_around stored
  have empty : scope.spaces = front ++ ⟨root, joins ++ ([] ++ [])⟩ :: back := by simpa using whole
  refine sound.place empty (by simp) ?_ raised.coherent raised.named ?_ ?_ (changed _) ?_
  · simp only [List.flatMap_nil, List.nil_append, joinLabels_append, joinLabels_toJoins]
    exact .raised raised.implicit _
  · intro label mentioned
    rcases raised.references coherent label mentioned with owned | own
    · refine Or.inl (List.mem_append_right _ ?_)
      rw [joinLabels_append, joinLabels_entries]
      exact List.mem_append_right _ (List.mem_flatMap.mpr ⟨_, grouped, owned⟩)
    · exact Or.inr (Or.inl own)
  · simp [raised.levels]
  · intro entry member
    rcases List.mem_cons.mp member with rfl | earlier
    · exact Or.inr (by rw [length])
    · exact Or.inl earlier

/-- Any number of joins that paths ask for keep the level sound. -/
theorem Sound.widened (sound : Sound outer scope)
    (widened : Relation.ReflTransGen (Widens context) scope scope') : Sound outer scope' := by
  induction widened with
  | refl => exact sound
  | tail _ widens ih => exact ih.widens widens

end ObjectQuery.Lowering

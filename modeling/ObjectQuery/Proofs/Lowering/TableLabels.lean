import Mathlib.Data.List.Nodup
import ObjectQuery.Proofs.Lowering.Navigated
import ObjectQuery.Proofs.Lowering.Pending
/-!
# The names of tables

The tables of a group are named after the way to it, and a way that leads to an entity tells its
tables from all others. So the tables of different groups, levels and sub-selects have different
names. The table of a test for membership goes by a way along a collection, on which no group stands.

While a level is filled, its groups are just those that stand in its spaces, one of which may still be
without its place.
-/
namespace ObjectQuery

namespace Sql

/-- Whether the level is the query of a test for membership. Its first table has a dot in its name. -/
def Level.isMembership (level : Level) : Bool := level.query.labels.head?.any isImplicit

/-- The names of the tables of levels, except those of tests for membership. -/
def tableLabels (levels : List Level) : List String :=
  (levels.filter (!·.isMembership)).flatMap (·.query.labels)

/-- A label of a table is one of a level that is no member-of query. -/
theorem mem_tableLabels {levels : List Level} {label : String} : label ∈ tableLabels levels ↔
    ∃ level ∈ levels, level.isMembership = false ∧ label ∈ level.query.labels := by
  simp [tableLabels, and_assoc]

/-- Two lists of levels label the tables of both. -/
theorem tableLabels_append {levels more : List Level} :
    tableLabels (levels ++ more) = tableLabels levels ++ tableLabels more := by
  simp [tableLabels]

end Sql

namespace Lowering

open Sql

/-- The table of that name belongs to a group at the end of a way that starts from one of the
sources. -/
def IsTableOf (catalog : Catalog) (roots : String → Option String) (sources : List String)
    (label : String) : Prop :=
  ∃ (route : Route) (position : Nat), route.IsPlain ∧ (route.entity? catalog roots).isSome = true ∧
    route.root ∈ sources ∧ label = TableGroup.tableLabel route.name position

/-- The table of that name belongs to a group at the end of a way. -/
def IsTable (catalog : Catalog) (roots : String → Option String) (label : String) : Prop :=
  ∃ sources, IsTableOf catalog roots sources label

/-- The tables of the levels have different names after ways from the sources, and those of tests for
membership have names that no group has. -/
structure Neat (catalog : Catalog) (roots : String → Option String) (sources : List String)
    (levels : List Level) : Prop where
  distinct : (tableLabels levels).Nodup
  owned : ∀ label ∈ tableLabels levels, IsTableOf catalog roots sources label
  apart : ∀ level ∈ levels, level.isMembership = true → ∀ label ∈ level.query.labels,
    ¬ IsTable catalog roots label
  around : ∀ level ∈ levels, ∀ label ∈ level.outer, IsTable catalog roots label

variable {catalog : Catalog} {roots : String → Option String} {sources more : List String}
  {levels further : List Level} {label : String}

/-- A table of a source is one of more sources. -/
theorem IsTableOf.mono (owned : IsTableOf catalog roots sources label) (inside : sources ⊆ more) :
    IsTableOf catalog roots more label := by
  obtain ⟨route, position, plain, typed, root, named⟩ := owned
  exact ⟨route, position, plain, typed, inside root, named⟩

/-- The name of a table tells the source that the way to it starts from. -/
theorem IsTableOf.disjoint (owned : IsTableOf catalog roots sources label)
    (other : IsTableOf catalog roots more label) : ∃ root ∈ sources, root ∈ more := by
  obtain ⟨route, position, plain, _, root, named⟩ := owned
  obtain ⟨route', position', plain', _, root', named'⟩ := other
  obtain ⟨same, _⟩ := tableLabel_inj (named.symm.trans named')
  obtain rfl := Route.name_inj plain plain' same
  exact ⟨route.root, root, root'⟩

namespace Neat

/-- No levels are neat. -/
theorem nil : Neat catalog roots sources [] := ⟨by simp [tableLabels], by simp [tableLabels], nofun,
  nofun⟩

/-- Neat levels stay neat with more sources. -/
theorem mono (neat : Neat catalog roots sources levels) (inside : sources ⊆ more) :
    Neat catalog roots more levels :=
  ⟨neat.distinct, fun label member => (neat.owned label member).mono inside, neat.apart, neat.around⟩

/-- Neat levels stay neat in another order. -/
theorem perm (neat : Neat catalog roots sources levels) (same : further.Perm levels) :
    Neat catalog roots sources further := by
  have labels : (tableLabels further).Perm (tableLabels levels) :=
    (same.filter _).flatMap_right _
  exact ⟨labels.nodup_iff.mpr neat.distinct,
    fun label member => neat.owned label (labels.mem_iff.mp member),
    fun level member => neat.apart level (same.mem_iff.mp member),
    fun level member => neat.around level (same.mem_iff.mp member)⟩

/-- Levels over different sources are neat together. -/
theorem append (neat : Neat catalog roots sources levels) (neat' : Neat catalog roots more further)
    (different : ∀ source ∈ sources, source ∉ more) :
    Neat catalog roots (sources ++ more) (levels ++ further) := by
  refine ⟨?_, ?_, ?_, ?_⟩
  · rw [tableLabels_append]
    refine List.nodup_append.mpr ⟨neat.distinct, neat'.distinct, ?_⟩
    rintro label first _ second rfl
    obtain ⟨root, here, there⟩ := (neat.owned label first).disjoint (neat'.owned label second)
    exact different root here there
  · rw [tableLabels_append]
    exact List.forall_mem_append.mpr
      ⟨fun label member => (neat.owned label member).mono (List.subset_append_left _ _),
        fun label member => (neat'.owned label member).mono (List.subset_append_right _ _)⟩
  · exact List.forall_mem_append.mpr ⟨neat.apart, neat'.apart⟩
  · exact List.forall_mem_append.mpr ⟨neat.around, neat'.around⟩

end Neat

/-- A plain route starts at a plain name. -/
theorem Route.IsPlain.root {route : Route} (plain : route.IsPlain) : IsPlainName route.root := by
  induction route with
  | source label => exact plain
  | toOne owner label ih => exact ih plain.1
  | element owner label number ih => exact ih plain.1

/-! ## Groups in their places -/

/-- The tables of a group are named after its positions, so they have different names. -/
theorem tableGroup_nodup {context : LoweringContext} {name : String} {group : TableGroup}
    (built : context.tableGroup label name = .ok group) : group.labels.Nodup := by
  obtain ⟨shape, table, _, _, rfl⟩ := tableGroup_ok built
  have labels : (shape.secondary.zipIdx 1).map (fun entry => TableGroup.tableLabel label entry.2) =
      (List.range' 1 shape.secondary.length).map (TableGroup.tableLabel label) := by
    rw [← List.zipIdx_map_snd 1 shape.secondary, List.map_map]
    rfl
  have numbered : (List.map (TableGroup.tableLabel label)
      (0 :: List.range' 1 shape.secondary.length)).Nodup := by
    refine List.Nodup.map (fun _ _ same => (tableLabel_inj same).2) (List.nodup_cons.mpr ⟨?_, ?_⟩)
    · simp
    · exact List.nodup_range'
  simpa [TableGroup.labels, TableGroup.tables, furtherJoin, Function.comp_def, ← labels] using numbered

/-- The groups of spaces, each with the number of its space. -/
def placed (spaces : List TableSpace) (first : Nat) : List ScopedGroup :=
  (spaces.zipIdx first).flatMap fun (space, number) => space.groups.map fun group => ⟨number, group⟩

/-- The groups of two lists of spaces are placed one behind the other. -/
theorem placed_append {front back : List TableSpace} {first : Nat} :
    placed (front ++ back) first = placed front first ++ placed back (first + front.length) := by
  simp [placed, List.zipIdx_append]

/-- The groups of a first space are placed before those of the rest. -/
theorem placed_cons {space : TableSpace} {rest : List TableSpace} {first : Nat} :
    placed (space :: rest) first =
      (space.groups.map fun group => ⟨first, group⟩) ++ placed rest (first + 1) := by
  simp [placed]

/-- A join put into a space brings its group. -/
theorem placed_place {front back : List TableSpace} {root : TableGroup}
    {before after : List GroupJoin} {join : GroupJoin} :
    (placed (front ++ ⟨root, before ++ join :: after⟩ :: back) 0).Perm
      (⟨front.length, join.group⟩ :: placed (front ++ ⟨root, before ++ after⟩ :: back) 0) := by
  simp only [placed_append, placed_cons, TableSpace.groups, List.map_cons, List.map_append,
    Nat.zero_add, List.cons_append, List.append_assoc]
  refine List.Perm.trans (List.Perm.append_left _ ?_) List.perm_middle
  exact (List.Perm.cons _ List.perm_middle).trans (List.Perm.swap _ _ _)

/-- Two lists of joins open the levels of both. -/
theorem joinLevels_append {outer : List String} {joins more : List (Join Sql.Expr)} :
    joinLevels outer (joins ++ more) = joinLevels outer joins ++ joinLevels outer more := by
  induction joins with
  | nil => rfl
  | cons join rest ih => simp [joinLevels, ih]

/-- The only condition of a joined group that may have sub-selects is the written one. -/
theorem joinLevels_toJoins {outer : List String} {join : GroupJoin}
    (coherent : join.group.Coherent) :
    joinLevels outer join.toJoins = conditionLevels outer join.condition := by
  have further : ∀ joins : List (Join Sql.Expr), (∀ given ∈ joins, ToRoot join.group.root.label given) →
      joinLevels outer joins = [] := by
    intro joins toRoot
    induction joins with
    | nil => rfl
    | cons first rest ih =>
      obtain ⟨here, others⟩ := List.forall_mem_cons.mp toRoot
      rw [joinLevels, here.levels, ih others, List.append_nil]
  have tail := further _ (toRoot_tail coherent)
  rw [GroupJoin.toJoins] at tail ⊢
  rw [joinLevels]
  simpa using tail

/-- A join put into a space brings the sub-selects of its condition. -/
theorem joinLevels_place {outer : List String} {front back : List TableSpace} {root : TableGroup}
    {before after : List GroupJoin} {join : GroupJoin} (coherent : join.group.Coherent) :
    (joinLevels outer (entries (front ++ ⟨root, before ++ join :: after⟩ :: back))).Perm
      (conditionLevels outer join.condition ++
        joinLevels outer (entries (front ++ ⟨root, before ++ after⟩ :: back))) := by
  rw [entries_around, entries_around, List.flatMap_cons, ← joinLevels_toJoins coherent]
  simp only [joinLevels_append, List.append_assoc]
  exact (List.Perm.append_left _ (List.perm_append_comm_assoc _ _ _)).trans
    (List.perm_append_comm_assoc _ _ _)

/-- A placed group is a group of the space it is placed in. -/
theorem mem_placed {spaces : List TableSpace} {entry : ScopedGroup} : entry ∈ placed spaces 0 ↔
    ∃ space, spaces[entry.space]? = some space ∧ entry.group ∈ space.groups := by
  obtain ⟨number, group⟩ := entry
  simp only [placed, List.mem_flatMap, List.mem_map, Prod.exists, ScopedGroup.mk.injEq,
    List.mem_zipIdx_iff_getElem?]
  constructor
  · rintro ⟨space, _, stored, _, listed, rfl, rfl⟩
    exact ⟨space, stored, listed⟩
  · rintro ⟨space, stored, listed⟩
    exact ⟨space, number, stored, group, listed, rfl, rfl⟩

/-- What a space receives with a join: its group, and the sub-selects of its condition. -/
structure Receives (number : Nat) (join : GroupJoin) (spaces spaces' : List TableSpace) : Prop where
  placed : (placed spaces' 0).Perm (⟨number, join.group⟩ :: placed spaces 0)
  firsts : spaces'.map (·.root) = spaces.map (·.root)
  levels : ∀ outer, (joinLevels outer (entries spaces')).Perm
    (conditionLevels outer join.condition ++ joinLevels outer (entries spaces))

/-- A space that takes one more join holds one more group. -/
theorem receives_modify {number : Nat} {join : GroupJoin} {spaces : List TableSpace}
    (inside : number < spaces.length) (coherent : join.group.Coherent)
    {change : TableSpace → TableSpace} (changes : ∀ found : TableSpace, ∃ before after,
      found.joins = before ++ after ∧ change found = ⟨found.root, before ++ join :: after⟩) :
    Receives number join spaces (spaces.modify number change) := by
  obtain ⟨⟨root, joins⟩, stored⟩ : ∃ found, spaces[number]? = some found :=
    ⟨_, List.getElem?_eq_getElem inside⟩
  obtain ⟨front, back, listed, rfl, changed⟩ := modify_around stored
  obtain ⟨before, after, divided, received⟩ := changes ⟨root, joins⟩
  simp only at divided
  rw [changed, received, listed, divided]
  exact ⟨placed_place, by simp, fun outer => joinLevels_place coherent⟩

/-- A join that was raised labels its tables differently. -/
theorem Raised.nodup {context : LoweringContext} {owner : String} {ownerGroup : TableGroup}
    {join : GroupJoin} (raised : Raised context owner ownerGroup join) : join.group.labels.Nodup := by
  cases raised with
  | toOne leads stored built => exact tableGroup_nodup built
  | element leads mapped indexed built value => exact tableGroup_nodup built

/-- A level that is being filled: its groups stand in its spaces, except those that are pending, and
are named after it. Its sources are its `own`, the conditions in it have the `nested` sources, and its
spaces begin with the sources `firsts`. -/
structure Filled (catalog : Catalog) (roots : String → Option String)
    (own nested firsts : List String) (pending : List ScopedGroup) (scope : LoweringScope) :
    Prop where
  settled : (scope.groups.map (·.2)).Perm (pending ++ placed scope.spaces 0)
  inside : ∀ entry ∈ pending, entry.space < scope.spaces.length
  named : ∀ entry ∈ scope.groups, entry.2.group.label = entry.1 ∧ entry.2.group.Named ∧
    entry.2.group.labels.Nodup
  owned : ∀ entry ∈ scope.groups, IsPlainName entry.1 → entry.1 ∈ own
  begins : scope.spaces.map (·.root.label) = firsts
  neat : ∀ outer, (∀ label ∈ outer, IsTable catalog roots label) →
    Neat catalog roots nested (joinLevels outer (entries scope.spaces))

namespace Filled

variable {own nested firsts : List String} {pending : List ScopedGroup}
  {scope scope' : LoweringScope} {context : LoweringContext} {join : GroupJoin} {target : TableGroup}

/-- The empty scope is filled by nothing. -/
theorem empty : Filled catalog roots [] [] [] [] .empty where
  settled := by simp [LoweringScope.empty, placed]
  inside := nofun
  named := by simp [LoweringScope.empty]
  owned := by simp [LoweringScope.empty]
  begins := rfl
  neat := fun _ _ => .nil

/-- A kept group lies in one of the spaces of the scope. -/
theorem space_lt (filled : Filled catalog roots own nested firsts pending scope)
    {entry : String × ScopedGroup} (listed : entry ∈ scope.groups) :
    entry.2.space < scope.spaces.length := by
  rcases List.mem_append.mp (filled.settled.mem_iff.mp (List.mem_map_of_mem listed)) with
    waits | stands
  · exact filled.inside _ waits
  · obtain ⟨space, stored, _⟩ := mem_placed.mp stands
    exact (List.getElem?_eq_some_iff.mp stored).1

/-- A space receives a join, whose group may have been pending. -/
theorem receives (filled : Filled catalog roots own nested firsts pending scope) {number : Nat}
    (receives : Receives number join scope.spaces scope'.spaces) {still : List ScopedGroup}
    {more : List String} (groups : (scope'.groups.map (·.2)).Perm
      (still ++ ⟨number, join.group⟩ :: placed scope.spaces 0))
    (inside : ∀ entry ∈ still, entry.space < scope.spaces.length)
    (named : ∀ entry ∈ scope'.groups, entry ∈ scope.groups ∨
      entry.2.group.label = entry.1 ∧ entry.2.group.Named ∧ entry.2.group.labels.Nodup ∧
        ¬ IsPlainName entry.1)
    (neat : ∀ outer, (∀ label ∈ outer, IsTable catalog roots label) →
      Neat catalog roots more (conditionLevels outer join.condition))
    (different : ∀ source ∈ more, source ∉ nested) :
    Filled catalog roots own (more ++ nested) firsts still scope' := by
  have length : scope'.spaces.length = scope.spaces.length := by
    simpa using congrArg List.length receives.firsts
  refine ⟨groups.trans (receives.placed.symm.append_left _), ?_, ?_, ?_, ?_, ?_⟩
  · rw [length]
    exact inside
  · intro entry member
    rcases named entry member with earlier | ⟨label, isNamed, distinct, _⟩
    · exact filled.named entry earlier
    · exact ⟨label, isNamed, distinct⟩
  · intro entry member plain
    rcases named entry member with earlier | ⟨_, _, _, other⟩
    · exact filled.owned entry earlier plain
    · exact (other plain).elim
  · have roots := congrArg (List.map TableGroup.label) receives.firsts
    rw [List.map_map, List.map_map] at roots
    exact roots.trans filled.begins
  · intro outer typed
    exact ((neat outer typed).append (filled.neat outer typed) different).perm (receives.levels outer)

/-- A join that a path asks for is put at the end of the space of its owner. -/
theorem widens (filled : Filled catalog roots own nested firsts pending scope)
    (widens : Widens context scope scope') :
    Filled catalog roots own nested firsts pending scope' ∧
      ∀ outer, (joinLevels outer (entries scope'.spaces)).Perm
        (joinLevels outer (entries scope.spaces)) := by
  obtain ⟨known, raised⟩ := widens
  rename_i owner found join
  have inside := filled.space_lt (find?_mem known)
  have received : Receives found.space join scope.spaces (scope.addJoin found.space join).spaces :=
    receives_modify inside raised.coherent fun given =>
      ⟨given.joins, [], (List.append_nil _).symm, rfl⟩
  have none : ∀ source ∈ ([] : List String), source ∉ nested := nofun
  refine ⟨filled.receives received ?_ filled.inside ?_ ?_ none, fun outer => ?_⟩
  · exact (filled.settled.cons _).trans List.perm_middle.symm
  · rintro entry member
    rcases List.mem_cons.mp member with rfl | earlier
    · refine Or.inr ⟨rfl, raised.named, raised.nodup, fun plain => ?_⟩
      have implicit := raised.isImplicit_label
      rw [isImplicit_of_isPlainName plain] at implicit
      cases implicit
    · exact Or.inl earlier
  · intro outer _
    rw [raised.levels]
    exact .nil
  · simpa [raised.levels] using received.levels outer

/-- So are any number of them. -/
theorem widened (filled : Filled catalog roots own nested firsts pending scope)
    (widened : Relation.ReflTransGen (Widens context) scope scope') :
    Filled catalog roots own nested firsts pending scope' ∧
      ∀ outer, (joinLevels outer (entries scope'.spaces)).Perm
        (joinLevels outer (entries scope.spaces)) := by
  induction widened with
  | refl => exact ⟨filled, fun _ => .refl _⟩
  | tail _ widens ih =>
    obtain ⟨further, same⟩ := ih.1.widens widens
    exact ⟨further, fun outer => (same outer).trans (ih.2 outer)⟩

/-- A source is entered before it has its place. -/
theorem addGroup (filled : Filled catalog roots own nested firsts [] scope) {space : Nat}
    (inside : space < scope.spaces.length) (named : target.Named) (distinct : target.labels.Nodup) :
    Filled catalog roots (target.label :: own) nested firsts [⟨space, target⟩]
      (scope.addGroup space target) where
  settled := filled.settled.cons _
  inside := List.forall_mem_singleton.mpr inside
  named := List.forall_mem_cons.mpr ⟨⟨rfl, named, distinct⟩, filled.named⟩
  owned := List.forall_mem_cons.mpr ⟨fun _ => List.mem_cons_self,
    fun entry listed plain => List.mem_cons_of_mem _ (filled.owned entry listed plain)⟩
  begins := filled.begins
  neat := filled.neat

/-- The group of a source gets its place with the join, and brings the sub-selects of the
condition. -/
theorem insertJoin {space : Nat} {more : List String}
    (filled : Filled catalog roots own nested firsts [⟨space, target⟩] scope) (count : Nat)
    (grouped : join.group = target) (coherent : target.Coherent)
    (neat : ∀ outer, (∀ label ∈ outer, IsTable catalog roots label) →
      Neat catalog roots more (conditionLevels outer join.condition))
    (different : ∀ source ∈ more, source ∉ nested) :
    Filled catalog roots own (more ++ nested) firsts [] (scope.insertJoin space count join) ∧
      ∀ outer, (joinLevels outer (entries (scope.insertJoin space count join).spaces)).Perm
        (conditionLevels outer join.condition ++ joinLevels outer (entries scope.spaces)) := by
  subst grouped
  have received : Receives space join scope.spaces (scope.insertJoin space count join).spaces :=
    receives_modify (filled.inside _ List.mem_cons_self) coherent fun given =>
      ⟨given.joins.take count, given.joins.drop count, (List.take_append_drop _ _).symm, rfl⟩
  exact ⟨filled.receives received filled.settled nofun (fun entry listed => Or.inl listed) neat
    different, received.levels⟩

/-- The further tables of a coherent group open no level. -/
theorem joinLevels_single {outer : List String} (coherent : target.Coherent) :
    joinLevels outer (TableSpace.entries ⟨target, []⟩) = [] := by
  have same : TableSpace.entries ⟨target, []⟩ = (standIn target).toJoins := by
    simp [TableSpace.entries, TableSpace.toJoins, GroupJoin.toJoins, standIn]
  rw [same, joinLevels_toJoins coherent]
  rfl

/-- A space is opened with its first source. -/
theorem addSpace (filled : Filled catalog roots own nested firsts [] scope)
    (coherent : target.Coherent) (named : target.Named) (distinct : target.labels.Nodup) :
    Filled catalog roots (target.label :: own) nested (firsts ++ [target.label]) []
        (scope.addSpace target) ∧
      ∀ outer, joinLevels outer (entries (scope.addSpace target).spaces) =
        joinLevels outer (entries scope.spaces) := by
  have levels (outer : List String) : joinLevels outer (entries (scope.addSpace target).spaces) =
      joinLevels outer (entries scope.spaces) := by
    simp only [LoweringScope.addSpace, entries_append, joinLevels_append]
    rw [show entries [⟨target, []⟩] = TableSpace.entries ⟨target, []⟩ by simp [entries],
      joinLevels_single coherent, List.append_nil]
  refine ⟨⟨?_, List.forall_mem_nil _, ?_, ?_, ?_, ?_⟩, levels⟩
  · have places : placed (scope.addSpace target).spaces 0 =
        placed scope.spaces 0 ++ [⟨scope.spaces.length, target⟩] := by
      rw [LoweringScope.addSpace, placed_append, placed_cons]
      simp [TableSpace.groups, placed]
    rw [places]
    exact (filled.settled.cons _).trans (List.perm_append_singleton _ _).symm
  · exact List.forall_mem_cons.mpr ⟨⟨rfl, named, distinct⟩, filled.named⟩
  · exact List.forall_mem_cons.mpr ⟨fun _ => List.mem_cons_self,
      fun entry listed plain => List.mem_cons_of_mem _ (filled.owned entry listed plain)⟩
  · simp [LoweringScope.addSpace, filled.begins]
  · intro outer typed
    rw [levels]
    exact filled.neat outer typed

end Filled

/-! ## Levels that are filled -/

open Resolved (Trail)

/-- The labels of spaces are those of their groups in order. -/
theorem joinLabels_spaces {spaces : List TableSpace} {first : Nat} :
    joinLabels (entries spaces) = (placed spaces first).flatMap (·.group.labels) := by
  induction spaces generalizing first with
  | nil => rfl
  | cons space rest ih =>
    rw [entries_cons, joinLabels_append, joinLabels_entries, ih, placed_cons, List.flatMap_append,
      List.flatMap_map]
    rfl

/-- The names of tables fall apart into one stretch for each item of a from-clause, which begins with
the table of its first source. -/
structure Divides (firsts labels : List String) (blocks : List (List String)) : Prop where
  whole : labels = blocks.flatten
  begins : List.Forall₂ (fun first block => block.head? = some (TableGroup.tableLabel first 0))
    firsts blocks

/-- One of the levels has a table for the end of the trail in the item of its from-clause that its
source belongs to. -/
def Shelters (layouts : List (List String)) (levels : List Level) (trail : Trail) : Prop :=
  ∃ level ∈ levels, level.isMembership = false ∧ ∃ firsts ∈ layouts, ∃ blocks,
    Divides firsts level.query.labels blocks ∧ ∃ block ∈ blocks,
      TableGroup.tableLabel trail.root 0 ∈ block ∧ TableGroup.tableLabel trail.name 0 ∈ block

/-- A sheltered trail stays sheltered with more layouts and more levels. -/
theorem Shelters.mono {layouts layouts' : List (List String)} {trail : Trail}
    (shelters : Shelters layouts levels trail) (inside : layouts ⊆ layouts')
    (among : levels ⊆ further) : Shelters layouts' further trail := by
  obtain ⟨level, member, other, firsts, listed, held⟩ := shelters
  exact ⟨level, among member, other, firsts, inside listed, held⟩

namespace Filled

variable {own nested firsts : List String} {scope : LoweringScope} {context : LoweringContext}
  {state : LoweringState} {select : Select}

/-- The tables of a group that is entered are named after the way to it. -/
theorem isTableOf (filled : Filled context.catalog roots own nested firsts [] scope)
    (tidy : Tidy context roots state) (here : scope ∈ state.scopes) {entry : String × ScopedGroup}
    (listed : entry ∈ scope.groups) (member : label ∈ entry.2.group.labels) :
    IsTableOf context.catalog roots own label ∧
      ∃ position, label = TableGroup.tableLabel entry.1 position := by
  obtain ⟨_, _, route, reaches⟩ := tidy.entered scope here entry listed
  obtain ⟨labelled, named, _⟩ := filled.named entry listed
  obtain ⟨position, rfl⟩ := named.tables label member
  obtain ⟨root, rooted, same, _⟩ := reaches.home
  have own : route.root ∈ own := by
    rw [← same]
    exact filled.owned root rooted (same ▸ reaches.plain.root)
  refine ⟨⟨route, position, reaches.plain, by simp [reaches.entity], own, ?_⟩, position, ?_⟩
  · rw [labelled, reaches.named]
  · rw [labelled]

/-- In a level that is filled, all tables have different names after ways from its sources. -/
theorem labels (filled : Filled context.catalog roots own nested firsts [] scope)
    (tidy : Tidy context roots state) (here : scope ∈ state.scopes)
    (spaces : select.spaces = scope.spaces) : select.toQuery.labels.Nodup ∧
      ∀ label ∈ select.toQuery.labels, IsTableOf context.catalog roots own label := by
  have same : select.toQuery.labels.Perm (scope.groups.flatMap (·.2.group.labels)) := by
    have grouped := filled.settled.symm.flatMap_right fun found => found.group.labels
    rw [List.flatMap_map] at grouped
    rw [labels_toQuery, spaces, joinLabels_spaces]
    exact grouped
  have keys : (scope.groups.map (·.1)).Nodup := (List.nodup_flatMap.mp tidy.distinct).1 scope here
  refine ⟨same.nodup_iff.mpr (List.nodup_flatMap.mpr ⟨?_, ?_⟩), ?_⟩
  · exact fun entry listed => (filled.named entry listed).2.2
  · refine (List.pairwise_map.mp keys).imp_of_mem fun {first second} listed listed' other => ?_
    intro label member member'
    obtain ⟨_, position, named⟩ := filled.isTableOf tidy here listed member
    obtain ⟨_, position', named'⟩ := filled.isTableOf tidy here listed' member'
    exact other (tableLabel_inj (named.symm.trans named')).1
  · intro label member
    obtain ⟨entry, listed, inside⟩ := List.mem_flatMap.mp (same.mem_iff.mp member)
    exact (filled.isTableOf tidy here listed inside).1

/-- The tables of a level that is filled fall apart into those of its spaces. -/
theorem divides (filled : Filled context.catalog roots own nested firsts [] scope)
    (spaces : select.spaces = scope.spaces) :
    Divides firsts select.toQuery.labels (scope.spaces.map (·.labels)) := by
  refine ⟨?_, ?_⟩
  · rw [labels_toQuery, spaces, ← List.flatMap_def]
    induction scope.spaces with
    | nil => rfl
    | cons space rest ih =>
      rw [entries_cons, joinLabels_append, joinLabels_entries, ih, List.flatMap_cons]
  · rw [← filled.begins, List.forall₂_map_left_iff, List.forall₂_map_right_iff, List.forall₂_same]
    intro space member
    obtain ⟨number, stored⟩ := List.getElem?_of_mem member
    have placed : ⟨number, space.root⟩ ∈ placed scope.spaces 0 :=
      mem_placed.mpr ⟨space, stored, List.mem_cons_self⟩
    obtain ⟨entry, listed, same⟩ := List.mem_map.mp (filled.settled.mem_iff.mpr placed)
    have named := (filled.named entry listed).2.1.root
    rw [same] at named
    rw [← named]
    rfl

/-- The query over a level that is filled is no test for membership. -/
theorem isMembership (filled : Filled context.catalog roots own nested firsts [] scope)
    (spaces : select.spaces = scope.spaces) (plain : ∀ first ∈ firsts, IsPlainName first)
    (outer : List String) : Level.isMembership ⟨outer, select.toQuery⟩ = false := by
  obtain ⟨whole, begins⟩ := filled.divides spaces
  rw [Level.isMembership, whole]
  generalize scope.spaces.map (·.labels) = blocks at begins
  cases begins with
  | nil => rfl
  | @cons label block labels blocks first _ =>
    cases block with
    | nil => cases first
    | cons table tables =>
      obtain rfl := Option.some.inj first
      simpa [isImplicit_tableLabel] using isImplicit_of_isPlainName (plain label List.mem_cons_self)

/-- A group that is entered at a level that is filled stands in the space of the source that the way
to it starts from. -/
theorem shelters (filled : Filled context.catalog roots own nested firsts [] scope)
    (tidy : Tidy context roots state) (here : scope ∈ state.scopes)
    (spaces : select.spaces = scope.spaces) (plain : ∀ first ∈ firsts, IsPlainName first)
    {trail : Trail} (way : trail.route.IsPlain) (known : trail.name ∈ scope.groups.map (·.1))
    (outer : List String) : Shelters [firsts] [⟨outer, select.toQuery⟩] trail := by
  refine ⟨_, List.mem_cons_self, filled.isMembership spaces plain outer, firsts, List.mem_cons_self, _,
    filled.divides spaces, ?_⟩
  obtain ⟨entry, listed, named⟩ := List.mem_map.mp known
  obtain ⟨_, _, route, reaches⟩ := tidy.entered scope here entry listed
  obtain rfl := Route.name_inj reaches.plain way (by rw [reaches.named, named, Trail.name_route])
  obtain ⟨root, rooted, rootNamed, together⟩ := reaches.home
  -- Every group that is entered has its root table in the space where it is placed.
  have stands {given : String × ScopedGroup} (member : given ∈ scope.groups) :
      ∃ space, scope.spaces[given.2.space]? = some space ∧
        TableGroup.tableLabel given.1 0 ∈ space.labels := by
    have placed := filled.settled.mem_iff.mp (List.mem_map_of_mem member)
    obtain ⟨space, stored, grouped⟩ := mem_placed.mp placed
    obtain ⟨labelled, isNamed, _⟩ := filled.named given member
    refine ⟨space, stored, List.mem_flatMap.mpr ⟨given.2.group, grouped, ?_⟩⟩
    rw [← labelled, ← isNamed.root]
    exact TableGroup.root_mem_labels
  obtain ⟨space, stored, inside⟩ := stands listed
  obtain ⟨space', stored', inside'⟩ := stands rooted
  rw [together, stored] at stored'
  obtain rfl := Option.some.inj stored'
  refine ⟨space.labels, List.mem_map_of_mem (List.mem_of_getElem? stored), ?_, ?_⟩
  · rwa [rootNamed, Trail.root_route] at inside'
  · rwa [named] at inside

end Filled

end Lowering
end ObjectQuery

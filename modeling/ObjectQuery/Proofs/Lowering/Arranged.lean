import ObjectQuery.Proofs.Lowering.Change
import ObjectQuery.Proofs.Lowering.Grounded
/-!
# How the tables of a level are arranged

Whatever asks for a group of tables, the group is made in one way: from the shape of its entity and
under a name that begins with the name of a source. A level consists of such groups, and of its joins
just the cross joins have no condition. The level of a test for membership has one table. Sub-selects
are levels of their own, wherever they stand, and the same holds of them.
-/
namespace ObjectQuery.Lowering

open Sql
open Resolved (FromNode FromSpace filterSources joinSources spaceSources querySources)

variable {context : LoweringContext} {sources : List String} {state after : LoweringState}
  {scope scope' : LoweringScope} {scopes outer later : List LoweringScope} {name : String}

/-! ## Names that begin with a source -/

/-- The name is that of a source, or leads on from it. -/
def NamedAfter (sources : List String) (name : String) : Prop :=
  ∃ source ∈ sources, name = source ∨ ∃ rest, name = source ++ "." ++ rest

/-- A name stays named after its source with a label added. -/
theorem NamedAfter.extend (named : NamedAfter sources name) (label : String) :
    NamedAfter sources (name ++ "." ++ label) := by
  obtain ⟨source, listed, rfl | ⟨rest, rfl⟩⟩ := named
  · exact ⟨name, listed, .inr ⟨label, rfl⟩⟩
  · exact ⟨source, listed, .inr ⟨rest ++ "." ++ label, by simp only [String.append_assoc]⟩⟩

/-- The groups of the levels refer to no tables but their own, and their names begin with sources. -/
structure Founded (sources : List String) (scopes : List LoweringScope) : Prop where
  coherent : Coherent scopes
  named : ∀ scope ∈ scopes, ∀ entry ∈ scope.groups, NamedAfter sources entry.1

/-- A join for a path is named after its owner. -/
theorem Raised.namedAfter {owner : String} {ownerGroup : TableGroup} {join : GroupJoin}
    (raised : Raised context owner ownerGroup join) (named : NamedAfter sources owner) :
    NamedAfter sources join.group.label := by
  cases raised with
  | toOne leads stored built => exact tableGroup_label built ▸ named.extend _
  | element leads mapped indexed built value =>
    rw [tableGroup_label built]
    simpa only [String.append_assoc] using named.extend _

/-- Founded scopes stay so when a join is raised. -/
theorem Founded.raises (founded : Founded sources scopes) (raises : Raises context scopes later) :
    Founded sources later := by
  refine ⟨raises.coherent founded.coherent, ?_⟩
  obtain ⟨located, raised⟩ := raises
  rename_i owner level found join
  obtain ⟨home, stored, known⟩ := locate?_mem located
  have ownerNamed := founded.named home (List.mem_of_getElem? stored) _ (find?_mem known)
  intro scope member entry listed
  obtain ⟨position, held⟩ := List.getElem?_of_mem member
  rw [List.getElem?_modify] at held
  obtain ⟨before, there, changed⟩ := Option.map_eq_some_iff.mp held
  have earlier := founded.named before (List.mem_of_getElem? there)
  split at changed
  · subst changed
    rcases List.mem_cons.mp listed with rfl | listed
    · exact raised.namedAfter ownerNamed
    · exact earlier entry listed
  · subst changed
    exact earlier entry listed

/-- Founded scopes stay so while they grow. -/
theorem Founded.grows (founded : Founded sources scopes) (grows : Grows context scopes later) :
    Founded sources later := by
  induction grows with
  | refl => exact founded
  | tail _ raises ih => exact ih.raises raises

/-- A group that a run has found goes by a name that begins with a source. -/
theorem Founded.found (founded : Founded sources state.scopes) {label : String} {found : TableGroup}
    (run : Yields (group label) state found after) : NamedAfter sources label := by
  obtain ⟨_, level, space, located⟩ := yields_group.mp run
  obtain ⟨home, stored, known⟩ := locate?_mem located
  exact founded.named home (List.mem_of_getElem? stored) _ (find?_mem known)

/-! ## Levels made of groups -/

/-- The group has the tables of its entity and is named after a source. -/
structure IsGroup (context : LoweringContext) (sources : List String) (group : TableGroup) : Prop where
  built : context.tableGroup group.label group.entity = .ok group
  named : NamedAfter sources group.label

/-- The space begins with a source, all its groups have the tables of their entities, and just the
cross joins have no condition. -/
structure IsSpace (context : LoweringContext) (sources : List String) (space : TableSpace) : Prop where
  root : IsGroup context sources space.root
  source : space.root.label ∈ sources
  joined : ∀ join ∈ space.joins, IsGroup context sources join.group
  crossed : ∀ join ∈ space.joins, join.condition = none ↔ join.kind = .cross

/-- The tables of a query are those of groups, or it is the query of a test for membership. -/
inductive IsArranged (context : LoweringContext) (sources : List String) : Query Sql.Expr → Prop where
  | groups {select : Select} (spaces : ∀ space ∈ select.spaces, IsSpace context sources space) :
      IsArranged context sources select.toQuery
  | membership {query : Query Sql.Expr} {owner label : String} {table : String}
      (named : NamedAfter sources owner)
      (source : query.source =
        some (TableSpec.mk table (TableGroup.tableLabel (owner ++ "." ++ label) 0)).toRef)
      (alone : query.joins = []) : IsArranged context sources query

/-- The sub-selects are arranged, whatever stands around them. -/
def AllArranged (context : LoweringContext) (sources : List String)
    (levels : List String → List Level) : Prop :=
  ∀ outer, ∀ level ∈ levels outer, IsArranged context sources level.query

/-- What has been filled in at a level is arranged, and so are the sub-selects in its conditions. -/
structure Arranges (context : LoweringContext) (sources : List String) (scope : LoweringScope) :
    Prop where
  spaces : ∀ space ∈ scope.spaces, IsSpace context sources space
  nested : ∀ space ∈ scope.spaces, ∀ join ∈ space.joins,
    AllArranged context sources fun outer => conditionLevels outer join.condition

/-- A table group built for a named label is a group. -/
theorem IsGroup.of_built {label entity : String} {group : TableGroup}
    (built : context.tableGroup label entity = .ok group) (named : NamedAfter sources label) :
    IsGroup context sources group := by
  have same : context.tableGroup label entity = .ok group := built
  obtain ⟨_, _, _, _, rfl⟩ := tableGroup_ok built
  exact ⟨same, named⟩

/-- A group is coherent. -/
theorem IsGroup.coherent {group : TableGroup} (grouped : IsGroup context sources group) :
    group.Coherent := tableGroup_coherent grouped.built

/-- The empty scope is arranged. -/
theorem arranges_empty : Arranges context sources .empty := ⟨nofun, nofun⟩

/-- One more join in one of the spaces leaves the level arranged. -/
theorem Arranges.place (arranges : Arranges context sources scope) (join : GroupJoin)
    (change : TableSpace → TableSpace) (grouped : IsGroup context sources join.group)
    (crossed : join.condition = none ↔ join.kind = .cross)
    (nested : AllArranged context sources fun outer => conditionLevels outer join.condition)
    {number : Nat} (changes : ∀ found, (change found).root = found.root ∧
      ∀ given ∈ (change found).joins, given ∈ found.joins ∨ given = join)
    (listed : scope'.spaces = scope.spaces.modify number change) :
    Arranges context sources scope' := by
  have each : ∀ space ∈ scope'.spaces, ∃ found ∈ scope.spaces, space.root = found.root ∧
      ∀ given ∈ space.joins, given ∈ found.joins ∨ given = join := by
    intro space member
    rw [listed] at member
    obtain ⟨position, stored⟩ := List.getElem?_of_mem member
    rw [List.getElem?_modify] at stored
    obtain ⟨found, there, changed⟩ := Option.map_eq_some_iff.mp stored
    refine ⟨found, List.mem_of_getElem? there, ?_⟩
    split at changed <;> subst changed
    · exact changes found
    · exact ⟨rfl, fun given => .inl⟩
  refine ⟨fun space member => ?_, fun space member given within => ?_⟩
  · obtain ⟨found, there, root, joins⟩ := each space member
    have before := arranges.spaces found there
    refine ⟨root ▸ before.root, root ▸ before.source, fun given within => ?_, fun given within => ?_⟩
    · rcases joins given within with earlier | rfl
      · exact before.joined given earlier
      · exact grouped
    · rcases joins given within with earlier | rfl
      · exact before.crossed given earlier
      · exact crossed
  · obtain ⟨found, there, _, joins⟩ := each space member
    rcases joins given within with earlier | rfl
    · exact arranges.nested found there given earlier
    · exact nested

/-- An arranged scope stays so when it is widened once. -/
theorem Arranges.widens (arranges : Arranges context sources scope)
    (named : ∀ entry ∈ scope.groups, NamedAfter sources entry.1)
    (widens : Widens context scope scope') : Arranges context sources scope' := by
  obtain ⟨known, raised⟩ := widens
  rename_i owner found join
  have ownerNamed := named _ (find?_mem known)
  refine arranges.place join (fun space => { space with joins := space.joins ++ [join] }) ?_ ?_ ?_
    (fun space => ⟨rfl, ?_⟩) rfl
  · cases raised with
    | toOne leads stored built => exact .of_built built (ownerNamed.extend _)
    | element leads mapped indexed built value =>
      refine .of_built built ?_
      simpa only [String.append_assoc] using ownerNamed.extend _
  · cases raised <;> simp
  · simp [AllArranged, raised.levels]
  · intro given member
    simpa using member

/-- An arranged scope stays so however often it is widened. -/
theorem Arranges.widened (arranges : Arranges context sources scope)
    (founded : Founded sources (scope :: outer))
    (widened : Relation.ReflTransGen (Widens context) scope scope') :
    Arranges context sources scope' := by
  have named := founded.named scope List.mem_cons_self
  clear founded
  have both : Arranges context sources scope' ∧ ∀ entry ∈ scope'.groups, NamedAfter sources entry.1 := by
    induction widened with
    | refl => exact ⟨arranges, named⟩
    | tail _ widens ih =>
      refine ⟨ih.1.widens ih.2 widens, ?_⟩
      obtain ⟨known, raised⟩ := widens
      refine List.forall_mem_cons.mpr ⟨raised.namedAfter (ih.2 _ (find?_mem known)), ih.2⟩
  exact both.1

/-- A further space keeps a scope arranged. -/
theorem Arranges.addSpace (arranges : Arranges context sources scope) {root : TableGroup}
    (grouped : IsGroup context sources root) (source : root.label ∈ sources) :
    Arranges context sources (scope.addSpace root) := by
  refine ⟨List.forall_mem_append.mpr ⟨arranges.spaces, ?_⟩,
    List.forall_mem_append.mpr ⟨arranges.nested, ?_⟩⟩
  · exact List.forall_mem_singleton.mpr ⟨grouped, source, nofun, nofun⟩
  · exact List.forall_mem_singleton.mpr nofun

/-- The sub-selects among the joins of a space stand in the conditions of its groups. -/
theorem joinLevels_space {space : TableSpace} (arranged : IsSpace context sources space)
    {outer : List String} : joinLevels outer space.entries =
      space.joins.flatMap fun join => conditionLevels outer join.condition := by
  have parted : space.entries =
      TableSpace.entries ⟨space.root, []⟩ ++ space.joins.flatMap (·.toJoins) := by
    simp [TableSpace.entries, TableSpace.toJoins]
  rw [parted, joinLevels_append, Filled.joinLevels_single arranged.root.coherent, List.nil_append]
  have joined := arranged.joined
  clear arranged parted
  generalize space.joins = joins at joined
  induction joins with
  | nil => rfl
  | cons join rest ih =>
    obtain ⟨here, others⟩ := List.forall_mem_cons.mp joined
    rw [List.flatMap_cons, joinLevels_append, joinLevels_toJoins here.coherent, ih others,
      List.flatMap_cons]

/-- The query over an arranged level is arranged at all its levels. -/
theorem Arranges.query (arranges : Arranges context sources scope) {select : Select}
    (spaces : select.spaces = scope.spaces)
    (chosen : ∀ selection ∈ select.selections, selection.expr.isValue = true)
    (filtered : AllArranged context sources fun outer => conditionLevels outer select.filter)
    (sorted : ∀ key ∈ select.order, key.expr.isValue = true) :
    AllArranged context sources fun outer => queryLevels outer select.toQuery := by
  intro outer
  refine forall_queryLevels.mpr ⟨.groups (spaces ▸ arranges.spaces), ?_, ?_, filtered _, ?_⟩
  · refine forall_selectionLevels.mpr fun selection member => ?_
    rw [selection.expr.levels_of_isValue (chosen selection member)]
    exact nofun
  · refine forall_joinLevels.mpr fun join member => ?_
    obtain ⟨space, there, within⟩ := List.mem_flatMap.mp (spaces ▸ mem_joins member)
    refine forall_joinLevels.mp (fun level inside => ?_) join within
    rw [joinLevels_space (arranges.spaces space there)] at inside
    obtain ⟨given, among, found⟩ := List.mem_flatMap.mp inside
    exact arranges.nested space there given among _ level found
  · refine forall_sortLevels.mpr fun key member => ?_
    rw [key.expr.levels_of_isValue (sorted key member)]
    exact nofun

/-! ## Levels being filled -/

/-- The innermost level is arranged, and all levels are founded. -/
def Underway (context : LoweringContext) (sources : List String) : List LoweringScope → Prop
  | [] => False
  | scope :: outer => Arranges context sources scope ∧ Founded sources (scope :: outer)

/-- Scopes underway are founded. -/
theorem Underway.founded (underway : Underway context sources scopes) : Founded sources scopes := by
  cases scopes with
  | nil => exact underway.elim
  | cons scope outer => exact underway.2

/-- Joins that paths ask for leave the innermost level arranged. -/
theorem Underway.grows (underway : Underway context sources scopes)
    (grows : Grows context scopes later) : Underway context sources later := by
  have founded := underway.founded.grows grows
  cases scopes with
  | nil => exact underway.elim
  | cons scope outer =>
    obtain ⟨scope', outer', rfl, widened, _⟩ := grows.cons_cases
    exact ⟨underway.1.widened underway.2 widened, founded⟩

/-- A new level starts underway. -/
theorem underway_empty (founded : Founded sources outer) :
    Underway context sources (.empty :: outer) := by
  refine ⟨arranges_empty, List.forall_mem_cons.mpr ⟨nofun, founded.coherent⟩, ?_⟩
  exact List.forall_mem_cons.mpr ⟨nofun, founded.named⟩

/-- One more group may be known at the innermost level. -/
theorem Founded.enter (founded : Founded sources (scope :: outer)) {group : TableGroup}
    (grouped : IsGroup context sources group) (groups : ∀ entry ∈ scope'.groups,
      entry ∈ scope.groups ∨ entry.1 = group.label ∧ entry.2.group = group) :
    Founded sources (scope' :: outer) := by
  obtain ⟨coherentHere, coherent⟩ := List.forall_mem_cons.mp founded.coherent
  obtain ⟨namedHere, named⟩ := List.forall_mem_cons.mp founded.named
  refine ⟨List.forall_mem_cons.mpr ⟨fun entry member => ?_, coherent⟩,
    List.forall_mem_cons.mpr ⟨fun entry member => ?_, named⟩⟩
  · rcases groups entry member with earlier | ⟨_, same⟩
    · exact coherentHere entry earlier
    · exact same ▸ grouped.coherent
  · rcases groups entry member with earlier | ⟨same, _⟩
    · exact namedHere entry earlier
    · exact same ▸ grouped.named

/-- A further group keeps scopes founded. -/
theorem Founded.addGroup (founded : Founded sources (scope :: outer)) {space : Nat}
    {group : TableGroup} (grouped : IsGroup context sources group)
    (groups : scope'.groups = (scope.addGroup space group).groups) :
    Founded sources (scope' :: outer) := by
  refine founded.enter grouped fun entry member => ?_
  rw [groups] at member
  rcases List.mem_cons.mp member with rfl | earlier
  · exact .inr ⟨rfl, rfl⟩
  · exact .inl earlier

/-- A source has the tables of its entity. -/
theorem sourceGroup_isGroup {node : FromNode} {group : TableGroup}
    (built : sourceGroup context node = .ok group) (listed : node.label ∈ sources) :
    IsGroup context sources group ∧ group.label ∈ sources := by
  unfold sourceGroup at built
  split at built
  · exact ⟨.of_built built ⟨_, listed, .inl rfl⟩, tableGroup_label built ▸ listed⟩
  · cases built

/-- Just the cross joins of sources have no condition. -/
theorem joinOf_crossed {kind : JoinKind} {target : TableGroup} {condition : Option Sql.Expr}
    {join : GroupJoin} (built : joinOf kind target condition = .ok join) :
    join.condition = none ↔ join.kind = .cross := by
  unfold joinOf at built
  split at built
  · cases condition with
    | none => simp [groupJoin_ok built]
    | some condition => cases built
  all_goals simp [groupJoin_ok built]

/-- The join of a source takes its place in a space. -/
theorem Arranges.insertJoin (arranges : Arranges context sources scope) {target : TableGroup}
    (grouped : IsGroup context sources target) {kind : JoinKind} {condition : Option Sql.Expr}
    {join : GroupJoin} (joined : joinOf kind target condition = .ok join)
    (nested : AllArranged context sources fun outer => conditionLevels outer condition)
    {space count : Nat} : Arranges context sources (scope.insertJoin space count join) := by
  obtain ⟨rfl, on⟩ := joinOf_ok joined
  refine arranges.place join (fun found =>
    { found with joins := found.joins.take count ++ join :: found.joins.drop count })
    grouped (joinOf_crossed joined) ?_ (fun found => ⟨rfl, fun given member => ?_⟩) rfl
  · rcases on with same | always
    · exact same ▸ nested
    · simp [AllArranged, always, conditionLevels, Sql.Expr.levels]
  · rcases List.mem_append.mp member with earlier | later
    · exact .inl (List.mem_of_mem_take earlier)
    · rcases List.mem_cons.mp later with rfl | later
      · exact .inr rfl
      · exact .inl (List.mem_of_mem_drop later)

/-! ## Conditions -/

section Conditions

variable {value left right : Sql.Expr}

/-- A plain value opens no level to arrange. -/
theorem allArranged_of_isValue (isValue : value.isValue = true) :
    AllArranged context sources value.levels := by
  simp [AllArranged, value.levels_of_isValue isValue]

/-- Levels arranged one list behind the other are arranged together. -/
theorem AllArranged.append {first second : List String → List Level}
    (arranged : AllArranged context sources first) (arranged' : AllArranged context sources second) :
    AllArranged context sources fun outer => first outer ++ second outer :=
  fun outer => List.forall_mem_append.mpr ⟨arranged outer, arranged' outer⟩

/-- An operation of arranged values is arranged. -/
theorem AllArranged.binary {op : BinaryOp} (arranged : AllArranged context sources left.levels)
    (arranged' : AllArranged context sources right.levels) :
    AllArranged context sources (Sql.Expr.binary op left right).levels := by
  simpa only [AllArranged, Sql.Expr.levels] using arranged.append arranged'

/-- Conditions that are arranged are arranged together. -/
theorem allArranged_conjunction : ∀ {conditions : List Sql.Expr},
    (∀ condition ∈ conditions, AllArranged context sources condition.levels) →
      AllArranged context sources fun outer =>
        conditionLevels outer (Sql.Expr.conjunction conditions)
  | [], _ => by simp [AllArranged, Sql.Expr.conjunction, conditionLevels]
  | first :: rest, arranged => by
    obtain ⟨here, others⟩ := List.forall_mem_cons.mp arranged
    simp only [Sql.Expr.conjunction, conditionLevels]
    clear arranged
    induction rest generalizing first with
    | nil => exact here
    | cons second rest ih =>
      obtain ⟨next, others⟩ := List.forall_mem_cons.mp others
      exact ih _ (here.binary next) others

/-- The query of a test for membership has one table, which is named after the owner of the
collection. -/
theorem memberOf_arranged {element : Resolved.Expr} {collection : Resolved.Reference Resolved.Expr}
    {negated : Bool} (founded : Founded sources state.scopes)
    (run : Yields (memberOf context element collection negated) state value after) :
    AllArranged context sources value.levels := by
  simp only [memberOf, yields_bind] at run
  obtain ⟨test, tested, ranTest, owner, walked, ranPath, run⟩ := run
  have lowered := expr_lowered element founded.coherent ranTest
  have founded' := founded.grows lowered.grows
  have walk := navigate_grows collection.init collection.source founded'.coherent ranPath
  split at run
  · simp only [yields_bind, yields_lift, yields_pure] at run
    obtain ⟨ownerGroup, _, found, mapping, _, ⟨_, rfl⟩, elementTable, _, ⟨_, rfl⟩, rfl, rfl⟩ := run
    have named := (founded'.grows walk).found found
    intro outer
    simp only [Sql.Expr.levels, List.forall_mem_append]
    refine ⟨allArranged_of_isValue lowered.within.isValue outer,
      forall_queryLevels.mpr ⟨.membership named rfl rfl, ?_, ?_, ?_, ?_⟩⟩
    · simp [selectionLevels, Sql.Expr.levels, Sql.Expr.tableColumn]
    · simp [joinLevels]
    · simp [conditionLevels, Sql.Expr.levels, Sql.Expr.equals, Sql.Expr.tableColumn, TableGroup.key]
    · simp [sortLevels]
  · simp at run

end Conditions

/-- A query is arranged at all its levels if its from-clause fills its level and its condition is
arranged. -/
theorem selectWith_arranged {choose : Resolved.Selection → Lowering (List (Sql.Selection Sql.Expr))}
    {query : Resolved.QuerySpec} {order : List Resolved.SortKey} {select : Select}
    (chooses : ChoosesValues context choose) (founded : Founded sources state.scopes)
    (fills : ∀ {state after : LoweringState} {done : Unit}, Underway context sources state.scopes →
      Yields (spaces context query.spaces) state done after → Underway context sources after.scopes)
    (plain : ∀ source ∈ filterSources query.filter, IsPlainName source.label)
    (filters : ∀ {state after : LoweringState} {condition : Option Sql.Expr},
      Founded sources state.scopes → Yields (filter context query.filter) state condition after →
        AllArranged context sources fun outer => conditionLevels outer condition)
    (run : Yields (selectWith context choose query order) state select after) :
    AllArranged context sources fun outer => queryLevels outer select.toQuery := by
  simp only [selectWith, yields_bind, yields_pure] at run
  obtain ⟨⟨⟨chosen, condition, keys⟩, scope⟩, _, ranScope, rfl, rfl⟩ := run
  obtain ⟨inner, ran, levels, _⟩ := yields_inScope.mp ranScope
  simp only [levelBody, yields_bind, yields_pure, Prod.mk.injEq] at ran
  obtain ⟨_, opened, ranSpaces, selected, between, ranSelections, filtered, further, ranFilter,
    sorted, _, ranOrder, ⟨rfl, rfl, rfl⟩, rfl⟩ := ran
  have underway := fills (underway_empty founded) ranSpaces
  obtain ⟨grows₁, chosenValues⟩ := selections_values chooses query.selections
    underway.founded.coherent ranSelections
  have underway₁ := underway.grows grows₁
  obtain ⟨grows₂, _⟩ := filter_lowered query.filter underway₁.founded.coherent plain ranFilter
  have underway₂ := underway₁.grows grows₂
  obtain ⟨grows₃, sortedValues⟩ := mapM_grows
    (fun _ (key : Sql.SortKey Sql.Expr) => key.expr.isValue = true) (fun _ held => held)
    sortKey_value order underway₂.founded.coherent ranOrder
  have underway₃ := underway₂.grows grows₃
  rw [levels] at underway₃
  exact underway₃.1.query rfl chosenValues (filters underway₁.founded ranFilter) sortedValues

/-- Sources that are listed by plain names have plain names. -/
theorem plain_of_listed (plain : ∀ source ∈ sources, IsPlainName source) {nodes : List FromNode}
    (listed : nodes.map (·.label) ⊆ sources) : ∀ node ∈ nodes, IsPlainName node.label :=
  fun _ member => plain _ (listed (List.mem_map_of_mem member))

mutual

/-- The sub-selects of a predicate are arranged.

Proof: by recursion over the predicate. Only queries open levels, and a test for membership opens
one with a single table. -/
theorem predicate_arranged (plain : ∀ source ∈ sources, IsPlainName source) :
    ∀ (given : Resolved.Predicate) {state after : LoweringState}
    {condition : Sql.Expr}, Founded sources state.scopes →
      given.sources.map (·.label) ⊆ sources → Yields (predicate context given) state condition after →
        AllArranged context sources condition.levels
  | .and left right, state, after, condition, founded, listed, run
  | .or left right, state, after, condition, founded, listed, run => by
    simp only [predicate, yields_bind, yields_pure] at run
    obtain ⟨first, between, ranLeft, second, _, ranRight, rfl, rfl⟩ := run
    simp only [Resolved.Predicate.sources, List.map_append, List.append_subset] at listed
    have grown := (predicate_lowered left founded.coherent (plain_of_listed plain listed.1)
      ranLeft).grows
    exact (predicate_arranged plain left founded listed.1 ranLeft).binary
      (predicate_arranged plain right (founded.grows grown) listed.2 ranRight)
  | .not operand, state, after, condition, founded, listed, run => by
    simp only [predicate, yields_bind, yields_pure] at run
    obtain ⟨inner, _, ran, rfl, rfl⟩ := run
    simp only [Resolved.Predicate.sources] at listed
    simpa only [AllArranged, Sql.Expr.levels] using predicate_arranged plain operand founded listed ran
  | .compare op left right, state, after, condition, founded, listed, run => by
    simp only [predicate, yields_bind, yields_pure] at run
    obtain ⟨first, between, ranLeft, second, _, ranRight, rfl, rfl⟩ := run
    have lowered := expr_lowered left founded.coherent ranLeft
    have lowered' := expr_lowered right (lowered.grows.coherent founded.coherent) ranRight
    exact (allArranged_of_isValue lowered.within.isValue).binary
      (allArranged_of_isValue lowered'.within.isValue)
  | .inList test values negated, state, after, condition, founded, listed, run => by
    simp only [predicate, yields_bind, yields_pure] at run
    obtain ⟨first, between, ranTest, others, _, ranValues, rfl, rfl⟩ := run
    have lowered := expr_lowered test founded.coherent ranTest
    obtain ⟨_, within⟩ := exprs_lowered values (lowered.grows.coherent founded.coherent) ranValues
    have areValues := areValues_iff.mpr fun value member => (within value member).isValue
    simp [AllArranged, Sql.Expr.levels, first.levels_of_isValue lowered.within.isValue,
      listLevels_of_areValues others areValues]
  | .inQuery test query negated, state, after, condition, founded, listed, run => by
    simp only [predicate, yields_bind, yields_pure] at run
    obtain ⟨first, between, ranTest, select, _, ranQuery, rfl, rfl⟩ := run
    simp only [Resolved.Predicate.sources] at listed
    have lowered := expr_lowered test founded.coherent ranTest
    have arranged := subQuery_arranged plain query (founded.grows lowered.grows) listed ranQuery
    simpa only [AllArranged, Sql.Expr.levels] using
      (allArranged_of_isValue lowered.within.isValue).append arranged
  | .memberOf element collection negated, state, after, condition, founded, listed, run => by
    simp only [predicate] at run
    exact memberOf_arranged founded run
  | .isNull operand negated, state, after, condition, founded, listed, run => by
    simp only [predicate, yields_bind, yields_pure] at run
    obtain ⟨inner, _, ran, rfl, rfl⟩ := run
    have lowered := expr_lowered operand founded.coherent ran
    simp [AllArranged, Sql.Expr.levels, inner.levels_of_isValue lowered.within.isValue]
  | .like operand pattern negated, state, after, condition, founded, listed, run => by
    simp only [predicate, yields_bind, yields_pure] at run
    obtain ⟨first, between, ranOperand, second, _, ranPattern, rfl, rfl⟩ := run
    have lowered := expr_lowered operand founded.coherent ranOperand
    have lowered' := expr_lowered pattern (lowered.grows.coherent founded.coherent) ranPattern
    simp [AllArranged, Sql.Expr.levels, first.levels_of_isValue lowered.within.isValue,
      second.levels_of_isValue lowered'.within.isValue]
  | .between operand low high negated, state, after, condition, founded, listed, run => by
    simp only [predicate, yields_bind, yields_pure] at run
    obtain ⟨first, _, ranOperand, second, _, ranLow, third, _, ranHigh, rfl, rfl⟩ := run
    have lowered := expr_lowered operand founded.coherent ranOperand
    have coherent := lowered.grows.coherent founded.coherent
    have loweredLow := expr_lowered low coherent ranLow
    have loweredHigh := expr_lowered high (loweredLow.grows.coherent coherent) ranHigh
    simp [AllArranged, Sql.Expr.levels, first.levels_of_isValue lowered.within.isValue,
      second.levels_of_isValue loweredLow.within.isValue,
      third.levels_of_isValue loweredHigh.within.isValue]

/-- So are those of a condition, if there is one. -/
theorem filter_arranged (plain : ∀ source ∈ sources, IsPlainName source) :
    ∀ (given : Option Resolved.Predicate) {state after : LoweringState}
    {condition : Option Sql.Expr}, Founded sources state.scopes →
      (filterSources given).map (·.label) ⊆ sources →
        Yields (filter context given) state condition after →
          AllArranged context sources fun outer => conditionLevels outer condition
  | none, state, after, condition, founded, listed, run => by
    simp only [filter, yields_pure] at run
    obtain ⟨rfl, rfl⟩ := run
    simp [AllArranged, conditionLevels]
  | some given, state, after, condition, founded, listed, run => by
    simp only [filter, yields_bind, yields_pure] at run
    obtain ⟨value, _, ran, rfl, rfl⟩ := run
    simp only [filterSources] at listed
    simpa only [conditionLevels] using predicate_arranged plain given founded listed ran

/-- Joins of sources leave the level arranged. -/
theorem joins_arranged (plain : ∀ source ∈ sources, IsPlainName source) :
    ∀ (given : List (Resolved.Join Resolved.Predicate))
    {state after : LoweringState} {space : Nat} {done : Unit},
    Underway context sources state.scopes → (joinSources given).map (·.label) ⊆ sources →
      Yields (joins context space given) state done after → Underway context sources after.scopes
  | [], state, after, space, done, underway, listed, run => by
    simp only [joins, yields_pure] at run
    obtain ⟨_, rfl⟩ := run
    exact underway
  | ⟨kind, _, node, condition⟩ :: rest, state, after, space, done, underway, listed, run => by
    simp only [joins, yields_bind, yields_lift, yields_changeScope, yields_currentScope] at run
    obtain ⟨target, _, ⟨built, rfl⟩, implied, reached, ranImplied, _, _,
      ⟨scope₁, outer₁, levels₁, rfl⟩, before, _, ⟨rfl, _, _⟩, written, filtered, ranWritten, join,
      _, ⟨joined, rfl⟩, _, _, ⟨scope₂, outer₂, levels₂, rfl⟩, ranRest⟩ := run
    simp only [joinSources, List.map_cons, List.map_append, List.cons_subset,
      List.append_subset] at listed
    obtain ⟨own, inCondition, inRest⟩ := listed
    obtain ⟨grouped, _⟩ := sourceGroup_isGroup built own
    obtain ⟨grows₁, boundImplied⟩ := impliedCondition_bound underway.founded.coherent ranImplied
    have underway₁ := underway.grows grows₁
    rw [levels₁] at underway₁
    -- The condition is lowered with the target known; the join takes its place after that.
    have entered : Underway context sources (scope₁.addGroup space target :: outer₁) :=
      ⟨⟨underway₁.1.spaces, underway₁.1.nested⟩, underway₁.2.addGroup grouped rfl⟩
    have arranged := filter_arranged plain condition entered.founded inCondition ranWritten
    have underway₂ := entered.grows
      (filter_lowered condition entered.founded.coherent (plain_of_listed plain inCondition)
        ranWritten).1
    rw [levels₂] at underway₂
    have placed : Underway context sources
        (scope₂.insertJoin space (before.joinCount space) join :: outer₂) := by
      refine ⟨underway₂.1.insertJoin grouped joined ?_, underway₂.2.enter grouped fun entry => .inl⟩
      refine allArranged_conjunction (List.forall_mem_append.mpr ⟨fun given member => ?_, ?_⟩)
      · simp [AllArranged, (boundImplied given (Option.mem_toList.mp member)).2.2]
      · cases written with
        | none => simp
        | some written => simpa [conditionLevels] using arranged
    exact joins_arranged plain rest placed inRest ranRest

/-- The items of a from-clause leave the level arranged. -/
theorem spaces_arranged (plain : ∀ source ∈ sources, IsPlainName source) :
    ∀ (given : List (FromSpace Resolved.Predicate))
    {state after : LoweringState} {done : Unit}, Underway context sources state.scopes →
      (spaceSources given).map (·.label) ⊆ sources →
        Yields (spaces context given) state done after → Underway context sources after.scopes
  | [], state, after, done, underway, listed, run => by
    simp only [spaces, yields_pure] at run
    obtain ⟨_, rfl⟩ := run
    exact underway
  | ⟨node, joined⟩ :: rest, state, after, done, underway, listed, run => by
    simp only [spaces, yields_bind, yields_lift, yields_changeScope, yields_currentScope] at run
    obtain ⟨root, _, ⟨built, rfl⟩, before, _, ⟨rfl, _, _⟩, _, _, ⟨scope, outer, levels, rfl⟩, _,
      between, ranJoins, ranRest⟩ := run
    simp only [spaceSources, List.map_cons, List.map_append, List.cons_subset,
      List.append_subset] at listed
    obtain ⟨own, inJoins, inRest⟩ := listed
    obtain ⟨grouped, source⟩ := sourceGroup_isGroup built own
    rw [levels] at underway
    have opened : Underway context sources (scope.addSpace root :: outer) :=
      ⟨underway.1.addSpace grouped source, underway.2.addGroup grouped rfl⟩
    exact spaces_arranged plain rest (joins_arranged plain joined opened inJoins ranJoins) inRest ranRest

/-- A sub-query is arranged at all its levels. -/
theorem subQuery_arranged (plain : ∀ source ∈ sources, IsPlainName source) :
    ∀ (given : Resolved.Query Resolved.Predicate)
    {state after : LoweringState} {select : Select}, Founded sources state.scopes →
      (querySources given).map (·.label) ⊆ sources →
        Yields (subQuery context given) state select after →
          AllArranged context sources fun outer => queryLevels outer select.toQuery
  | ⟨items, distinct, selections, condition⟩, state, after, select, founded, listed, run => by
    rw [subQuery_eq_selectWith] at run
    simp only [querySources, List.map_append, List.append_subset] at listed
    exact selectWith_arranged innerSelection_choosesValues founded
      (fun underway ran => spaces_arranged plain items underway listed.1 ran)
      (plain_of_listed plain listed.2)
      (fun founded ran => filter_arranged plain condition founded listed.2 ran) run

end

/-! ## Statements -/

/-- No scopes are founded. -/
theorem founded_nil : Founded sources [] := ⟨nofun, nofun⟩

/-- The level of a change has its target and nothing else. -/
theorem founded_target {verb : BulkVerb} {target : FromNode} {group : TableGroup}
    (built : targetGroup context verb target = .ok group) (listed : target.label ∈ sources) :
    Founded sources [LoweringScope.empty.addSpace group] := by
  obtain ⟨coherent, _, _⟩ := targetGroup_coherent built
  obtain ⟨_, _, _, rfl⟩ := targetGroup_ok built
  refine ⟨List.forall_mem_singleton.mpr (List.forall_mem_singleton.mpr coherent), ?_⟩
  exact List.forall_mem_singleton.mpr (List.forall_mem_singleton.mpr ⟨_, listed, .inl rfl⟩)

/-- All levels of a statement are arranged.

Proof: a level is arranged while it is filled, and the query is taken from it when all parts have
been lowered. -/
theorem statement_arranged {given : Resolved.Statement} {lowered : Sql.Statement} {count : Nat}
    (plain : ∀ source ∈ given.sources.map (·.label), IsPlainName source)
    (run : Yields (statement context given) ⟨[], count⟩ lowered after) :
    ∀ level ∈ lowered.levels, IsArranged context (given.sources.map (·.label)) level.query := by
  cases given with
  | select query order =>
    simp only [statement, yields_bind, yields_pure] at run
    obtain ⟨select, _, ran, rfl, rfl⟩ := run
    rw [select_eq_selectWith] at ran
    obtain ⟨items, distinct, selections, condition⟩ := query
    rw [Resolved.Statement.sources, querySources, List.map_append] at plain ⊢
    exact selectWith_arranged topSelection_choosesValues founded_nil
      (fun underway ran => spaces_arranged plain items underway (List.subset_append_left _ _) ran)
      (plain_of_listed plain (List.subset_append_right _ _))
      (fun founded ran => filter_arranged plain condition founded (List.subset_append_right _ _) ran) ran []
  | update target assignments condition =>
    simp only [statement, yields_bind, yields_lift] at run
    obtain ⟨group, _, ⟨built, rfl⟩, run⟩ := run
    obtain ⟨_, _, ran, _, _, _⟩ := yields_inTargetScope.mp run
    simp only [yields_bind, yields_pure] at ran
    obtain ⟨values, between, ranValues, filtered, _, ranFilter, rfl, rfl⟩ := ran
    rw [Resolved.Statement.sources, List.map_cons] at plain ⊢
    have founded := founded_target built (List.mem_cons_self (a := target.label)
      (l := (filterSources condition).map (·.label)))
    obtain ⟨grows, within⟩ := assignments_lowered assignments founded.coherent ranValues
    refine List.forall_mem_append.mpr ⟨fun level member => ?_, ?_⟩
    · obtain ⟨assignment, listed, inside⟩ := List.mem_flatMap.mp member
      rw [assignment.2.levels_of_isValue (within assignment listed).isValue] at inside
      cases inside
    · exact filter_arranged plain condition (founded.grows grows) (List.subset_cons_self _ _) ranFilter _
  | delete target condition =>
    simp only [statement, yields_bind, yields_lift] at run
    obtain ⟨group, _, ⟨built, rfl⟩, run⟩ := run
    obtain ⟨_, _, ran, _, _, _⟩ := yields_inTargetScope.mp run
    simp only [yields_bind, yields_pure] at ran
    obtain ⟨filtered, _, ranFilter, rfl, rfl⟩ := ran
    rw [Resolved.Statement.sources, List.map_cons] at plain ⊢
    have founded := founded_target built (List.mem_cons_self (a := target.label)
      (l := (filterSources condition).map (·.label)))
    exact filter_arranged plain condition founded (List.subset_cons_self _ _) ranFilter _

end ObjectQuery.Lowering

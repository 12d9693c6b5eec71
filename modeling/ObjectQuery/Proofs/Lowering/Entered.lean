import ObjectQuery.Proofs.Lowering.Outcomes
import ObjectQuery.Proofs.Lowering.Placement
import ObjectQuery.Proofs.Lowering.Route
import ObjectQuery.Proofs.Model.Mapped
/-!
# Groups and the ways to them

Every group that is entered at a level has its name from a way that starts from one of the sources of
that level, and is of the entity that the way leads to. No two groups have the same name. So a group
can be told from its name, whichever level it is at, and what the model says about the entity at the
end of a way can be asked of the group.
-/
namespace ObjectQuery

open Sql

/-- The group has a column for each attribute of its entity that is no collection. -/
def Sql.TableGroup.Serves (catalog : Catalog) (group : TableGroup) : Prop :=
  ∀ ⦃entity label type⦄, catalog.entity? group.entity = some entity →
    entity.attribute? label = some type → type.isPlural = false →
      (group.binding? label).isSome = true

/-- The entity of that name has the attributes, with the same types. -/
def Catalog.Offers (catalog : Catalog) (name : String) (find? : String → Option DataType) : Prop :=
  ∃ entity, catalog.entity? name = some entity ∧
    ∀ label type, find? label = some type → entity.attribute? label = some type

namespace Lowering

variable {context : LoweringContext} {roots : String → Option String}
  {state after : LoweringState} {scopes later : List LoweringScope} {scope : LoweringScope}

/-! ## Where ways lead -/

namespace Route

/-- The entity that the way leads to, given those of the sources. -/
def entity? (catalog : Catalog) (roots : String → Option String) : Route → Option String
  | source label => roots label
  | toOne owner label => (owner.entity? catalog roots).bind fun name =>
      ((catalog.entity? name).bind (·.attribute? label)).bind DataType.entity?
  | element owner label _ => (owner.entity? catalog roots).bind fun name =>
      ((catalog.entity? name).bind (·.attribute? label)).bind fun type =>
        type.element?.bind DataType.entity?

/-- All elements on the way have numbers below the bound. -/
def Below (bound : Nat) : Route → Prop
  | source _ => True
  | toOne owner _ => owner.Below bound
  | element owner _ number => owner.Below bound ∧ number < bound

/-- A route below a number is below any greater one. -/
theorem Below.mono {bound more : Nat} (least : bound ≤ more) {route : Route}
    (below : route.Below bound) : route.Below more := by
  induction route with
  | source label => trivial
  | toOne owner label ih => exact ih below
  | element owner label number ih => exact ⟨ih below.1, Nat.lt_of_lt_of_le below.2 least⟩

variable {catalog : Catalog} {owner : Route} {name label : String} {entity : EntityType}
  {type : DataType}

/-- A to-one step leads to the entity of its attribute. -/
theorem entity?_toOne (leads : owner.entity? catalog roots = some name)
    (known : catalog.entity? name = some entity) (typed : entity.attribute? label = some type) :
    (toOne owner label).entity? catalog roots = type.entity? := by
  simp [entity?, leads, known, typed]

/-- A step into a collection leads to the entity of its elements. -/
theorem entity?_element {number : Nat} (leads : owner.entity? catalog roots = some name)
    (known : catalog.entity? name = some entity) (typed : entity.attribute? label = some type) :
    (element owner label number).entity? catalog roots = type.element?.bind DataType.entity? := by
  simp [entity?, leads, known, typed]

end Route

/-! ## Groups of mapped entities -/

/-- The policy never chooses a cross join. -/
theorem joinKind_ne_cross (policy : JoinPolicy) (optional identifying : Bool) :
    policy.joinKind optional identifying ≠ .cross := by
  cases policy <;> cases optional <;> cases identifying <;> decide

/-- A join without a condition it must not have is fine. -/
theorem checkJoin_ok {kind : JoinKind} {label : String} {condition : Option Sql.Expr}
    (allowed : kind = .cross → condition.isSome = false) : checkJoin kind label condition = .ok () := by
  unfold checkJoin
  split
  · rename_i refused
    rw [allowed refused.1] at refused
    cases refused.2
  · rfl

/-- A table is joined where its condition is allowed. -/
theorem tableJoin_of_allowed {kind : JoinKind} {table : TableSpec} {condition : Option Sql.Expr}
    (allowed : kind = .cross → condition.isSome = false) :
    tableJoin kind table condition = .ok ⟨kind, table, condition⟩ := by
  unfold tableJoin
  rw [checkJoin_ok allowed]
  rfl

/-- A group is joined where its condition is allowed. -/
theorem groupJoin_of_allowed {kind : JoinKind} {group : TableGroup} {condition : Option Sql.Expr}
    (allowed : kind = .cross → condition.isSome = false) :
    groupJoin kind group condition = .ok ⟨kind, group, condition⟩ := by
  unfold groupJoin
  rw [checkJoin_ok allowed]
  rfl

/-- A known entity of a mapped catalog has a shape and a table. -/
theorem shape_of_mapped (mapped : context.catalog.IsMapped) {name : String} {entity : EntityType}
    (known : context.catalog.entity? name = some entity) :
    ∃ shape table, context.catalog.shape? name = some shape ∧ shape.root? = some table ∧
      context.shape name = .ok shape ∧ context.rootTable name = .ok table := by
  obtain ⟨shape, table, shaped, rooted⟩ := mapped.rooted known
  have found : context.shape name = .ok shape := by simp [LoweringContext.shape, shaped]
  refine ⟨shape, table, shaped, rooted, found, ?_⟩
  rw [LoweringContext.rootTable, found]
  simp [Bind.bind, Except.bind, rooted, pure, Except.pure]

/-- A shape that is found is the one of the catalog. -/
theorem shape?_of_shape {name : String} {shape : TableShape} (shaped : context.shape name = .ok shape) :
    context.catalog.shape? name = some shape := by
  unfold LoweringContext.shape at shaped
  split at shaped
  · rename_i given
    rw [given, Except.ok.inj shaped]
  · cases shaped

/-- An entity that is known has a group under any name. -/
theorem tableGroup_succeeds (mapped : context.catalog.IsMapped) {name : String} {entity : EntityType}
    (known : context.catalog.entity? name = some entity) (label : String) :
    ∃ group, context.tableGroup label name = .ok group := by
  obtain ⟨shape, table, _, _, shaped, rooted⟩ := shape_of_mapped mapped known
  unfold LoweringContext.tableGroup
  rw [shaped, rooted]
  simp only [except_bind_ok, Except.ok.injEq, exists_eq_left']
  rw [exists_comm]
  refine (mapM_succeeds.mpr fun entry _ => ?_).imp fun secondary joined => ⟨_, joined, rfl⟩
  refine ⟨furtherJoin context.policy label table.keyColumn entry.1 entry.2, ?_⟩
  exact tableJoin_of_allowed fun crossed => (joinKind_ne_cross _ _ _ crossed).elim

/-- The group of an entity has what the model says about its attributes. -/
theorem tableGroup_serves (mapped : context.catalog.IsMapped) {label name : String}
    {group : TableGroup} (built : context.tableGroup label name = .ok group) :
    group.entity = name ∧ group.Serves context.catalog := by
  obtain ⟨shape, table, shaped, _, rfl⟩ := tableGroup_ok built
  refine ⟨rfl, fun entity property type known typed single => ?_⟩
  have answered := mapped.answered known (shape?_of_shape shaped) typed
  rw [TableShape.Answers, single] at answered
  obtain ⟨further, listed, column, stored, named⟩ := answered
  obtain ⟨position, placed⟩ := List.getElem?_of_mem listed
  refine List.find?_isSome.mpr ⟨⟨column.label, TableGroup.tableLabel label position, column.column⟩,
    ?_, by simpa using named⟩
  refine List.mem_flatMap.mpr ⟨(further, position), List.mem_zipIdx_iff_getElem?.mpr placed, ?_⟩
  exact List.mem_map_of_mem stored

/-- A group that serves an entity has a column for each single attribute. -/
theorem columnOf_of_serves {group : TableGroup} {entity : EntityType} {label : String}
    {type : DataType} (serves : group.Serves context.catalog)
    (known : context.catalog.entity? group.entity = some entity)
    (typed : entity.attribute? label = some type) (single : type.isPlural = false) :
    ∃ column, columnOf group label = .ok column := by
  obtain ⟨binding, found⟩ := Option.isSome_iff_exists.mp (serves known typed single)
  exact ⟨binding.expr, by simp [columnOf, TableGroup.column?, found]⟩

/-- A plural attribute of a mapped catalog has a table of its own. -/
theorem collection_of_mapped (mapped : context.catalog.IsMapped) {name label : String}
    {entity : EntityType} {type : DataType} (known : context.catalog.entity? name = some entity)
    (typed : entity.attribute? label = some type) (plural : type.isPlural = true) :
    ∃ mapping, context.collection name label = .ok mapping := by
  obtain ⟨shape, _, found, _, shaped, _⟩ := shape_of_mapped mapped known
  have answered := mapped.answered known found typed
  rw [TableShape.Answers, plural] at answered
  obtain ⟨mapping, listed⟩ := Option.isSome_iff_exists.mp answered
  refine ⟨mapping, ?_⟩
  rw [LoweringContext.collection, shaped]
  simp [Bind.bind, Except.bind, listed, pure, Except.pure]

/-! ## The names of the groups -/

/-- The names of the groups of all levels. -/
def keys (scopes : List LoweringScope) : List String :=
  scopes.flatMap fun scope => scope.groups.map (·.1)

/-- The labels of scopes are those of the first and of the rest. -/
@[simp] theorem keys_cons {outer : List LoweringScope} :
    keys (scope :: outer) = scope.groups.map (·.1) ++ keys outer := rfl

/-- A label is known if one of the scopes keeps a group under it. -/
theorem mem_keys {label : String} :
    label ∈ keys scopes ↔ ∃ scope ∈ scopes, ∃ entry ∈ scope.groups, entry.1 = label := by
  simp [keys, List.mem_flatMap]

/-- A group is located if it is entered at some level. -/
theorem locate?_eq_none {label : String} : locate? scopes label = none ↔ label ∉ keys scopes := by
  induction scopes with
  | nil => simp [locate?, keys]
  | cons scope outer ih =>
    have here : scope.find? label = none ↔ label ∉ scope.groups.map (·.1) := by
      rw [LoweringScope.find?, List.lookup_eq_none_iff]
      constructor
      · intro other listed
        obtain ⟨entry, member, rfl⟩ := List.mem_map.mp listed
        simpa using other entry member
      · intro absent entry member
        simp only [bne_iff_ne, ne_eq]
        rintro rfl
        exact absent (List.mem_map_of_mem member)
    rw [locate?_cons, keys_cons, List.mem_append, not_or, ← here, ← ih]
    cases scope.find? label <;> simp

/-- A label that is known is located. -/
theorem locate?_of_mem {label : String} (known : label ∈ keys scopes) :
    ∃ level found, locate? scopes label = some (level, found) := by
  cases located : locate? scopes label with
  | none => exact (locate?_eq_none.mp located known).elim
  | some found => exact ⟨found.1, found.2, rfl⟩

/-- A join brings the name of its group. -/
theorem keys_modify {level space : Nat} {join : GroupJoin} (stored : scopes[level]? = some scope) :
    (keys (scopes.modify level (·.addJoin space join))).Perm (join.group.label :: keys scopes) := by
  obtain ⟨front, back, rfl, _, changed⟩ := modify_around stored
  rw [changed]
  simp only [keys, List.flatMap_append, List.flatMap_cons, addJoin_groups, List.map_cons]
  exact List.perm_middle

/-- A join that was raised is labelled as an implicit one. -/
theorem Raised.isImplicit_label {owner : String} {ownerGroup : TableGroup} {join : GroupJoin}
    (raised : Raised context owner ownerGroup join) : Sql.isImplicit join.group.label = true := by
  have named := raised.implicit _ TableGroup.root_mem_labels
  rwa [raised.named.root, isImplicit_tableLabel] at named

/-- A raised join adds its own label and no other. -/
theorem Raises.keys (raises : Raises context scopes later) :
    ∃ label, Sql.isImplicit label = true ∧ (keys later).Perm (label :: keys scopes) := by
  obtain ⟨located, raised⟩ := raises
  obtain ⟨scope, stored, _⟩ := locate?_mem located
  exact ⟨_, raised.isImplicit_label, keys_modify stored⟩

/-- No name is lost. -/
theorem Grows.keys_subset (grows : Grows context scopes later) : keys scopes ⊆ keys later := by
  induction grows with
  | refl => exact List.Subset.refl _
  | tail _ raises ih =>
    obtain ⟨label, _, same⟩ := raises.keys
    exact fun name known => same.mem_iff.mpr (List.mem_cons_of_mem _ (ih known))

/-- Only names with a dot are gained. -/
theorem Grows.mem_keys_of_plain (grows : Grows context scopes later) {name : String}
    (plain : IsPlainName name) (known : name ∈ keys later) : name ∈ keys scopes := by
  induction grows with
  | refl => exact known
  | tail _ raises ih =>
    obtain ⟨label, implicit, same⟩ := raises.keys
    rcases List.mem_cons.mp (same.mem_iff.mp known) with rfl | earlier
    · rw [isImplicit_of_isPlainName plain] at implicit
      cases implicit
    · exact ih earlier

/-! ## Entered groups -/

/-- The way leads to the group, which stands in the space of the source that the way starts from. -/
structure Route.Reaches (context : LoweringContext) (roots : String → Option String) (bound : Nat)
    (scope : LoweringScope) (entry : String × ScopedGroup) (route : Route) : Prop where
  plain : route.IsPlain
  named : route.name = entry.1
  entity : route.entity? context.catalog roots = some entry.2.group.entity
  below : route.Below bound
  home : ∃ root ∈ scope.groups, root.1 = route.root ∧ root.2.space = entry.2.space

/-- The group is what its name tells. -/
structure Entered (context : LoweringContext) (roots : String → Option String) (bound : Nat)
    (scope : LoweringScope) (entry : String × ScopedGroup) : Prop where
  coherent : entry.2.group.Coherent
  serves : entry.2.group.Serves context.catalog
  reached : ∃ route : Route, route.Reaches context roots bound scope entry

/-- All groups are entered under names of their own. -/
structure Tidy (context : LoweringContext) (roots : String → Option String)
    (state : LoweringState) : Prop where
  distinct : (keys state.scopes).Nodup
  entered : ∀ scope ∈ state.scopes, ∀ entry ∈ scope.groups,
    Entered context roots state.indexJoins scope entry

/-- An entry that was entered stays so while the scope grows. -/
theorem Entered.mono {bound more : Nat} {scope' : LoweringScope} {entry : String × ScopedGroup}
    (entered : Entered context roots bound scope entry) (least : bound ≤ more)
    (inside : scope.groups ⊆ scope'.groups) : Entered context roots more scope' entry := by
  obtain ⟨coherent, serves, route, plain, named, entity, below, root, listed, home⟩ := entered
  exact ⟨coherent, serves, route, plain, named, entity, below.mono least, root, inside listed, home⟩

/-- The groups of tidy scopes are coherent. -/
theorem Tidy.coherent (tidy : Tidy context roots state) : Coherent state.scopes :=
  fun scope member entry listed => (tidy.entered scope member entry listed).coherent

/-- A group that is located is the one that its name tells. -/
theorem Tidy.located (tidy : Tidy context roots state) {route : Route} (plain : route.IsPlain)
    {level : Nat} {found : ScopedGroup}
    (located : locate? state.scopes route.name = some (level, found)) :
    ∃ scope, state.scopes[level]? = some scope ∧ (route.name, found) ∈ scope.groups ∧
      found.group.Serves context.catalog ∧
      route.Reaches context roots state.indexJoins scope (route.name, found) := by
  obtain ⟨scope, stored, known⟩ := locate?_mem located
  have listed := find?_mem known
  obtain ⟨_, serves, other, reaches⟩ :=
    tidy.entered scope (List.mem_of_getElem? stored) _ listed
  obtain rfl := Route.name_inj reaches.plain plain reaches.named
  exact ⟨scope, stored, listed, serves, reaches⟩

/-- Where a group is entered, so is the source that the way to it starts from. -/
theorem Tidy.root_mem (tidy : Tidy context roots state) {route : Route} (plain : route.IsPlain)
    (known : route.name ∈ keys state.scopes) : route.root ∈ keys state.scopes := by
  obtain ⟨level, found, located⟩ := locate?_of_mem known
  obtain ⟨scope, stored, _, _, reaches⟩ := tidy.located plain located
  obtain ⟨root, listed, named, _⟩ := reaches.home
  exact mem_keys.mpr ⟨scope, List.mem_of_getElem? stored, root, listed, named⟩

/-- A join along the next step of a way keeps all groups entered. -/
theorem Tidy.addJoin (tidy : Tidy context roots state) {route owner : Route} {level bound : Nat}
    {found : ScopedGroup} {join : GroupJoin}
    (located : locate? state.scopes owner.name = some (level, found))
    (least : state.indexJoins ≤ bound) (plain : route.IsPlain) (led : route.owner? = some owner)
    (root : route.root = owner.root) (named : route.name = join.group.label)
    (entity : route.entity? context.catalog roots = some join.group.entity)
    (below : route.Below bound) (coherent : join.group.Coherent)
    (serves : join.group.Serves context.catalog) (new : route.name ∉ keys state.scopes) :
    Tidy context roots ⟨state.scopes.modify level (·.addJoin found.space join), bound⟩ := by
  have ownerPlain : owner.IsPlain := by
    cases route with
    | source label => cases led
    | toOne from_ label | element from_ label number =>
      obtain rfl := Option.some.inj led
      exact plain.1
  obtain ⟨scope, stored, listed, _, reaches⟩ := tidy.located ownerPlain located
  refine ⟨?_, ?_⟩
  · rw [(keys_modify stored).nodup_iff, List.nodup_cons, ← named]
    exact ⟨new, tidy.distinct⟩
  · obtain ⟨front, back, whole, _, changed⟩ := modify_around stored
    have earlier (given : LoweringScope) (member : given ∈ front ∨ given = scope ∨ given ∈ back) :
        given ∈ state.scopes := by
      rw [whole]
      simpa using member
    simp only [changed, List.mem_append, List.mem_cons]
    rintro given (inFront | rfl | inBack) entry member
    · exact (tidy.entered given (earlier given (.inl inFront)) entry member).mono least
        (List.Subset.refl _)
    · have more : scope.groups ⊆ (scope.addJoin found.space join).groups :=
        fun _ known => List.mem_cons_of_mem _ known
      rcases List.mem_cons.mp member with rfl | before
      · obtain ⟨home, known, same, space⟩ := reaches.home
        exact ⟨coherent, serves, route, plain, named, entity, below, home, more known,
          same.trans root.symm, space⟩
      · exact (tidy.entered scope (earlier scope (.inr (.inl rfl))) entry before).mono least more
    · exact (tidy.entered given (earlier given (.inr (.inr inBack))) entry member).mono least
        (List.Subset.refl _)

end Lowering
end ObjectQuery

import ObjectQuery.Proofs.Model.Reordering
/-!
# Attributes that a table lists

A definition can list attributes with each of its further tables. The lists are read only when an
attribute that the definition declares is mapped: it goes to the last table that lists it. So a listed
attribute is stored in the table exactly if the definition itself declares it, it is no collection,
and no later table lists it as well. No list is ever a reason to reject a model.
-/
namespace ObjectQuery

variable {parser : SqlParser} {definitions : List EntityDefinition} {model : Model}
  {entity : EntityType} {owner definition : EntityDefinition}

/-- The table at the position has a column for the attribute. -/
def TableShape.StoresAt (shape : TableShape) (name : String) (position : Nat) : Prop :=
  ∃ table, shape.tables[position]? = some table ∧ ∃ column ∈ table.columns, column.label = name

/-- An attribute that has one column has it in one table. -/
theorem TableShape.StoresAt.unique {shape : TableShape} (distinct : shape.stored.Nodup)
    {name : String} {position other : Nat} (here : shape.StoresAt name position)
    (there : shape.StoresAt name other) : position = other := by
  obtain ⟨table, found, column, inside, rfl⟩ := here
  obtain ⟨tableToo, foundToo, columnToo, insideToo, same⟩ := there
  have located := locate?_of_mem distinct found inside
  have locatedToo := locate?_of_mem distinct foundToo insideToo
  rw [same, located] at locatedToo
  exact congrArg Prod.fst (Option.some.inj locatedToo)

/-- A lineage ends with its definition. -/
theorem Lineage.exists_above {line : List EntityDefinition}
    (lineage : Lineage definitions definition line) : ∃ above, line = above ++ [definition] := by
  cases lineage with
  | top => exact ⟨[], rfl⟩
  | heir _ _ _ => exact ⟨_, rfl⟩

namespace Model

/-! ## The last table that lists an attribute -/

/-- The table at the index lists the attribute, and no later table does. -/
def ListsLast (tables : List SecondaryTableDefinition) (name : String) (index : Nat) : Prop :=
  (∃ table, tables[index]? = some table ∧ name ∈ table.attributes) ∧
    ∀ later table, index < later → tables[later]? = some table → name ∉ table.attributes

/-- A name is listed by the last table that lists it. -/
theorem listedAt?_cons {table : SecondaryTableDefinition} {rest : List SecondaryTableDefinition}
    {start : Nat} {name : String} :
    listedAt? (table :: rest) start name =
      (listedAt? rest (start + 1) name).or
        (if table.attributes.contains name then some start else none) := by
  simp [listedAt?, List.zipIdx_cons, List.findSome?_append]

/-- A name is not listed if no table lists it. -/
theorem listedAt?_eq_none : ∀ {tables : List SecondaryTableDefinition} {start : Nat} {name : String},
    listedAt? tables start name = none ↔ ∀ table ∈ tables, name ∉ table.attributes
  | [], start, name => by simp [listedAt?]
  | table :: rest, start, name => by
    rw [listedAt?_cons, Option.or_eq_none_iff, listedAt?_eq_none, List.forall_mem_cons, and_comm]
    simp

/-- The first table lists a name last if it does and no other table does. -/
theorem listsLast_zero {table : SecondaryTableDefinition} {rest : List SecondaryTableDefinition}
    {name : String} : ListsLast (table :: rest) name 0 ↔
      name ∈ table.attributes ∧ ∀ other ∈ rest, name ∉ other.attributes := by
  constructor
  · rintro ⟨⟨first, there, among⟩, last⟩
    obtain rfl := Option.some.inj there
    refine ⟨among, fun other listed => ?_⟩
    obtain ⟨index, there⟩ := List.getElem?_of_mem listed
    exact last (index + 1) other index.succ_pos there
  · rintro ⟨among, last⟩
    refine ⟨⟨table, rfl, among⟩, fun later other behind there => ?_⟩
    obtain ⟨index, rfl⟩ := Nat.exists_eq_succ_of_ne_zero (Nat.ne_zero_of_lt behind)
    exact last other (List.mem_of_getElem? there)

/-- A later table lists a name last if it does so among the later ones. -/
theorem listsLast_succ {table : SecondaryTableDefinition} {rest : List SecondaryTableDefinition}
    {name : String} {index : Nat} :
    ListsLast (table :: rest) name (index + 1) ↔ ListsLast rest name index := by
  refine and_congr (by simp) ⟨fun last later other behind there => ?_,
    fun last later other behind there => ?_⟩
  · exact last (later + 1) other (Nat.succ_lt_succ behind) there
  · obtain ⟨earlier, rfl⟩ := Nat.exists_eq_succ_of_ne_zero (Nat.ne_zero_of_lt behind)
    exact last earlier other (Nat.lt_of_succ_lt_succ behind) there

/-- The position of an attribute is that of the last table that lists it. -/
theorem listedAt?_eq_some : ∀ {tables : List SecondaryTableDefinition} {start position : Nat}
    {name : String}, listedAt? tables start name = some position ↔
      ∃ index, position = start + index ∧ ListsLast tables name index
  | [], start, position, name => by simp [listedAt?, ListsLast]
  | table :: rest, start, position, name => by
    rw [listedAt?_cons, Option.or_eq_some_iff, listedAt?_eq_some, listedAt?_eq_none]
    constructor
    · rintro (⟨index, rfl, last⟩ | ⟨unlisted, found⟩)
      · exact ⟨index + 1, by omega, listsLast_succ.mpr last⟩
      · split at found
        · rename_i among
          obtain rfl := Option.some.inj found
          exact ⟨0, rfl, listsLast_zero.mpr ⟨by simpa using among, unlisted⟩⟩
        · cases found
    · rintro ⟨index, rfl, last⟩
      cases index with
      | zero =>
        obtain ⟨among, unlisted⟩ := listsLast_zero.mp last
        exact .inr ⟨unlisted, by simp [among]⟩
      | succ index => exact .inl ⟨index, by omega, listsLast_succ.mp last⟩

/-! ## Mapping a definition -/

/-- A further column stores its attribute in its table. -/
theorem storesAt_addColumn {tables : List MappedTable} {collections : List CollectionMapping}
    {position place : Nat} {column : MappedColumn} {name : String} (short : position < tables.length) :
    TableShape.StoresAt ⟨addColumn tables position column, collections⟩ name place ↔
      TableShape.StoresAt ⟨tables, collections⟩ name place ∨
        column.label = name ∧ place = position := by
  simp only [TableShape.StoresAt, addColumn, List.getElem?_modify, Option.map_eq_map,
    Option.map_eq_some_iff]
  by_cases here : position = place
  · subst here
    simp [List.getElem?_eq_getElem short, or_and_right, exists_or]
  · simp [here, Ne.symm here]

/-- The place of an attribute that is no collection: in the last table that lists it, or else in the
table for all further attributes. -/
def target (owner : EntityDefinition) (home firstSecondary : Nat) (name : String) : Nat :=
  (listedAt? owner.secondaryTables firstSecondary name).getD home

/-- An attribute goes to the secondary table that lists it last. -/
theorem target_eq {home firstSecondary index : Nat} {name : String} (short : home < firstSecondary) :
    firstSecondary + index = target owner home firstSecondary name ↔
      listedAt? owner.secondaryTables firstSecondary name = some (firstSecondary + index) := by
  unfold target
  cases listedAt? owner.secondaryTables firstSecondary name with
  | none =>
    simp only [Option.getD_none, reduceCtorEq, iff_false]
    omega
  | some position => simp [eq_comm]

/-- The attributes with one of the names are stored at their places, and everything else as before. -/
def StoresMore (entity : EntityType) (place : String → Nat) (names : List String)
    (shape next : TableShape) : Prop :=
  ∀ name position, next.StoresAt name position ↔ shape.StoresAt name position ∨
    (name ∈ names ∧ isCollection entity name = false ∧ position = place name)

/-- Mapping an attribute stores it in the table it belongs to. -/
theorem mapAttribute_stores {home firstSecondary : Nat} {shape next : TableShape}
    {label : AttributeDefinition} (opened : HasTables owner home firstSecondary shape)
    (mapped : mapAttribute entity owner home firstSecondary shape label = .ok next) :
    StoresMore entity (target owner home firstSecondary) [label.name] shape next := by
  unfold mapAttribute at mapped
  split at mapped
  · rename_i type typed
    split at mapped
    · rename_i plural
      obtain ⟨mapping, _, same⟩ := except_bind_ok.mp mapped
      obtain rfl := Except.ok.inj same
      intro name position
      have collection : isCollection entity label.name = true := by simp [isCollection, typed, plural]
      simp +contextual [TableShape.StoresAt, collection]
    · rename_i single
      obtain rfl := Except.ok.inj mapped
      have column : isCollection entity label.name = false := by simpa [isCollection, typed] using single
      have short : target owner home firstSecondary label.name < shape.tables.length := by
        unfold target
        cases listed : listedAt? owner.secondaryTables firstSecondary label.name with
        | none => exact opened.home
        | some position => exact Nat.lt_of_lt_of_le (listedAt?_lt listed) opened.secondary
      intro name position
      refine (storesAt_addColumn short).trans (or_congr_right ?_)
      constructor
      · rintro ⟨rfl, rfl⟩
        exact ⟨List.mem_singleton_self _, column, rfl⟩
      · rintro ⟨listed, _, rfl⟩
        obtain rfl := List.mem_singleton.mp listed
        exact ⟨rfl, rfl⟩
  · cases mapped

/-- Attributes may be stored in two lists. -/
theorem StoresMore.append {place : String → Nat} {names others : List String}
    {shape middle next : TableShape} (first : StoresMore entity place names shape middle)
    (second : StoresMore entity place others middle next) :
    StoresMore entity place (names ++ others) shape next := by
  intro name position
  rw [second name position, first name position, List.mem_append, or_and_right, or_assoc]

/-- The tables that a definition lists attributes for are the last ones of the shape in which it has
been mapped. Each of them stores what the definition declares and lists last for it.

Proof: the further tables are opened without columns, and each attribute adds its column to the last
of them that lists it, or to the home table. -/
theorem mapDefinition_stores {mapping next : Mapping} (homed : HasHome mapping)
    (mapped : mapDefinition parser entity mapping owner = .ok next) :
    ∃ first, next.shape.tables.length = first + owner.secondaryTables.length ∧
      ∀ index table, owner.secondaryTables[index]? = some table →
        (∃ columns, next.shape.tables[first + index]? =
          some { openedTable table with columns := columns }) ∧
        ∀ name, next.shape.StoresAt name (first + index) ↔ name ∈ declared owner ∧
          isCollection entity name = false ∧ ListsLast owner.secondaryTables name index := by
  obtain ⟨tables, position, home, own, folded⟩ := mapDefinition_cases mapped
  have short : position < tables.length := by
    rcases own with ⟨rfl, known⟩ | ⟨table, rfl, rfl, _⟩
    · exact homed position known
    · simp
  have opened : HasTables owner position tables.length
      { mapping.shape with tables := tables ++ owner.secondaryTables.map openedTable } :=
    ⟨by simp only [List.length_append]; omega, by simp⟩
  obtain ⟨_, continued, stores⟩ := foldlM_composes
    (fun names start last => TableShape.Continues start last ∧
      StoresMore entity (target owner position tables.length) names start last)
    (fun label : AttributeDefinition => [label.name])
    (fun shape => ⟨.refl shape, fun name place => by simp⟩)
    (fun first second => ⟨first.1.trans second.1, first.2.append second.2⟩)
    (fun start label later holds stepped =>
      ⟨(mapAttribute_adds holds stepped).1, (mapAttribute_adds holds stepped).2.continues,
        mapAttribute_stores holds stepped⟩) opened folded
  have keeps : ∀ (start : TableShape) (label : AttributeDefinition) (later : TableShape),
      start.tables.length = tables.length + owner.secondaryTables.length →
        mapAttribute entity owner position tables.length start label = .ok later →
          later.tables.length = tables.length + owner.secondaryTables.length :=
    fun start label later held stepped => (mapAttribute_ok stepped).1.trans held
  have length : next.shape.tables.length = tables.length + owner.secondaryTables.length :=
    foldlM_keeps keeps (by simp) folded
  refine ⟨tables.length, length, fun index table there => ?_⟩
  have begun : (tables ++ owner.secondaryTables.map openedTable)[tables.length + index]? =
      some (openedTable table) := by
    rw [List.getElem?_append_right (Nat.le_add_right _ _), Nat.add_sub_cancel_left, List.getElem?_map,
      there]
    rfl
  obtain ⟨added, found⟩ := continued.tables _ _ begun
  refine ⟨⟨_, found⟩, fun name => ?_⟩
  have empty : ¬ TableShape.StoresAt
      { mapping.shape with tables := tables ++ owner.secondaryTables.map openedTable } name
      (tables.length + index) := by
    rintro ⟨other, same, column, inside, _⟩
    obtain rfl := Option.some.inj (begun.symm.trans same)
    cases inside
  rw [stores, or_iff_right empty, ← List.map_eq_flatMap]
  refine and_congr_right fun _ => and_congr_right fun _ => (target_eq short).trans ?_
  rw [listedAt?_eq_some]
  simp

/-! ## The last definition of a lineage -/

/-- The position of one of the further tables of a definition in the shape of its entity. -/
def secondaryPosition (definition : EntityDefinition) (shape : TableShape) (index : Nat) : Nat :=
  shape.tables.length - definition.secondaryTables.length + index

/-- A table of the definition is one of the last tables of its entity, and stores what it lists if the
definition declares it and no later table lists it. -/
theorem secondaryTables_store {line : List EntityDefinition} {mapped : MappedEntity}
    (described : Describes parser definitions definition line mapped) {index : Nat}
    {table : SecondaryTableDefinition} (there : definition.secondaryTables[index]? = some table) :
    (∃ columns, mapped.shape.tables[secondaryPosition definition mapped.shape index]? =
      some { openedTable table with columns := columns }) ∧
    ∀ name, mapped.shape.StoresAt name (secondaryPosition definition mapped.shape index) ↔
      name ∈ declared definition ∧ isCollection mapped.entity name = false ∧
        ListsLast definition.secondaryTables name index := by
  obtain ⟨last, folded, shape⟩ := tableShape_cases described.shape
  obtain ⟨above, rfl⟩ := described.lineage.exists_above
  obtain ⟨middle, begun, mappedLast⟩ := foldlM_snoc_ok.mp folded
  obtain ⟨first, length, stores⟩ := mapDefinition_stores (lineage_adds begun).1 mappedLast
  rw [← shape, secondaryPosition, length, Nat.add_sub_cancel]
  exact stores index table there

/-- A name that a table lists is stored there and nowhere else exactly if the definition declares an
attribute of that name, which is no collection, and no later table lists it. -/
theorem stores_only_iff (accepted : build parser definitions = .ok model)
    (listed : definition ∈ definitions) {mapped : MappedEntity} (member : mapped ∈ model.entities)
    (named : mapped.entity.name = definition.name) {index : Nat} {table : SecondaryTableDefinition}
    (there : definition.secondaryTables[index]? = some table) {name : String}
    (among : name ∈ table.attributes) :
    (∀ place, mapped.shape.StoresAt name place ↔
        place = secondaryPosition definition mapped.shape index) ↔
      name ∈ declared definition ∧ isCollection mapped.entity name = false ∧
        ∀ later other, index < later → definition.secondaryTables[later]? = some other →
          name ∉ other.attributes := by
  obtain ⟨found, known, line, described⟩ := exists_described accepted listed
  obtain rfl := mapped_inj accepted known member (described.name.trans named.symm)
  have distinct : found.shape.stored.Nodup :=
    (places_perm accepted member).2.1.nodup_iff.mpr
      (((build_ok accepted).2 found member).filter _)
  have stored := (secondaryTables_store described there).2 name
  constructor
  · intro only
    obtain ⟨own, single, _, last⟩ := stored.mp ((only _).mpr rfl)
    exact ⟨own, single, last⟩
  · rintro ⟨own, single, last⟩ place
    have here := stored.mpr ⟨own, single, ⟨table, there, among⟩, last⟩
    exact ⟨fun also => also.unique distinct here, fun same => same ▸ here⟩

/-! ## Lists do not matter for acceptance -/

/-- The definition with tables that list nothing. -/
def unlisted (definition : EntityDefinition) : EntityDefinition :=
  { definition with
    secondaryTables := definition.secondaryTables.map fun table => { table with attributes := [] } }

/-- A definition is found without its lists as well. -/
theorem definition?_unlisted (name : String) :
    definition? (definitions.map unlisted) name = (definition? definitions name).map unlisted :=
  List.find?_map

/-- The entities above an entity do not depend on the lists. -/
theorem ancestryWithin_unlisted (start : String) : ∀ (fuel : Nat) (seen : List String)
    (current : EntityDefinition),
    ancestryWithin (definitions.map unlisted) start fuel seen (unlisted current) =
      (ancestryWithin definitions start fuel seen current).map (List.map unlisted)
  | 0, _, _ => rfl
  | fuel + 1, seen, current => by
    unfold ancestryWithin
    cases named : current.superType with
    | none => simp [unlisted, named, Except.map]
    | some superType =>
      have same : (unlisted current).superType = some superType := named
      simp only [same, definition?_unlisted]
      cases definition? definitions superType with
      | none => rfl
      | some parent =>
        have called : (unlisted parent).name = parent.name := rfl
        simp only [Option.map_some, called, ancestryWithin_unlisted start fuel]
        split
        · rfl
        · cases ancestryWithin definitions start fuel (parent.name :: seen) parent <;> rfl

/-- The line of an entity does not depend on the lists. -/
theorem chain_unlisted : chain (definitions.map unlisted) (unlisted definition) =
    (chain definitions definition).map (List.map unlisted) := by
  have called : (unlisted definition).name = definition.name := rfl
  rw [chain, chain, List.length_map, called, ancestryWithin_unlisted]
  cases ancestryWithin definitions definition.name definitions.length [definition.name] definition with
  | error => rfl
  | ok met => simp [Except.map]

/-- The attributes of an entity do not depend on the lists. -/
theorem attributes_unlisted (name : String) (line : List EntityDefinition) :
    attributes (definitions.map unlisted) name (line.map unlisted) =
      attributes definitions name line := by
  have types : attributeType (definitions.map unlisted) = attributeType definitions := by
    funext entity label
    simp only [attributeType, definition?_unlisted, Option.isSome_map]
  have adds : addAttribute (definitions.map unlisted) = addAttribute definitions := by
    funext entity owner known label
    simp only [addAttribute, types]
  simp only [attributes, adds, List.foldlM_map]
  rfl

/-- The type of an entity does not depend on the lists. -/
theorem entityType_unlisted (line : List EntityDefinition) :
    entityType (definitions.map unlisted) (unlisted definition) (line.map unlisted) =
      entityType definitions definition line := by
  have same : interfaces (line.map unlisted) = interfaces line := by
    simp only [interfaces, List.flatMap_map]
    rfl
  have called : (unlisted definition).name = definition.name := rfl
  simp only [entityType, same, called, attributes_unlisted]
  rfl

/-- What later steps ask about a shape in the making. -/
def extent (shape : TableShape) : Nat × List CollectionMapping :=
  (shape.tables.length, shape.collections)

/-- If outcomes of each step have the same view, so do outcomes of folds. -/
theorem foldlM_view_congr {α β γ ε : Type} {step other : β → α → Except ε β} {view : β → γ}
    (agree : ∀ item start image, view start = view image →
      (step start item).map view = (other image item).map view) :
    ∀ (items : List α) (start image : β), view start = view image →
      (items.foldlM step start).map view = (items.foldlM other image).map view
  | [], start, image, same => congrArg Except.ok same
  | item :: rest, start, image, same => by
    have first := agree item start image same
    rw [List.foldlM_cons, List.foldlM_cons]
    cases stepped : step start item with
    | error failure =>
      rw [error_of_view first stepped]
      rfl
    | ok next =>
      obtain ⟨nextImage, steppedToo, alike⟩ := ok_of_view first stepped
      rw [steppedToo]
      exact foldlM_view_congr agree rest next nextImage alike

/-- Mapping an attribute opens and refuses the same whatever is listed. -/
theorem mapAttribute_extent {home firstSecondary : Nat} {shape image : TableShape}
    {label : AttributeDefinition} (same : extent shape = extent image) :
    (mapAttribute entity (unlisted owner) home firstSecondary shape label).map extent =
      (mapAttribute entity owner home firstSecondary image label).map extent := by
  obtain ⟨length, collections⟩ := Prod.mk.inj same
  have called : (unlisted owner).name = owner.name := rfl
  unfold mapAttribute
  rw [called]
  split
  · split
    · cases collectionMapping owner.name label _ with
      | error => rfl
      | ok mapping => simp [Bind.bind, Except.bind, pure, Except.pure, Except.map, extent, length,
          collections]
    · simp [pure, Except.pure, Except.map, extent, addColumn, length, collections]
  · rfl

/-- What later definitions ask about the mapping of earlier ones. -/
def Mapping.extent (mapping : Mapping) : Option Nat × Nat × List CollectionMapping :=
  (mapping.home, Model.extent mapping.shape)

/-- Opening the further tables and mapping the attributes does not depend on what the tables list.

Proof: which table a column goes to does not change how many tables and collections there are, nor
whether the mapping fails. -/
theorem mapFurther_extent {tables images : List MappedTable} {collections : List CollectionMapping}
    (home : Option Nat) (position : Nat) (length : tables.length = images.length) :
    Except.map Mapping.extent (do
      (unlisted owner).secondaryTables.forM fun table => checkTable parser owner.name table.name
      let shape ← owner.attributes.foldlM
        (mapAttribute entity (unlisted owner) position tables.length)
        ⟨tables ++ (unlisted owner).secondaryTables.map openedTable, collections⟩
      return ⟨shape, home⟩) =
    Except.map Mapping.extent (do
      owner.secondaryTables.forM fun table => checkTable parser owner.name table.name
      let shape ← owner.attributes.foldlM (mapAttribute entity owner position images.length)
        ⟨images ++ owner.secondaryTables.map openedTable, collections⟩
      return ⟨shape, home⟩) := by
  have checks : ((unlisted owner).secondaryTables.forM fun table =>
        checkTable parser owner.name table.name) =
      owner.secondaryTables.forM fun table => checkTable parser owner.name table.name := by
    simp [unlisted, List.forM_eq_forM]
  rw [checks, length]
  have agree : ∀ (label : AttributeDefinition) (start image : TableShape), extent start = extent image →
      (mapAttribute entity (unlisted owner) position images.length start label).map extent =
        (mapAttribute entity owner position images.length image label).map extent :=
    fun _ _ _ => mapAttribute_extent
  have folds := foldlM_view_congr agree owner.attributes
    ⟨tables ++ (unlisted owner).secondaryTables.map openedTable, collections⟩
    ⟨images ++ owner.secondaryTables.map openedTable, collections⟩
    (by simp [extent, unlisted, length])
  cases owner.secondaryTables.forM fun table => checkTable parser owner.name table.name with
  | error failure => rfl
  | ok checked =>
    cases folded : owner.attributes.foldlM
        (mapAttribute entity (unlisted owner) position images.length)
        ⟨tables ++ (unlisted owner).secondaryTables.map openedTable, collections⟩ with
    | error failure =>
      have foldedToo := error_of_view folds folded
      simp only [Bind.bind, Except.bind] at foldedToo ⊢
      rw [foldedToo]
    | ok shape =>
      obtain ⟨image, foldedToo, alike⟩ := ok_of_view folds folded
      simp only [Bind.bind, Except.bind] at foldedToo ⊢
      rw [foldedToo]
      exact congrArg (fun seen => Except.ok (home, seen)) alike

/-- Mapping an entity opens and refuses the same whatever is listed. -/
theorem mapDefinition_extent {mapping image : Mapping} (same : mapping.extent = image.extent) :
    (mapDefinition parser entity mapping (unlisted owner)).map Mapping.extent =
      (mapDefinition parser entity image owner).map Mapping.extent := by
  obtain ⟨home, same⟩ := Prod.mk.inj same
  obtain ⟨length, collections⟩ := Prod.mk.inj same
  have own : (unlisted owner).table = owner.table := rfl
  unfold mapDefinition
  simp only [own]
  cases owner.table with
  | none =>
    simp only [pure_bind, home]
    cases image.home with
    | none => rfl
    | some position =>
      simp only [collections]
      exact mapFurther_extent _ position length
  | some name =>
    have called : (unlisted owner).name = owner.name := rfl
    simp only [called]
    cases checkTable parser owner.name name with
    | error failure => rfl
    | ok checked =>
      simp only [collections, length]
      exact mapFurther_extent _ image.shape.tables.length (by simp [length])

/-- A line of entities is accepted or refused whatever is listed. -/
theorem tableShape_unlisted (line : List EntityDefinition) :
    (tableShape parser (definitions.map unlisted) entity (line.map unlisted)).map extent =
      (tableShape parser definitions entity line).map extent := by
  have checks : checkElement (definitions.map unlisted) = checkElement definitions := by
    funext entity mapping
    simp only [checkElement, definition?_unlisted, Option.any_map]
    rfl
  have agree : ∀ (owner : EntityDefinition) (mapping image : Mapping),
      mapping.extent = image.extent →
        (mapDefinition parser entity mapping (unlisted owner)).map Mapping.extent =
          (mapDefinition parser entity image owner).map Mapping.extent :=
    fun _ _ _ => mapDefinition_extent
  have folds := foldlM_view_congr agree line Mapping.start Mapping.start rfl
  unfold tableShape
  rw [checks, List.foldlM_map]
  cases folded : line.foldlM (fun mapping owner => mapDefinition parser entity mapping (unlisted owner))
      Mapping.start with
  | error failure =>
    have foldedToo := error_of_view folds folded
    simp only [Bind.bind, Except.bind, Mapping.start] at folded foldedToo ⊢
    rw [folded, foldedToo]
  | ok last =>
    obtain ⟨image, foldedToo, alike⟩ := ok_of_view folds folded
    have same := (Prod.mk.inj alike).2
    have collections := (Prod.mk.inj same).2
    simp only [Bind.bind, Except.bind, Mapping.start] at folded foldedToo ⊢
    rw [folded, foldedToo]
    simp only [collections]
    cases image.shape.collections.forM (checkElement definitions entity) with
    | error failure => rfl
    | ok checked => exact congrArg Except.ok same

/-- A definition describes the same entity whatever tables list. -/
theorem mappedEntity_unlisted : (mappedEntity parser (definitions.map unlisted) (unlisted definition)).map
    (·.entity) = (mappedEntity parser definitions definition).map (·.entity) := by
  unfold mappedEntity
  rw [chain_unlisted]
  cases chain definitions definition with
  | error failure => rfl
  | ok line =>
    simp only [Except.map, Bind.bind, Except.bind, entityType_unlisted]
    cases entityType definitions definition line with
    | error failure => rfl
    | ok entity =>
      have shapes : (tableShape parser (definitions.map unlisted) entity (line.map unlisted)).map extent =
          (tableShape parser definitions entity line).map extent := tableShape_unlisted line
      simp only
      cases shaped : tableShape parser definitions entity line with
      | error failure => rw [error_of_view shapes.symm shaped]
      | ok shape =>
        obtain ⟨image, shapedToo, _⟩ := ok_of_view shapes.symm shaped
        rw [shapedToo]
        rfl

/-- Definitions of the same names that describe the same entities are accepted together. -/
theorem exists_build_of_view {others : List EntityDefinition}
    (names : definitions.map (·.name) = others.map (·.name))
    (same : List.Forall₂ (fun definition other =>
      (mappedEntity parser definitions definition).map (·.entity) =
        (mappedEntity parser others other).map (·.entity)) definitions others)
    (accepted : build parser definitions = .ok model) : ∃ other, build parser others = .ok other := by
  obtain ⟨distinct, once, paired⟩ := build_eq_ok.mp accepted
  obtain ⟨entities, built, alike⟩ := ok_of_view (mapM_view_congr same) (mapM_ok_iff.mpr paired)
  have classes : classNames model.entities = classNames entities := by
    have seen := congrArg (List.filterMap EntityType.className) alike
    rwa [List.filterMap_map, List.filterMap_map] at seen
  exact ⟨⟨entities⟩, build_eq_ok.mpr ⟨names ▸ distinct, classes ▸ once, mapM_ok_iff.mp built⟩⟩

/-- Definitions are accepted exactly if they are with tables that list nothing. -/
theorem accepted_unlisted : (∃ model, build parser definitions = .ok model) ↔
    ∃ model, build parser (definitions.map unlisted) = .ok model := by
  have names : definitions.map (·.name) = (definitions.map unlisted).map (·.name) := by
    rw [List.map_map]
    rfl
  have same : List.Forall₂ (fun definition other =>
      (mappedEntity parser definitions definition).map (·.entity) =
        (mappedEntity parser (definitions.map unlisted) other).map (·.entity))
      definitions (definitions.map unlisted) := by
    rw [List.forall₂_map_right_iff, List.forall₂_same]
    exact fun definition _ => mappedEntity_unlisted.symm
  constructor
  · rintro ⟨model, accepted⟩
    exact exists_build_of_view names same accepted
  · rintro ⟨model, accepted⟩
    refine exists_build_of_view names.symm (same.flip.imp ?_) accepted
    exact fun _ _ alike => alike.symm

/-- In an accepted model each further table of a definition is a table of its entity. A name that it
lists is stored there and nowhere else exactly if the definition declares an attribute of that name,
which is no collection, and no later table lists it. Whatever tables list, the model is accepted. -/
theorem listed_attributes_stored (accepted : build parser definitions = .ok model) :
    (∀ definition ∈ definitions, ∀ mapped ∈ model.entities, mapped.entity.name = definition.name →
      ∀ index table, definition.secondaryTables[index]? = some table →
        (∃ columns, mapped.shape.tables[secondaryPosition definition mapped.shape index]? =
          some ⟨table.name, table.keyColumn, columns, table.optional, false⟩) ∧
        ∀ name ∈ table.attributes,
          ((∀ place, mapped.shape.StoresAt name place ↔
              place = secondaryPosition definition mapped.shape index) ↔
            name ∈ declared definition ∧ isCollection mapped.entity name = false ∧
              ∀ later other, index < later → definition.secondaryTables[later]? = some other →
                name ∉ other.attributes)) ∧
    ∀ others : List EntityDefinition, others.map unlisted = definitions.map unlisted →
      ∃ other, build parser others = .ok other := by
  constructor
  · intro definition listed mapped member named index table there
    refine ⟨?_, fun name among => stores_only_iff accepted listed member named there among⟩
    obtain ⟨found, known, line, described⟩ := exists_described accepted listed
    obtain rfl := mapped_inj accepted known member (described.name.trans named.symm)
    exact (secondaryTables_store described there).1
  · intro others same
    refine accepted_unlisted.mpr ?_
    rw [same]
    exact accepted_unlisted.mp ⟨model, accepted⟩

/-- Accounts have a note that two tables list. One of these also lists what no account has. -/
def account : EntityDefinition :=
  { name := "Account", table := some "accounts"
    attributes := [⟨"id", "long", none, none, none⟩, ⟨"note", "string", none, none, none⟩]
    secondaryTables := [⟨"profiles", "account_id", ["note"], false⟩,
      ⟨"archives", "account_id", ["note", "remark"], false⟩] }

/-- A model of nothing but accounts is accepted, with a single note for each. -/
theorem account_accepted : ∃ model, ofDefinitions [account] = .ok model ∧
    ∀ mapped ∈ model.entities, isCollection mapped.entity "note" = false := by
  have checked : (ofDefinitions [account]).toOption.any (fun model =>
      model.entities.all fun mapped => !isCollection mapped.entity "note") = true := by decide +kernel
  cases accepted : ofDefinitions [account] with
  | error reason => simp [accepted, Except.toOption] at checked
  | ok model => exact ⟨model, rfl, by simpa [accepted, Except.toOption] using checked⟩

/-- The note is stored in the second of the two tables that list it and not in the first. -/
theorem listed_attributes_stored_account : ∃ model, ofDefinitions [account] = .ok model ∧
    ∃ mapped ∈ model.entities, mapped.entity.name = "Account" ∧
      (¬ ∀ place, mapped.shape.StoresAt "note" place ↔
        place = secondaryPosition account mapped.shape 0) ∧
      ∀ place, mapped.shape.StoresAt "note" place ↔
        place = secondaryPosition account mapped.shape 1 := by
  obtain ⟨model, accepted, single⟩ := account_accepted
  obtain ⟨mapped, member, _, described⟩ := exists_described accepted List.mem_cons_self
  have tables := (listed_attributes_stored accepted).1 _ List.mem_cons_self mapped member described.name
  refine ⟨model, accepted, mapped, member, described.name, fun only => ?_, ?_⟩
  · obtain ⟨_, _, last⟩ := ((tables 0 _ rfl).2 "note" (by decide)).mp only
    exact last 1 _ Nat.one_pos rfl (by decide)
  · refine ((tables 1 _ rfl).2 "note" (by decide)).mpr ⟨by decide, single mapped member, ?_⟩
    rintro (_ | _ | later) other behind there
    · cases behind
    · exact absurd behind (Nat.lt_irrefl 1)
    · cases there

/-- Not everything that a table of an accepted model lists is stored there. -/
theorem listed_attributes_not_all_stored : ¬ ∀ (definitions : List EntityDefinition) (model : Model),
    ofDefinitions definitions = .ok model → ∀ definition ∈ definitions, ∀ mapped ∈ model.entities,
      mapped.entity.name = definition.name → ∀ index table,
        definition.secondaryTables[index]? = some table → ∀ name ∈ table.attributes,
          ∀ place, mapped.shape.StoresAt name place ↔
            place = secondaryPosition definition mapped.shape index := by
  intro all
  obtain ⟨model, accepted, _⟩ := account_accepted
  obtain ⟨mapped, member, _, described⟩ := exists_described accepted List.mem_cons_self
  have among : "note" ∈ ["note"] := List.mem_cons_self
  obtain ⟨_, _, last⟩ :=
    (stores_only_iff accepted List.mem_cons_self member described.name rfl among).mp
      (all [account] model accepted _ List.mem_cons_self mapped member described.name 0 _ rfl "note"
        among)
  exact last 1 _ Nat.one_pos rfl (by decide)

end Model
end ObjectQuery

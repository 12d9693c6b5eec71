import ObjectQuery.Proofs.Model.Ancestry
/-!
# Where attributes are stored

The tables of an entity are put together along its lineage: every definition may open tables and puts
its attributes into them or into tables opened above it. Each attribute is mapped when its definition
is reached and never again, so it has one place: a column of one table or, for a collection, a
mapping. What is there already only grows at its end. So an entity finds every attribute that it
inherits where the entity that it inherits from finds it.
-/
namespace ObjectQuery

namespace TableShape

variable {shape middle next : TableShape} {name : String}

/-- The columns of all tables, table after table. -/
def columns (shape : TableShape) : List MappedColumn := shape.tables.flatMap (·.columns)

/-- The attributes that have columns, once for each column. -/
def stored (shape : TableShape) : List String := shape.columns.map (·.label)

/-- The attributes that have mappings of collections, once for each mapping. -/
def collected (shape : TableShape) : List String := shape.collections.map (·.label)

/-- The tables of one shape are the first tables of another, where they may have more columns behind
their own. Mappings of collections are only added behind those that are there. -/
structure Continues (shape next : TableShape) : Prop where
  tables : ∀ (position : Nat) (table : MappedTable), shape.tables[position]? = some table →
    ∃ added : List MappedColumn,
      next.tables[position]? = some { table with columns := table.columns ++ added }
  collections : shape.collections <+: next.collections

/-- A shape continues itself. -/
theorem Continues.refl (shape : TableShape) : shape.Continues shape :=
  ⟨fun _ table there => ⟨[], by simpa using there⟩, List.prefix_refl _⟩

/-- A shape that continues one that continues a third continues the third. -/
theorem Continues.trans (first : shape.Continues middle) (second : middle.Continues next) :
    shape.Continues next := by
  refine ⟨fun position table there => ?_, first.collections.trans second.collections⟩
  obtain ⟨added, found⟩ := first.tables position table there
  obtain ⟨more, later⟩ := second.tables position _ found
  exact ⟨added ++ more, by simpa using later⟩

/-- A shape that continues another starts with the same tables and keys. -/
theorem Continues.heads (continues : shape.Continues next) :
    shape.tables.map (fun table => (table.name, table.keyColumn)) <+:
      next.tables.map (fun table => (table.name, table.keyColumn)) := by
  rw [List.prefix_iff_getElem?]
  intro position short
  rw [List.length_map] at short
  obtain ⟨added, later⟩ := continues.tables position _ (List.getElem?_eq_getElem short)
  rw [List.getElem?_map, later, List.getElem_map]
  rfl

/-! ## Locating an attribute -/

/-- An attribute that is not stored is not located. -/
theorem locate?_eq_none (absent : name ∉ shape.stored) : shape.locate? name = none := by
  unfold locate?
  rw [List.findSome?_eq_none_iff]
  rintro ⟨table, position⟩ listed
  have among : table ∈ shape.tables := List.fst_mem_of_mem_zipIdx listed
  have unknown : table.columns.find? (·.label == name) = none := by
    rw [List.find?_eq_none]
    intro column inside labelled
    refine absent (List.mem_map.mpr ⟨column, List.mem_flatMap.mpr ⟨table, among, inside⟩, ?_⟩)
    exact beq_iff_eq.mp labelled
  simp [MappedTable.column?, unknown]

/-- If no attribute has two columns, each is located where its column is. -/
theorem locate?_of_mem (distinct : shape.stored.Nodup) {position : Nat} {table : MappedTable}
    (there : shape.tables[position]? = some table) {column : MappedColumn}
    (listed : column ∈ table.columns) :
    shape.locate? column.label = some (position, column.column) := by
  obtain ⟨front, back, whole, length⟩ :
      ∃ front back, shape.tables = front ++ table :: back ∧ front.length = position := by
    obtain ⟨short, rfl⟩ := List.getElem?_eq_some_iff.mp there
    exact ⟨shape.tables.take position, shape.tables.drop (position + 1),
      by simp, by simp [Nat.le_of_lt short]⟩
  have split : (front.flatMap (·.columns) ++ (table.columns ++ back.flatMap (·.columns))).map
      (·.label) = shape.stored := by
    rw [stored, columns, whole, List.flatMap_append, List.flatMap_cons]
  rw [← split, List.map_append, List.map_append, List.nodup_append] at distinct
  obtain ⟨_, inside, apart⟩ := distinct
  have before : column.label ∉ (⟨front, []⟩ : TableShape).stored := by
    intro earlier
    exact apart _ earlier _ (List.mem_append_left _ (List.mem_map_of_mem listed)) rfl
  have found := find?_of_mem (·.label) (List.nodup_append.mp inside).1 listed
  have skipped := locate?_eq_none before
  unfold locate? at skipped ⊢
  rw [whole, List.zipIdx_append, List.findSome?_append, skipped, List.zipIdx_cons,
    List.findSome?_cons]
  simp [MappedTable.column?, found, length]

/-- What is stored has a table and a column there. -/
theorem exists_of_mem_stored (listed : name ∈ shape.stored) :
    ∃ (position : Nat) (table : MappedTable) (column : MappedColumn),
    shape.tables[position]? = some table ∧ column ∈ table.columns ∧ column.label = name := by
  obtain ⟨column, inside, labelled⟩ := List.mem_map.mp listed
  obtain ⟨table, among, inside⟩ := List.mem_flatMap.mp inside
  obtain ⟨position, there⟩ := List.getElem?_of_mem among
  exact ⟨position, table, column, there, inside, labelled⟩

/-- An attribute keeps its place. -/
theorem Continues.locate? (continues : shape.Continues next) (distinct : shape.stored.Nodup)
    (distinctNext : next.stored.Nodup) (listed : name ∈ shape.stored) :
    next.locate? name = shape.locate? name := by
  obtain ⟨position, table, column, there, inside, rfl⟩ := exists_of_mem_stored listed
  obtain ⟨added, later⟩ := continues.tables position table there
  rw [locate?_of_mem distinct there inside,
    locate?_of_mem distinctNext later (List.mem_append_left _ inside)]

end TableShape

namespace Model

variable {parser : SqlParser} {definitions : List EntityDefinition} {model : Model}
  {entity : EntityType} {owner : EntityDefinition}

/-! ## Mapping an attribute -/

/-- Whether the entity has a collection of that name. -/
def isCollection (entity : EntityType) (name : String) : Bool :=
  (entity.attribute? name).any DataType.isPlural

/-- One more column is one more column of the whole. -/
theorem columns_addColumn (collections : List CollectionMapping) (column : MappedColumn) :
    ∀ {tables : List MappedTable} {position : Nat}, position < tables.length →
      (TableShape.columns ⟨addColumn tables position column, collections⟩).Perm
        (TableShape.columns ⟨tables, collections⟩ ++ [column])
  | table :: rest, 0, _ => by
    simp only [TableShape.columns, addColumn, List.modify_zero_cons, List.flatMap_cons,
      List.append_assoc]
    exact List.perm_append_comm.append_left _
  | table :: rest, position + 1, short => by
    have inside : position < rest.length := by simpa using short
    have later := columns_addColumn collections column inside
    simp only [TableShape.columns, addColumn, List.modify_succ_cons, List.flatMap_cons,
      List.append_assoc] at later ⊢
    exact later.append_left _

/-- A further column continues the shape. -/
theorem continues_addColumn {tables : List MappedTable} {collections : List CollectionMapping}
    {position : Nat} {column : MappedColumn} :
    TableShape.Continues ⟨tables, collections⟩ ⟨addColumn tables position column, collections⟩ := by
  refine ⟨fun place table there => ?_, List.prefix_refl _⟩
  have changed : (addColumn tables position column)[place]? =
      some (if position = place then { table with columns := table.columns ++ [column] }
        else table) := by
    have known : tables[place]? = some table := there
    simp only [addColumn, List.getElem?_modify, known, Option.map_eq_map, Option.map_some]
  by_cases here : position = place
  · exact ⟨[column], by rw [changed, if_pos here]⟩
  · exact ⟨[], by rw [changed, if_neg here, List.append_nil]⟩

/-- Every mapping of an indexed collection names a column for the index. -/
def IndexesCollections (entity : EntityType) (shape : TableShape) : Prop :=
  ∀ mapping ∈ shape.collections, ∀ type, entity.attribute? mapping.label = some type →
    type.isIndexed = true → mapping.indexColumn.isSome = true

/-- An indexed collection is stored with a column for its index. -/
theorem collectionMapping_index {name : String} {label : AttributeDefinition} {type : DataType}
    {mapping : CollectionMapping} (built : collectionMapping name label type = .ok mapping)
    (indexed : type.isIndexed = true) : mapping.indexColumn.isSome = true := by
  unfold collectionMapping at built
  split at built
  · split at built
    · cases built
    · rename_i complete
      obtain rfl := Except.ok.inj built
      simpa [indexed, Option.isSome_iff_ne_none] using complete
  · cases built

/-- The names get a column or a mapping each, as their types say, and everything else stays. -/
structure Adds (entity : EntityType) (names : List String) (shape next : TableShape) : Prop where
  continues : shape.Continues next
  stored : next.stored.Perm (shape.stored ++ names.filter fun name => !isCollection entity name)
  collected : next.collected.Perm (shape.collected ++ names.filter (isCollection entity))
  indexes : IndexesCollections entity shape → IndexesCollections entity next

/-- Adding no attribute leaves the shape. -/
theorem Adds.nil (entity : EntityType) (shape : TableShape) : Adds entity [] shape shape :=
  ⟨.refl shape, by simp, by simp, id⟩

/-- Attributes may be added in two lists. -/
theorem Adds.append {names others : List String} {shape middle next : TableShape}
    (first : Adds entity names shape middle) (second : Adds entity others middle next) :
    Adds entity (names ++ others) shape next := by
  refine ⟨first.continues.trans second.continues, ?_, ?_, second.indexes ∘ first.indexes⟩
  · rw [List.filter_append, ← List.append_assoc]
    exact second.stored.trans (first.stored.append_right _)
  · rw [List.filter_append, ← List.append_assoc]
    exact second.collected.trans (first.collected.append_right _)

/-- The tables for the columns of a definition are there. -/
structure HasTables (owner : EntityDefinition) (home firstSecondary : Nat) (shape : TableShape) :
    Prop where
  home : home < shape.tables.length
  secondary : firstSecondary + owner.secondaryTables.length ≤ shape.tables.length

/-- Mapping an attribute adds just that attribute.

Proof: the attribute becomes a collection mapping or one more column of one table, and all other
columns and mappings stay as they are. -/
theorem mapAttribute_adds {home firstSecondary : Nat} {shape next : TableShape}
    {label : AttributeDefinition} (opened : HasTables owner home firstSecondary shape)
    (mapped : mapAttribute entity owner home firstSecondary shape label = .ok next) :
    HasTables owner home firstSecondary next ∧ Adds entity [label.name] shape next := by
  unfold mapAttribute at mapped
  split at mapped
  · rename_i type typed
    split at mapped
    · rename_i plural
      obtain ⟨mapping, built, same⟩ := except_bind_ok.mp mapped
      obtain rfl := Except.ok.inj same
      have named := collectionMapping_label built
      have collection : isCollection entity label.name = true := by simp [isCollection, typed, plural]
      refine ⟨⟨opened.home, opened.secondary⟩,
        ⟨fun _ table there => ⟨[], by simpa using there⟩, List.prefix_append _ _⟩, ?_, ?_,
        fun indexes => ?_⟩
      · simp [collection, TableShape.stored, TableShape.columns]
      · simp [collection, TableShape.collected, named]
      · refine List.forall_mem_append.mpr ⟨indexes, List.forall_mem_singleton.mpr ?_⟩
        intro given known indexed
        rw [named, typed] at known
        obtain rfl := Option.some.inj known
        exact collectionMapping_index built indexed
    · rename_i single
      obtain rfl := Except.ok.inj mapped
      have column : isCollection entity label.name = false := by simpa [isCollection, typed] using single
      have short : (listedAt? owner.secondaryTables firstSecondary label.name).getD home <
          shape.tables.length := by
        cases listed : listedAt? owner.secondaryTables firstSecondary label.name with
        | none => exact opened.home
        | some position => exact Nat.lt_of_lt_of_le (listedAt?_lt listed) opened.secondary
      refine ⟨⟨?_, ?_⟩, continues_addColumn, ?_, ?_, id⟩
      · rw [length_addColumn]
        exact opened.home
      · rw [length_addColumn]
        exact opened.secondary
      · have one := (columns_addColumn shape.collections ⟨label.name, columnName label type⟩
          short).map (·.label)
        simpa [TableShape.stored, column] using one
      · simp [column, TableShape.collected]
  · cases mapped

/-! ## Mapping a lineage -/

/-- The names that a definition declares. -/
def declared (owner : EntityDefinition) : List String := owner.attributes.map (·.name)

/-- The table for further attributes is there. -/
def HasHome (mapping : Mapping) : Prop :=
  ∀ position ∈ mapping.home, position < mapping.shape.tables.length

/-- Opening tables without columns adds no names. -/
theorem adds_moreTables (entity : EntityType) (shape : TableShape) {more : List MappedTable}
    (empty : ∀ table ∈ more, table.columns = []) :
    Adds entity [] shape { shape with tables := shape.tables ++ more } := by
  have hollow : more.flatMap (·.columns) = [] := List.flatMap_eq_nil_iff.mpr empty
  refine ⟨⟨fun place table there => ⟨[], ?_⟩, List.prefix_refl _⟩, ?_, ?_, id⟩
  · have inside := (List.getElem?_eq_some_iff.mp there).1
    rw [List.getElem?_append_left inside]
    simpa using there
  · simp [TableShape.stored, TableShape.columns, hollow]
  · simp [TableShape.collected]

/-- The tables an entity opens have no columns yet. -/
theorem openedTables_empty (owner : EntityDefinition) :
    ∀ table ∈ owner.secondaryTables.map openedTable, table.columns = [] := by
  simp [openedTable]

/-- A definition opens its tables and then maps its attributes, one after the other. -/
theorem mapDefinition_adds {mapping next : Mapping} (homed : HasHome mapping)
    (mapped : mapDefinition parser entity mapping owner = .ok next) :
    HasHome next ∧ Adds entity (declared owner) mapping.shape next.shape := by
  obtain ⟨tables, position, home, own, folded⟩ := mapDefinition_cases mapped
  obtain ⟨more, rfl, empty, short⟩ : ∃ more, tables = mapping.shape.tables ++ more ∧
      (∀ table ∈ more, table.columns = []) ∧ position < tables.length := by
    rcases own with ⟨rfl, known⟩ | ⟨table, rfl, rfl, empty⟩
    · exact ⟨[], by simp, by simp, homed position known⟩
    · exact ⟨[table], rfl, by simpa using empty, by simp⟩
  have begun := (adds_moreTables entity mapping.shape empty).append
    (adds_moreTables entity _ (openedTables_empty owner))
  have opened : HasTables owner position (mapping.shape.tables ++ more).length
      { mapping.shape with
        tables := mapping.shape.tables ++ more ++ owner.secondaryTables.map openedTable } :=
    ⟨by simp only [List.length_append] at short ⊢; omega, by simp [Nat.add_assoc]⟩
  obtain ⟨there, added⟩ := foldlM_composes (Adds entity) (fun label : AttributeDefinition => [label.name])
    (Adds.nil entity) (fun first second => first.append second)
    (fun start label later holds stepped => mapAttribute_adds holds stepped) opened folded
  refine ⟨fun given same => ?_, ?_⟩
  · obtain rfl := Option.some.inj (home.symm.trans same)
    exact there.home
  · rw [declared, List.map_eq_flatMap]
    exact begun.append added

/-- Nothing is mapped, and there is no table yet. -/
def Mapping.start : Mapping := ⟨⟨[], []⟩, none⟩

/-- Mapping a line of entities adds all the attributes they declare. -/
theorem lineage_adds {line : List EntityDefinition} {last : Mapping}
    (folded : line.foldlM (mapDefinition parser entity) Mapping.start = .ok last) :
    HasHome last ∧ Adds entity (line.flatMap declared) Mapping.start.shape last.shape := by
  have begun : HasHome Mapping.start := by
    intro position same
    cases same
  have steps : ∀ (start : Mapping) (owner : EntityDefinition) (next : Mapping), HasHome start →
      mapDefinition parser entity start owner = .ok next →
        HasHome next ∧ Adds entity (declared owner) start.shape next.shape :=
    fun _ _ _ => mapDefinition_adds
  exact foldlM_composes (fun names start last => Adds entity names start.shape last.shape) declared
    (fun mapping => .nil entity mapping.shape) .append steps begun folded

/-! ## Attributes along a lineage -/

/-- The attributes do not depend on the name of the entity that they are collected for. -/
theorem attributes_rename {name : String} (other : String) {line : List EntityDefinition}
    {collected : List Attribute} (collects : attributes definitions name line = .ok collected) :
    attributes definitions other line = .ok collected := by
  refine foldlM_ok_of (fun start owner next declares => ?_) collects
  refine foldlM_ok_of (fun given label later added => ?_) declares
  exact addAttribute_eq_ok.mpr (addAttribute_eq_ok.mp added)

/-- The attributes are those that the definitions declare, from the top. -/
theorem attributes_names {name : String} {line : List EntityDefinition} {collected : List Attribute}
    (collects : attributes definitions name line = .ok collected) :
    collected.map (·.name) = line.flatMap declared := by
  refine foldlM_appends (List.map (·.name)) (fun start owner next declares => ?_) collects
  rw [declared, List.map_eq_flatMap (l := owner.attributes)]
  refine foldlM_appends (List.map (·.name)) (fun given label later added => ?_) declares
  obtain ⟨_, type, _, rfl⟩ := addAttribute_eq_ok.mp added
  exact List.map_append

/-- The attributes of an entity start with the inherited ones. -/
theorem attributes_prefix {name : String} {above : List EntityDefinition}
    {inherited collected : List Attribute} {other : String}
    (collectsAbove : attributes definitions other above = .ok inherited)
    (collects : attributes definitions name (above ++ [owner]) = .ok collected) :
    inherited <+: collected := by
  obtain ⟨middle, first, declares⟩ := foldlM_snoc_ok.mp collects
  obtain rfl := Except.ok.inj ((attributes_rename name collectsAbove).symm.trans first)
  refine foldlM_keeps (fun given label later begins added => ?_) (List.prefix_refl inherited) declares
  obtain ⟨_, type, _, rfl⟩ := addAttribute_eq_ok.mp added
  exact begins.trans (List.prefix_append _ _)

/-- An inherited attribute is found with the same type. -/
theorem attribute?_of_prefix {upper lower : EntityType} {name : String}
    (inherited : upper.attributes <+: lower.attributes) (known : name ∈ upper.attributes.map (·.name)) :
    lower.attribute? name = upper.attribute? name := by
  obtain ⟨more, whole⟩ := inherited
  obtain ⟨property, listed, rfl⟩ := List.mem_map.mp known
  have found : (upper.attributes.find? (·.name == property.name)).isSome = true :=
    List.find?_isSome.mpr ⟨property, listed, beq_self_eq_true _⟩
  unfold EntityType.attribute? Attribute.typeIn?
  rw [← whole, List.find?_append, Option.or_of_isSome found]

/-! ## Inheriting places -/

/-- Only the attributes an entity declares decide how it is mapped. -/
theorem mapDefinition_congr {other : EntityType} (same : ∀ label ∈ owner.attributes,
    entity.attribute? label.name = other.attribute? label.name) (mapping : Mapping) :
    mapDefinition parser entity mapping owner = mapDefinition parser other mapping owner := by
  have agree : ∀ home first shape,
      owner.attributes.foldlM (mapAttribute entity owner home first) shape =
        owner.attributes.foldlM (mapAttribute other owner home first) shape := by
    intro home first shape
    refine foldlM_congr shape fun label listed given => ?_
    rw [mapAttribute, mapAttribute, same label listed]
  simp only [mapDefinition, agree]

/-- A shape is the mapping of a line of entities with all secondary tables read. -/
theorem tableShape_cases {line : List EntityDefinition} {shape : TableShape}
    (built : tableShape parser definitions entity line = .ok shape) :
    ∃ last, line.foldlM (mapDefinition parser entity) Mapping.start = .ok last ∧ last.shape = shape := by
  obtain ⟨last, folded, built⟩ := except_bind_ok.mp built
  obtain ⟨_, _, same⟩ := except_bind_ok.mp built
  exact ⟨last, folded, Except.ok.inj same⟩

/-- The attributes and tables of one entity are the first of those of another. -/
structure IsContinuedBy (upper lower : MappedEntity) : Prop where
  attributes : upper.entity.attributes <+: lower.entity.attributes
  shape : upper.shape.Continues lower.shape

/-- The last definition of a lineage goes on from where the lineage above it has ended. -/
theorem isContinuedBy_of_describes {parent : EntityDefinition} {above : List EntityDefinition}
    {upper lower : MappedEntity} (describesUpper : Describes parser definitions parent above upper)
    (describes : Describes parser definitions owner (above ++ [owner]) lower) :
    IsContinuedBy upper lower := by
  have inherited := attributes_prefix describesUpper.attributes describes.attributes
  refine ⟨inherited, ?_⟩
  obtain ⟨last, folded, shape⟩ := tableShape_cases describes.shape
  obtain ⟨middle, first, shapeUpper⟩ := tableShape_cases describesUpper.shape
  have agree : above.foldlM (mapDefinition parser lower.entity) Mapping.start =
      above.foldlM (mapDefinition parser upper.entity) Mapping.start := by
    refine foldlM_congr _ fun definition listed mapping => mapDefinition_congr (fun label own => ?_) mapping
    refine attribute?_of_prefix inherited ?_
    rw [attributes_names describesUpper.attributes, List.mem_flatMap]
    exact ⟨definition, listed, List.mem_map_of_mem own⟩
  obtain ⟨ended, begun, mapped⟩ := foldlM_snoc_ok.mp folded
  obtain rfl := Except.ok.inj ((agree.trans first).symm.trans begun)
  rw [← shape, ← shapeUpper]
  exact (mapDefinition_adds (lineage_adds begun).1 mapped).2.continues

/-- The shape of an entity continues that of the entity above it. -/
theorem isContinuedBy_of_extends (accepted : build parser definitions = .ok model)
    {upper lower : MappedEntity} (member : upper ∈ model.entities) (memberLower : lower ∈ model.entities)
    (extended : model.Extends lower.entity upper.entity) : IsContinuedBy upper lower := by
  obtain ⟨definition, _, line, described⟩ := exists_describes accepted memberLower
  obtain ⟨found, known, called, parent, above, describes, rfl⟩ :=
    exists_parent accepted described extended.1
  obtain rfl := mapped_inj accepted known member called
  exact isContinuedBy_of_describes describes described

/-- What holds for the entity that is extended holds for all ancestors. -/
theorem isContinuedBy_of_inherits (accepted : build parser definitions = .ok model)
    {lower : MappedEntity} (memberLower : lower ∈ model.entities) {ancestor : EntityType}
    (inherits : Relation.TransGen model.Extends lower.entity ancestor) :
    ∃ upper ∈ model.entities, upper.entity = ancestor ∧ IsContinuedBy upper lower := by
  induction inherits with
  | single extended =>
    obtain ⟨upper, member, rfl⟩ := extended.2
    exact ⟨upper, member, rfl, isContinuedBy_of_extends accepted member memberLower extended⟩
  | tail _ extended ih =>
    obtain ⟨middle, memberMiddle, rfl, later⟩ := ih
    obtain ⟨upper, member, rfl⟩ := extended.2
    have first := isContinuedBy_of_extends accepted member memberMiddle extended
    exact ⟨upper, member, rfl, first.attributes.trans later.attributes, first.shape.trans later.shape⟩

/-! ## One place for each attribute -/

/-- Every attribute has one column or, if it is a collection, one mapping, and nothing else has any. -/
structure PlacesEachOnce (mapped : MappedEntity) : Prop where
  single : ∀ property ∈ mapped.entity.attributes, property.type.isPlural = false →
    mapped.shape.stored.count property.name = 1 ∧ property.name ∉ mapped.shape.collected ∧
      (mapped.shape.locate? property.name).isSome = true
  plural : ∀ property ∈ mapped.entity.attributes, property.type.isPlural = true →
    mapped.shape.collected.count property.name = 1 ∧ property.name ∉ mapped.shape.stored ∧
      ∃ mapping, mapped.shape.collection? property.name = some mapping ∧
        (property.type.isIndexed = true → mapping.indexColumn.isSome = true)
  only : ∀ name, name ∈ mapped.shape.stored ∨ name ∈ mapped.shape.collected →
    name ∈ mapped.entity.attributes.map (·.name)

/-- The tables of the one entity come first for the other, which finds the attributes and collections
of the one entity where it finds them. -/
structure KeepsPlaces (upper lower : MappedEntity) : Prop where
  inherited : upper.entity.attributes <+: lower.entity.attributes
  tables : upper.shape.tables.map (fun table => (table.name, table.keyColumn)) <+:
    lower.shape.tables.map (fun table => (table.name, table.keyColumn))
  located : ∀ property ∈ upper.entity.attributes,
    lower.shape.locate? property.name = upper.shape.locate? property.name
  collections : ∀ mapping ∈ upper.shape.collections, mapping ∈ lower.shape.collections

/-- What an entity stores are its single attributes, and what it collects its collections. -/
theorem places_perm (accepted : build parser definitions = .ok model) {mapped : MappedEntity}
    (member : mapped ∈ model.entities) :
    IndexesCollections mapped.entity mapped.shape ∧
    mapped.shape.stored.Perm ((mapped.entity.attributes.map (·.name)).filter fun name =>
      !isCollection mapped.entity name) ∧
    mapped.shape.collected.Perm ((mapped.entity.attributes.map (·.name)).filter
      (isCollection mapped.entity)) := by
  obtain ⟨definition, _, line, described⟩ := exists_describes accepted member
  obtain ⟨last, folded, shape⟩ := tableShape_cases described.shape
  have added := (lineage_adds folded).2
  rw [attributes_names described.attributes, ← shape]
  refine ⟨added.indexes ?_, added.stored, added.collected⟩
  intro mapping listed
  cases listed

/-- A listed attribute is found with its type. -/
theorem isCollection_of_mem {entity : EntityType} (once : entity.NamesAttributesOnce)
    {property : Attribute} (listed : property ∈ entity.attributes) :
    entity.attribute? property.name = some property.type ∧
      isCollection entity property.name = property.type.isPlural := by
  have typed : entity.attribute? property.name = some property.type := by
    rw [EntityType.attribute?, Attribute.typeIn?, find?_of_mem Attribute.name once listed]
    rfl
  exact ⟨typed, by rw [isCollection, typed]; rfl⟩

/-- Every attribute of an accepted model has exactly one place.

Proof: the lineage of the entity adds each declared attribute once, and the names of attributes are
distinct. -/
theorem placesEachOnce (accepted : build parser definitions = .ok model) {mapped : MappedEntity}
    (member : mapped ∈ model.entities) : PlacesEachOnce mapped := by
  have once : mapped.entity.NamesAttributesOnce := (build_ok accepted).2 mapped member
  obtain ⟨indexes, stored, collected⟩ := places_perm accepted member
  have counted {names : List String} {kept : String → Bool} {name : String}
      (perm : names.Perm ((mapped.entity.attributes.map (·.name)).filter kept))
      (listed : name ∈ mapped.entity.attributes.map (·.name)) (keeps : kept name = true) :
      names.count name = 1 := by
    rw [perm.count_eq, List.count_filter keeps, List.count_eq_one_of_mem once listed]
  refine ⟨fun property listed single => ?_, fun property listed plural => ?_, ?_⟩
  · have column := (isCollection_of_mem once listed).2.trans single
    have one := counted stored (List.mem_map_of_mem listed) (by simp [column])
    refine ⟨one, fun among => ?_, ?_⟩
    · have kept := (List.mem_filter.mp (collected.subset among)).2
      rw [column] at kept
      cases kept
    · obtain ⟨position, table, column, there, inside, labelled⟩ := TableShape.exists_of_mem_stored
        (List.count_pos_iff.mp (one.symm ▸ Nat.one_pos))
      have distinct : mapped.shape.stored.Nodup := stored.nodup_iff.mpr (once.filter _)
      rw [← labelled, TableShape.locate?_of_mem distinct there inside]
      rfl
  · obtain ⟨typed, same⟩ := isCollection_of_mem once listed
    have collection := same.trans plural
    have one := counted collected (List.mem_map_of_mem listed) collection
    refine ⟨one, fun among => ?_, ?_⟩
    · have kept := (List.mem_filter.mp (stored.subset among)).2
      rw [collection] at kept
      cases kept
    · obtain ⟨mapping, among, labelled⟩ := List.mem_map.mp
        (List.count_pos_iff.mp (one.symm ▸ Nat.one_pos))
      have distinct : mapped.shape.collected.Nodup := collected.nodup_iff.mpr (once.filter _)
      refine ⟨mapping, ?_, fun indexed => indexes mapping among property.type ?_ indexed⟩
      · rw [TableShape.collection?, ← labelled]
        exact find?_of_mem CollectionMapping.label distinct among
      · rw [labelled, typed]
  · rintro name (among | among)
    · exact (List.mem_filter.mp (stored.subset among)).1
    · exact (List.mem_filter.mp (collected.subset among)).1

/-- An entity keeps the places of the attributes it inherits. -/
theorem keepsPlaces (accepted : build parser definitions = .ok model) {upper lower : MappedEntity}
    (member : upper ∈ model.entities) (memberLower : lower ∈ model.entities)
    (inherits : Relation.TransGen model.Extends lower.entity upper.entity) :
    KeepsPlaces upper lower := by
  obtain ⟨found, known, same, continued⟩ := isContinuedBy_of_inherits accepted memberLower inherits
  obtain rfl := mapped_inj accepted known member (congrArg EntityType.name same)
  have distinct {mapped : MappedEntity} (member : mapped ∈ model.entities) :
      mapped.shape.stored.Nodup :=
    (places_perm accepted member).2.1.nodup_iff.mpr
      (((build_ok accepted).2 mapped member).filter _)
  refine ⟨continued.attributes, continued.shape.heads, fun property listed => ?_,
    fun mapping among => continued.shape.collections.subset among⟩
  cases plural : property.type.isPlural with
  | false =>
    have one := ((placesEachOnce accepted member).single property listed plural).1
    exact continued.shape.locate? (distinct member) (distinct memberLower)
      (List.count_pos_iff.mp (one.symm ▸ Nat.one_pos))
  | true =>
    -- A collection has no column in either.
    have absent := ((placesEachOnce accepted member).plural property listed plural).2.1
    have absentLower := ((placesEachOnce accepted memberLower).plural property
      (continued.attributes.subset listed) plural).2.1
    rw [TableShape.locate?_eq_none absent, TableShape.locate?_eq_none absentLower]

/-- The attributes of an entity are those that its lineage declares, each once. Each has one place,
which is that where every ancestor that has the attribute finds it. -/
theorem attributes_are_placed (accepted : build parser definitions = .ok model)
    {mapped : MappedEntity} (member : mapped ∈ model.entities) :
    mapped.entity.NamesAttributesOnce ∧
    (∃ definition ∈ definitions, definition.name = mapped.entity.name ∧
      ∃ line, Lineage definitions definition line ∧
        mapped.entity.attributes.map (·.name) = line.flatMap declared) ∧
    PlacesEachOnce mapped ∧
    ∀ upper ∈ model.entities, Relation.TransGen model.Extends mapped.entity upper.entity →
      KeepsPlaces upper mapped := by
  refine ⟨(build_ok accepted).2 mapped member, ?_, placesEachOnce accepted member,
    fun upper listed inherits => keepsPlaces accepted listed member inherits⟩
  obtain ⟨definition, listed, line, described⟩ := exists_describes accepted member
  exact ⟨definition, listed, described.name.symm, line, described.lineage,
    attributes_names described.attributes⟩

/-- Managers have no table of their own. Persons keep their e-mail apart and employees their salary. -/
def staff : List EntityDefinition := [
  { name := "Manager", superType := some "Employee"
    attributes := [⟨"reports", "list<Employee>", none, some "manager_id", some "rank"⟩,
      ⟨"bonus", "decimal", none, none, none⟩] },
  { name := "Employee", superType := some "Person", table := some "employees", keyColumn := "person_id"
    attributes := [⟨"manager", "Manager", none, none, none⟩, ⟨"salary", "decimal", none, none, none⟩]
    secondaryTables := [⟨"salaries", "employee_id", ["salary"], true⟩] },
  { name := "Person", table := some "people"
    attributes := [⟨"id", "long", none, none, none⟩, ⟨"email", "string", some "address", none, none⟩]
    secondaryTables := [⟨"contacts", "person_id", ["email"], false⟩] }]

/-- Whether the definitions make a model in which the first entity inherits from the second and has
the attribute at the place. -/
def inheritsPlace (definitions : List EntityDefinition) (lower upper label : String)
    (place : Nat × String) : Bool :=
  match ofDefinitions definitions with
  | .error _ => false
  | .ok model => (model.mapped? lower).any fun mapped =>
      (model.superTypes mapped.entity).contains upper && mapped.shape.locate? label == some place

/-- The check on a model finds the attribute in one place above and below. -/
theorem exists_of_inheritsPlace {lower upper label : String} {place : Nat × String}
    (passed : inheritsPlace definitions lower upper label place = true) :
    ∃ model, ofDefinitions definitions = .ok model ∧ ∃ mapped ∈ model.entities,
      mapped.entity.name = lower ∧ mapped.shape.locate? label = some place ∧
      ∃ above ∈ model.entities, above.entity.name = upper ∧
        Relation.TransGen model.Extends mapped.entity above.entity := by
  unfold inheritsPlace at passed
  split at passed
  · cases passed
  · rename_i model accepted
    obtain ⟨mapped, found, checked⟩ := (Option.any_eq_true _ _).mp passed
    have member := List.mem_of_find?_eq_some found
    obtain ⟨inherits, located⟩ := Bool.and_eq_true_iff.mp checked
    obtain ⟨ancestor, inherits, named⟩ :=
      (mem_superTypes accepted member).mp (List.contains_iff_mem.mp inherits)
    obtain ⟨above, listed, rfl, _⟩ := isContinuedBy_of_inherits accepted member inherits
    exact ⟨model, accepted, mapped, member, by simpa using List.find?_some found,
      beq_iff_eq.mp located, above, listed, named, inherits⟩

/-- A manager has the place of the e-mail address of a person. -/
theorem attributes_are_placed_staff : ∃ model, ofDefinitions staff = .ok model ∧
    ∃ manager ∈ model.entities, ∃ person ∈ model.entities,
      manager.entity.name = "Manager" ∧ person.entity.name = "Person" ∧
      PlacesEachOnce manager ∧ KeepsPlaces person manager ∧
      manager.shape.locate? "email" = some (1, "address") := by
  have checked : inheritsPlace staff "Manager" "Person" "email" (1, "address") = true := by
    decide +kernel
  obtain ⟨model, accepted, manager, member, named, located, person, listed, called, inherits⟩ :=
    exists_of_inheritsPlace checked
  obtain ⟨_, _, placed, kept⟩ := attributes_are_placed accepted member
  exact ⟨model, accepted, manager, member, person, listed, named, called, placed,
    kept person listed inherits, located⟩

end Model
end ObjectQuery

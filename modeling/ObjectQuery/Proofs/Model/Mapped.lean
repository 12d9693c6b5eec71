import ObjectQuery.Proofs.Model.Collections
/-!
# What an accepted model maps

In an accepted model every entity has a root table, every attribute that is no collection has a
column in one of its tables, every collection has a mapping, and nothing but a collection has one.
Attributes that name entities name entities of the model. These are all the questions that the
lowering of a statement puts to a catalog, so a catalog with these answers never leaves it without
one.
-/
namespace ObjectQuery

/-- One of the tables has a column for the attribute. -/
def TableShape.Stores (shape : TableShape) (label : String) : Prop :=
  ∃ table ∈ shape.tables, ∃ column ∈ table.columns, column.label = label

/-- The tables answer for an attribute of the type: with a column, or with a mapping if it is a
collection. -/
def TableShape.Answers (shape : TableShape) (label : String) (type : DataType) : Prop :=
  if type.isPlural then (shape.collection? label).isSome = true else shape.Stores label

/-- Everything that can be asked about an entity or an attribute has an answer. -/
structure Catalog.IsMapped (catalog : Catalog) : Prop where
  /-- A name that stands for one entity stands for one that answers to its own name. -/
  known : ∀ ⦃name entity⦄, catalog.resolve? name = some (.concrete entity) →
    catalog.entity? entity.name = some entity
  /-- So does each of several entities that a name stands for. -/
  implementor : ∀ ⦃name shared implementors entity⦄,
    catalog.resolve? name = some (.polymorphic shared implementors) → entity ∈ implementors →
      catalog.entity? entity.name = some entity
  /-- An entity has a root table. -/
  rooted : ∀ ⦃name entity⦄, catalog.entity? name = some entity →
    ∃ shape table, catalog.shape? name = some shape ∧ shape.root? = some table
  /-- The tables of an entity answer for each of its attributes. -/
  answered : ∀ ⦃name entity shape label type⦄, catalog.entity? name = some entity →
    catalog.shape? name = some shape → entity.attribute? label = some type →
      shape.Answers label type
  /-- Only collections are mapped as such. -/
  collected : ∀ ⦃name entity shape label mapping type⦄, catalog.entity? name = some entity →
    catalog.shape? name = some shape → shape.collection? label = some mapping →
      entity.attribute? label = some type → type.isPlural = true
  /-- What a to-one association or the elements of a collection name is one entity. -/
  linked : ∀ ⦃name entity label type target⦄, catalog.entity? name = some entity →
    entity.attribute? label = some type →
      (type.entity? = some target ∨ type.element?.bind DataType.entity? = some target) →
        ∃ found, catalog.entity? target = some found ∧
          catalog.resolve? target = some (.concrete found)
  /-- The elements of a collection are entities. -/
  gathered : ∀ ⦃name entity label type⦄, catalog.entity? name = some entity →
    entity.attribute? label = some type → type.isPlural = true →
      (type.element?.bind DataType.entity?).isSome = true

/-- What a fold makes of each item and does not undo is there in the end. -/
theorem foldlM_covers {α β ε : Type} {step : β → α → Except ε β} {holds : β → Prop}
    (covers : α → β → Prop)
    (keeps : ∀ start item next, holds start → step start item = .ok next → holds next)
    (makes : ∀ start item next, holds start → step start item = .ok next → covers item next)
    (leaves : ∀ start item next other, step start item = .ok next → covers other start →
      covers other next) :
    ∀ {items : List α} {start last : β}, holds start → items.foldlM step start = .ok last →
      (∀ item ∈ items, covers item last) ∧ ∀ item, covers item start → covers item last
  | [], start, last, begun, folded => by
    obtain rfl := Except.ok.inj folded
    exact ⟨by simp, fun _ => id⟩
  | item :: rest, start, last, begun, folded => by
    rw [List.foldlM_cons, except_bind_ok] at folded
    obtain ⟨next, stepped, remaining⟩ := folded
    obtain ⟨others, kept⟩ := foldlM_covers covers keeps makes leaves
      (keeps start item next begun stepped) remaining
    refine ⟨List.forall_mem_cons.mpr ⟨?_, others⟩, fun other covered => ?_⟩
    · exact kept item (makes start item next begun stepped)
    · exact kept other (leaves start item next other stepped covered)

namespace Model

variable {parser : SqlParser} {definitions : List EntityDefinition} {model : Model}
  {entity : EntityType} {owner : EntityDefinition}

/-! ## Tables -/

/-- A further column stores its attribute and leaves the others stored. -/
theorem stores_addColumn {tables : List MappedTable} {collections : List CollectionMapping}
    {position : Nat} {column : MappedColumn} {label : String}
    (stored : TableShape.Stores ⟨tables, collections⟩ label ∨
      column.label = label ∧ position < tables.length) :
    TableShape.Stores ⟨addColumn tables position column, collections⟩ label := by
  rcases stored with ⟨table, listed, found, inside, named⟩ | ⟨named, short⟩
  · obtain ⟨place, known⟩ := List.getElem?_of_mem listed
    have changed : (addColumn tables position column)[place]? =
        some (if position = place then { table with columns := table.columns ++ [column] }
          else table) := by
      simp only [addColumn, List.getElem?_modify, known, Option.map_eq_map, Option.map_some]
    refine ⟨_, List.mem_of_getElem? changed, found, ?_, named⟩
    split
    · exact List.mem_append_left _ inside
    · exact inside
  · refine ⟨{ tables[position] with columns := tables[position].columns ++ [column] },
      List.mem_of_getElem? (i := position) ?_, column, by simp, named⟩
    simp [addColumn, short]

/-- A further column adds no table. -/
theorem length_addColumn {tables : List MappedTable} {position : Nat} {column : MappedColumn} :
    (addColumn tables position column).length = tables.length := by
  simp [addColumn]

/-- A listed name goes to one of the tables. -/
theorem listedAt?_lt {tables : List SecondaryTableDefinition} {start position : Nat} {name : String}
    (listed : listedAt? tables start name = some position) : position < start + tables.length := by
  unfold listedAt? at listed
  obtain ⟨⟨table, place⟩, member, found⟩ := List.exists_of_findSome?_eq_some listed
  have inside := List.snd_lt_add_of_mem_zipIdx (List.mem_reverse.mp member)
  simp only at found
  split at found
  · obtain rfl := Option.some.inj found
    omega
  · cases found

/-- Only collections are mapped as such. -/
def CollectsPlurals (entity : EntityType) (shape : TableShape) : Prop :=
  ∀ mapping ∈ shape.collections, ∀ type, entity.attribute? mapping.label = some type →
    type.isPlural = true

/-- The tables answer for the attribute, whatever type the entity gives it. -/
def AnswersFor (entity : EntityType) (shape : TableShape) (label : String) : Prop :=
  ∀ type, entity.attribute? label = some type → shape.Answers label type

/-- A collection is mapped under the name of its attribute. -/
theorem collectionMapping_label {name : String} {label : AttributeDefinition} {type : DataType}
    {mapping : CollectionMapping} (built : collectionMapping name label type = .ok mapping) :
    mapping.label = label.name := by
  unfold collectionMapping at built
  split at built
  · split at built
    · cases built
    · obtain rfl := Except.ok.inj built
      rfl
  · cases built

/-- A collection that is found is found with one more behind it. -/
theorem collection?_append {tables : List MappedTable} {collections : List CollectionMapping}
    {mapping : CollectionMapping} {label : String}
    (found : (TableShape.collection? ⟨tables, collections⟩ label).isSome ∨ mapping.label = label) :
    (TableShape.collection? ⟨tables, collections ++ [mapping]⟩ label).isSome := by
  simp only [TableShape.collection?, List.find?_append, Option.isSome_or, Bool.or_eq_true] at found ⊢
  refine found.imp_right fun named => ?_
  simp [named]

/-- Mapping an attribute answers for it, takes no answer back, and adds no table.

Proof: an attribute becomes a collection mapping or a column. Neither replaces what is there, so
earlier answers stay. -/
theorem mapAttribute_ok {home firstSecondary : Nat} {shape next : TableShape}
    {label : AttributeDefinition}
    (mapped : mapAttribute entity owner home firstSecondary shape label = .ok next) :
    next.tables.length = shape.tables.length ∧
      (CollectsPlurals entity shape → CollectsPlurals entity next) ∧
      (∀ other, AnswersFor entity shape other → AnswersFor entity next other) ∧
      (home < shape.tables.length →
        firstSecondary + owner.secondaryTables.length ≤ shape.tables.length →
          AnswersFor entity next label.name) := by
  unfold mapAttribute at mapped
  split at mapped
  · rename_i type typed
    split at mapped
    · rename_i plural
      obtain ⟨mapping, built, same⟩ := except_bind_ok.mp mapped
      obtain rfl := Except.ok.inj same
      have named := collectionMapping_label built
      refine ⟨rfl, fun collects => ?_, fun other answers given known => ?_, fun _ _ given known => ?_⟩
      · refine List.forall_mem_append.mpr ⟨collects, List.forall_mem_singleton.mpr ?_⟩
        intro given known
        rw [named, typed] at known
        obtain rfl := Option.some.inj known
        exact plural
      · have answered := answers given known
        unfold TableShape.Answers at answered ⊢
        split
        · rename_i many
          rw [if_pos many] at answered
          exact collection?_append (Or.inl answered)
        · rename_i single
          rw [if_neg single] at answered
          exact answered
      · obtain rfl := Option.some.inj (typed.symm.trans known)
        rw [TableShape.Answers, if_pos plural]
        exact collection?_append (Or.inr named)
    · rename_i single
      obtain rfl := Except.ok.inj mapped
      refine ⟨length_addColumn, fun collects => collects, fun other answers given known => ?_,
        fun short fits given known => ?_⟩
      · have answered := answers given known
        unfold TableShape.Answers at answered ⊢
        split
        · rename_i many
          rw [if_pos many] at answered
          exact answered
        · rename_i single
          rw [if_neg single] at answered
          exact stores_addColumn (Or.inl answered)
      · obtain rfl := Option.some.inj (typed.symm.trans known)
        rw [TableShape.Answers, if_neg single]
        refine stores_addColumn (Or.inr ⟨rfl, ?_⟩)
        cases listed : listedAt? owner.secondaryTables firstSecondary label.name with
        | none => exact short
        | some position => exact Nat.lt_of_lt_of_le (listedAt?_lt listed) fits
  · cases mapped

/-! ## Definitions -/

/-- A shape in the making: only collections are mapped as such, and the table for further attributes
is there. -/
structure IsSteady (entity : EntityType) (mapping : Mapping) : Prop where
  collects : CollectsPlurals entity mapping.shape
  home : ∀ position ∈ mapping.home, position < mapping.shape.tables.length

/-- A shape that answers for an attribute does so with more tables. -/
theorem answersFor_moreTables {tables more : List MappedTable}
    {collections : List CollectionMapping} {label : String}
    (answers : AnswersFor entity ⟨tables, collections⟩ label) :
    AnswersFor entity ⟨tables ++ more, collections⟩ label := by
  intro type typed
  have answered := answers type typed
  unfold TableShape.Answers at answered ⊢
  split
  · rename_i many
    rw [if_pos many] at answered
    exact answered
  · rename_i single
    rw [if_neg single] at answered
    obtain ⟨table, listed, found⟩ := answered
    exact ⟨table, List.mem_append_left _ listed, found⟩

/-- The table that a definition opens for the attributes that it lists. -/
def openedTable (table : SecondaryTableDefinition) : MappedTable :=
  ⟨table.name, table.keyColumn, [], table.optional, false⟩

/-- A definition of a chain adds its own tables, its root table first if it has one, all without
columns, and then maps its attributes. -/
theorem mapDefinition_cases {mapping next : Mapping}
    (mapped : mapDefinition parser entity mapping owner = .ok next) :
    ∃ tables position, next.home = some position ∧
      (tables = mapping.shape.tables ∧ mapping.home = some position ∨
        ∃ own, tables = mapping.shape.tables ++ [own] ∧ position = mapping.shape.tables.length ∧
          own.columns = []) ∧
      owner.attributes.foldlM (mapAttribute entity owner position tables.length)
        { mapping.shape with tables := tables ++ owner.secondaryTables.map openedTable } =
          .ok next.shape := by
  unfold mapDefinition at mapped
  simp only at mapped
  split at mapped
  · obtain ⟨_, _, mapped⟩ := except_bind_ok.mp mapped
    simp only [pure_bind] at mapped
    obtain ⟨_, _, mapped⟩ := except_bind_ok.mp mapped
    obtain ⟨shape, folded, same⟩ := except_bind_ok.mp mapped
    obtain rfl := Except.ok.inj same
    exact ⟨_, _, rfl, Or.inr ⟨_, rfl, rfl, rfl⟩, folded⟩
  · simp only [pure_bind] at mapped
    split at mapped
    · rename_i position home
      obtain ⟨_, _, mapped⟩ := except_bind_ok.mp mapped
      obtain ⟨shape, folded, same⟩ := except_bind_ok.mp mapped
      obtain rfl := Except.ok.inj same
      exact ⟨_, _, home, Or.inl ⟨rfl, home⟩, folded⟩
    · cases mapped

/-- One definition of a chain answers for its own attributes and takes no answer back.

Proof: opening tables only adds some at the end, and then the attributes are mapped one by one. -/
theorem mapDefinition_ok {mapping next : Mapping}
    (mapped : mapDefinition parser entity mapping owner = .ok next) :
    next.home.isSome = true ∧
      (∀ label, AnswersFor entity mapping.shape label → AnswersFor entity next.shape label) ∧
      (IsSteady entity mapping → IsSteady entity next ∧
        ∀ label ∈ owner.attributes, AnswersFor entity next.shape label.name) := by
  obtain ⟨tables, position, home, opened, folded⟩ := mapDefinition_cases mapped
  have extended : ∃ more, tables = mapping.shape.tables ++ more := by
    rcases opened with ⟨rfl, _⟩ | ⟨own, rfl, _⟩
    · exact ⟨[], by simp⟩
    · exact ⟨[own], rfl⟩
  refine ⟨by simp [home], fun label answers => ?_, fun steady => ?_⟩
  · refine foldlM_keeps (fun start item next answers stepped =>
      (mapAttribute_ok stepped).2.2.1 label answers) ?_ folded
    obtain ⟨more, rfl⟩ := extended
    rw [List.append_assoc]
    exact answersFor_moreTables answers
  · have short : position < tables.length := by
      rcases opened with ⟨rfl, known⟩ | ⟨own, rfl, rfl, _⟩
      · exact steady.home position known
      · simp
    have steps : ∀ (start : TableShape) (item : AttributeDefinition) (next : TableShape),
        CollectsPlurals entity start ∧
            start.tables.length = tables.length + owner.secondaryTables.length →
          mapAttribute entity owner position tables.length start item = .ok next →
            CollectsPlurals entity next ∧
              next.tables.length = tables.length + owner.secondaryTables.length := by
      intro start item next holds stepped
      obtain ⟨length, collects, _⟩ := mapAttribute_ok stepped
      exact ⟨collects holds.1, length.trans holds.2⟩
    have begun : CollectsPlurals entity
          { mapping.shape with tables := tables ++ owner.secondaryTables.map openedTable } ∧
        (tables ++ owner.secondaryTables.map openedTable).length =
          tables.length + owner.secondaryTables.length :=
      ⟨steady.collects, by simp⟩
    obtain ⟨collects, length⟩ := foldlM_keeps steps begun folded
    refine ⟨⟨collects, ?_⟩, ?_⟩
    · intro given same
      obtain rfl := Option.some.inj (home.symm.trans same)
      omega
    · refine (foldlM_covers
        (fun (label : AttributeDefinition) shape => AnswersFor entity shape label.name)
        steps ?_ ?_ begun folded).1
      · intro start item next holds stepped
        exact (mapAttribute_ok stepped).2.2.2 (by omega) (by omega)
      · intro start item next other stepped answers
        exact (mapAttribute_ok stepped).2.2.1 other.name answers

/-- The tables of an entity answer for all attributes of its chain. -/
theorem tableShape_ok {chain : List EntityDefinition} {shape : TableShape} (given : chain ≠ [])
    (built : tableShape parser definitions entity chain = .ok shape) :
    (∃ table, shape.root? = some table) ∧ CollectsPlurals entity shape ∧
      ∀ owner ∈ chain, ∀ label ∈ owner.attributes, AnswersFor entity shape label.name := by
  unfold tableShape at built
  obtain ⟨mapping, folded, built⟩ := except_bind_ok.mp built
  obtain ⟨_, _, same⟩ := except_bind_ok.mp built
  obtain rfl := Except.ok.inj same
  have begun : IsSteady entity ⟨⟨[], []⟩, none⟩ := ⟨by simp [CollectsPlurals], by simp⟩
  have keeps : ∀ (start : Mapping) (owner : EntityDefinition) (next : Mapping),
      IsSteady entity start → mapDefinition parser entity start owner = .ok next →
        IsSteady entity next :=
    fun start owner next steady stepped => ((mapDefinition_ok stepped).2.2 steady).1
  obtain ⟨answers, _⟩ := foldlM_covers (fun (owner : EntityDefinition) mapping =>
      mapping.home.isSome = true ∧
        ∀ label ∈ owner.attributes, AnswersFor entity mapping.shape label.name) keeps
    (fun start owner next steady stepped =>
      ⟨(mapDefinition_ok stepped).1, ((mapDefinition_ok stepped).2.2 steady).2⟩)
    (fun start owner next other stepped covered => ⟨(mapDefinition_ok stepped).1,
      fun label listed => (mapDefinition_ok stepped).2.1 _ (covered.2 label listed)⟩) begun folded
  have steady := foldlM_keeps keeps begun folded
  refine ⟨?_, steady.collects, fun owner listed => (answers owner listed).2⟩
  obtain ⟨owner, listed⟩ := List.exists_mem_of_ne_nil _ given
  obtain ⟨position, home⟩ := Option.isSome_iff_exists.mp (answers owner listed).1
  have short := steady.home position home
  exact ⟨_, List.head?_eq_some_head (List.ne_nil_of_length_pos (Nat.zero_lt_of_lt short))⟩

/-! ## Entities -/

/-- The entity that the type names, be it for the elements of a collection, has a definition, and the
elements of a collection are entities. -/
structure IsLinked (definitions : List EntityDefinition) (type : DataType) : Prop where
  defined : ∀ target, type.entity? = some target ∨ type.element?.bind DataType.entity? = some target →
    (definition? definitions target).isSome = true
  gathers : type.isPlural = true → (type.element?.bind DataType.entity?).isSome = true

/-- The type of an attribute links to an entity of the definitions. -/
theorem attributeType_linked {name : String} {label : AttributeDefinition} {type : DataType}
    (typed : attributeType definitions name label = .ok type) : IsLinked definitions type := by
  unfold attributeType at typed
  split at typed
  · split at typed
    · obtain rfl := Except.ok.inj typed
      refine ⟨?_, by simp [DataType.isPlural]⟩
      rintro target (named | named) <;> cases named
    · cases typed
    all_goals
      split at typed
      · rename_i known
        obtain rfl := Except.ok.inj typed
        refine ⟨?_, by simp [DataType.isPlural, DataType.element?, DataType.entity?]⟩
        rintro target (named | named) <;> cases named
        exact known
      · cases typed
  · cases typed

/-- The attributes are those that were there and linked ones with the names of the labels. -/
def LinksMore (definitions : List EntityDefinition) (labels : List AttributeDefinition)
    (start last : List Attribute) : Prop :=
  ∀ property ∈ last, property ∈ start ∨ IsLinked definitions property.type ∧
    ∃ label ∈ labels, label.name = property.name

/-- Nothing is added for no labels. -/
theorem LinksMore.refl (start : List Attribute) : LinksMore definitions [] start start :=
  fun _ listed => Or.inl listed

/-- Attributes may be added in two lists. -/
theorem LinksMore.append {labels others : List AttributeDefinition} {start middle last : List Attribute}
    (first : LinksMore definitions labels start middle)
    (second : LinksMore definitions others middle last) :
    LinksMore definitions (labels ++ others) start last := by
  intro property listed
  rcases second property listed with early | ⟨linked, label, member, named⟩
  · rcases first property early with before | ⟨linked, label, member, named⟩
    · exact Or.inl before
    · exact Or.inr ⟨linked, label, List.mem_append_left _ member, named⟩
  · exact Or.inr ⟨linked, label, List.mem_append_right _ member, named⟩

/-- An attribute that is added is linked and has the name of its label. -/
theorem addAttribute_linksMore {name under : String} {label : AttributeDefinition}
    {start next : List Attribute}
    (added : addAttribute definitions name under start label = .ok next) :
    LinksMore definitions [label] start next := by
  obtain ⟨_, type, typed, rfl⟩ := addAttribute_eq_ok.mp added
  intro property listed
  rcases List.mem_append.mp listed with before | single
  · exact Or.inl before
  · obtain rfl := List.mem_singleton.mp single
    exact Or.inr ⟨attributeType_linked typed, label, List.mem_cons_self, rfl⟩

/-- Every attribute of an entity is declared by a definition of its chain, and names entities that
have a definition. -/
theorem attributes_ok {name : String} {chain : List EntityDefinition} {collected : List Attribute}
    (collects : attributes definitions name chain = .ok collected) :
    ∀ property ∈ collected, IsLinked definitions property.type ∧
      ∃ owner ∈ chain, ∃ label ∈ owner.attributes, label.name = property.name := by
  have owners : ∀ (start : List Attribute) (owner : EntityDefinition) (next : List Attribute), True →
      owner.attributes.foldlM (addAttribute definitions name owner.name) start = .ok next →
        True ∧ LinksMore definitions owner.attributes start next := by
    intro start owner next _ extended
    have labels : ∀ (start : List Attribute) (label : AttributeDefinition) (next : List Attribute),
        True → addAttribute definitions name owner.name start label = .ok next →
          True ∧ LinksMore definitions [label] start next :=
      fun _ _ _ _ added => ⟨trivial, addAttribute_linksMore added⟩
    simpa using foldlM_composes (LinksMore definitions) (fun label => [label]) .refl .append labels
      trivial extended
  intro property listed
  obtain ⟨_, more⟩ := foldlM_composes (LinksMore definitions) EntityDefinition.attributes .refl .append
    owners trivial collects
  rcases more property listed with none | ⟨linked, label, member, named⟩
  · cases none
  · obtain ⟨owner, above, declared⟩ := List.mem_flatMap.mp member
    exact ⟨linked, owner, above, label, declared, named⟩

/-- The line of an entity holds the entity itself. -/
theorem chain_ne_nil {definition : EntityDefinition} {found : List EntityDefinition}
    (led : chain definitions definition = .ok found) : found ≠ [] := by
  unfold chain at led
  obtain ⟨ancestry, walked, rfl⟩ := except_map_ok.mp led
  rw [ne_eq, List.reverse_eq_nil_iff]
  cases length : definitions.length with
  | zero =>
    rw [length] at walked
    cases walked
  | succ fuel =>
    rw [length, ancestryWithin] at walked
    split at walked
    · obtain rfl := Except.ok.inj walked
      simp
    · split at walked
      · cases walked
      · split at walked
        · cases walked
        · obtain ⟨rest, _, rfl⟩ := except_map_ok.mp walked
          simp

/-- An entity of a model with its tables: there is a root table, the tables answer for the attributes,
and the attributes name entities that have a definition. -/
structure IsComplete (definitions : List EntityDefinition) (mapped : MappedEntity) : Prop where
  rooted : ∃ table, mapped.shape.root? = some table
  collects : CollectsPlurals mapped.entity mapped.shape
  answers : ∀ label, AnswersFor mapped.entity mapped.shape label
  linked : ∀ property ∈ mapped.entity.attributes, IsLinked definitions property.type

/-- A mapped entity is complete. -/
theorem mappedEntity_complete {definition : EntityDefinition} {mapped : MappedEntity}
    (built : mappedEntity parser definitions definition = .ok mapped) : IsComplete definitions mapped := by
  unfold mappedEntity at built
  obtain ⟨chain, led, built⟩ := except_bind_ok.mp built
  obtain ⟨entity, described, built⟩ := except_bind_ok.mp built
  obtain ⟨shape, shaped, same⟩ := except_bind_ok.mp built
  obtain rfl := Except.ok.inj same
  obtain ⟨rooted, collects, answers⟩ := tableShape_ok (chain_ne_nil led) shaped
  unfold entityType at described
  obtain ⟨collected, collected_ok, same⟩ := except_bind_ok.mp described
  obtain rfl := Except.ok.inj same
  have declared := attributes_ok collected_ok
  refine ⟨rooted, collects, fun label type typed => ?_, fun property listed =>
    (declared property listed).1⟩
  obtain ⟨property, listed, rfl, rfl⟩ := mem_of_typeIn? typed
  obtain ⟨_, owner, member, label, inside, named⟩ := declared property listed
  rw [← named] at typed ⊢
  exact answers owner member label inside _ typed

/-- Every entity of an accepted model is complete. -/
theorem build_complete (accepted : build parser definitions = .ok model) :
    ∀ mapped ∈ model.entities, IsComplete definitions mapped := by
  unfold build at accepted
  split at accepted
  · cases accepted
  · have keeps : ∀ (start : Model) (definition : EntityDefinition) (next : Model),
        (∀ mapped ∈ start.entities, IsComplete definitions mapped) →
          addEntity parser definitions start definition = .ok next →
            ∀ mapped ∈ next.entities, IsComplete definitions mapped := by
      intro start definition next complete added
      obtain ⟨mapped, built, entities⟩ := addEntity_ok added
      rw [entities, List.forall_mem_append, List.forall_mem_singleton]
      exact ⟨complete, mappedEntity_complete built⟩
    exact foldlM_keeps keeps (by simp) accepted

/-- An entity of an accepted model is found by its name. -/
theorem entity?_of_mem (accepted : build parser definitions = .ok model) {mapped : MappedEntity}
    (member : mapped ∈ model.entities) :
    model.entity? mapped.entity.name = some mapped.entity := by
  have found : model.mapped? mapped.entity.name = some mapped :=
    find?_of_mem (fun known : MappedEntity => known.entity.name) (build_ok accepted).1 member
  simp [entity?, found]

/-- A concrete entity that is resolved is one of the model. -/
theorem mem_of_concrete {name : String} {entity : EntityType}
    (resolved : model.resolve? name = some (.concrete entity)) :
    ∃ mapped ∈ model.entities, mapped.entity = entity := by
  unfold resolve? at resolved
  split at resolved
  · rename_i found
    obtain rfl := EntityReference.concrete.inj (Option.some.inj resolved)
    exact mem_of_lookup? found
  · split at resolved
    · cases resolved
    · rename_i single only
      obtain rfl := EntityReference.concrete.inj (Option.some.inj resolved)
      have root : single ∈ model.rootImplementors name := by simp [only]
      have implementing := (List.mem_filter.mp root).1
      simpa using (List.mem_filter.mp implementing).1
    · cases resolved

/-- Entities and definitions have the same names. -/
theorem names_of_build (accepted : build parser definitions = .ok model) :
    model.entities.map (·.entity.name) = definitions.map (·.name) := by
  unfold build at accepted
  split at accepted
  · cases accepted
  · obtain ⟨added, rest, names, _⟩ := addEntities_ok accepted
    rw [List.nil_append] at rest
    rw [rest, names]

/-- What has a definition is one entity of the model. -/
theorem entity?_of_definition? (accepted : build parser definitions = .ok model) {name : String}
    (defined : (definition? definitions name).isSome = true) :
    ∃ entity, model.entity? name = some entity ∧
      model.resolve? name = some (.concrete entity) := by
  obtain ⟨definition, found⟩ := Option.isSome_iff_exists.mp defined
  have named : definition.name = name := by simpa using List.find?_some found
  have listed : name ∈ model.entities.map (·.entity.name) := by
    rw [names_of_build accepted, ← named]
    exact List.mem_map_of_mem (List.mem_of_find?_eq_some found)
  obtain ⟨mapped, member, rfl⟩ := List.mem_map.mp listed
  exact ⟨mapped.entity, entity?_of_mem accepted member, resolve?_of_mem accepted member⟩

/-- An accepted model leaves no question about its entities and attributes open. -/
theorem catalog_isMapped (accepted : build parser definitions = .ok model) :
    model.catalog.IsMapped := by
  have complete := build_complete accepted
  have entity {name : String} {entity : EntityType} (found : model.entity? name = some entity) :
      ∃ mapped ∈ model.entities, mapped.entity = entity ∧ model.shape? name = some mapped.shape := by
    obtain ⟨mapped, known, rfl⟩ := Option.map_eq_some_iff.mp found
    exact ⟨mapped, List.mem_of_find?_eq_some known, rfl, by rw [shape?, known]; rfl⟩
  refine ⟨fun name found resolved => ?_, fun name shared implementors found several member => ?_,
    fun name found known => ?_, fun name found shape label type known shaped typed => ?_,
    fun name found shape label mapping type known shaped listed typed => ?_,
    fun name found label type target known typed named => ?_,
    fun name found label type known typed plural => ?_⟩
  · obtain ⟨mapped, listed, rfl⟩ := mem_of_concrete resolved
    exact entity?_of_mem accepted listed
  · obtain ⟨mapped, listed, rfl⟩ := mem_of_polymorphic several member
    exact entity?_of_mem accepted listed
  · obtain ⟨mapped, listed, rfl, shaped⟩ := entity known
    obtain ⟨table, rooted⟩ := (complete mapped listed).rooted
    exact ⟨mapped.shape, table, shaped, rooted⟩
  · obtain ⟨mapped, listed, rfl, same⟩ := entity known
    obtain rfl := Option.some.inj (same.symm.trans shaped)
    exact (complete mapped listed).answers label type typed
  · obtain ⟨mapped, member, rfl, same⟩ := entity known
    obtain rfl := Option.some.inj (same.symm.trans shaped)
    have labelled : mapping.label = label := by simpa using List.find?_some listed
    exact (complete mapped member).collects mapping (List.mem_of_find?_eq_some listed) type
      (labelled ▸ typed)
  · obtain ⟨mapped, listed, rfl, _⟩ := entity known
    obtain ⟨property, member, _, rfl⟩ := mem_of_typeIn? typed
    exact entity?_of_definition? accepted
      (((complete mapped listed).linked property member).defined target named)
  · obtain ⟨mapped, listed, rfl, _⟩ := entity known
    obtain ⟨property, member, _, rfl⟩ := mem_of_typeIn? typed
    exact ((complete mapped listed).linked property member).gathers plural

end Model
end ObjectQuery

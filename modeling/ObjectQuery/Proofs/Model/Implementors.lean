import ObjectQuery.Model.Catalog
import ObjectQuery.Proofs.Outcome
/-!
# Implementors of a name

A name that several entities implement offers the attributes that all of them have with the same
type. In a model that has been accepted no two entities have the same name, and no entity has two
attributes of the same name. So each implementor answers to its own name, and what the common name
says about an attribute, each implementor says as well.
-/
namespace ObjectQuery

variable {parser : SqlParser} {definitions : List EntityDefinition} {model : Model}

/-- Whatever the reference says about an attribute, the entity says as well. -/
def EntityReference.IsSharedBy (reference : EntityReference) (entity : EntityType) : Prop :=
  ∀ ⦃label type⦄, reference.attribute? label = some type → entity.attribute? label = some type

/-- No two attributes of the entity have the same name. -/
def EntityType.NamesAttributesOnce (entity : EntityType) : Prop :=
  (entity.attributes.map (·.name)).Nodup

/-- With names that do not repeat, every item is found under its name. -/
theorem find?_of_mem {α : Type} (key : α → String) :
    ∀ {items : List α}, (items.map key).Nodup → ∀ {item}, item ∈ items →
      items.find? (key · == key item) = some item
  | first :: rest, distinct, item, member => by
    rw [List.map_cons, List.nodup_cons] at distinct
    rcases List.mem_cons.mp member with rfl | further
    · simp
    · have different : ¬ key first = key item := by
        intro same
        exact distinct.1 (same ▸ List.mem_map_of_mem further)
      simpa [List.find?_cons, different] using find?_of_mem key distinct.2 further

/-- A type that is found is that of a listed attribute. -/
theorem mem_of_typeIn? {attributes : List Attribute} {label : String} {type : DataType}
    (typed : Attribute.typeIn? attributes label = some type) :
    ∃ property ∈ attributes, property.name = label ∧ property.type = type := by
  obtain ⟨property, found, rfl⟩ := Option.map_eq_some_iff.mp typed
  have named := List.find?_some found
  exact ⟨property, List.mem_of_find?_eq_some found, beq_iff_eq.mp named, rfl⟩

/-- What several entities have in common, each of them has. -/
theorem EntityReference.polymorphic_isSharedBy {name : String} {implementors : List EntityType}
    (named : ∀ entity ∈ implementors, entity.NamesAttributesOnce) {entity : EntityType}
    (member : entity ∈ implementors) :
    (EntityReference.polymorphic name implementors).IsSharedBy entity := by
  intro label type offered
  cases implementors with
  | nil => cases member
  | cons first others =>
    obtain ⟨property, common, rfl, rfl⟩ := mem_of_typeIn? offered
    obtain ⟨listed, agreed⟩ := List.mem_filter.mp common
    rcases List.mem_cons.mp member with rfl | further
    · have found := find?_of_mem Attribute.name (named entity List.mem_cons_self) listed
      exact Option.map_eq_some_iff.mpr ⟨property, found, rfl⟩
    · simpa using List.all_eq_true.mp agreed entity further

namespace Model

/-- No definition repeats the name of another or one of those seen before. -/
theorem nodup_of_repeated? : ∀ {definitions : List EntityDefinition} {seen : List String},
    repeated? definitions seen = none →
      (definitions.map (·.name)).Nodup ∧ ∀ name ∈ definitions.map (·.name), name ∉ seen
  | [], seen, _ => by simp
  | definition :: rest, seen, passed => by
    unfold repeated? at passed
    split at passed
    · cases passed
    · rename_i unseen
      obtain ⟨distinct, apart⟩ := nodup_of_repeated? passed
      rw [List.map_cons, List.nodup_cons, List.forall_mem_cons]
      refine ⟨⟨fun listed => apart _ listed List.mem_cons_self, distinct⟩, by simpa using unseen, ?_⟩
      intro name listed known
      exact apart name listed (List.mem_cons_of_mem _ known)

/-- An attribute is added if its name is new and its type is known. -/
theorem addAttribute_eq_ok {name under : String} {label : AttributeDefinition}
    {start next : List Attribute} :
    addAttribute definitions name under start label = .ok next ↔
      start.any (·.name == label.name) = false ∧
        ∃ type, attributeType definitions under label = .ok type ∧
          next = start ++ [⟨label.name, type⟩] := by
  unfold addAttribute
  by_cases taken : start.any (·.name == label.name) = true
  · rw [if_pos taken, taken]
    exact ⟨(nomatch ·), fun added => nomatch added.1⟩
  · rw [if_neg taken, Bool.eq_false_iff.mpr taken]
    constructor
    · intro added
      obtain ⟨type, typed, same⟩ := except_bind_ok.mp added
      exact ⟨rfl, type, typed, (Except.ok.inj same).symm⟩
    · rintro ⟨_, type, typed, rfl⟩
      exact except_bind_ok.mpr ⟨type, typed, rfl⟩

/-- What adding an attribute keeps holds of the attributes of a line. -/
theorem attributes_keep {entity : String} {holds : List Attribute → Prop}
    (keeps : ∀ {owner : String} {start next : List Attribute} {label : AttributeDefinition},
      holds start → addAttribute definitions entity owner start label = .ok next → holds next)
    (begun : holds []) {chain : List EntityDefinition} {collected : List Attribute}
    (collects : attributes definitions entity chain = .ok collected) : holds collected := by
  have steps : ∀ (start : List Attribute) (owner : EntityDefinition) (next : List Attribute),
      holds start →
        owner.attributes.foldlM (addAttribute definitions entity owner.name) start = .ok next →
          holds next :=
    fun _ _ _ held extended => foldlM_keeps (fun _ _ _ => keeps) held extended
  exact foldlM_keeps steps begun collects

/-- An attribute is only added under a new name. -/
theorem addAttribute_nodup {entity owner : String} {label : AttributeDefinition}
    {attributes extended : List Attribute} (distinct : (attributes.map (·.name)).Nodup)
    (added : addAttribute definitions entity owner attributes label = .ok extended) :
    (extended.map (·.name)).Nodup := by
  obtain ⟨new, type, _, rfl⟩ := addAttribute_eq_ok.mp added
  rw [List.map_append, List.map_singleton, List.nodup_append]
  refine ⟨distinct, by simp, ?_⟩
  intro name listed other single equal
  obtain ⟨property, member, rfl⟩ := List.mem_map.mp listed
  obtain rfl := List.mem_singleton.mp single
  have taken : attributes.any (·.name == label.name) = true :=
    List.any_eq_true.mpr ⟨property, member, by simpa using equal⟩
  rw [taken] at new
  cases new

/-- A line declares each attribute once. -/
theorem attributes_nodup {entity : String} {chain : List EntityDefinition}
    {collected : List Attribute} (collects : attributes definitions entity chain = .ok collected) :
    (collected.map (·.name)).Nodup :=
  attributes_keep addAttribute_nodup List.nodup_nil collects

/-- The entity of a definition has its name and names every attribute once. -/
theorem mappedEntity_ok {definition : EntityDefinition} {mapped : MappedEntity}
    (built : mappedEntity parser definitions definition = .ok mapped) :
    mapped.entity.name = definition.name ∧ mapped.entity.NamesAttributesOnce := by
  unfold mappedEntity at built
  obtain ⟨chain, _, built⟩ := except_bind_ok.mp built
  obtain ⟨entity, described, built⟩ := except_bind_ok.mp built
  obtain ⟨shape, _, same⟩ := except_bind_ok.mp built
  obtain rfl := Except.ok.inj same
  unfold entityType at described
  obtain ⟨collected, collects, same⟩ := except_bind_ok.mp described
  obtain rfl := Except.ok.inj same
  exact ⟨rfl, attributes_nodup collects⟩

/-- Adding an entity maps it and keeps the others. -/
theorem addEntity_ok {definition : EntityDefinition} {extended : Model}
    (added : addEntity parser definitions model definition = .ok extended) :
    ∃ mapped, mappedEntity parser definitions definition = .ok mapped ∧
      extended.entities = model.entities ++ [mapped] := by
  unfold addEntity at added
  obtain ⟨mapped, built, added⟩ := except_bind_ok.mp added
  refine ⟨mapped, built, ?_⟩
  split at added
  · split at added
    · cases added
    · obtain rfl := Except.ok.inj added
      rfl
  · obtain rfl := Except.ok.inj added
    rfl

/-- Entities come in the order of their definitions, and each names its attributes once. -/
theorem addEntities_ok : ∀ {items : List EntityDefinition} {start last : Model},
    items.foldlM (addEntity parser definitions) start = .ok last →
      ∃ added, last.entities = start.entities ++ added ∧
        added.map (·.entity.name) = items.map (·.name) ∧
          ∀ mapped ∈ added, mapped.entity.NamesAttributesOnce
  | [], start, last, folded => by
    obtain rfl := Except.ok.inj folded
    exact ⟨[], by simp⟩
  | definition :: rest, start, last, folded => by
    rw [List.foldlM_cons, except_bind_ok] at folded
    obtain ⟨next, extended, remaining⟩ := folded
    obtain ⟨mapped, built, entities⟩ := addEntity_ok extended
    obtain ⟨named, once⟩ := mappedEntity_ok built
    obtain ⟨added, rest, names, others⟩ := addEntities_ok remaining
    refine ⟨mapped :: added, by simp [rest, entities], by simp [named, names], ?_⟩
    exact List.forall_mem_cons.mpr ⟨once, others⟩

/-- In an accepted model no two entities have the same name, and no entity has two attributes of the
same name. -/
theorem build_ok (accepted : build parser definitions = .ok model) :
    (model.entities.map (·.entity.name)).Nodup ∧
      ∀ mapped ∈ model.entities, mapped.entity.NamesAttributesOnce := by
  unfold build at accepted
  split at accepted
  · cases accepted
  · rename_i unrepeated
    obtain ⟨added, rest, names, once⟩ := addEntities_ok accepted
    rw [List.nil_append] at rest
    have unique : repeated? definitions [] = none := by
      cases found : repeated? definitions [] with
      | none => rfl
      | some name => exact absurd found (unrepeated name)
    rw [rest, names]
    exact ⟨(nodup_of_repeated? unique).1, once⟩

/-- Every entity of an accepted model answers to its own name. -/
theorem resolve?_of_mem (accepted : build parser definitions = .ok model) {mapped : MappedEntity}
    (member : mapped ∈ model.entities) :
    model.resolve? mapped.entity.name = some (.concrete mapped.entity) := by
  have found : model.mapped? mapped.entity.name = some mapped :=
    find?_of_mem (fun known : MappedEntity => known.entity.name) (build_ok accepted).1 member
  simp [resolve?, lookup?, entity?, found]

/-- A name that stands for several entities stands for the topmost ones that implement it. -/
theorem rootImplementors_of_polymorphic {root name : String} {implementors : List EntityType}
    (several : model.resolve? root = some (.polymorphic name implementors)) :
    implementors = model.rootImplementors root ∧ implementors ≠ [] := by
  unfold resolve? at several
  split at several
  · cases several
  · split at several
    · cases several
    · cases several
    · rename_i some_roots _
      obtain ⟨rfl, rfl⟩ := EntityReference.polymorphic.inj (Option.some.inj several)
      exact ⟨rfl, some_roots⟩

/-- The implementors of a name are entities of the model. -/
theorem mem_of_polymorphic {root name : String} {implementors : List EntityType}
    (several : model.resolve? root = some (.polymorphic name implementors)) {entity : EntityType}
    (member : entity ∈ implementors) : ∃ mapped ∈ model.entities, mapped.entity = entity := by
  rw [(rootImplementors_of_polymorphic several).1] at member
  have implementing := (List.mem_filter.mp member).1
  simpa using (List.mem_filter.mp implementing).1

/-- Each entity that a name stands for answers to its own name, and has every attribute that can be
used of all of them. -/
theorem polymorphic_ok (accepted : build parser definitions = .ok model) {root name : String}
    {implementors : List EntityType}
    (several : model.resolve? root = some (.polymorphic name implementors)) {entity : EntityType}
    (member : entity ∈ implementors) :
    model.resolve? entity.name = some (.concrete entity) ∧
      (EntityReference.polymorphic name implementors).IsSharedBy entity := by
  constructor
  · obtain ⟨mapped, known, rfl⟩ := mem_of_polymorphic several member
    exact resolve?_of_mem accepted known
  · refine EntityReference.polymorphic_isSharedBy ?_ member
    intro other implementing
    obtain ⟨mapped, known, rfl⟩ := mem_of_polymorphic several implementing
    exact (build_ok accepted).2 mapped known

end Model
end ObjectQuery

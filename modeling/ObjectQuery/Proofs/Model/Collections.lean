import ObjectQuery.Proofs.Model.Implementors
/-!
# Collections of an accepted model

A definition is refused if it has a collection of basic values. So whatever a name stands for in an
accepted model, the elements of its collections are entities.
-/
namespace ObjectQuery

variable {parser : SqlParser} {definitions : List EntityDefinition} {model : Model}

/-- If the type is a collection, its elements are entities. -/
def DataType.HoldsEntities : DataType → Prop
  | collection _ (.basic _) => False
  | _ => True

/-- No attribute is a collection of basic values. -/
def EntityType.HoldsEntities (entity : EntityType) : Prop :=
  ∀ property ∈ entity.attributes, property.type.HoldsEntities

namespace Model

/-- The type of a declared attribute is no collection of basic values. -/
theorem attributeType_holds {entity : String} {label : AttributeDefinition} {type : DataType}
    (typed : attributeType definitions entity label = .ok type) : type.HoldsEntities := by
  unfold attributeType at typed
  split at typed
  · rename_i found _
    split at typed
    · obtain rfl := Except.ok.inj typed
      trivial
    · cases typed
    all_goals
      split at typed
      · obtain rfl := Except.ok.inj typed
        trivial
      · cases typed
  · cases typed

/-- A further attribute is no collection of basic values. -/
theorem addAttribute_holds {entity owner : String} {label : AttributeDefinition}
    {attributes extended : List Attribute}
    (holds : ∀ property ∈ attributes, property.type.HoldsEntities)
    (added : addAttribute definitions entity owner attributes label = .ok extended) :
    ∀ property ∈ extended, property.type.HoldsEntities := by
  obtain ⟨_, type, typed, rfl⟩ := addAttribute_eq_ok.mp added
  rw [List.forall_mem_append, List.forall_mem_singleton]
  exact ⟨holds, attributeType_holds typed⟩

/-- No attribute of a line is a collection of basic values. -/
theorem attributes_hold {entity : String} {chain : List EntityDefinition}
    {collected : List Attribute} (collects : attributes definitions entity chain = .ok collected) :
    ∀ property ∈ collected, property.type.HoldsEntities :=
  attributes_keep addAttribute_holds (List.forall_mem_nil _) collects

/-- No attribute of a mapped entity is a collection of basic values. -/
theorem mappedEntity_holds {definition : EntityDefinition} {mapped : MappedEntity}
    (built : mappedEntity parser definitions definition = .ok mapped) : mapped.entity.HoldsEntities := by
  unfold mappedEntity at built
  obtain ⟨chain, _, built⟩ := except_bind_ok.mp built
  obtain ⟨entity, described, built⟩ := except_bind_ok.mp built
  obtain ⟨shape, _, same⟩ := except_bind_ok.mp built
  obtain rfl := Except.ok.inj same
  unfold entityType at described
  obtain ⟨collected, collects, same⟩ := except_bind_ok.mp described
  obtain rfl := Except.ok.inj same
  exact attributes_hold collects

/-- No entity of an accepted model has a collection of basic values. -/
theorem build_holds (accepted : build parser definitions = .ok model) :
    ∀ mapped ∈ model.entities, mapped.entity.HoldsEntities := by
  unfold build at accepted
  split at accepted
  · cases accepted
  · have keeps : ∀ (start : Model) (definition : EntityDefinition) (next : Model),
        (∀ mapped ∈ start.entities, mapped.entity.HoldsEntities) →
          addEntity parser definitions start definition = .ok next →
            ∀ mapped ∈ next.entities, mapped.entity.HoldsEntities := by
      intro start definition next holds added
      obtain ⟨mapped, built, entities⟩ := addEntity_ok added
      rw [entities, List.forall_mem_append, List.forall_mem_singleton]
      exact ⟨holds, mappedEntity_holds built⟩
    exact foldlM_keeps keeps (by simp) accepted

/-- An entity that is looked up is one of the model. -/
theorem mem_of_lookup? {name : String} {entity : EntityType}
    (found : model.lookup? name = some entity) :
    ∃ mapped ∈ model.entities, mapped.entity = entity := by
  unfold lookup? entity? at found
  rw [Option.orElse_eq_orElse, Option.orElse_eq_or, Option.or_eq_some_iff] at found
  rcases found with named | ⟨_, classed⟩
  · obtain ⟨mapped, listed, rfl⟩ := Option.map_eq_some_iff.mp named
    exact ⟨mapped, List.mem_of_find?_eq_some listed, rfl⟩
  · obtain ⟨mapped, listed, rfl⟩ := Option.map_eq_some_iff.mp classed
    exact ⟨mapped, List.mem_of_find?_eq_some listed, rfl⟩

/-- What can be used of what a name stands for, one of the entities has. -/
theorem mem_of_resolve? {name : String} {reference : EntityReference}
    (resolved : model.resolve? name = some reference) :
    ∀ property ∈ reference.attributes, ∃ mapped ∈ model.entities,
      property ∈ mapped.entity.attributes := by
  intro property offered
  unfold resolve? at resolved
  split at resolved
  · rename_i entity found
    obtain rfl := Option.some.inj resolved
    obtain ⟨mapped, listed, rfl⟩ := mem_of_lookup? found
    exact ⟨mapped, listed, offered⟩
  · have listed : ∀ entity ∈ model.rootImplementors name,
        ∃ mapped ∈ model.entities, mapped.entity = entity := by
      intro entity member
      have implementing := (List.mem_filter.mp member).1
      simpa using (List.mem_filter.mp implementing).1
    split at resolved
    · cases resolved
    · rename_i entity only
      obtain rfl := Option.some.inj resolved
      obtain ⟨mapped, known, rfl⟩ := listed entity (by simp [only])
      exact ⟨mapped, known, offered⟩
    · obtain rfl := Option.some.inj resolved
      cases roots : model.rootImplementors name with
      | nil =>
        rw [roots] at offered
        cases offered
      | cons first others =>
        obtain ⟨mapped, known, rfl⟩ := listed first (by simp [roots])
        rw [roots] at offered
        exact ⟨mapped, known, (List.mem_filter.mp offered).1⟩

/-- Collections that can be used in a query to an accepted model have entities for elements. -/
theorem holdsEntities_of_resolve? (accepted : build parser definitions = .ok model) {name : String}
    {reference : EntityReference} (resolved : model.resolve? name = some reference) {label : String}
    {type : DataType} (typed : reference.attribute? label = some type) : type.HoldsEntities := by
  obtain ⟨property, offered, _, rfl⟩ := mem_of_typeIn? typed
  obtain ⟨mapped, known, listed⟩ := mem_of_resolve? resolved property offered
  exact build_holds accepted mapped known property listed

end Model
end ObjectQuery

import Mathlib.Data.List.Nodup
import Mathlib.Logic.Relation
import ObjectQuery.Proofs.Model.Mapped
/-!
# Ancestors of entities

A definition is accepted only together with the definitions that it extends, up to one that extends
none. So every entity of an accepted model has a lineage, and the lineage of the entity that it
extends is the same without its last definition. Extending is thereby well-founded, and the names
that a model gives for the ancestors of an entity are those of all entities that it inherits from.
-/
namespace ObjectQuery

variable {parser : SqlParser} {definitions : List EntityDefinition} {model : Model}

/-- The definitions from the topmost ancestor of a definition down to the definition. -/
inductive Lineage (definitions : List EntityDefinition) :
    EntityDefinition → List EntityDefinition → Prop
  | top {definition : EntityDefinition} (first : definition.superType = none) :
    Lineage definitions definition [definition]
  | heir {definition parent : EntityDefinition} {above : List EntityDefinition}
    (listed : parent ∈ definitions) (named : definition.superType = some parent.name)
    (upper : Lineage definitions parent above) : Lineage definitions definition (above ++ [definition])

namespace Lineage

/-- If names do not repeat, a definition has one lineage. -/
theorem unique (distinct : (definitions.map (·.name)).Nodup) {definition : EntityDefinition}
    {line other : List EntityDefinition} (first : Lineage definitions definition line)
    (second : Lineage definitions definition other) : line = other := by
  induction first generalizing other with
  | top none =>
    cases second with
    | top _ => rfl
    | heir _ named _ => rw [none] at named; cases named
  | heir listed named _ ih =>
    cases second with
    | top none => rw [none] at named; cases named
    | heir listedToo namedToo upper =>
      obtain rfl := List.inj_on_of_nodup_map distinct listed listedToo
        (Option.some.inj (named.symm.trans namedToo))
      rw [ih upper]

/-- A line holds at least its own entity. -/
theorem ne_nil {definition : EntityDefinition} {line : List EntityDefinition}
    (lineage : Lineage definitions definition line) : line ≠ [] := by
  cases lineage <;> simp

end Lineage

namespace Model

/-! ## From definitions to entities -/

/-- A walk upwards meets the lineage from its end, and no more definitions than it has fuel. -/
theorem ancestryWithin_ok {start : String} : ∀ {fuel : Nat} {seen : List String}
    {current : EntityDefinition} {met : List EntityDefinition},
    ancestryWithin definitions start fuel seen current = .ok met →
      Lineage definitions current met.reverse ∧ met.length ≤ fuel
  | 0, _, _, _, walked => by cases walked
  | fuel + 1, seen, current, met, walked => by
    unfold ancestryWithin at walked
    split at walked
    · rename_i first
      obtain rfl := Except.ok.inj walked
      exact ⟨.top first, by simp⟩
    · rename_i superType named
      split at walked
      · cases walked
      · rename_i parent found
        split at walked
        · cases walked
        · obtain ⟨rest, further, rfl⟩ := except_map_ok.mp walked
          obtain ⟨upper, short⟩ := ancestryWithin_ok further
          have same : parent.name = superType := by simpa using List.find?_some found
          rw [List.reverse_cons]
          exact ⟨.heir (List.mem_of_find?_eq_some found) (same ▸ named) upper, by simpa using short⟩

/-- A line that is found is that of the entity and no longer than the definitions. -/
theorem chain_ok {definition : EntityDefinition} {line : List EntityDefinition}
    (led : chain definitions definition = .ok line) :
    Lineage definitions definition line ∧ line.length ≤ definitions.length := by
  obtain ⟨met, walked, rfl⟩ := except_map_ok.mp led
  obtain ⟨lineage, short⟩ := ancestryWithin_ok walked
  exact ⟨lineage, by simpa using short⟩

/-- The entity and the tables are those that the definition describes with its lineage. -/
structure Describes (parser : SqlParser) (definitions : List EntityDefinition)
    (definition : EntityDefinition) (line : List EntityDefinition) (mapped : MappedEntity) : Prop where
  lineage : Lineage definitions definition line
  short : line.length ≤ definitions.length
  name : mapped.entity.name = definition.name
  superType : mapped.entity.superType = definition.superType
  interfaces : mapped.entity.interfaces = interfaces line
  attributes : Model.attributes definitions definition.name line = .ok mapped.entity.attributes
  shape : tableShape parser definitions mapped.entity line = .ok mapped.shape

/-- A mapped entity is described by its definition and its line. -/
theorem describes_of_mappedEntity {definition : EntityDefinition} {mapped : MappedEntity}
    (built : mappedEntity parser definitions definition = .ok mapped) :
    ∃ line, Describes parser definitions definition line mapped := by
  obtain ⟨line, led, built⟩ := except_bind_ok.mp built
  obtain ⟨entity, described, built⟩ := except_bind_ok.mp built
  obtain ⟨shape, shaped, same⟩ := except_bind_ok.mp built
  obtain rfl := Except.ok.inj same
  obtain ⟨collected, collects, same⟩ := except_bind_ok.mp described
  obtain rfl := Except.ok.inj same
  obtain ⟨lineage, short⟩ := chain_ok led
  exact ⟨line, lineage, short, rfl, rfl, rfl, collects, shaped⟩

/-- The entities of an accepted model are those of its definitions, in their order. -/
theorem forall₂_of_foldlM : ∀ {items : List EntityDefinition} {start last : Model},
    items.foldlM (addEntity parser definitions) start = .ok last →
      ∃ added, last.entities = start.entities ++ added ∧ List.Forall₂ (fun definition mapped =>
        mappedEntity parser definitions definition = .ok mapped) items added
  | [], start, last, folded => by
    obtain rfl := Except.ok.inj folded
    exact ⟨[], by simp, .nil⟩
  | definition :: rest, start, last, folded => by
    rw [List.foldlM_cons, except_bind_ok] at folded
    obtain ⟨next, extended, remaining⟩ := folded
    obtain ⟨mapped, built, entities⟩ := addEntity_ok extended
    obtain ⟨added, all, paired⟩ := forall₂_of_foldlM remaining
    exact ⟨mapped :: added, by simp [all, entities], .cons built paired⟩

/-- Each entity of an accepted model is mapped from its definition. -/
theorem forall₂_of_build (accepted : build parser definitions = .ok model) :
    List.Forall₂ (fun definition mapped => mappedEntity parser definitions definition = .ok mapped)
      definitions model.entities := by
  unfold build at accepted
  split at accepted
  · cases accepted
  · obtain ⟨added, all, paired⟩ := forall₂_of_foldlM accepted
    rw [all]
    exact paired

/-- Every entity of an accepted model is described by one of the definitions. -/
theorem exists_describes (accepted : build parser definitions = .ok model) {mapped : MappedEntity}
    (member : mapped ∈ model.entities) :
    ∃ definition ∈ definitions, ∃ line, Describes parser definitions definition line mapped := by
  obtain ⟨definition, listed, built⟩ :=
    exists_of_forall₂ (forall₂_of_build accepted) member
  exact ⟨definition, listed, describes_of_mappedEntity built⟩

/-- Every definition of an accepted model describes one of the entities. -/
theorem exists_described (accepted : build parser definitions = .ok model)
    {definition : EntityDefinition} (listed : definition ∈ definitions) :
    ∃ mapped ∈ model.entities, ∃ line, Describes parser definitions definition line mapped := by
  obtain ⟨mapped, member, built⟩ :=
    exists_of_forall₂ (forall₂_of_build accepted).flip listed
  exact ⟨mapped, member, describes_of_mappedEntity built⟩

/-- The definitions of an accepted model have different names. -/
theorem distinct_definitions (accepted : build parser definitions = .ok model) :
    (definitions.map (·.name)).Nodup :=
  names_of_build accepted ▸ (build_ok accepted).1

/-- In an accepted model, entities of the same name are the same. -/
theorem mapped_inj (accepted : build parser definitions = .ok model) {mapped other : MappedEntity}
    (member : mapped ∈ model.entities) (memberToo : other ∈ model.entities)
    (same : mapped.entity.name = other.entity.name) : mapped = other :=
  List.inj_on_of_nodup_map (build_ok accepted).1 member memberToo same

/-! ## Extending -/

/-- The entity names the other entity of the model as the one that it extends. -/
def Extends (model : Model) (entity parent : EntityType) : Prop :=
  entity.superType = some parent.name ∧ ∃ mapped ∈ model.entities, mapped.entity = parent

/-- An entity extends at most one. -/
theorem extends_rightUnique (accepted : build parser definitions = .ok model) :
    Relator.RightUnique model.Extends := by
  rintro entity parent other ⟨named, mapped, member, rfl⟩ ⟨namedToo, found, memberToo, rfl⟩
  have same := Option.some.inj (named.symm.trans namedToo)
  rw [mapped_inj accepted member memberToo same]

/-- What an entity names as the one it extends is an entity of the model, whose lineage is that of the
entity without its last definition. -/
theorem exists_parent (accepted : build parser definitions = .ok model)
    {definition : EntityDefinition} {line : List EntityDefinition} {mapped : MappedEntity}
    (described : Describes parser definitions definition line mapped) {name : String}
    (named : mapped.entity.superType = some name) :
    ∃ upper ∈ model.entities, upper.entity.name = name ∧ ∃ parent above,
      Describes parser definitions parent above upper ∧ line = above ++ [definition] := by
  obtain ⟨lineage, _, _, superType, _⟩ := described
  rw [superType] at named
  cases lineage with
  | top none => rw [none] at named; cases named
  | @heir _ parent above listed given lineage =>
    obtain ⟨upper, member, line, describes⟩ := exists_described accepted listed
    have same := describes.lineage.unique (distinct_definitions accepted) lineage
    have called : parent.name = name := Option.some.inj (given.symm.trans named)
    exact ⟨upper, member, describes.name.trans called, parent, above, same ▸ describes, rfl⟩

/-- Going from an entity to the one it extends comes to an end. -/
theorem extends_wellFounded (accepted : build parser definitions = .ok model) :
    WellFounded (flip model.Extends) := by
  -- The entities of the model are reached by induction on their lineages; any other entity extends
  -- only entities of the model.
  have inside : ∀ (count : Nat) {definition : EntityDefinition} {line : List EntityDefinition}
      {mapped : MappedEntity}, Describes parser definitions definition line mapped →
        mapped ∈ model.entities → line.length = count →
          Acc (flip model.Extends) mapped.entity := by
    intro count
    induction count with
    | zero =>
      intro definition line mapped described _ empty
      exact absurd (List.length_eq_zero_iff.mp empty) described.lineage.ne_nil
    | succ count ih =>
      intro definition line mapped described member length
      refine Acc.intro _ ?_
      rintro _ ⟨named, found, known, rfl⟩
      obtain ⟨upper, listed, called, parent, above, describes, rfl⟩ :=
        exists_parent accepted described named
      rw [mapped_inj accepted known listed called.symm]
      exact ih describes listed (by simpa using length)
  refine ⟨fun entity => Acc.intro _ ?_⟩
  rintro _ ⟨_, found, known, rfl⟩
  obtain ⟨definition, _, line, described⟩ := exists_describes accepted known
  exact inside _ described known rfl

/-- An entity of an accepted model is looked up by its name. -/
theorem lookup?_of_mem (accepted : build parser definitions = .ok model) {mapped : MappedEntity}
    (member : mapped ∈ model.entities) : model.lookup? mapped.entity.name = some mapped.entity := by
  rw [lookup?, entity?_of_mem accepted member]
  rfl

/-- With as much fuel as the lineage is long, the names of all ancestors are found.

Proof: by induction on the fuel. An entity extends at most one other, so every ancestor is that one
or an ancestor of it. -/
theorem mem_superTypesWithin (accepted : build parser definitions = .ok model) {name : String} :
    ∀ {fuel : Nat} {definition : EntityDefinition} {line : List EntityDefinition}
      {mapped : MappedEntity}, Describes parser definitions definition line mapped →
        line.length ≤ fuel + 1 →
          (name ∈ model.superTypesWithin fuel mapped.entity ↔
            ∃ ancestor, Relation.TransGen model.Extends mapped.entity ancestor ∧
              ancestor.name = name) := by
  intro fuel
  induction fuel with
  | zero =>
    intro definition line mapped described short
    simp only [superTypesWithin, List.not_mem_nil, false_iff, not_exists, not_and]
    rintro ancestor inherits _
    obtain ⟨parent, ⟨named, _⟩, _⟩ := Relation.TransGen.head'_iff.mp inherits
    obtain ⟨_, _, _, _, above, describes, rfl⟩ := exists_parent accepted described named
    have long := List.length_pos_of_ne_nil describes.lineage.ne_nil
    rw [List.length_append, List.length_singleton] at short
    omega
  | succ fuel ih =>
    intro definition line mapped described short
    unfold superTypesWithin
    split
    · rename_i first
      simp only [List.not_mem_nil, false_iff, not_exists, not_and]
      rintro ancestor inherits _
      obtain ⟨parent, ⟨named, _⟩, _⟩ := Relation.TransGen.head'_iff.mp inherits
      rw [first] at named
      cases named
    · rename_i superType named
      obtain ⟨upper, member, rfl, parent, above, describes, rfl⟩ :=
        exists_parent accepted described named
      have extended : model.Extends mapped.entity upper.entity := ⟨named, upper, member, rfl⟩
      rw [lookup?_of_mem accepted member]
      simp only [List.mem_cons, ih describes (by simpa using short)]
      constructor
      · rintro (rfl | ⟨ancestor, inherits, called⟩)
        · exact ⟨upper.entity, .single extended, rfl⟩
        · exact ⟨ancestor, .head extended inherits, called⟩
      · rintro ⟨ancestor, inherits, called⟩
        obtain ⟨next, first, further⟩ := Relation.TransGen.head'_iff.mp inherits
        obtain rfl := extends_rightUnique accepted first extended
        rcases Relation.reflTransGen_iff_eq_or_transGen.mp further with rfl | inherits
        · exact .inl called.symm
        · exact .inr ⟨ancestor, inherits, called⟩

/-- The names that a model gives for the ancestors of an entity are those of all entities that it
inherits from. -/
theorem mem_superTypes (accepted : build parser definitions = .ok model) {mapped : MappedEntity}
    (member : mapped ∈ model.entities) {name : String} :
    name ∈ model.superTypes mapped.entity ↔
      ∃ ancestor, Relation.TransGen model.Extends mapped.entity ancestor ∧ ancestor.name = name := by
  obtain ⟨definition, _, line, described⟩ := exists_describes accepted member
  have count : model.entities.length = definitions.length := by
    simpa using congrArg List.length (names_of_build accepted)
  exact mem_superTypesWithin accepted described (by rw [count]; exact Nat.le_succ_of_le described.short)

end Model
end ObjectQuery

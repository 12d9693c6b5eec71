import Mathlib.Data.List.Pairwise
import Mathlib.Data.List.Perm.Basic
import ObjectQuery.Proofs.Model.Places
/-!
# Definitions in another order

A model is built from its definitions in their order, and each of them is checked against all of
them. The checks ask only which definition has a name, and in a list that names no definition twice
the answer does not depend on the order. So a list of definitions is accepted in every order or in
none, and its entities and their tables are always the same.

An accepted definition has a lineage. The links from definitions to those that they extend therefore
close no cycle, and each of them leads to a definition.
-/
namespace ObjectQuery

variable {parser : SqlParser} {definitions others : List EntityDefinition} {model : Model}

/-- If at most one element passes a test, the order does not matter for finding it. -/
theorem find?_eq_of_perm {α : Type} {passes : α → Bool} {items rearranged : List α}
    (single : ∀ item ∈ items, ∀ other ∈ items, passes item = true → passes other = true →
      item = other) (reordered : items.Perm rearranged) :
    items.find? passes = rearranged.find? passes := by
  cases found : items.find? passes with
  | none =>
    rw [List.find?_eq_none] at found
    refine (List.find?_eq_none.mpr fun item listed => ?_).symm
    exact found item (reordered.mem_iff.mpr listed)
  | some item =>
    have listed := List.mem_of_find?_eq_some found
    have passed := List.find?_some found
    have present : (rearranged.find? passes).isSome = true :=
      List.find?_isSome.mpr ⟨item, reordered.mem_iff.mp listed, passed⟩
    obtain ⟨other, foundToo⟩ := Option.isSome_iff_exists.mp present
    have listedToo := reordered.mem_iff.mpr (List.mem_of_find?_eq_some foundToo)
    rw [foundToo, single item listed other listedToo passed (List.find?_some foundToo)]

namespace Model

/-! ## What the checks depend on -/

/-- Whether a name is repeated depends on the names alone. -/
theorem repeated?_eq_none : ∀ {definitions : List EntityDefinition} {seen : List String},
    repeated? definitions seen = none ↔
      (definitions.map (·.name)).Nodup ∧ ∀ name ∈ definitions.map (·.name), name ∉ seen
  | [], seen => by simp [repeated?]
  | definition :: rest, seen => by
    refine ⟨nodup_of_repeated?, ?_⟩
    rintro ⟨distinct, apart⟩
    rw [List.map_cons, List.nodup_cons] at distinct
    rw [List.map_cons, List.forall_mem_cons] at apart
    have new : ¬ seen.contains definition.name = true := by simpa using apart.1
    rw [repeated?, if_neg new, repeated?_eq_none]
    refine ⟨distinct.2, fun name listed known => ?_⟩
    rcases List.mem_cons.mp known with rfl | known
    · exact distinct.1 listed
    · exact apart.2 name listed known

/-- A definition is found whatever order the definitions are in. -/
theorem definition?_eq_of_perm (distinct : (definitions.map (·.name)).Nodup)
    (reordered : definitions.Perm others) : definition? definitions = definition? others := by
  funext name
  refine find?_eq_of_perm (fun definition listed other listedToo named namedToo => ?_) reordered
  exact List.inj_on_of_nodup_map distinct listed listedToo
    ((beq_iff_eq.mp named).trans (beq_iff_eq.mp namedToo).symm)

section SameAnswers

variable (same : definition? definitions = definition? others)
include same

/-- The entities above an entity depend on nothing but the definitions found. -/
theorem ancestryWithin_congr (start : String) : ∀ (fuel : Nat) (seen : List String)
    (current : EntityDefinition),
    ancestryWithin definitions start fuel seen current =
      ancestryWithin others start fuel seen current
  | 0, _, _ => rfl
  | fuel + 1, seen, current => by
    simp only [ancestryWithin, same, ancestryWithin_congr start fuel]

/-- The line of an entity depends on nothing but the definitions found and their number. -/
theorem chain_congr (counted : definitions.length = others.length) :
    chain definitions = chain others := by
  funext definition
  rw [chain, chain, counted, ancestryWithin_congr same]

/-- The attributes of a line depend on nothing but the definitions found. -/
theorem attributes_congr : attributes definitions = attributes others := by
  have types : attributeType definitions = attributeType others := by
    funext entity label
    simp only [attributeType, same]
  have adds : addAttribute definitions = addAttribute others := by
    funext entity owner known label
    simp only [addAttribute, types]
  funext entity line
  simp only [attributes, adds]

/-- The shape of a line depends on nothing but the definitions found. -/
theorem tableShape_congr : tableShape parser definitions = tableShape parser others := by
  have checks : checkElement definitions = checkElement others := by
    funext entity mapping
    simp only [checkElement, same]
  funext entity line
  simp only [tableShape, checks]

/-- What a definition describes depends on the others through the answers to which of them has a name,
and through their number. -/
theorem mappedEntity_congr (counted : definitions.length = others.length) :
    mappedEntity parser definitions = mappedEntity parser others := by
  funext definition
  simp only [mappedEntity, entityType, chain_congr same counted, attributes_congr same,
    tableShape_congr same]

end SameAnswers

/-! ## Accepted lists -/

/-- The class names of entities. -/
def classNames (entities : List MappedEntity) : List String :=
  entities.filterMap (·.entity.className)

/-- Two lists of entities have the class names of both. -/
theorem classNames_append {entities more : List MappedEntity} :
    classNames (entities ++ more) = classNames entities ++ classNames more :=
  List.filterMap_append

/-- If class names do not repeat, entities of the same class name are the same. -/
theorem eq_of_className {entities : List MappedEntity} (once : (classNames entities).Nodup)
    {mapped other : MappedEntity} (listed : mapped ∈ entities) (listedToo : other ∈ entities)
    {name : String} (named : mapped.entity.className = some name)
    (namedToo : other.entity.className = some name) : mapped = other := by
  have apart := List.pairwise_filterMap.mp once
  have symmetric : Std.Symm fun first second : MappedEntity =>
      ∀ name, first.entity.className = some name →
        ∀ other, second.entity.className = some other → name ≠ other :=
    ⟨fun _ _ differ name named other namedToo => (differ other namedToo name named).symm⟩
  by_contra different
  exact apart.forall listed listedToo different name named name namedToo rfl

/-- An entity is added under a class name that no other has. -/
theorem addEntity_eq_ok {definition : EntityDefinition} {extended : Model}
    (distinct : (classNames model.entities).Nodup) :
    addEntity parser definitions model definition = .ok extended ↔
      ∃ mapped, mappedEntity parser definitions definition = .ok mapped ∧
        extended = ⟨model.entities ++ [mapped]⟩ ∧
          (classNames (model.entities ++ [mapped])).Nodup := by
  unfold addEntity
  rw [except_bind_ok]
  refine exists_congr fun mapped => and_congr_right fun _ => ?_
  rw [classNames_append, List.nodup_append]
  cases named : mapped.entity.className with
  | none =>
    have unnamed : classNames [mapped] = [] := by simp [classNames, named]
    simp [unnamed, distinct, pure, Except.pure, eq_comm]
  | some className =>
    have single : classNames [mapped] = [className] := by simp [classNames, named]
    have taken : model.entities.any (·.entity.className == some className) = true ↔
        className ∈ classNames model.entities := by
      simp [classNames, List.mem_filterMap]
    by_cases known : className ∈ classNames model.entities
    · simp [single, taken.mpr known, known, throw, throwThe, MonadExceptOf.throw]
    · have new : model.entities.any (·.entity.className == some className) = false := by
        simpa using mt taken.mp known
      have apart : ∀ name ∈ classNames model.entities, className ≠ name := by
        rintro _ listed rfl
        exact known listed
      simpa [single, new, distinct, pure, Except.pure, eq_comm] using fun _ => apart

/-- Entities are added to others one after the other, under class names that do not repeat. -/
theorem addEntities_eq_ok : ∀ {items : List EntityDefinition} {start last : Model},
    (classNames start.entities).Nodup →
      (items.foldlM (addEntity parser definitions) start = .ok last ↔ ∃ added,
        List.Forall₂ (fun definition mapped => mappedEntity parser definitions definition = .ok mapped)
          items added ∧
        last = ⟨start.entities ++ added⟩ ∧ (classNames (start.entities ++ added)).Nodup)
  | [], start, last, distinct => by
    simp [pure, Except.pure, distinct, eq_comm (a := start)]
  | definition :: rest, start, last, distinct => by
    rw [List.foldlM_cons, except_bind_ok]
    constructor
    · rintro ⟨next, extended, remaining⟩
      obtain ⟨mapped, built, rfl, distinct⟩ := (addEntity_eq_ok distinct).mp extended
      obtain ⟨added, paired, rfl, distinct⟩ := (addEntities_eq_ok distinct).mp remaining
      rw [List.append_assoc] at distinct ⊢
      exact ⟨mapped :: added, .cons built paired, rfl, distinct⟩
    · rintro ⟨added, paired, rfl, distinctLast⟩
      obtain ⟨mapped, others, built, remaining, rfl⟩ := List.forall₂_cons_left_iff.mp paired
      rw [List.append_cons] at distinctLast ⊢
      have distinctNext : (classNames (start.entities ++ [mapped])).Nodup := by
        rw [classNames_append] at distinctLast
        exact (List.nodup_append.mp distinctLast).1
      exact ⟨_, (addEntity_eq_ok distinct).mpr ⟨mapped, built, rfl, distinctNext⟩,
        (addEntities_eq_ok distinctNext).mpr ⟨others, remaining, rfl, distinctLast⟩⟩

/-- A list of definitions is accepted if neither names nor class names repeat and each definition
describes an entity. -/
theorem build_eq_ok : build parser definitions = .ok model ↔
    (definitions.map (·.name)).Nodup ∧ (classNames model.entities).Nodup ∧
      List.Forall₂ (fun definition mapped => mappedEntity parser definitions definition = .ok mapped)
        definitions model.entities := by
  unfold build
  cases repeated : repeated? definitions [] with
  | some name =>
    have twice : ¬ (definitions.map (·.name)).Nodup := by
      intro distinct
      rw [repeated?_eq_none.mpr ⟨distinct, by simp⟩] at repeated
      cases repeated
    simp only [twice, false_and, iff_false]
    exact fun accepted => nomatch accepted
  | none =>
    obtain ⟨distinct, _⟩ := repeated?_eq_none.mp repeated
    simp only [distinct, true_and]
    rw [addEntities_eq_ok (by simp [classNames])]
    simp only [List.nil_append]
    constructor
    · rintro ⟨added, paired, rfl, once⟩
      exact ⟨once, paired⟩
    · rintro ⟨once, paired⟩
      exact ⟨model.entities, paired, rfl, once⟩

/-- In another order, an accepted list gives the same entities in another order. -/
theorem build_perm (reordered : definitions.Perm others)
    (accepted : build parser definitions = .ok model) :
    ∃ entities, build parser others = .ok ⟨entities⟩ ∧ model.entities.Perm entities := by
  obtain ⟨distinct, once, paired⟩ := build_eq_ok.mp accepted
  have same : mappedEntity parser definitions = mappedEntity parser others :=
    mappedEntity_congr (definition?_eq_of_perm distinct reordered) reordered.length_eq
  obtain ⟨entities, pairedToo, rearranged⟩ := List.perm_comp_forall₂ reordered.symm paired
  refine ⟨entities, build_eq_ok.mpr ⟨?_, ?_, same ▸ pairedToo⟩, rearranged.symm⟩
  · exact (reordered.map _).nodup_iff.mp distinct
  · exact (rearranged.filterMap _).nodup_iff.mpr once

/-- Models of the same entities give the same answers about every name. -/
theorem answers_of_perm {other : Model} (distinct : (model.entities.map (·.entity.name)).Nodup)
    (once : (classNames model.entities).Nodup) (rearranged : model.entities.Perm other.entities)
    (name : String) :
    model.mapped? name = other.mapped? name ∧ model.lookup? name = other.lookup? name := by
  have found : model.mapped? name = other.mapped? name := by
    refine find?_eq_of_perm (fun mapped listed known listedToo named namedToo => ?_) rearranged
    exact List.inj_on_of_nodup_map distinct listed listedToo
      ((beq_iff_eq.mp named).trans (beq_iff_eq.mp namedToo).symm)
  refine ⟨found, ?_⟩
  have classed : model.entities.find? (·.entity.className == some name) =
      other.entities.find? (·.entity.className == some name) := by
    refine find?_eq_of_perm (fun mapped listed known listedToo named namedToo => ?_) rearranged
    exact eq_of_className once listed listedToo (beq_iff_eq.mp named) (beq_iff_eq.mp namedToo)
  rw [lookup?, lookup?, entity?, entity?, found, classed]

end Model

/-! ## Links -/

/-- A definition of the first name extends the second name. -/
def LinksUp (definitions : List EntityDefinition) (name upper : String) : Prop :=
  ∃ definition ∈ definitions, definition.name = name ∧ definition.superType = some upper

namespace Lineage

variable {definition : EntityDefinition} {line : List EntityDefinition}

/-- A lineage consists of definitions, and each of them ends a lineage that it begins with. -/
theorem of_mem (listed : definition ∈ definitions) (lineage : Lineage definitions definition line)
    {ancestor : EntityDefinition} (member : ancestor ∈ line) :
    ancestor ∈ definitions ∧ ∃ above, Lineage definitions ancestor above ∧ above <+: line := by
  induction lineage with
  | top first =>
    obtain rfl := List.mem_singleton.mp member
    exact ⟨listed, _, .top first, List.prefix_rfl⟩
  | heir listedParent named upper inductionHypothesis =>
    rcases List.mem_append.mp member with higher | last
    · obtain ⟨known, above, lineage, begins⟩ := inductionHypothesis listedParent higher
      exact ⟨known, above, lineage, begins.trans (List.prefix_append _ _)⟩
    · obtain rfl := List.mem_singleton.mp last
      exact ⟨listed, _, .heir listedParent named upper, List.prefix_rfl⟩

/-- If names do not repeat among the definitions, they do not repeat on the way to the root. -/
theorem names_nodup (distinct : (definitions.map (·.name)).Nodup) (listed : definition ∈ definitions)
    (lineage : Lineage definitions definition line) : (line.map (·.name)).Nodup := by
  induction lineage with
  | top first => simp
  | @heir definition parent above listedParent named upper inductionHypothesis =>
    rw [List.map_append, List.map_singleton, List.nodup_append]
    refine ⟨inductionHypothesis listedParent, by simp, ?_⟩
    rintro _ member _ single same
    obtain ⟨ancestor, higher, rfl⟩ := List.mem_map.mp member
    obtain rfl := List.mem_singleton.mp single
    -- The definition would have a second lineage, which ends earlier.
    obtain ⟨known, shorter, lineage, begins⟩ := of_mem listedParent upper higher
    obtain rfl := List.inj_on_of_nodup_map distinct known listed same
    obtain rfl := unique distinct lineage (.heir listedParent named upper)
    have long := begins.length_le
    rw [List.length_append, List.length_singleton] at long
    omega

/-- What a name is linked to is the name of the definition before it in its lineage. -/
theorem of_link (distinct : (definitions.map (·.name)).Nodup) (listed : definition ∈ definitions)
    (lineage : Lineage definitions definition line) {upper : String}
    (linked : LinksUp definitions definition.name upper) :
    ∃ parent ∈ definitions, parent.name = upper ∧
      ∃ above, Lineage definitions parent above ∧ above.length < line.length := by
  obtain ⟨other, listedToo, same, extended⟩ := linked
  obtain rfl := List.inj_on_of_nodup_map distinct listedToo listed same
  cases lineage with
  | top first => rw [first] at extended; cases extended
  | @heir _ parent above listedParent named lineage =>
    exact ⟨parent, listedParent, Option.some.inj (named.symm.trans extended), above, lineage, by simp⟩

/-- What links lead up to is in the line. -/
theorem of_links (distinct : (definitions.map (·.name)).Nodup) (listed : definition ∈ definitions)
    (lineage : Lineage definitions definition line) {upper : String}
    (linked : Relation.TransGen (LinksUp definitions) definition.name upper) :
    ∃ ancestor ∈ definitions, ancestor.name = upper ∧
      ∃ above, Lineage definitions ancestor above ∧ above.length < line.length := by
  induction linked with
  | single first => exact of_link distinct listed lineage first
  | tail _ last inductionHypothesis =>
    obtain ⟨middle, listedMiddle, rfl, between, lineageMiddle, shorter⟩ := inductionHypothesis
    obtain ⟨ancestor, listedAncestor, named, above, lineageAncestor, shortest⟩ :=
      of_link distinct listedMiddle lineageMiddle last
    exact ⟨ancestor, listedAncestor, named, above, lineageAncestor,
      Nat.lt_trans shortest shorter⟩

end Lineage

namespace Model

/-- Every definition of an accepted model has a line. -/
theorem exists_lineage (accepted : build parser definitions = .ok model)
    {definition : EntityDefinition} (listed : definition ∈ definitions) :
    ∃ line, Lineage definitions definition line := by
  obtain ⟨_, _, line, described⟩ := exists_described accepted listed
  exact ⟨line, described.lineage⟩

/-- The links of an accepted list close no cycle. -/
theorem links_acyclic (accepted : build parser definitions = .ok model) (name : String) :
    ¬ Relation.TransGen (LinksUp definitions) name name := by
  intro closed
  obtain ⟨_, ⟨definition, listed, rfl, _⟩, _⟩ := Relation.TransGen.head'_iff.mp closed
  have distinct := distinct_definitions accepted
  obtain ⟨line, lineage⟩ := exists_lineage accepted listed
  obtain ⟨ancestor, listedToo, same, above, shorter, less⟩ :=
    Lineage.of_links distinct listed lineage closed
  obtain rfl := List.inj_on_of_nodup_map distinct listedToo listed same
  rw [Lineage.unique distinct shorter lineage] at less
  exact Nat.lt_irrefl _ less

/-- The links of an accepted list lead to definitions. -/
theorem exists_of_links (accepted : build parser definitions = .ok model) {name upper : String}
    (linked : LinksUp definitions name upper) : ∃ parent ∈ definitions, parent.name = upper := by
  obtain ⟨definition, listed, rfl, extended⟩ := linked
  obtain ⟨line, lineage⟩ := exists_lineage accepted listed
  obtain ⟨parent, listedParent, named, _⟩ :=
    Lineage.of_link (distinct_definitions accepted) listed lineage ⟨definition, listed, rfl, extended⟩
  exact ⟨parent, listedParent, named⟩

/-- Each definition of an accepted list describes an entity that answers to its name. -/
theorem resolve?_of_definition (accepted : build parser definitions = .ok model)
    {definition : EntityDefinition} (listed : definition ∈ definitions) :
    ∃ mapped, model.mapped? definition.name = some mapped ∧
      model.resolve? definition.name = some (.concrete mapped.entity) := by
  obtain ⟨mapped, member, _, described⟩ := exists_described accepted listed
  refine ⟨mapped, ?_, described.name ▸ resolve?_of_mem accepted member⟩
  exact described.name ▸
    find?_of_mem (fun known : MappedEntity => known.entity.name) (build_ok accepted).1 member

/-- A list of definitions is accepted in every order or in none. The models that it makes in two
orders give the same answer about every name and have the same entity with the same tables for each
definition. In an accepted list each definition has a lineage that repeats no name, and a list is
rejected if its links close a cycle or if one of them leads to a name without a definition.

Proof: every definition is looked up by its name, and the names are distinct, so each is mapped to
the same entity in every order. A circle of links has no lineage, which the accepted models have. -/
theorem build_in_any_order (parser : SqlParser) (definitions : List EntityDefinition) :
    (∀ others, definitions.Perm others →
      ((∃ model, build parser definitions = .ok model) ↔
        ∃ other, build parser others = .ok other) ∧
      ∀ model other, build parser definitions = .ok model →
        build parser others = .ok other →
        (∀ name, model.entity? name = other.entity? name ∧
          model.shape? name = other.shape? name ∧ model.lookup? name = other.lookup? name) ∧
        ∀ definition ∈ definitions, ∃ entity shape,
          model.resolve? definition.name = some (.concrete entity) ∧
          other.resolve? definition.name = some (.concrete entity) ∧
          model.shape? definition.name = some shape ∧
          other.shape? definition.name = some shape) ∧
    (∀ model, build parser definitions = .ok model → ∀ definition ∈ definitions,
      ∃ line, Lineage definitions definition line ∧ (line.map (·.name)).Nodup) ∧
    ((∃ name, Relation.TransGen (LinksUp definitions) name name) ∨
      (∃ name upper, LinksUp definitions name upper ∧ ∀ parent ∈ definitions, parent.name ≠ upper) →
        ∃ failure, build parser definitions = .error failure) := by
  refine ⟨fun others reordered => ⟨⟨?_, ?_⟩, ?_⟩, ?_, ?_⟩
  · rintro ⟨model, accepted⟩
    obtain ⟨entities, acceptedToo, _⟩ := build_perm reordered accepted
    exact ⟨_, acceptedToo⟩
  · rintro ⟨model, accepted⟩
    obtain ⟨entities, acceptedToo, _⟩ := build_perm reordered.symm accepted
    exact ⟨_, acceptedToo⟩
  · intro model other accepted acceptedToo
    obtain ⟨entities, again, rearranged⟩ := build_perm reordered accepted
    obtain rfl : other = ⟨entities⟩ := Except.ok.inj (acceptedToo.symm.trans again)
    have answers := answers_of_perm (build_ok accepted).1 (build_eq_ok.mp accepted).2.1
      rearranged
    refine ⟨fun name => ?_, fun definition listed => ?_⟩
    · obtain ⟨same, looked⟩ := answers name
      exact ⟨congrArg (Option.map _) same, congrArg (Option.map _) same, looked⟩
    · obtain ⟨mapped, found, resolved⟩ := resolve?_of_definition accepted listed
      obtain ⟨mappedToo, foundToo, resolvedToo⟩ :=
        resolve?_of_definition acceptedToo (reordered.mem_iff.mp listed)
      obtain rfl : mapped = mappedToo :=
        Option.some.inj (found.symm.trans ((answers _).1.trans foundToo))
      exact ⟨mapped.entity, mapped.shape, resolved, resolvedToo, congrArg (Option.map _) found,
        congrArg (Option.map _) foundToo⟩
  · intro model accepted definition listed
    obtain ⟨line, lineage⟩ := exists_lineage accepted listed
    exact ⟨line, lineage, lineage.names_nodup (distinct_definitions accepted) listed⟩
  · intro broken
    cases built : build parser definitions with
    | error failure => exact ⟨failure, rfl⟩
    | ok model =>
      rcases broken with ⟨name, closed⟩ | ⟨name, upper, linked, unknown⟩
      · exact absurd closed (links_acyclic built name)
      · obtain ⟨parent, listed, named⟩ := exists_of_links built linked
        exact absurd named (unknown parent listed)

/-- Managers and employees that extend each other. -/
def circle : List EntityDefinition := [
  { name := "Manager", superType := some "Employee", table := some "managers" },
  { name := "Employee", superType := some "Manager", table := some "employees" }]

/-- The staff is accepted either way round with the same manager, and a circle is refused. -/
theorem build_in_any_order_staff :
    (∃ model other, ofDefinitions staff = .ok model ∧ ofDefinitions staff.reverse = .ok other ∧
      model.shape? "Manager" = other.shape? "Manager" ∧
      ∃ entity, model.resolve? "Manager" = some (.concrete entity) ∧
        other.resolve? "Manager" = some (.concrete entity)) ∧
    ∃ failure, ofDefinitions circle = .error failure := by
  constructor
  · obtain ⟨⟨forth, _⟩, same⟩ :=
      (build_in_any_order _ staff).1 staff.reverse staff.reverse_perm.symm
    have checked : inheritsPlace staff "Manager" "Person" "email" (1, "address") = true := by
      decide +kernel
    obtain ⟨model, accepted, _⟩ := exists_of_inheritsPlace checked
    obtain ⟨other, acceptedToo⟩ := forth ⟨model, accepted⟩
    obtain ⟨answers, named⟩ := same model other accepted acceptedToo
    obtain ⟨entity, shape, resolved, resolvedToo, _⟩ := named _ List.mem_cons_self
    exact ⟨model, other, accepted, acceptedToo, (answers "Manager").2.1, entity, resolved, resolvedToo⟩
  · refine (build_in_any_order _ circle).2.2 (.inl ⟨"Manager", ?_⟩)
    exact .tail (.single ⟨_, List.mem_cons_self, rfl, rfl⟩)
      ⟨_, List.mem_cons_of_mem _ List.mem_cons_self, rfl, rfl⟩

end Model
end ObjectQuery

import ObjectQuery.Proofs.Model.Ancestry
/-!
# The roots of an interface

An entity implements an interface if its definition or that of an ancestor lists it. A name that
stands for no entity stands for the topmost entities that implement it. The main statement is that
these roots leave nobody out and count nobody twice: whoever implements the name is one of the roots
or inherits from one, and never from two.
-/
namespace ObjectQuery

variable {parser : SqlParser} {definitions : List EntityDefinition} {model : Model}

/-- The entities that a reference stands for. -/
def EntityReference.denoted : EntityReference → List EntityType
  | concrete entity => [entity]
  | polymorphic _ implementors => implementors

namespace Model

/-- One of the definitions of the entity's name lists the interface. -/
def Declares (definitions : List EntityDefinition) (entity : EntityType) (interface : String) : Prop :=
  ∃ definition ∈ definitions, definition.name = entity.name ∧ interface ∈ definition.interfaces

/-- The entity or one that it inherits from lists the interface in its definition. -/
def Implements (definitions : List EntityDefinition) (model : Model) (entity : EntityType)
    (interface : String) : Prop :=
  ∃ ancestor, Relation.ReflTransGen model.Extends entity ancestor ∧
    Declares definitions ancestor interface

/-- The roots stand for all entities that implement the interface, each once. -/
structure CoversImplementors (definitions : List EntityDefinition) (model : Model)
    (interface : String) (roots : List EntityType) : Prop where
  /-- Roots are entities of the model, in its order and without repetition. -/
  ordered : roots.Sublist (model.entities.map (·.entity))
  implementing : ∀ root ∈ roots, Implements definitions model root interface
  /-- No root inherits from another. -/
  unrelated : ∀ root ∈ roots, ∀ other ∈ roots, ¬ Relation.TransGen model.Extends root other
  /-- Whoever implements the interface has one root among itself and its ancestors. -/
  covered : ∀ mapped ∈ model.entities, Implements definitions model mapped.entity interface →
    ∃! root, root ∈ roots ∧ Relation.ReflTransGen model.Extends mapped.entity root

/-! ## Interfaces are inherited -/

/-- An interface of a line is one of its definitions. -/
theorem mem_interfaces {line : List EntityDefinition} {interface : String} :
    interface ∈ interfaces line ↔ ∃ definition ∈ line, interface ∈ definition.interfaces := by
  have collected : ∀ (listed found : List String),
      interface ∈ listed.foldl (fun names name =>
        if names.contains name then names else names ++ [name]) found ↔
          interface ∈ found ∨ interface ∈ listed := by
    intro listed
    induction listed with
    | nil => simp
    | cons name rest ih =>
      intro found
      rw [List.foldl_cons, ih, List.mem_cons]
      split
      · rename_i known
        have already : name ∈ found := by simpa using known
        constructor
        · rintro (earlier | later)
          · exact .inl earlier
          · exact .inr (.inr later)
        · rintro (earlier | rfl | later)
          · exact .inl earlier
          · exact .inl already
          · exact .inr later
      · rw [List.mem_append, List.mem_singleton, or_assoc]
  rw [interfaces, collected]
  simp

/-- The interfaces of an entity are its own and those of the entity it extends.

Proof: by cases on the super type. The line of an entity is that of its parent with its own
definition behind it. -/
theorem mem_interfaces_iff (accepted : build parser definitions = .ok model) {mapped : MappedEntity}
    (member : mapped ∈ model.entities) {interface : String} :
    interface ∈ mapped.entity.interfaces ↔ Declares definitions mapped.entity interface ∨
      ∃ parent, model.Extends mapped.entity parent ∧ interface ∈ parent.interfaces := by
  obtain ⟨definition, listed, line, described⟩ := exists_describes accepted member
  have own : Declares definitions mapped.entity interface ↔ interface ∈ definition.interfaces := by
    constructor
    · rintro ⟨other, listedToo, named, declared⟩
      rwa [List.inj_on_of_nodup_map (distinct_definitions accepted) listed listedToo
        (described.name.symm.trans named.symm)]
    · intro declared
      exact ⟨definition, listed, described.name.symm, declared⟩
  rw [own, described.interfaces, mem_interfaces]
  cases extended : mapped.entity.superType with
  | none =>
    have alone : line = [definition] := by
      rw [described.superType] at extended
      exact described.lineage.unique (distinct_definitions accepted) (.top extended)
    have orphan : ¬ ∃ parent, model.Extends mapped.entity parent ∧ interface ∈ parent.interfaces := by
      rintro ⟨parent, ⟨named, _⟩, _⟩
      rw [extended] at named
      cases named
    simp [alone, orphan]
  | some name =>
    obtain ⟨upper, found, rfl, parent, above, describes, rfl⟩ :=
      exists_parent accepted described extended
    have inherited : (∃ parent, model.Extends mapped.entity parent ∧ interface ∈ parent.interfaces) ↔
        ∃ definition ∈ above, interface ∈ definition.interfaces := by
      rw [← mem_interfaces, ← describes.interfaces]
      constructor
      · rintro ⟨other, extendsOther, listedThere⟩
        rwa [extends_rightUnique accepted (a := mapped.entity) ⟨extended, upper, found, rfl⟩
          extendsOther]
      · intro listedThere
        exact ⟨upper.entity, ⟨extended, upper, found, rfl⟩, listedThere⟩
    rw [inherited]
    simp only [List.mem_append, List.mem_singleton]
    constructor
    · rintro ⟨declaring, higher | rfl, declared⟩
      · exact .inr ⟨declaring, higher, declared⟩
      · exact .inl declared
    · rintro (declared | ⟨declaring, higher, declared⟩)
      · exact ⟨definition, .inr rfl, declared⟩
      · exact ⟨declaring, .inl higher, declared⟩

/-- The interfaces that an accepted entity records are those that it implements. -/
theorem implements_iff (accepted : build parser definitions = .ok model) {interface : String}
    {mapped : MappedEntity} (member : mapped ∈ model.entities) :
    Implements definitions model mapped.entity interface ↔
      interface ∈ mapped.entity.interfaces := by
  -- By induction along the entities that are extended, which are entities of the model as well.
  have all : ∀ entity : EntityType, (∃ mapped ∈ model.entities, mapped.entity = entity) →
      (Implements definitions model entity interface ↔ interface ∈ entity.interfaces) := by
    intro entity
    induction entity using (extends_wellFounded accepted).induction with
    | _ entity ih =>
      rintro ⟨mapped, member, rfl⟩
      rw [mem_interfaces_iff accepted member]
      constructor
      · rintro ⟨ancestor, inherits, declared⟩
        rcases Relation.ReflTransGen.cases_head inherits with rfl | ⟨parent, extended, further⟩
        · exact .inl declared
        · exact .inr ⟨parent, extended, (ih parent extended extended.2).mp ⟨ancestor, further, declared⟩⟩
      · rintro (declared | ⟨parent, extended, listed⟩)
        · exact ⟨mapped.entity, .refl, declared⟩
        · obtain ⟨ancestor, further, declared⟩ := (ih parent extended extended.2).mpr listed
          exact ⟨ancestor, .head extended further, declared⟩
  exact all mapped.entity ⟨mapped, member, rfl⟩

/-! ## Roots -/

/-- A root implements the interface and inherits from nobody who does. -/
theorem mem_rootImplementors (accepted : build parser definitions = .ok model) {interface : String}
    {mapped : MappedEntity} (member : mapped ∈ model.entities) :
    mapped.entity ∈ model.rootImplementors interface ↔
      Implements definitions model mapped.entity interface ∧
        ∀ ancestor, Relation.TransGen model.Extends mapped.entity ancestor →
          ¬ Implements definitions model ancestor interface := by
  have implementing : ∀ entity, entity ∈ model.implementors interface ↔
      (∃ found ∈ model.entities, found.entity = entity) ∧ interface ∈ entity.interfaces := by
    intro entity
    simp [implementors]
  simp only [rootImplementors, List.mem_filter, Bool.not_eq_true', List.any_eq_false,
    List.contains_iff_mem, mem_superTypes accepted member, implementing]
  rw [implements_iff accepted member]
  refine and_congr (and_iff_right ⟨mapped, member, rfl⟩) ⟨fun highest ancestor inherits implemented => ?_,
    fun highest other implemented => ?_⟩
  · obtain ⟨_, _, _, found, known, rfl⟩ := Relation.TransGen.tail'_iff.mp inherits
    exact highest found.entity ⟨⟨found, known, rfl⟩, (implements_iff accepted known).mp implemented⟩
      ⟨found.entity, inherits, rfl⟩
  · rintro ⟨ancestor, inherits, called⟩
    obtain ⟨⟨other, known, rfl⟩, listed⟩ := implemented
    obtain ⟨_, _, _, found, knownToo, rfl⟩ := Relation.TransGen.tail'_iff.mp inherits
    obtain rfl := mapped_inj accepted knownToo known called
    exact highest found.entity inherits ((implements_iff accepted knownToo).mpr listed)

/-- The implementors stand in the order of the model. -/
theorem rootImplementors_sublist (model : Model) (interface : String) :
    (model.rootImplementors interface).Sublist (model.entities.map (·.entity)) :=
  List.filter_sublist.trans List.filter_sublist

/-- Whoever implements an interface is a root or inherits from one. -/
theorem exists_root (accepted : build parser definitions = .ok model) {interface : String}
    (entity : EntityType) (known : ∃ mapped ∈ model.entities, mapped.entity = entity)
    (implemented : Implements definitions model entity interface) :
    ∃ root ∈ model.rootImplementors interface, Relation.ReflTransGen model.Extends entity root := by
  induction entity using (extends_wellFounded accepted).induction with
  | _ entity ih =>
    obtain ⟨mapped, member, rfl⟩ := known
    by_cases highest : ∀ ancestor, Relation.TransGen model.Extends mapped.entity ancestor →
        ¬ Implements definitions model ancestor interface
    · exact ⟨mapped.entity, (mem_rootImplementors accepted member).mpr ⟨implemented, highest⟩, .refl⟩
    · push Not at highest
      obtain ⟨ancestor, inherits, top, further, declared⟩ := highest
      -- The next entity upwards implements the interface too, since the ancestor is above it.
      obtain ⟨parent, extended, between⟩ := Relation.TransGen.head'_iff.mp inherits
      obtain ⟨root, listed, above⟩ :=
        ih parent extended extended.2 ⟨top, between.trans further, declared⟩
      exact ⟨root, listed, .head extended above⟩

/-- The implementors of an interface cover it, each once. -/
theorem rootImplementors_cover (accepted : build parser definitions = .ok model)
    (interface : String) :
    CoversImplementors definitions model interface (model.rootImplementors interface) := by
  have known : ∀ root ∈ model.rootImplementors interface,
      ∃ mapped ∈ model.entities, mapped.entity = root := by
    intro root listed
    simpa using (rootImplementors_sublist model interface).subset listed
  have unrelated : ∀ root ∈ model.rootImplementors interface,
      ∀ other ∈ model.rootImplementors interface, ¬ Relation.TransGen model.Extends root other := by
    intro root listed other listedToo inherits
    obtain ⟨mapped, member, rfl⟩ := known root listed
    obtain ⟨found, memberToo, rfl⟩ := known other listedToo
    exact ((mem_rootImplementors accepted member).mp listed).2 found.entity inherits
      ((mem_rootImplementors accepted memberToo).mp listedToo).1
  refine ⟨rootImplementors_sublist model interface, fun root listed => ?_, unrelated,
    fun mapped member implemented => ?_⟩
  · obtain ⟨mapped, member, rfl⟩ := known root listed
    exact ((mem_rootImplementors accepted member).mp listed).1
  · obtain ⟨root, listed, above⟩ := exists_root accepted mapped.entity ⟨mapped, member, rfl⟩ implemented
    refine ⟨root, ⟨listed, above⟩, ?_⟩
    rintro other ⟨listedToo, aboveToo⟩
    -- Ancestors of one entity are comparable, because an entity extends at most one.
    rcases Relation.ReflTransGen.total_of_right_unique (extends_rightUnique accepted) above aboveToo with
      higher | higher
    · rcases Relation.reflTransGen_iff_eq_or_transGen.mp higher with same | inherits
      · exact same
      · exact absurd inherits (unrelated root listed other listedToo)
    · rcases Relation.reflTransGen_iff_eq_or_transGen.mp higher with same | inherits
      · exact same.symm
      · exact absurd inherits (unrelated other listedToo root listed)

/-- A name that no entity has is not looked up. -/
theorem lookup?_eq_none {name : String} (unnamed : ∀ mapped ∈ model.entities,
    mapped.entity.name ≠ name ∧ mapped.entity.className ≠ some name) : model.lookup? name = none := by
  have unknown : model.entities.find? (·.entity.name == name) = none := by
    simpa [List.find?_eq_none] using fun mapped member => (unnamed mapped member).1
  have unclassed : model.entities.find? (·.entity.className == some name) = none := by
    simpa [List.find?_eq_none] using fun mapped member => (unnamed mapped member).2
  simp [lookup?, entity?, mapped?, unknown, unclassed]

/-- An unknown name is resolved only through implementors. -/
theorem resolve?_eq_none_iff {name : String} (unknown : model.lookup? name = none) :
    model.resolve? name = none ↔ model.rootImplementors name = [] := by
  unfold resolve?
  rw [unknown]
  match model.rootImplementors name with
  | [] => simp
  | [root] => simp
  | first :: second :: rest => simp

/-- A name of no entity stands for its roots, be it one or several. -/
theorem denoted_of_resolve? {name : String} {reference : EntityReference}
    (unknown : model.lookup? name = none) (resolved : model.resolve? name = some reference) :
    reference.denoted = model.rootImplementors name ∧
      ((∃ root, reference = .concrete root) ∨
        ∃ roots, reference = .polymorphic name roots ∧ 2 ≤ roots.length) := by
  unfold resolve? at resolved
  rw [unknown] at resolved
  match roots : model.rootImplementors name with
  | [] =>
    rw [roots] at resolved
    cases resolved
  | [root] =>
    rw [roots] at resolved
    obtain rfl := Option.some.inj resolved
    exact ⟨rfl, .inl ⟨root, rfl⟩⟩
  | first :: second :: rest =>
    rw [roots] at resolved
    obtain rfl := Option.some.inj resolved
    exact ⟨rfl, .inr ⟨_, rfl, by simp⟩⟩

/-- A name of no entity stands for nothing if nobody implements it, and otherwise for one root or for
several, which cover all entities that implement it. -/
theorem resolve?_covers_implementors (accepted : build parser definitions = .ok model)
    {name : String} (unnamed : ∀ mapped ∈ model.entities,
      mapped.entity.name ≠ name ∧ mapped.entity.className ≠ some name) :
    (model.resolve? name = none ↔
      ∀ mapped ∈ model.entities, ¬ Implements definitions model mapped.entity name) ∧
    ∀ reference, model.resolve? name = some reference →
      CoversImplementors definitions model name reference.denoted ∧
        ((∃ root, reference = .concrete root) ∨
          ∃ roots, reference = .polymorphic name roots ∧ 2 ≤ roots.length) := by
  have covers := rootImplementors_cover accepted name
  have unknown := lookup?_eq_none unnamed
  constructor
  · rw [resolve?_eq_none_iff unknown]
    constructor
    · intro empty mapped member implemented
      obtain ⟨root, ⟨listed, _⟩, _⟩ := covers.covered mapped member implemented
      rw [empty] at listed
      cases listed
    · intro nobody
      refine List.eq_nil_iff_forall_not_mem.mpr fun root listed => ?_
      obtain ⟨mapped, member, rfl⟩ := List.mem_map.mp (covers.ordered.subset listed)
      exact nobody mapped member (covers.implementing mapped.entity listed)
  · intro reference resolved
    obtain ⟨denoted, shape⟩ := denoted_of_resolve? unknown resolved
    rw [denoted]
    exact ⟨covers, shape⟩

/-- Funds are no assets, but trusts are, and so are accounts, of which savings say so again. -/
def assets : List EntityDefinition := [
  { name := "Savings", superType := some "Account", interfaces := ["Bearing", "Asset"]
    attributes := [⟨"rate", "double", none, none, none⟩] },
  { name := "Charity", superType := some "Trust" },
  { name := "Account", interfaces := ["Asset"], table := some "accounts"
    attributes := [⟨"id", "long", none, none, none⟩] },
  { name := "Fund", className := some "com.Fund", table := some "funds"
    attributes := [⟨"id", "long", none, none, none⟩] },
  { name := "Trust", superType := some "Fund", interfaces := ["Asset"], table := some "trusts" }]

/-- Whether the definitions make a model in which no entity has the name, but several roots have it. -/
def hasRoots (definitions : List EntityDefinition) (name : String) (roots : List String) : Bool :=
  match ofDefinitions definitions with
  | .error _ => false
  | .ok model =>
    model.entities.all (fun mapped =>
      mapped.entity.name != name && mapped.entity.className != some name) &&
    (model.resolve? name).any fun reference => reference.denoted.map (·.name) == roots

/-- The check on a model finds the entities a name is resolved to. -/
theorem exists_of_hasRoots {name : String} {roots : List String}
    (passed : hasRoots definitions name roots = true) :
    ∃ model reference, ofDefinitions definitions = .ok model ∧
      (∀ mapped ∈ model.entities, mapped.entity.name ≠ name ∧ mapped.entity.className ≠ some name) ∧
      model.resolve? name = some reference ∧ reference.denoted.map (·.name) = roots := by
  unfold hasRoots at passed
  split at passed
  · cases passed
  · rename_i model accepted
    rw [Bool.and_eq_true, Option.any_eq_true_iff_get] at passed
    obtain ⟨unnamed, resolved, same⟩ := passed
    exact ⟨model, _, accepted, by simpa using unnamed, (Option.some_get resolved).symm,
      beq_iff_eq.mp same⟩

/-- An asset is an account or a trust, and nothing else. -/
theorem resolve?_covers_implementors_assets : ∃ model reference,
    ofDefinitions assets = .ok model ∧
    (∀ mapped ∈ model.entities,
      mapped.entity.name ≠ "Asset" ∧ mapped.entity.className ≠ some "Asset") ∧
    model.resolve? "Asset" = some reference ∧
    reference.denoted.map (·.name) = ["Account", "Trust"] ∧
    CoversImplementors assets model "Asset" reference.denoted := by
  have checked : hasRoots assets "Asset" ["Account", "Trust"] = true := by decide +kernel
  obtain ⟨model, reference, accepted, unnamed, resolved, roots⟩ := exists_of_hasRoots checked
  exact ⟨model, reference, accepted, unnamed, resolved, roots,
    ((resolve?_covers_implementors accepted unnamed).2 reference resolved).1⟩

end Model
end ObjectQuery

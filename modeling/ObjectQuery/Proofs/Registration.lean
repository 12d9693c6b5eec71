import ObjectQuery.Proofs.Grammar.FromItems
import ObjectQuery.Proofs.Resolution.Linked
/-!
# Registering in the order of the text

The walk over a statement registers its items in the order of the text. Wherever it stops, what has
been registered is what stands before that place, and the names that have been generated until then
are numbered from zero. Only a name that the text gives twice is refused: a generated name has
brackets, which no name in a text has, and a number of its own.
-/
namespace ObjectQuery

/-- The item that the element was registered for. A generated name is not one of the text. -/
def FromElement.item (element : FromElement) : FromItem :=
  ⟨if element.generated then none else some element.label, element.span⟩

/-- Generated labels of different numbers are different. -/
theorem generatedLabel_inj {number other : Nat}
    (same : generatedLabel number = generatedLabel other) : number = other := by
  have spelled := congrArg String.toList same
  simp only [generatedLabel, String.toList_append, List.append_cancel_left_eq,
    List.append_cancel_right_eq] at spelled
  exact toString_inj spelled

namespace FromIndex

variable {index : FromIndex} {count : Nat} {left more : List FromItem} {label : String}

/-- The items that elements have been registered for. -/
def items (index : FromIndex) : List FromItem := index.elements.map (·.item)

/-- The names that have been generated are the first ones, in the order of registration, and the tables
agree with what has been registered. -/
structure IsNumbered (index : FromIndex) (count : Nat) : Prop where
  mirrored : index.IsMirrored
  generated :
    (index.elements.filter (·.generated)).map (·.label) = (List.range count).map generatedLabel

/-- The next of the items that are left would get a name that an element has. -/
def Refuses (index : FromIndex) (count : Nat) (left : List FromItem) (label : String) : Prop :=
  ∃ item rest, left = item :: rest ∧ item.label.getD (generatedLabel count) = label ∧
    label ∈ index.elements.map (·.label)

/-- A label that is refused is refused with more items behind it. -/
theorem Refuses.append (refused : index.Refuses count left label) :
    index.Refuses count (left ++ more) label := by
  obtain ⟨item, rest, rfl, named, taken⟩ := refused
  exact ⟨item, rest ++ more, rfl, named, taken⟩

namespace IsNumbered

variable {element : FromElement}

/-- A generated label has a number below the counter. -/
theorem exists_of_generated (numbered : index.IsNumbered count) (listed : element ∈ index.elements)
    (generated : element.generated = true) : ∃ number < count, element.label = generatedLabel number := by
  have named : element.label ∈ (index.elements.filter (·.generated)).map (·.label) :=
    List.mem_map.mpr ⟨element, List.mem_filter.mpr ⟨listed, generated⟩, rfl⟩
  rw [numbered.generated] at named
  obtain ⟨number, small, same⟩ := List.mem_map.mp named
  exact ⟨number, List.mem_range.mp small, same.symm⟩

/-- The generated labels are numbered in order. -/
theorem label_eq (numbered : index.IsNumbered count) {number : Nat}
    (found : (index.elements.filter (·.generated))[number]? = some element) :
    element.label = generatedLabel number := by
  have named : ((List.range count).map generatedLabel)[number]? = some element.label := by
    rw [← numbered.generated, List.getElem?_map, found, Option.map_some]
  rw [List.getElem?_map] at named
  obtain ⟨place, there, same⟩ := Option.map_eq_some_iff.mp named
  obtain ⟨_, rfl⟩ := List.getElem?_eq_some_iff.mp there
  rw [← same, List.getElem_range]

end IsNumbered

/-- If the names of items are words, an item is refused only for a name that the text gives both to
it and to an item before it. -/
theorem Refuses.repeats (refused : index.Refuses count left label)
    (numbered : index.IsNumbered count)
    (words : ∀ label ∈ Grammar.labelsOf (index.items ++ left), IsWord label) :
    ∃ item rest, left = item :: rest ∧ item.label = some label ∧
      ∃ earlier ∈ index.items, earlier.label = some label := by
  obtain ⟨item, rest, rfl, named, taken⟩ := refused
  obtain ⟨element, listed, rfl⟩ := List.mem_map.mp taken
  have given : element.generated = false → element.item.label = some element.label := by
    intro kept
    simp [FromElement.item, kept]
  have word : ∀ other ∈ index.items ++ item :: rest, ∀ label, other.label = some label → IsWord label :=
    fun other member label same => words label (List.mem_filterMap.mpr ⟨other, member, same⟩)
  have inside : element.item ∈ index.items ++ item :: rest :=
    List.mem_append_left _ (List.mem_map.mpr ⟨element, listed, rfl⟩)
  cases own : item.label with
  | none =>
    -- The next generated name is neither one of a text nor one that was generated before.
    rw [own, Option.getD_none] at named
    cases generated : element.generated with
    | false => exact absurd named.symm ((word _ inside _ (given generated)).ne_generatedLabel count)
    | true =>
      obtain ⟨number, small, same⟩ := numbered.exists_of_generated listed generated
      rw [same] at named
      have equal := generatedLabel_inj named
      omega
  | some label =>
    rw [own, Option.getD_some] at named
    subst named
    cases generated : element.generated with
    | false =>
      have known : element.item ∈ index.items := List.mem_map.mpr ⟨element, listed, rfl⟩
      exact ⟨item, rest, rfl, own, element.item, known, given generated⟩
    | true =>
      obtain ⟨number, _, same⟩ := numbered.exists_of_generated listed generated
      have next : item ∈ index.items ++ item :: rest := List.mem_append_right _ List.mem_cons_self
      exact absurd same ((word item next _ own).ne_generatedLabel number)

/-- The names that the text gives are names of elements. -/
theorem labelsOf_items (index : FromIndex) :
    (Grammar.labelsOf index.items).Sublist (index.elements.map (·.label)) := by
  rw [items]
  induction index.elements with
  | nil => exact List.nil_sublist _
  | cons element rest inductionHypothesis =>
    cases generated : element.generated with
    | true =>
      have unnamed : element.item.label = none := by simp [FromElement.item, generated]
      rw [List.map_cons, List.map_cons, Grammar.labelsOf, List.filterMap_cons_none unnamed]
      exact inductionHypothesis.cons _
    | false =>
      have named : element.item.label = some element.label := by simp [FromElement.item, generated]
      rw [List.map_cons, List.map_cons, Grammar.labelsOf, List.filterMap_cons_some named]
      exact inductionHypothesis.cons_cons _

end FromIndex

namespace Registering

variable {α β : Type} {items more : List FromItem}

/-- How a step that is to register the items may end: either they have been registered, or some of
them from the first on. A name is refused only if the next item would get one that is taken. -/
inductive Leaves (registry : Registry) (items : List FromItem) :
    Except ResolutionError α × Registry → Prop
  | ok {value : α} {after : Registry} (registered : after.index.items = registry.index.items ++ items)
      (numbered : after.index.IsNumbered after.generated) : Leaves registry items (.ok value, after)
  | error {failure : ResolutionError} {after : Registry} {done left : List FromItem} {count : Nat}
      (split : items = done ++ left) (registered : after.index.items = registry.index.items ++ done)
      (numbered : after.index.IsNumbered count)
      (blamed : ∀ label, failure = .duplicateAlias label → after.index.Refuses count left label) :
      Leaves registry items (.error failure, after)

/-- Every run of the step, whether or not it succeeds, registers the items in order. -/
def Registers (step : Registering α) (items : List FromItem) : Prop :=
  ∀ registry : Registry, registry.index.IsNumbered registry.generated →
    Leaves registry items (step.run.run registry)

/-- The result is not that a name is taken. -/
def Permits (result : Except ResolutionError α) : Prop :=
  ∀ label, result ≠ .error (.duplicateAlias label)

/-- Steps in a row permit what each of them does. -/
theorem Permits.bind {result : Except ResolutionError α} {next : α → Except ResolutionError β}
    (permits : Permits result) (permitsNext : ∀ value, Permits (next value)) :
    Permits (result >>= next) := by
  cases result with
  | error failure =>
    intro label same
    obtain rfl := Except.error.inj same
    exact permits label rfl
  | ok value => exact permitsNext value

namespace Registers

/-- A value is given without any item registered. -/
theorem pure (value : α) : Registers (Pure.pure value : Registering α) [] := by
  intro registry numbered
  exact .ok (List.append_nil _).symm numbered

/-- Reading the registry registers no item. -/
theorem get : Registers (MonadState.get : Registering Registry) [] := by
  intro registry numbered
  exact .ok (List.append_nil _).symm numbered

/-- A result from outside the registry registers no item. -/
theorem lift {result : Except ResolutionError α} (permits : Permits result) :
    Registers (Sources.addRoot.liftExcept result) [] := by
  intro registry numbered
  change Leaves registry [] (result, registry)
  cases result with
  | ok value => exact .ok (List.append_nil _).symm numbered
  | error failure =>
    apply Leaves.error rfl (List.append_nil _).symm numbered
    rintro label rfl
    exact absurd rfl (permits label)

/-- What is left when a step fails is left together with what the next steps were to do. -/
theorem bind {first : Registering α} {next : α → Registering β} (registers : Registers first items)
    (registersNext : ∀ value, Registers (next value) more) :
    Registers (first >>= next) (items ++ more) := by
  intro registry numbered
  have begun := registers registry numbered
  rw [ExceptT.run_bind, StateT.run_bind]
  generalize first.run.run registry = ran at begun ⊢
  cases begun with
  | @error failure after done left count split registered numbered blamed =>
    have whole : items ++ more = done ++ (left ++ more) := by rw [split, List.append_assoc]
    exact .error whole registered numbered fun label same => (blamed label same).append
  | @ok value between registered numbered =>
    have continued := registersNext value between numbered
    change Leaves registry (items ++ more) ((next value).run.run between)
    generalize (next value).run.run between = ranOn at continued ⊢
    cases continued with
    | ok registeredToo numberedToo =>
      refine .ok ?_ numberedToo
      rw [registeredToo, registered, List.append_assoc]
    | @error failure after done left count split registeredToo numberedToo blamed =>
      have whole : items ++ more = (items ++ done) ++ left := by rw [split, List.append_assoc]
      refine .error whole ?_ numberedToo blamed
      rw [registeredToo, registered, List.append_assoc]

/-- A step that comes before the items of another. -/
theorem skip {first : Registering α} {next : α → Registering β} (registers : Registers first [])
    (registersNext : ∀ value, Registers (next value) items) : Registers (first >>= next) items :=
  bind registers registersNext

/-- A call that is refused before it changes anything, and not for a name, and that registers no
element. -/
theorem changeIndex {call : Indexing Nat} (safe : call.IsSafe) (permits : ∀ index, Permits (call.on index))
    (keeps : ∀ index after number, index.IsMirrored → call.on index = .ok (after, number) →
      after.elements = index.elements ∧ after.IsMirrored) : Registers (changeIndex call) [] := by
  intro registry numbered
  rw [run_changeIndex_of_isSafe safe]
  cases changed : call.on registry.index with
  | error failure =>
    apply Leaves.error rfl (List.append_nil _).symm numbered
    rintro label rfl
    exact absurd changed (permits _ label)
  | ok answer =>
    obtain ⟨index, number⟩ := answer
    obtain ⟨kept, mirrored⟩ := keeps _ _ _ numbered.mirrored changed
    apply Leaves.ok
    · rw [List.append_nil, FromIndex.items, kept, FromIndex.items]
    · exact ⟨mirrored, kept ▸ numbered.generated⟩

/-- A scope is no element. -/
theorem addScope (parent : Option Nat) (span : Span) : Registers (addScope parent span) [] := by
  apply changeIndex (Indexing.addScope_isSafe parent span)
  · intro index label same
    rw [Indexing.on_addScope] at same
    cases same
  · intro index after number mirrored same
    rw [Indexing.on_addScope] at same
    obtain rfl : (index.addScope parent span).1 = after := congrArg Prod.fst (Except.ok.inj same)
    exact ⟨by rw [FromIndex.addScope_eq], mirrored.addScope parent span⟩

/-- A space is no element. -/
theorem addSpace (clause : Nat) : Registers (addSpace clause) [] := by
  apply changeIndex (Indexing.addSpace_isSafe clause)
  · intro index label same
    unfold Indexing.on at same
    rw [Indexing.run_addSpace] at same
    cases there : index.scopes[clause]? <;> rw [there] at same <;> cases same
  · intro index after number mirrored same
    exact ⟨(FromIndex.addSpace_keeps same).1, mirrored.addSpace same⟩

end Registers

/-- The element that is registered for an item, under its name or the next generated one. -/
def elementFor (label : Option (Spanned String)) (count : Nat) (entity : EntityReference)
    (origin : FromOrigin) (clause space : Nat) (span : Span) : FromElement :=
  ⟨(nameFor label count).1, (nameFor label count).2.1, entity, origin, clause, space, span⟩

/-- An element that is refused has used up a name only if one was generated for it. -/
theorem run_addElement (label : Option (Spanned String)) (entity : EntityReference)
    (origin : FromOrigin) (clause space : Nat) (span : Span) (registry : Registry) :
    (addElement label entity origin clause space span).run.run registry =
      match registry.index.register
        (elementFor label registry.generated entity origin clause space span) with
      | .error failure => (.error failure, ⟨registry.index, (nameFor label registry.generated).2.2⟩)
      | .ok (index, _) => (.ok (), ⟨index, (nameFor label registry.generated).2.2⟩) := by
  have registers (element : FromElement) (count : Nat) :
      StateT.run (ExceptT.run (do let _ ← changeIndex (Indexing.register element)))
        (Registry.mk registry.index count) =
          match registry.index.register element with
          | .error failure => (.error failure, ⟨registry.index, count⟩)
          | .ok (index, _) => (.ok (), ⟨index, count⟩) := by
    rw [ExceptT.run_bind, StateT.run_bind,
      run_changeIndex_of_isSafe (Indexing.register_isSafe element)]
    unfold FromIndex.register
    cases (Indexing.register element).on registry.index <;> rfl
  have drawn (next : String → Registering Unit) :
      (nextLabel >>= next).run.run registry =
        (next (generatedLabel registry.generated)).run.run ⟨registry.index, registry.generated + 1⟩ :=
    rfl
  cases label with
  | none =>
    simp only [addElement]
    rw [drawn]
    exact registers _ (registry.generated + 1)
  | some label => exact registers _ registry.generated

/-- An element stands for the item that it is registered for. -/
theorem item_elementFor (label : Option (Spanned String)) (count : Nat) (entity : EntityReference)
    (origin : FromOrigin) (clause space : Nat) (span : Span) :
    (elementFor label count entity origin clause space span).item = ⟨label.map (·.value), span⟩ := by
  cases label <;> rfl

/-- An element under the next generated name goes on with the numbers, and any other leaves them. -/
theorem isNumbered_elementFor {index after : FromIndex} {label : Option (Spanned String)}
    {count : Nat} {entity : EntityReference} {origin : FromOrigin} {clause space : Nat} {span : Span}
    (numbered : index.IsNumbered count) {number : Nat}
    (registered : index.register (elementFor label count entity origin clause space span) =
      .ok (after, number)) : after.IsNumbered (nameFor label count).2.2 := by
  refine ⟨numbered.mirrored.register registered, ?_⟩
  rw [(FromIndex.register_adds registered).1, List.filter_append, List.map_append, numbered.generated]
  cases label with
  | none =>
    rw [nameFor, List.range_succ, List.map_append]
    rfl
  | some label => exact List.append_nil _

/-- An element is registered for its item, unless its name is taken. -/
theorem Registers.addElement (label : Option (Spanned String)) (entity : EntityReference)
    (origin : FromOrigin) (clause space : Nat) (span : Span) :
    Registers (addElement label entity origin clause space span) [⟨label.map (·.value), span⟩] := by
  intro registry numbered
  rw [run_addElement]
  cases registered : registry.index.register
    (elementFor label registry.generated entity origin clause space span) with
  | error failure =>
    refine .error (List.nil_append _).symm (List.append_nil _).symm numbered ?_
    rintro wanted rfl
    obtain ⟨rfl, taken⟩ := FromIndex.register_duplicate registered
    rw [numbered.mirrored.labels, isSome_lookup_listing] at taken
    refine ⟨_, [], rfl, ?_, taken⟩
    cases label <;> rfl
  | ok answer =>
    obtain ⟨index, number⟩ := answer
    refine .ok ?_ (isNumbered_elementFor numbered registered)
    rw [FromIndex.items, (FromIndex.register_adds registered).1, List.map_append, List.map_singleton,
      item_elementFor]
    rfl

end Registering

namespace Sources

open Grammar (RootRef Path)
open Registering

variable {catalog : Catalog}

/-! ## What is looked up -/

/-- Looking up an entity only fails for a fault of the text. -/
theorem resolveEntity_permits (name : String) : Permits (resolveEntity catalog name) := by
  intro label same
  unfold resolveEntity at same
  split at same <;> cases same

/-- Following an association only fails for a fault of the text. -/
theorem associationTarget_permits (name : String) (isLast : Bool) (type : DataType) :
    Permits (associationTarget name isLast type) := by
  intro label same
  unfold associationTarget at same
  split at same
  · cases same
  · cases same
  · split at same
    · split at same <;> cases same
    · cases same

/-- Following the names of a path only fails for a fault of the text. -/
theorem follow_permits (current : EntityReference) (names : List String) :
    Permits (follow catalog current names) := by
  induction names generalizing current with
  | nil =>
    intro label same
    cases same
  | cons name rest inductionHypothesis =>
    rw [follow]
    cases current.attribute? name with
    | none =>
      intro label same
      cases same
    | some type =>
      apply (associationTarget_permits name rest.isEmpty type).bind
      intro target
      apply (resolveEntity_permits target.1).bind
      intro entity
      split
      · intro label same
        cases same
      · exact inductionHypothesis entity

/-- Finding the target of a join only fails for a fault of the text. -/
theorem joinTarget_permits (index : FromIndex) (clause : Nat) (path : Path Grammar.Expr) :
    Permits (joinTarget catalog index clause path) := by
  unfold joinTarget
  dsimp only
  by_cases simple : path.isSimple = true
  · rw [if_pos simple]
    split
    · apply (follow_permits _ _).bind
      intro found label same
      cases same
    · apply (resolveEntity_permits _).bind
      intro entity label same
      cases same
  · rw [if_neg simple]
    intro label same
    cases same

/-! ## The walk -/

/-- A root registers its own item. -/
theorem addRoot_registers (clause space : Nat) (root : RootRef) :
    Registers (addRoot catalog clause space root) [root.item] :=
  .skip (.lift (resolveEntity_permits _)) fun entity =>
    .addElement root.label entity .root clause space root.span

/-- A join registers its own item. -/
theorem addJoin_registers (clause space : Nat) (target : Path Grammar.Expr)
    (label : Option (Spanned String)) (span : Span) :
    Registers (addJoin catalog clause space target label span) [⟨label.map (·.value), span⟩] :=
  .skip .get fun registry => .skip (.lift (joinTarget_permits registry.index clause target))
    fun (entity, origin) => .addElement label entity origin clause space span

mutual

/-- A query registers the items of its clauses in the order they are written. -/
theorem addQuery_registers (parent : Option Nat) : ∀ query : Grammar.Query Grammar.Predicate,
    Registers (addQuery catalog parent query) (Grammar.queryItems query)
  | ⟨select, ⟨spaces, span⟩, filter, whole⟩ => by
    rw [addQuery, Grammar.queryItems]
    exact .skip (.addScope parent span) fun clause =>
      .bind (addSpaces_registers clause spaces) fun _ => addFilter_registers clause filter

/-- The spaces of a clause register their items in the order they are written. -/
theorem addSpaces_registers (clause : Nat) :
    ∀ spaces : List (Grammar.FromSpace Grammar.Predicate),
      Registers (addSpaces catalog clause spaces) (Grammar.spaceItems spaces)
  | [] => by
    rw [addSpaces, Grammar.spaceItems]
    exact .pure ()
  | ⟨root, joins, _⟩ :: rest => by
    rw [addSpaces, Grammar.spaceItems]
    exact .skip (.addSpace clause) fun space => .bind (addRoot_registers clause space root) fun _ =>
      .bind (addJoins_registers clause space joins) fun _ => addSpaces_registers clause rest

/-- The joins of a space register their items in the order they are written. -/
theorem addJoins_registers (clause space : Nat) :
    ∀ joins : List (Grammar.Join Grammar.Predicate),
      Registers (addJoins catalog clause space joins) (Grammar.joinItems joins)
  | [] => by
    rw [addJoins, Grammar.joinItems]
    exact .pure ()
  | ⟨_, _, target, label, predicate, span⟩ :: rest => by
    rw [addJoins, Grammar.joinItems]
    exact .bind (addJoin_registers clause space target label span) fun _ =>
      .bind (addFilter_registers clause predicate) fun _ => addJoins_registers clause space rest

/-- A filter registers the items of its sub-queries. -/
theorem addFilter_registers (clause : Nat) : ∀ filter : Option Grammar.Predicate,
    Registers (addFilter catalog clause filter) (Grammar.filterItems filter)
  | none => by
    rw [addFilter, Grammar.filterItems]
    exact .pure ()
  | some predicate => by
    rw [addFilter, Grammar.filterItems]
    exact addPredicate_registers clause predicate

/-- A predicate registers the items of its sub-queries. -/
theorem addPredicate_registers (clause : Nat) : ∀ predicate : Grammar.Predicate,
    Registers (addPredicate catalog clause predicate) predicate.items
  | .and _ left right | .or _ left right => by
    rw [addPredicate, Grammar.Predicate.items]
    exact .bind (addPredicate_registers clause left) fun _ => addPredicate_registers clause right
  | .not _ operand => by
    rw [addPredicate, Grammar.Predicate.items]
    exact addPredicate_registers clause operand
  | .inQuery _ _ query _ => by
    rw [addPredicate, Grammar.Predicate.items]
    exact addQuery_registers (some clause) query
  | .compare _ _ _ _ | .inList _ _ _ _ | .memberOf _ _ _ _ | .isNull _ _ _ | .like _ _ _ _
  | .between _ _ _ _ _ => .pure ()

end

/-- A bulk statement registers its target in front of its filter. -/
theorem addTarget_registers (target : RootRef) (filter : Option Grammar.Predicate) :
    Registers (do let clause ← addTarget catalog target; addFilter catalog clause filter)
      (target.item :: Grammar.filterItems filter) := by
  simp only [addTarget, bind_assoc, pure_bind]
  exact .skip (.addScope none target.span) fun clause => .skip (.addSpace clause) fun space =>
    .bind (addRoot_registers clause space target) fun _ => addFilter_registers clause filter

/-- The walk over a statement registers its items in the order of the text. -/
theorem addStatement_registers : ∀ statement : Grammar.Statement,
    Registers (addStatement catalog statement) statement.items
  | .select query _ => addQuery_registers none query
  | .update target _ filter | .delete target filter => addTarget_registers target filter

/-- What registering a statement comes to, wherever it stops. -/
structure Orderly (statement : Grammar.Statement) (outcome : Except ResolutionError Unit)
    (index : FromIndex) : Prop where
  /-- Elements start one behind the other. -/
  increasing : (index.elements.map (·.span.start)).Pairwise (· < ·)
  /-- They are those of the first items of the statement. -/
  begun : ∃ left, statement.items = index.items ++ left
  /-- Elements without a name in the text are numbered from zero. -/
  numbered : ∀ number element, (index.elements.filter (·.generated))[number]? = some element →
    element.label = generatedLabel number
  /-- A name is refused to the next item if the text gives it to an item before it. -/
  refused : ∀ label, outcome = .error (.duplicateAlias label) →
    ∃ item rest, statement.items = index.items ++ item :: rest ∧ item.label = some label ∧
      ∃ earlier ∈ index.items, earlier.label = some label
  /-- If nothing is refused, the text gives no name twice. -/
  distinct : outcome = .ok () → (Grammar.labelsOf statement.items).Nodup
  /-- If nothing is refused, each item of the statement is registered once. -/
  complete : outcome = .ok () → index.items = statement.items ∧ index.items.Nodup

/-- The sources of a text are registered in order, under names that do not clash.

Proof: the walk registers the items of the tree in their order, up to the one that it is refused
for. The parser has placed them one behind the other, so their starts increase. -/
theorem register_orderly {source : String} {tree : Grammar.Statement}
    (parsed : Grammar.Statement.parse source = .ok tree) (catalog : Catalog) :
    Orderly tree (register catalog tree).1 (register catalog tree).2.index := by
  have start : Registry.empty.index.IsNumbered Registry.empty.generated :=
    ⟨FromIndex.isMirrored_empty, rfl⟩
  have leaves : Leaves Registry.empty tree.items (register catalog tree) :=
    addStatement_registers tree Registry.empty start
  have words := Grammar.parse_items_isWord parsed
  cases ran : register catalog tree with
  | mk outcome after =>
    rw [ran] at leaves
    have increasing : ∀ left, tree.items = after.index.items ++ left →
        (after.index.items.map (·.span.start)).Pairwise (· < ·) := by
      intro left split
      have ordered := Grammar.parse_items_increase parsed
      rw [split, List.map_append] at ordered
      exact (List.pairwise_append.mp ordered).1
    have starts : after.index.elements.map (·.span.start) = after.index.items.map (·.span.start) := by
      rw [FromIndex.items, List.map_map]
      rfl
    cases leaves with
    | ok registered numbered =>
      have all : tree.items = after.index.items ++ [] := by
        rw [registered, List.append_nil]
        rfl
      have linked : after.index.IsLinked catalog := by
        apply ofStatement_isLinked (Grammar.parse_isPlainName parsed)
        rw [ofStatement, ran]
      refine ⟨starts ▸ increasing [] all, ⟨[], all⟩, fun number element => numbered.label_eq, ?_, ?_, ?_⟩
      · intro label same
        cases same
      · intro _
        rw [all, List.append_nil]
        exact linked.distinct.sublist after.index.labelsOf_items
      · intro _
        refine ⟨by rw [all, List.append_nil], ?_⟩
        apply List.Nodup.of_map (·.span.start)
        exact (increasing [] all).imp Nat.ne_of_lt
    | @error failure after done left count split registered numbered blamed =>
      have part : tree.items = after.index.items ++ left := by
        rw [split, registered]
        rfl
      refine ⟨starts ▸ increasing left part, ⟨left, part⟩, fun number element => numbered.label_eq,
        ?_, ?_, ?_⟩
      · intro label same
        obtain rfl := Except.error.inj same
        obtain ⟨item, rest, rfl, own, earlier⟩ := (blamed label rfl).repeats numbered (part ▸ words)
        exact ⟨item, rest, part, own, earlier⟩
      · intro same
        cases same
      · intro same
        cases same

/-- Whether a name is refused after elements with these names have been registered. -/
def stopsAfter (catalog : Catalog) (source : String) (labels : List String) (refused : String) : Bool :=
  match Grammar.Statement.parse source with
  | .error _ => false
  | .ok tree => (register catalog tree).1 = .error (.duplicateAlias refused) ∧
      (register catalog tree).2.index.elements.map (·.label) = labels

/-- The check on a text finds its tree, the labels in the index and the label refused. -/
theorem exists_of_stopsAfter {catalog : Catalog} {source refused : String} {labels : List String}
    (passed : stopsAfter catalog source labels refused = true) :
    ∃ tree, Grammar.Statement.parse source = .ok tree ∧
      (register catalog tree).1 = .error (.duplicateAlias refused) ∧
      (register catalog tree).2.index.elements.map (·.label) = labels := by
  unfold stopsAfter at passed
  split at passed
  · cases passed
  · rename_i tree parsed
    exact ⟨tree, parsed, of_decide_eq_true passed⟩

/-- A catalog in which every name is that of an entity without attributes. -/
def bareCatalog : Catalog where
  resolve? name := some (.concrete ⟨name, none, none, [], []⟩)
  entity? _ := none
  shape? _ := none

/-- The second source labelled `c` is refused, and those in front of it stay registered in order. -/
theorem register_orderly_twoCities : ∃ tree, Grammar.Statement.parse
      "from City c join Office on 1 in (select 1 from City, Office o) join City c where 1 in (from City)" =
        .ok tree ∧
    (register bareCatalog tree).1 = .error (.duplicateAlias "c") ∧
    (register bareCatalog tree).2.index.elements.map (·.label) = ["c", "<gen:0>", "<gen:1>", "o"] ∧
    Orderly tree (register bareCatalog tree).1 (register bareCatalog tree).2.index := by
  have checked : stopsAfter bareCatalog
      "from City c join Office on 1 in (select 1 from City, Office o) join City c where 1 in (from City)"
      ["c", "<gen:0>", "<gen:1>", "o"] "c" = true := by
    decide +kernel
  obtain ⟨tree, parsed, refused, labels⟩ := exists_of_stopsAfter checked
  exact ⟨tree, parsed, refused, labels, register_orderly parsed bareCatalog⟩

end Sources
end ObjectQuery

import Mathlib.Data.List.Forall2
import Mathlib.Data.Option.Basic
import ObjectQuery.Proofs.Resolved.Conditions
import ObjectQuery.Proofs.Resolved.Recorded
/-!
# Types filled in

Typing the parameters of a statement from their surroundings is looked at here as a change to the
statement. The statement without the types of its parameters stays the same. A parameter that has a type
keeps it, and one that has none is given one that the statement offers: the type of an expression, of
what is assigned, of the elements of a collection or of an index, or that of text for what is matched
with a pattern.

This is shown along the walk of the inference, for each kind of expression and of condition. Whatever a
walk over a part of the statement looks at is part of the statement, so that all of it is on offer.
-/
namespace ObjectQuery

/-- The parameter has kept its kind, and its type if it had one. If it had none, it has none still or
one of those on offer. -/
structure Parameter.FilledFrom (offers : DataType → Prop) (before after : Parameter) : Prop where
  kind : after.kind = before.kind
  kept : ∀ type, before.type = some type → after.type = some type
  offered : before.type = none → ∀ type, after.type = some type → offers type

namespace Parameter.FilledFrom

variable {offers : DataType → Prop} {before between after : Parameter}

/-- A parameter is filled from itself. -/
theorem refl (parameter : Parameter) : parameter.FilledFrom offers parameter :=
  ⟨rfl, fun _ typed => typed, fun untyped _ typed => by rw [untyped] at typed; cases typed⟩

/-- Filling twice is filling. -/
theorem trans (first : before.FilledFrom offers between) (second : between.FilledFrom offers after) :
    before.FilledFrom offers after := by
  refine ⟨second.kind.trans first.kind, fun type typed => second.kept type (first.kept type typed), ?_⟩
  intro untyped type typed
  cases met : between.type with
  | none => exact second.offered met type typed
  | some early =>
    obtain rfl := Option.some.inj ((second.kept early met).symm.trans typed)
    exact first.offered untyped early met

/-- Parameters are filled from themselves. -/
theorem refl_all (parameters : List Parameter) :
    List.Forall₂ (FilledFrom offers) parameters parameters :=
  List.forall₂_same.mpr fun parameter _ => refl parameter

/-- Parameters that are filled in twice, one for one, are filled in. -/
theorem trans_all {before between after : List Parameter}
    (first : List.Forall₂ (FilledFrom offers) before between)
    (second : List.Forall₂ (FilledFrom offers) between after) :
    List.Forall₂ (FilledFrom offers) before after := by
  induction first generalizing after with
  | nil => exact second
  | cons filled _ ih =>
    obtain _ | ⟨filledToo, rest⟩ := second
    exact .cons (filled.trans filledToo) (ih rest)

end Parameter.FilledFrom

namespace Resolved

/-- The types that a statement has to offer to its parameters. -/
inductive Statement.Offers (statement : Statement) : DataType → Prop
  /-- Whatever is matched with a pattern is text. -/
  | pattern {operand pattern : Expr} {negated : Bool}
      (listed : .like operand pattern negated ∈ statement.conditions) : Offers statement (.basic .string)
  /-- The type of an expression. -/
  | expression {expr : Expr} {type : DataType} (listed : expr ∈ statement.nodes)
      (typed : expr.type? = some type) : Offers statement type
  /-- The type of what is assigned. -/
  | target {assignment : Assignment} (listed : assignment ∈ statement.assignments) :
      Offers statement assignment.target.type
  /-- The type of the elements of a collection that a membership test looks into. -/
  | member {element : Expr} {collection : Reference Expr} {negated : Bool} {type : DataType}
      (listed : .memberOf element collection negated ∈ statement.conditions)
      (typed : collection.type.element? = some type) : Offers statement type
  /-- The type of an index. -/
  | index {reference : Reference Expr} {segment : Segment Expr} {type : DataType}
      (listed : .path reference ∈ statement.nodes) (along : segment ∈ reference.segments)
      (typed : segment.indexType? = some type) : Offers statement type

/-- Takes the types of parameters off and nothing else. -/
def erasing : Retyping := .ofParameters fun _ => none

/-- The statement without the types of its parameters. -/
def Statement.erased (statement : Statement) : Statement := statement.retype erasing

/-- Something with expressions inside it has changed in nothing but the types of its parameters, and
these are filled in with what is on offer. -/
structure Filled {α : Type} (offers : DataType → Prop) (erase : α → α) (nodes : α → List Expr)
    (before after : α) : Prop where
  erased : erase after = erase before
  occurrences : List.Forall₂ (Parameter.FilledFrom offers)
    ((nodes before).filterMap Expr.parameter?) ((nodes after).filterMap Expr.parameter?)

namespace Filled

variable {α : Type} {offers : DataType → Prop} {erase : α → α} {nodes : α → List Expr}

/-- A tree is filled from itself. -/
theorem refl (given : α) : Filled offers erase nodes given given :=
  ⟨rfl, Parameter.FilledFrom.refl_all _⟩

/-- Filling a tree twice is filling it. -/
theorem trans {before between after : α} (first : Filled offers erase nodes before between)
    (second : Filled offers erase nodes between after) : Filled offers erase nodes before after :=
  ⟨second.erased.trans first.erased, Parameter.FilledFrom.trans_all first.occurrences second.occurrences⟩

/-- A list is filled if each of its items is. -/
theorem map {change : α → α} : ∀ {items : List α},
    (∀ item ∈ items, Filled offers erase nodes item (change item)) →
      Filled offers (List.map erase) (List.flatMap nodes) items (items.map change)
  | [], _ => refl []
  | item :: rest, each => by
    obtain ⟨first, others⟩ := List.forall_mem_cons.mp each
    have later := map others
    refine ⟨by rw [List.map_cons, List.map_cons, List.map_cons, first.erased, later.erased], ?_⟩
    simpa using List.rel_append first.occurrences later.occurrences

end Filled

/-! ## Expressions -/

/-- An expression is one of its own nodes. -/
theorem Expr.self_mem_nodes (expr : Expr) : expr ∈ expr.nodes := by
  cases expr <;> simp [Expr.nodes]

/-- The type of an expression does not depend on those of the parameters inside it. -/
@[simp] theorem Expr.type?_infer : ∀ expr : Expr, expr.infer.type? = expr.type?
  | .path ⟨source, sourceType, init, ⟨label, declared, index, after⟩, type⟩ => by
    cases index <;> simp [Expr.infer, Expr.type?, inferIndex]
  | .negate operand => by simp [Expr.infer, Expr.type?, operand.type?_infer]
  | .arithmetic op left right type => by simp [Expr.infer, Expr.type?]
  | .call function distinct argument type => by simp [Expr.infer, Expr.type?]
  | .element label type => by simp [Expr.infer]
  | .literal value => by simp [Expr.infer]
  | .parameter bound => by simp [Expr.infer]

/-- A type may be given before inference or after it. -/
theorem Expr.infer_withType (type : Option DataType) (expr : Expr) :
    (expr.withType type).infer = expr.infer.withType type := by
  cases expr with
  | parameter bound => obtain ⟨kind, _ | own⟩ := bound <;> simp [Expr.withType, Expr.infer]
  | _ => simp [Expr.withType, Expr.infer]

section Fills

variable (statement : Statement)

/-- The expression has been filled in with what the statement offers. -/
abbrev Expr.Fills (before after : Expr) : Prop :=
  Filled statement.Offers (Expr.retype erasing) Expr.nodes before after

/-- The predicate has been filled in with what the statement offers. -/
abbrev Predicate.Fills (before after : Predicate) : Prop :=
  Filled statement.Offers (Predicate.retype erasing) Predicate.nodes before after

variable {statement}

/-- A type the statement offers fills an expression. -/
theorem Expr.fills_withType {type : Option DataType}
    (offered : ∀ given, type = some given → statement.Offers given) (expr : Expr) :
    expr.Fills statement (expr.withType type) := by
  unfold Expr.withType
  split
  · refine ⟨by simp only [Expr.retype]; rfl, .cons ⟨rfl, nofun, fun _ => offered⟩ .nil⟩
  · exact .refl _

/-- What an expression offers if it is part of the statement. -/
theorem Expr.offers_type {expr : Expr} (within : expr.nodes ⊆ statement.nodes) :
    ∀ type, expr.type? = some type → statement.Offers type :=
  fun _ typed => .expression (within expr.self_mem_nodes) typed

mutual

/-- Inference fills an expression from what the statement offers. -/
theorem Expr.fills_infer : ∀ expr : Expr, expr.nodes ⊆ statement.nodes →
    expr.Fills statement expr.infer
  | .path ⟨source, sourceType, init, ⟨label, declared, index, after⟩, type⟩, within => by
    have listed := within (Expr.self_mem_nodes _)
    have offered : ∀ segment ∈ init ++ [⟨label, declared, index, after⟩], ∀ type,
        segment.indexType? = some type → statement.Offers type :=
      fun segment along type typed => .index listed along typed
    rw [List.forall_mem_append, List.forall_mem_singleton] at offered
    simp only [Expr.nodes, List.cons_subset, List.append_subset] at within
    have inner := fills_inferSegments init within.2.1 offered.1
    -- A segment offers the type of an index only if it has one.
    have last := fills_inferIndex declared.index? index within.2.2 fun some type typed =>
      offered.2 type (by rw [Segment.indexType?, if_pos some, typed])
    refine ⟨?_, ?_⟩
    · simp only [Expr.infer, Expr.retype, inner.erased, last.erased]
    · simpa [Expr.infer, Expr.nodes, List.filterMap_cons, Expr.parameter?] using
        List.rel_append inner.occurrences last.occurrences
  | .arithmetic op left right type, within => by
    have offered : ∀ given, type.map DataType.basic = some given → statement.Offers given :=
      Expr.offers_type within
    simp only [Expr.nodes, List.cons_subset, List.append_subset] at within
    have first := (left.fills_infer within.2.1).trans (left.infer.fills_withType offered)
    have second := (right.fills_infer within.2.2).trans (right.infer.fills_withType offered)
    refine ⟨?_, ?_⟩
    · rw [Expr.infer, Expr.retype, Expr.retype, first.erased, second.erased]
    · simpa [Expr.infer, Expr.nodes, List.filterMap_cons, Expr.parameter?] using
        List.rel_append first.occurrences second.occurrences
  | .negate operand, within => by
    simp only [Expr.nodes, List.cons_subset] at within
    have inner := operand.fills_infer within.2
    refine ⟨?_, ?_⟩
    · rw [Expr.infer, Expr.retype, Expr.retype, inner.erased]
    · simpa [Expr.infer, Expr.nodes, List.filterMap_cons, Expr.parameter?] using inner.occurrences
  | .call function distinct argument type, within => by
    simp only [Expr.nodes, List.cons_subset] at within
    have inner := fills_inferIndex none argument within.2 nofun
    refine ⟨?_, ?_⟩
    · rw [Expr.infer, Expr.retype, Expr.retype, inner.erased]
    · simpa [Expr.infer, Expr.nodes, List.filterMap_cons, Expr.parameter?] using inner.occurrences
  | .element label type, _ => by rw [Expr.infer]; exact .refl _
  | .literal value, _ => by rw [Expr.infer]; exact .refl _
  | .parameter bound, _ => by rw [Expr.infer]; exact .refl _

/-- Inference fills an index from what the statement offers. -/
theorem fills_inferIndex (type : Option DataType) : ∀ index : Option Expr,
    indexNodes index ⊆ statement.nodes →
      (index.isSome → ∀ given, type = some given → statement.Offers given) →
        Filled statement.Offers (retypeIndex erasing) indexNodes index (inferIndex type index)
  | none, _, _ => .refl none
  | some index, within, offered => by
    have inner := (index.fills_infer within).trans (index.infer.fills_withType (offered rfl))
    exact ⟨congrArg some inner.erased, inner.occurrences⟩

/-- Inference fills a path from what the statement offers. -/
theorem fills_inferSegments : ∀ segments : List (Segment Expr),
    segmentNodes segments ⊆ statement.nodes →
      (∀ segment ∈ segments, ∀ type, segment.indexType? = some type → statement.Offers type) →
        Filled statement.Offers (retypeSegments erasing) segmentNodes segments
          (inferSegments segments)
  | [], _, _ => .refl []
  | ⟨label, declared, index, after⟩ :: rest, within, offered => by
    simp only [segmentNodes, List.append_subset] at within
    rw [List.forall_mem_cons] at offered
    have first := fills_inferIndex declared.index? index within.1 fun some type typed =>
      offered.1 type (by rw [Segment.indexType?, if_pos some, typed])
    have later := fills_inferSegments rest within.2 offered.2
    refine ⟨?_, ?_⟩
    · simp only [inferSegments, retypeSegments, first.erased, later.erased]
    · simpa [inferSegments, segmentNodes] using
        List.rel_append first.occurrences later.occurrences

end

/-- An expression is typed by what stands around it and by what it holds. -/
theorem Expr.fills_both {expr : Expr} {type : Option DataType} (within : expr.nodes ⊆ statement.nodes)
    (offered : ∀ given, type = some given → statement.Offers given) :
    expr.Fills statement (expr.infer.withType type) :=
  (expr.fills_infer within).trans (expr.infer.fills_withType offered)

/-- What holds all parts of a list holds those of each item. -/
theorem subset_of_flatMap {α : Type} {items : List α} {parts : α → List Expr} {nodes : List Expr}
    (within : items.flatMap parts ⊆ nodes) : ∀ item ∈ items, parts item ⊆ nodes :=
  fun item listed _ inside => within (List.mem_flatMap.mpr ⟨item, listed, inside⟩)

/-- The items of a select list are typed by what they hold. -/
theorem fills_selections {selections : List Selection}
    (within : selections.flatMap (fun selection => selection.expr.nodes) ⊆ statement.nodes) :
    Filled statement.Offers
      (List.map fun selection => { selection with expr := selection.expr.retype erasing })
      (List.flatMap fun selection => selection.expr.nodes) selections
      (selections.map fun selection => { selection with expr := selection.expr.infer }) := by
  refine .map fun selection listed => ?_
  have inner := selection.expr.fills_infer (subset_of_flatMap within selection listed)
  exact ⟨by rw [inner.erased], inner.occurrences⟩

/-! ## Conditions and queries -/

/-- What is the type of one of two things is on offer if both are. -/
theorem Statement.Offers.either {first second : Option DataType}
    (one : ∀ type, first = some type → statement.Offers type)
    (other : ∀ type, second = some type → statement.Offers type) :
    ∀ type, (first <|> second) = some type → statement.Offers type := by
  intro type typed
  rcases (Option.orElse_eq_some _ _ _).mp typed with met | ⟨_, met⟩
  · exact one type met
  · exact other type met

/-- The type an expression is inferred to have is offered by the statement. -/
theorem Expr.offers_inferred {expr : Expr} (within : expr.nodes ⊆ statement.nodes) :
    ∀ type, expr.infer.type? = some type → statement.Offers type := by
  rw [expr.type?_infer]
  exact Expr.offers_type within

/-- The one item of a select list has a type on offer. -/
theorem offers_selectedType? {query : Query Predicate} (within : queryNodes query ⊆ statement.nodes) :
    ∀ type, selectedType? (inferQuery query).selections = some type → statement.Offers type := by
  obtain ⟨spaces, distinct, selections, filter⟩ := query
  simp only [queryNodes, List.append_subset] at within
  intro type typed
  rcases selections with _ | ⟨selection, _ | ⟨second, rest⟩⟩
  · cases typed
  · rw [List.flatMap_singleton] at within
    exact Expr.offers_inferred within.1.1 type typed
  · cases typed

mutual

/-- Inference fills a predicate from what the statement offers.

Proof: by recursion over the predicate. Each value that it compares takes the type of the others,
and that is a type which the statement offers; what is below is filled already. -/
theorem Predicate.fills_infer : ∀ predicate : Predicate, predicate.nodes ⊆ statement.nodes →
    predicate.conditions ⊆ statement.conditions → predicate.Fills statement predicate.infer
  | .and left right, within, among | .or left right, within, among => by
    simp only [Predicate.nodes, List.append_subset] at within
    simp only [Predicate.conditions, List.cons_subset, List.append_subset] at among
    have first := left.fills_infer within.1 among.2.1
    have second := right.fills_infer within.2 among.2.2
    refine ⟨?_, ?_⟩
    · rw [Predicate.infer, Predicate.retype, Predicate.retype, first.erased, second.erased]
    · simpa [Predicate.infer, Predicate.nodes] using
        List.rel_append first.occurrences second.occurrences
  | .not operand, within, among => by
    have inner := operand.fills_infer within (List.subset_of_cons_subset among)
    refine ⟨?_, inner.occurrences⟩
    rw [Predicate.infer, Predicate.retype, Predicate.retype, inner.erased]
  | .compare op left right, within, _ => by
    simp only [Predicate.nodes, List.append_subset] at within
    have first := Expr.fills_both within.1 (Expr.offers_inferred within.2)
    have second := Expr.fills_both within.2 (Expr.offers_inferred within.1)
    refine ⟨?_, ?_⟩
    · simp only [Predicate.infer, Predicate.retype, first.erased, second.erased]
    · simpa [Predicate.infer, Predicate.nodes] using
        List.rel_append first.occurrences second.occurrences
  | .inList test values negated, within, _ => by
    simp only [Predicate.nodes, List.append_subset] at within
    have each := subset_of_flatMap within.2
    have offered : ∀ given, (test.infer.type? <|> (values.map Expr.infer).findSome? Expr.type?) =
        some given → statement.Offers given := by
      refine .either (Expr.offers_inferred within.1) fun type found => ?_
      obtain ⟨value, listed, typed⟩ := List.exists_of_findSome?_eq_some found
      obtain ⟨given, member, rfl⟩ := List.mem_map.mp listed
      exact Expr.offers_inferred (each given member) type typed
    have first := Expr.fills_both within.1 offered
    have later := Filled.map fun value listed => Expr.fills_both (each value listed) offered
    refine ⟨?_, ?_⟩
    · have same := later.erased
      simp only [Predicate.infer, Predicate.retype, first.erased, List.map_map] at same ⊢
      exact congrArg (Predicate.inList _ · negated) same
    · simpa [Predicate.infer, Predicate.nodes, Function.comp_def] using
        List.rel_append first.occurrences later.occurrences
  | .inQuery test query negated, within, among => by
    simp only [Predicate.nodes, List.append_subset] at within
    have first := Expr.fills_both within.1 (offers_selectedType? within.2)
    have inner := fills_inferQuery query within.2 (List.subset_of_cons_subset among)
    refine ⟨?_, ?_⟩
    · simp only [Predicate.infer, Predicate.retype, first.erased, inner.erased]
    · simpa [Predicate.infer, Predicate.nodes] using
        List.rel_append first.occurrences inner.occurrences
  | .memberOf element collection negated, within, among => by
    simp only [Predicate.nodes, List.append_subset] at within
    have first := Expr.fills_both within.1 fun type typed =>
      Statement.Offers.member (among List.mem_cons_self) typed
    rw [← Expr.infer_withType] at first
    refine ⟨?_, ?_⟩
    · rw [Predicate.infer, Predicate.retype, Predicate.retype, first.erased]
    · simpa [Predicate.infer, Predicate.nodes] using
        List.rel_append first.occurrences (Parameter.FilledFrom.refl_all _)
  | .isNull operand negated, within, _ => by
    have inner := operand.fills_infer within
    refine ⟨?_, inner.occurrences⟩
    rw [Predicate.infer, Predicate.retype, Predicate.retype, inner.erased]
  | .like operand pattern negated, within, among => by
    simp only [Predicate.nodes, List.append_subset] at within
    have offered : ∀ type, some (.basic .string) = some type → statement.Offers type := by
      rintro _ ⟨⟩
      exact .pattern (among List.mem_cons_self)
    have first := Expr.fills_both within.1 offered
    have second := Expr.fills_both within.2 offered
    refine ⟨?_, ?_⟩
    · simp only [Predicate.infer, Predicate.retype, first.erased, second.erased]
    · simpa [Predicate.infer, Predicate.nodes] using
        List.rel_append first.occurrences second.occurrences
  | .between operand low high negated, within, _ => by
    simp only [Predicate.nodes, List.append_subset] at within
    obtain ⟨⟨inOperand, inLow⟩, inHigh⟩ := within
    have offered := Statement.Offers.either (Expr.offers_inferred inOperand)
      (.either (Expr.offers_inferred inLow) (Expr.offers_inferred inHigh))
    have first := Expr.fills_both inOperand offered
    have second := Expr.fills_both inLow offered
    have third := Expr.fills_both inHigh offered
    refine ⟨?_, ?_⟩
    · simp only [Predicate.infer, Predicate.retype, first.erased, second.erased, third.erased]
    · simpa [Predicate.infer, Predicate.nodes] using List.rel_append first.occurrences
        (List.rel_append second.occurrences third.occurrences)

/-- Inference fills a query from what the statement offers. -/
theorem fills_inferQuery : ∀ query : Query Predicate, queryNodes query ⊆ statement.nodes →
    queryConditions query ⊆ statement.conditions →
      Filled statement.Offers (retypeQuery erasing) queryNodes query (inferQuery query)
  | ⟨spaces, distinct, selections, filter⟩, within, among => by
    simp only [queryNodes, List.append_subset] at within
    simp only [queryConditions, List.append_subset] at among
    have chosen := fills_selections within.1.1
    have items := fills_inferSpaces spaces within.1.2 among.1
    have inner := fills_inferFilter filter within.2 among.2
    refine ⟨?_, ?_⟩
    · simp only [inferQuery, retypeQuery, chosen.erased, items.erased, inner.erased]
    · simpa [inferQuery, queryNodes] using List.rel_append chosen.occurrences
        (List.rel_append items.occurrences inner.occurrences)

/-- Inference fills spaces from what the statement offers. -/
theorem fills_inferSpaces : ∀ spaces : List (FromSpace Predicate),
    spaceNodes spaces ⊆ statement.nodes → spaceConditions spaces ⊆ statement.conditions →
      Filled statement.Offers (retypeSpaces erasing) spaceNodes spaces (inferSpaces spaces)
  | [], _, _ => .refl []
  | ⟨root, joins⟩ :: rest, within, among => by
    simp only [spaceNodes, List.append_subset] at within
    simp only [spaceConditions, List.append_subset] at among
    have first := fills_inferJoins joins within.1 among.1
    have later := fills_inferSpaces rest within.2 among.2
    refine ⟨?_, ?_⟩
    · simp only [inferSpaces, retypeSpaces, first.erased, later.erased]
    · simpa [inferSpaces, spaceNodes] using List.rel_append first.occurrences later.occurrences

/-- Inference fills joins from what the statement offers. -/
theorem fills_inferJoins : ∀ joins : List (Join Predicate),
    joinNodes joins ⊆ statement.nodes → joinConditions joins ⊆ statement.conditions →
      Filled statement.Offers (retypeJoins erasing) joinNodes joins (inferJoins joins)
  | [], _, _ => .refl []
  | ⟨kind, fetch, target, predicate⟩ :: rest, within, among => by
    simp only [joinNodes, List.append_subset] at within
    simp only [joinConditions, List.append_subset] at among
    have first := fills_inferFilter predicate within.1 among.1
    have later := fills_inferJoins rest within.2 among.2
    refine ⟨?_, ?_⟩
    · simp only [inferJoins, retypeJoins, first.erased, later.erased]
    · simpa [inferJoins, joinNodes] using List.rel_append first.occurrences later.occurrences

/-- Inference fills a filter from what the statement offers. -/
theorem fills_inferFilter : ∀ filter : Option Predicate,
    filterNodes filter ⊆ statement.nodes → filterConditions filter ⊆ statement.conditions →
      Filled statement.Offers (retypeFilter erasing) filterNodes filter (inferFilter filter)
  | none, _, _ => .refl none
  | some predicate, within, among => by
    have inner := predicate.fills_infer within among
    exact ⟨congrArg some inner.erased, inner.occurrences⟩

end

/-! ## Statements -/

/-- Assigned values are typed by what they are assigned to and by what they hold. -/
theorem fills_assignments {assignments : List Assignment}
    (within : assignments.flatMap (fun assignment => assignment.value.nodes) ⊆ statement.nodes)
    (among : assignments ⊆ statement.assignments) :
    Filled statement.Offers
      (List.map fun assignment => { assignment with value := assignment.value.retype erasing })
      (List.flatMap fun assignment => assignment.value.nodes) assignments
      (assignments.map (·.infer)) := by
  refine .map fun assignment listed => ?_
  have inner := Expr.fills_both (subset_of_flatMap within assignment listed) fun type typed =>
    Option.some.inj typed ▸ Statement.Offers.target (among listed)
  rw [← Expr.infer_withType] at inner
  exact ⟨by rw [Assignment.infer, inner.erased], inner.occurrences⟩

/-- Typing parameters from their surroundings fills in what the statement offers. -/
theorem Statement.fills_inferLocally (statement : Statement) :
    Filled statement.Offers Statement.erased Statement.nodes statement statement.inferLocally := by
  cases statement with
  | select query order =>
    have within : queryNodes query ⊆ (Statement.select query order).nodes :=
      List.subset_append_left _ _
    have among : queryConditions query ⊆ (Statement.select query order).conditions :=
      List.Subset.refl _
    have inner := fills_inferQuery query within among
    refine ⟨?_, ?_⟩
    · simp only [Statement.inferLocally, Statement.erased, Statement.retype, inner.erased]
    · simpa [Statement.inferLocally, Statement.nodes] using
        List.rel_append inner.occurrences (Parameter.FilledFrom.refl_all _)
  | update target assignments filter =>
    have values : assignments.flatMap (fun assignment => assignment.value.nodes) ⊆
        (Statement.update target assignments filter).nodes := List.subset_append_left _ _
    have within : filterNodes filter ⊆ (Statement.update target assignments filter).nodes :=
      List.subset_append_right _ _
    have among : filterConditions filter ⊆ (Statement.update target assignments filter).conditions :=
      List.Subset.refl _
    have assigned := fills_assignments values (List.Subset.refl assignments)
    have inner := fills_inferFilter filter within among
    refine ⟨?_, ?_⟩
    · simp only [Statement.inferLocally, Statement.erased, Statement.retype, inner.erased,
        assigned.erased]
    · simpa [Statement.inferLocally, Statement.nodes] using
        List.rel_append assigned.occurrences inner.occurrences
  | delete target filter =>
    have within : filterNodes filter ⊆ (Statement.delete target filter).nodes := List.Subset.refl _
    have among : filterConditions filter ⊆ (Statement.delete target filter).conditions :=
      List.Subset.refl _
    have inner := fills_inferFilter filter within among
    refine ⟨?_, inner.occurrences⟩
    simp only [Statement.inferLocally, Statement.erased, Statement.retype, inner.erased]

end Fills

end Resolved
end ObjectQuery

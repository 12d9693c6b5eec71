import ObjectQuery.Proofs.Outcome
import ObjectQuery.Proofs.Resolution.Tables
import ObjectQuery.Proofs.Resolved.Scoped
import ObjectQuery.Resolution.Statement
/-!
# What expressions resolve to

Resolving an expression in a scope finds only sources that are visible there, and never fails for a
reason that is no fault of the statement. There is one rule for each way to build a step of the
resolution, and each step follows from the rules.
-/
namespace ObjectQuery

/-- A failure is a fault of the statement, and a success is as told. -/
def Gets {α : Type} (result : Except ResolutionError α) (tells : α → Prop) : Prop :=
  match result with
  | .ok value => tells value
  | .error error => error.isInternal = false

namespace Gets

variable {α β : Type} {tells : α → Prop} {result : Except ResolutionError α}

/-- What a result tells may be used by the step behind it. -/
theorem bind {next : α → Except ResolutionError β} {outcome : β → Prop} (gets : Gets result tells)
    (later : ∀ value, tells value → Gets (next value) outcome) : Gets (result >>= next) outcome := by
  cases result with
  | error failure => exact gets
  | ok value => exact later value gets

/-- A success is as told. -/
theorem told {value : α} (gets : Gets result tells) (given : result = .ok value) : tells value := by
  subst given
  exact gets

/-- Less may be told of a result. -/
theorem weaken {weaker : α → Prop} (gets : Gets result tells)
    (enough : ∀ value, tells value → weaker value) : Gets result weaker := by
  cases result with
  | error failure => exact gets
  | ok value => exact enough value gets

end Gets

namespace Resolution

/-- No run of the step fails for an internal reason, and every result is as told. -/
def Finds {α : Type} (step : Resolving α) (tells : α → Prop) : Prop :=
  ∀ numbering, Gets (step.run numbering) fun found => tells found.1

namespace Finds

variable {α β : Type} {tells : α → Prop} {step : Resolving α}

/-- A value of which it is told already is found. -/
theorem pure {value : α} (told : tells value) : Finds (Pure.pure value) tells := fun _ => told

/-- A failure that is a fault of the text finds nothing. -/
theorem throw {error : ResolutionError} (fault : error.isInternal = false) :
    Finds (MonadExcept.throw error : Resolving α) tells := fun _ => fault

/-- What the first step finds may be used by the second. -/
theorem bind {next : α → Resolving β} {outcome : β → Prop} (finds : Finds step tells)
    (later : ∀ value, tells value → Finds (next value) outcome) : Finds (step >>= next) outcome := by
  intro numbering
  rw [StateT.run_bind]
  exact (finds numbering).bind fun found told => later found.1 told found.2

/-- A result that is there already is found. -/
theorem lift {result : Except ResolutionError α} (gets : Gets result tells) :
    Finds (liftM result) tells := by
  intro numbering
  cases result with
  | error failure => exact gets
  | ok value => exact gets

/-- Less may be told of what is found. -/
theorem weaken {weaker : α → Prop} (finds : Finds step tells)
    (enough : ∀ value, tells value → weaker value) : Finds step weaker := fun numbering =>
  (finds numbering).weaken fun found told => enough found.1 told

/-- A step for each item finds a result for each. -/
theorem mapM {step : α → Resolving β} {tells : β → Prop} :
    ∀ {items : List α}, (∀ item ∈ items, Finds (step item) tells) →
      Finds (items.mapM step) fun results => ∀ result ∈ results, tells result
  | [], _ => by
    rw [List.mapM_nil]
    exact pure (by simp)
  | item :: rest, finds => by
    rw [List.mapM_cons]
    refine bind (finds item List.mem_cons_self) fun first told => ?_
    refine bind (mapM fun later member => finds later (List.mem_cons_of_mem _ member))
      fun others toldOthers => pure ?_
    exact List.forall_mem_cons.mpr ⟨told, toldOthers⟩

end Finds

open Resolved (Expr FromNode Segment AreTyped attributeOf? IndexScoped SegmentsScoped)

/-! ## Checks -/

/-- An operand that is not numeric is a fault of the text. -/
theorem numericOperand_gets (operation : String) (operand : Expr) :
    Gets (numericOperand operation operand) fun _ => True := by
  unfold numericOperand
  split
  · trivial
  · split
    · trivial
    · rfl

/-- Operands that cannot be added are a fault of the text. -/
theorem arithmeticType_gets (left right : Expr) :
    Gets (arithmeticType left right) fun _ => True := by
  refine .bind (numericOperand_gets _ left) fun leftType _ => ?_
  refine .bind (numericOperand_gets _ right) fun rightType _ => ?_
  cases leftType <;> cases rightType <;> trivial

/-- An argument that is not numeric is a fault of the text. -/
theorem checkNumeric_gets (operation : String) (argument : Option Expr) :
    Gets (checkNumeric operation argument) fun _ => True := by
  cases argument with
  | none => trivial
  | some argument => exact .bind (numericOperand_gets operation argument) fun _ _ => trivial

/-- A call that has no type is a fault of the text. -/
theorem callType_gets (function : Function) (argument : Option Expr) :
    Gets (callType function argument) fun _ => True := by
  cases function with
  | count | min | max | upper | lower | length => trivial
  | avg | sum | abs => exact .bind (checkNumeric_gets _ argument) fun _ _ => trivial

/-- A function that is not known is a fault of the text. -/
theorem functionOf_gets (name : String) : Gets (functionOf name) fun _ => True := by
  unfold functionOf
  split
  · trivial
  · rfl

/-- A star where none may stand is a fault of the text. -/
theorem checkStar_gets (function : Function) (name : String) (isStar : Bool) :
    Gets (checkStar function name isStar) fun _ => True := by
  unfold checkStar
  split
  · rfl
  · trivial

/-- Behind an index stands the type of an element, without one the declared type. -/
theorem typeAfter_gets (name : String) (declared : DataType) (indexed : Bool) :
    Gets (typeAfter name declared indexed) fun type =>
      if indexed then declared.isIndexed ∧ declared.element? = some type else type = declared := by
  unfold typeAfter
  split
  · split
    · rename_i element found
      obtain ⟨there, known⟩ := Option.filter_eq_some_iff.mp found
      exact ⟨known, there⟩
    · rfl
  · rfl

/-- A positional parameter is found with the kind it is given. -/
theorem positional_finds {tells : Expr → Prop} (position : Option Nat)
    (told : ∀ kind, tells (untyped kind)) : Finds (positional position) tells := by
  intro numbering
  cases position with
  | some given => cases numbering <;> first | rfl | exact told _
  | none => cases numbering <;> first | rfl | exact told _

/-! ## Attributes -/

/-- Where an owner finds its attributes. -/
def Owner.find? (catalog : Catalog) : Owner → String → Option DataType
  | source element => element.entity.attribute?
  | type known => attributeOf? catalog known

/-- An entity is found by its name in the catalog. -/
theorem resolveEntity_gets (catalog : Catalog) (name : String) :
    Gets (Sources.resolveEntity catalog name) fun entity => catalog.resolve? name = some entity := by
  unfold Sources.resolveEntity
  split
  · assumption
  · rfl

/-- The type of an attribute is the one its owner declares. -/
theorem attributeType_gets (names : Names) (owner : Owner) (name : String) :
    Gets (attributeType names owner name) fun type =>
      owner.find? names.catalog name = some type := by
  have looked : Gets (owner.attribute? names name) fun found =>
      owner.find? names.catalog name = found := by
    unfold Owner.attribute? Owner.find?
    cases owner with
    | source element => exact rfl
    | type known =>
      rcases known with (basic | entity) | ⟨kind, element⟩
      · exact rfl
      · refine .bind (resolveEntity_gets names.catalog entity) fun reference resolved => ?_
        change (names.catalog.resolve? entity).bind _ = _
        rw [resolved]
        rfl
      · exact rfl
  refine looked.bind fun found same => ?_
  cases found with
  | none => exact rfl
  | some type => exact same

/-! ## Visible sources -/

/-- Every source that is registered in the scope or in one around it is among the visible ones. -/
structure Sees (index : FromIndex) (clause : Nat) (visible : List FromNode) : Prop where
  mirrored : index.IsMirrored
  listed : ∀ element ∈ index.elements, element.clause ∈ index.enclosing clause →
    FromNode.ofElement element ∈ visible

variable {names : Names} {clause : Nat} {visible : List FromNode}

/-- A source that exposes an attribute is visible from the clause. -/
theorem findExposing_gets (sees : Sees names.index clause visible) (name : String) :
    Gets (names.index.findExposing clause name) fun found =>
      ∀ element ∈ found, FromNode.ofElement element ∈ visible := by
  unfold FromIndex.findExposing
  simp only
  split
  · simp [Gets]
  · rename_i element only
    have listed := List.mem_of_find?_eq_some only
    obtain ⟨scope, encloses, exposing⟩ := List.mem_map.mp listed
    have member : element ∈ names.index.elementsOf scope :=
      List.mem_of_mem_filter (exposing ▸ List.mem_singleton_self element)
    obtain ⟨registered, rfl⟩ := sees.mirrored.mem_elementsOf_iff.mp member
    simpa [Gets] using sees.listed element registered encloses
  · exact rfl

/-- The source a path starts at is visible from the clause. -/
theorem pathSource_gets (sees : Sees names.index clause visible) (name : String) (indexed : Bool) :
    Gets (pathSource names clause name indexed) fun found =>
      FromNode.ofElement found.1 ∈ visible := by
  unfold pathSource
  split
  · rename_i source found
    obtain ⟨looked, encloses⟩ := Option.filter_eq_some_iff.mp found
    have registered := FromIndex.mem_of_find? looked
    have seen := sees.listed source registered (List.contains_iff_mem.mp encloses)
    split
    · rfl
    · exact seen
  · refine (findExposing_gets sees name).bind fun found seen => ?_
    cases found with
    | none => exact rfl
    | some source => exact seen source rfl

/-! ## Expressions -/

/-- A path is in scope if each of its indices is. -/
theorem segmentsScoped_iff {catalog : Catalog} {segments : List (Segment Expr)} :
    SegmentsScoped catalog visible segments ↔
      ∀ segment ∈ segments, IndexScoped catalog visible segment.index := by
  induction segments with
  | nil => simp [SegmentsScoped]
  | cons segment rest ih => rw [SegmentsScoped, List.forall_mem_cons, ih]

/-- A path along attributes of a visible source is well-scoped. -/
theorem pathOf_isScoped {catalog : Catalog} {source : FromElement}
    {segments : List (Segment Expr)} (seen : FromNode.ofElement source ∈ visible)
    (typed : AreTyped catalog source.entity.attribute? segments)
    (inside : SegmentsScoped catalog visible segments) :
    (pathOf source segments).IsScoped catalog visible := by
  unfold pathOf
  split
  · exact ⟨_, seen, rfl, rfl⟩
  · rename_i last found
    obtain ⟨init, rfl⟩ := List.getLast?_eq_some_iff.mp found
    rw [segmentsScoped_iff, List.forall_mem_append] at inside
    rw [List.dropLast_concat]
    refine ⟨⟨_, seen, rfl, rfl, typed, rfl⟩, segmentsScoped_iff.mpr inside.1, ?_⟩
    exact inside.2 last List.mem_cons_self

mutual

/-- An expression is found in the scope of its clause. -/
theorem expr_finds (sees : Sees names.index clause visible) : ∀ given : Grammar.Expr,
    Finds (expr names clause given) fun found => found.IsScoped names.catalog visible
  | .path route => by
    rw [expr]
    exact path_finds sees route
  | .literal _ value => by
    rw [expr]
    exact .pure trivial
  | .named _ name => by
    rw [expr]
    exact .pure trivial
  | .positional _ position => by
    rw [expr]
    exact positional_finds position fun _ => trivial
  | .arithmetic _ op left right => by
    rw [expr]
    refine .bind (expr_finds sees left) fun left within => ?_
    refine .bind (expr_finds sees right) fun right withinToo => ?_
    exact .bind (.lift (arithmeticType_gets left right)) fun _ _ => .pure ⟨within, withinToo⟩
  | .negate _ operand => by
    rw [expr]
    refine .bind (expr_finds sees operand) fun operand within => ?_
    exact .bind (.lift (numericOperand_gets _ operand)) fun _ _ => .pure within
  | .call _ name distinct argument => by
    rw [expr]
    refine .bind (.lift (functionOf_gets name.value)) fun function _ => ?_
    refine .bind (.lift (checkStar_gets function name.value _)) fun _ _ => ?_
    refine .bind (optional_finds sees argument) fun argument within => ?_
    exact .bind (.lift (callType_gets function argument)) fun _ _ => .pure within.2

/-- An index that may be left out is found in scope, and found if it was given. -/
theorem optional_finds (sees : Sees names.index clause visible) : ∀ given : Option Grammar.Expr,
    Finds (optional names clause given) fun found => found.isSome = given.isSome ∧
      IndexScoped names.catalog visible found
  | none => by
    rw [optional]
    exact .pure ⟨rfl, trivial⟩
  | some given => by
    rw [optional]
    exact .bind (expr_finds sees given) fun _ within => .pure ⟨rfl, within⟩

/-- A path is found in the scope of its clause. -/
theorem path_finds (sees : Sees names.index clause visible) :
    ∀ route : Grammar.Path Grammar.Expr,
      Finds (path names clause route) fun found => found.IsScoped names.catalog visible
  | ⟨first, rest, _⟩ => by
    rw [path]
    refine .bind (.lift (pathSource_gets sees _ _)) fun (source, isSource) seen => ?_
    cases isSource with
    | true =>
      refine .bind (parts_finds sees (.source source) rest) fun segments found => .pure ?_
      exact pathOf_isScoped seen found.1 found.2
    | false =>
      refine .bind (part_finds sees (.source source) first) fun segment found => ?_
      refine .bind (parts_finds sees (.type segment.type) rest) fun segments others => .pure ?_
      refine pathOf_isScoped seen ⟨found.1, found.2.1, others.1⟩ ?_
      rw [segmentsScoped_iff, List.forall_mem_cons, ← segmentsScoped_iff]
      exact ⟨found.2.2, others.2⟩

/-- One part of a path is found with the type its owner declares. -/
theorem part_finds (sees : Sees names.index clause visible) (owner : Owner) :
    ∀ given : Grammar.PathPart Grammar.Expr, Finds (part names clause owner given) fun found =>
      owner.find? names.catalog found.label = some found.declared ∧ found.IsTyped ∧
        IndexScoped names.catalog visible found.index
  | ⟨name, index⟩ => by
    rw [part]
    refine .bind (.lift (attributeType_gets names owner name.value)) fun declared found => ?_
    refine .bind (.lift (typeAfter_gets name.value declared _)) fun type typed => ?_
    refine .bind (optional_finds sees index) fun index within => .pure ⟨found, ?_, within.2⟩
    unfold Segment.IsTyped
    rw [within.1]
    exact typed

/-- The parts of a path are found one behind the other, each declared by the one before it. -/
theorem parts_finds (sees : Sees names.index clause visible) (owner : Owner) :
    ∀ given : List (Grammar.PathPart Grammar.Expr), Finds (parts names clause owner given) fun found =>
      AreTyped names.catalog (owner.find? names.catalog) found ∧
        SegmentsScoped names.catalog visible found
  | [] => by
    rw [parts]
    exact .pure ⟨trivial, trivial⟩
  | first :: rest => by
    rw [parts]
    refine .bind (part_finds sees owner first) fun segment found => ?_
    refine .bind (parts_finds sees (.type segment.type) rest) fun segments others => .pure ?_
    refine ⟨⟨found.1, found.2.1, others.1⟩, ?_⟩
    rw [segmentsScoped_iff, List.forall_mem_cons, ← segmentsScoped_iff]
    exact ⟨found.2.2, others.2⟩

end

end Resolution
end ObjectQuery

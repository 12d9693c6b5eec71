import ObjectQuery.Proofs.ParameterTypes
import ObjectQuery.Proofs.Resolved.Repeated
/-!
# Typing the parameters of a statement

Typing changes nothing in a statement but the types of its parameters, and of these it changes only
those that are not there yet. Where it gives a type, the statement has offered it.

Typing is no closure. It looks at the surroundings of each parameter once and then brings the
occurrences of each parameter together. If this gives a type to one side of a condition, the other side
has been looked at before. So typing a statement a second time may change it again, and does so exactly
if the first time has left a parameter without a type beside something that has one.
-/
namespace ObjectQuery

namespace Resolved

/-- What one parameter takes over from another one of its kind has been on offer for that one. -/
theorem Statement.offers_knownType {statement : Statement} {kind : ParameterKind} {type : DataType}
    (known : knownType? statement.inferLocally.occurrences kind = some type) :
    statement.Offers type := by
  obtain ⟨parameter, listed, _, typed⟩ := Parameter.exists_of_knownType? known
  obtain ⟨given, member, filled⟩ :=
    exists_of_forall₂ statement.fills_inferLocally.occurrences listed
  cases own : given.type with
  | none => exact filled.offered own type typed
  | some early =>
    obtain rfl := Option.some.inj ((filled.kept early own).symm.trans typed)
    obtain ⟨expr, found, bound⟩ := List.mem_filterMap.mp member
    cases expr with
    | parameter same =>
      obtain rfl := Option.some.inj bound
      exact .expression found own
    | _ => cases bound

/-- Typing the parameters of a statement leaves everything else as it is. A parameter that has a type
keeps it, and one that is given a type is given one that the statement offers. -/
theorem Statement.infer_fills_in (statement : Statement) :
    statement.infer.erased = statement.erased ∧
      List.Forall₂ (Parameter.FilledFrom statement.Offers) statement.occurrences
        statement.infer.occurrences := by
  have locally := statement.fills_inferLocally
  constructor
  -- The second step changes types of parameters alone, and these are taken off.
  · have shared : statement.infer.erased = statement.inferLocally.erased :=
      statement.inferLocally.retype_again _ _
    rw [shared, locally.erased]
  · refine Parameter.FilledFrom.trans_all locally.occurrences ?_
    rw [Statement.occurrences_infer, List.forall₂_map_right_iff]
    refine List.forall₂_same.mpr fun parameter _ => ⟨rfl, fun type typed => ?_, fun untyped type => ?_⟩
    · rw [typed]
      rfl
    · rw [untyped]
      exact Statement.offers_knownType

/-- Bringing occurrences together changes nothing if there is no type for any that has none. -/
theorem Statement.retype_sharedType {statement : Statement} {parameters : List Parameter}
    (absent : ∀ bound ∈ statement.occurrences, bound.type = none →
      knownType? parameters bound.kind = none) :
    statement.retype (.ofParameters (sharedType parameters)) = statement := by
  refine Statement.retype_eq_self fun expr listed => ?_
  cases expr with
  | parameter bound =>
    change sharedType parameters bound = bound.type
    cases own : bound.type with
    | some type => rw [sharedType, own]; rfl
    | none =>
      rw [sharedType, own]
      exact absent bound (List.mem_filterMap.mpr ⟨_, listed, rfl⟩) own
  | path reference => exact ⟨rfl, rfl⟩
  | element label type => rfl
  | _ => trivial

/-- If typing changes nothing, its first step alone changes nothing. -/
theorem Statement.inferLocally_of_infer {statement : Statement}
    (again : statement.infer = statement) : statement.inferLocally = statement := by
  have filled : List.Forall₂ (Parameter.FilledFrom statement.Offers) statement.infer.occurrences
      statement.inferLocally.occurrences := by
    rw [again]
    exact statement.fills_inferLocally.occurrences
  rw [Statement.occurrences_infer, List.forall₂_map_left_iff, List.forall₂_same] at filled
  have same : statement.infer = statement.inferLocally := by
    refine Statement.retype_sharedType fun bound listed untyped => ?_
    refine Option.eq_none_iff_forall_ne_some.mpr fun type known => ?_
    -- A type that the second step gives would have been there from the start.
    have early := (filled bound listed).kept type (by rw [untyped]; exact known)
    rw [untyped] at early
    cases early
  exact same.symm.trans again

/-- Typing has brought all occurrences together. -/
theorem Statement.shareTypes_infer (statement : Statement) :
    statement.infer.shareTypes = statement.infer := by
  refine Statement.retype_sharedType fun bound listed untyped => ?_
  refine Parameter.knownType?_eq_none.mpr fun other listedToo same => ?_
  have shared : statement.infer.occurrences = Parameter.shared statement.inferLocally.occurrences :=
    statement.occurrences_infer
  rw [shared] at listed listedToo
  have together := Parameter.isSome_of_mem_shared listedToo
  rw [same, ← Parameter.isSome_of_mem_shared listed, untyped] at together
  exact Option.not_isSome_iff_eq_none.mp (Bool.eq_false_iff.mp together)

/-- Typing the parameters of a statement a second time changes nothing exactly if the first time has
left no parameter without a type beside something that has one. -/
theorem Statement.infer_again_iff (statement : Statement) :
    statement.infer.infer = statement.infer ↔
      ∀ condition ∈ statement.infer.conditions, condition.IsSettled := by
  have shared : statement.infer = statement.inferLocally.retype
      (.ofParameters (sharedType statement.inferLocally.occurrences)) := rfl
  rw [← Statement.inferLocally_again_iff (keepsTypes_sharedType _) shared]
  constructor
  · exact Statement.inferLocally_of_infer
  · intro again
    rw [Statement.infer, again, Statement.shareTypes_infer]

end Resolved

/-- Whether the definitions make a model in which the text can be resolved, and its parameters are
these when they are typed and those when they are typed twice. -/
def typesTo (definitions : List EntityDefinition) (source : String) (once twice : List Parameter) :
    Bool :=
  match Model.ofDefinitions definitions, parse source with
  | .ok model, .ok tree =>
    match Resolved.Statement.resolve model.catalog tree with
    | .ok resolved =>
      resolved.infer.occurrences == once && resolved.infer.infer.occurrences == twice
    | .error _ => false
  | _, _ => false

/-- The check on a text finds its parameters after one pass and after two. -/
theorem exists_of_typesTo {definitions : List EntityDefinition} {source : String}
    {once twice : List Parameter} (passed : typesTo definitions source once twice = true) :
    ∃ model tree resolved, Model.ofDefinitions definitions = .ok model ∧ parse source = .ok tree ∧
      Resolved.Statement.resolve model.catalog tree = .ok resolved ∧
      resolved.infer.occurrences = once ∧ resolved.infer.infer.occurrences = twice := by
  unfold typesTo at passed
  split at passed
  · rename_i model tree accepted parsed
    split at passed
    · rename_i resolved found
      simp only [Bool.and_eq_true, beq_iff_eq] at passed
      exact ⟨model, tree, resolved, accepted, parsed, found, passed⟩
    · cases passed
  · cases passed

/-- A text where a parameter is compared with one that is typed only afterwards. -/
def parameterAfterParameter : String := "select o.id from Order o where :y = :x and :x = o.a"

/-- Typing a second time may change what the first time has left. -/
theorem infer_again_parameterAfterParameter : ∃ model tree resolved,
    Model.ofDefinitions shop = .ok model ∧ parse parameterAfterParameter = .ok tree ∧
    Resolved.Statement.resolve model.catalog tree = .ok resolved ∧
    resolved.infer.occurrences =
      [⟨.named "y", none⟩, .ofBasic "x" .integer, .ofBasic "x" .integer] ∧
    resolved.infer.infer.occurrences =
      [.ofBasic "y" .integer, .ofBasic "x" .integer, .ofBasic "x" .integer] ∧
    resolved.infer.infer ≠ resolved.infer := by
  have checked : typesTo shop parameterAfterParameter
      [⟨.named "y", none⟩, .ofBasic "x" .integer, .ofBasic "x" .integer]
      [.ofBasic "y" .integer, .ofBasic "x" .integer, .ofBasic "x" .integer] = true := by decide +kernel
  obtain ⟨model, tree, resolved, accepted, parsed, found, once, twice⟩ := exists_of_typesTo checked
  refine ⟨model, tree, resolved, accepted, parsed, found, once, twice, fun again => ?_⟩
  rw [again, once] at twice
  cases twice

end ObjectQuery

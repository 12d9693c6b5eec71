import ObjectQuery.Proofs.Lowering.Raised
/-!
# What expressions are lowered to

Lowering an expression raises joins and gives a value over the tables that the levels have in the
end. The proofs follow the recursion of the lowering: an expression, the index of a segment, and the
segments of a path one after the other.
-/
namespace ObjectQuery.Lowering

open Sql
open Resolved (Segment Reference)

variable {context : LoweringContext} {state after : LoweringState}

/-- A run that raises joins and gives a value over the tables that the levels then have. -/
structure Lowered (context : LoweringContext) (state : LoweringState) (value : Sql.Expr)
    (after : LoweringState) : Prop where
  grows : Grows context state.scopes after.scopes
  within : Within after.scopes value

/-- The column of the last attribute of a path is a column of the group of its owner. -/
theorem columnValue_lowered {dotted owner label : String} {type : DataType} {value : Sql.Expr}
    (coherent : Coherent state.scopes)
    (run : Yields (columnValue dotted owner label type) state value after) :
    Lowered context state value after := by
  unfold columnValue at run
  split at run
  · simp at run
  · simp only [yields_bind, yields_group, yields_lift] at run
    obtain ⟨ownerGroup, _, ⟨rfl, level, space, located⟩, stored, rfl⟩ := run
    exact ⟨.refl, within_column coherent located stored⟩

mutual

/-- An expression raises joins and gives a value.

Proof: by recursion over the expression. Joins are only added to the scopes, so a value that is
within them stays within them while its neighbours are lowered. -/
theorem expr_lowered : ∀ (given : Resolved.Expr) {state after : LoweringState} {value : Sql.Expr},
    Coherent state.scopes → Yields (expr context given) state value after →
      Lowered context state value after
  | .path ⟨source, sourceType, init, ⟨label, declared, index, _⟩, _⟩, state, after, value, coherent,
      run => by
    simp only [expr, yields_bind] at run
    obtain ⟨owner, reached, walked, position, indexed, lowered, run⟩ := run
    have walk := navigate_grows init source coherent walked
    have place := optional_lowered index (walk.coherent coherent) lowered
    have coherent' := place.1.coherent (walk.coherent coherent)
    cases position with
    | some position =>
      simp only [yields_bind, yields_pure] at run
      obtain ⟨element, joined, raised, group, _, found, rfl, rfl⟩ := run
      have raise := indexJoin_grows (place.2 position rfl).isValue raised
      obtain ⟨rfl, within⟩ := within_key (raise.coherent coherent') found
      exact ⟨(walk.trans place.1).trans raise, within⟩
    | none =>
      have column : Lowered context indexed value after := columnValue_lowered coherent' run
      exact ⟨(walk.trans place.1).trans column.grows, column.within⟩
  | .element label _, state, after, value, coherent, run => by
    simp only [expr, yields_bind, yields_pure] at run
    obtain ⟨group, _, found, rfl, rfl⟩ := run
    obtain ⟨rfl, within⟩ := within_key coherent found
    exact ⟨.refl, within⟩
  | .literal given, state, after, value, coherent, run => by
    simp only [expr, yields_lift] at run
    obtain ⟨lowered, rfl⟩ := run
    exact ⟨.refl, literal_within lowered⟩
  | .parameter bound, state, after, value, coherent, run => by
    simp only [expr, yields_pure] at run
    obtain ⟨rfl, rfl⟩ := run
    refine ⟨.refl, rfl, fun indices => ?_, ?_⟩
    · simp [Sql.Expr.references]
    · simp [Sql.Expr.IsQualified, Sql.Expr.qualifiers]
  | .arithmetic op left right _, state, after, value, coherent, run => by
    simp only [expr, yields_bind, yields_pure] at run
    obtain ⟨first, between, ranLeft, second, _, ranRight, rfl, rfl⟩ := run
    have loweredLeft := expr_lowered left coherent ranLeft
    have loweredRight := expr_lowered right (loweredLeft.grows.coherent coherent) ranRight
    have within := loweredLeft.within.mono loweredRight.grows
    refine ⟨loweredLeft.grows.trans loweredRight.grows, ?_, fun indices => ?_, ?_⟩
    · simp [Sql.Expr.isValue, within.isValue, loweredRight.within.isValue]
    · simp only [Sql.Expr.references, List.append_subset]
      exact ⟨within.references indices, loweredRight.within.references indices⟩
    · exact Sql.Expr.isQualified_binary.mpr ⟨within.qualified, loweredRight.within.qualified⟩
  | .negate operand, state, after, value, coherent, run => by
    simp only [expr, yields_bind, yields_pure] at run
    obtain ⟨inner, _, ran, rfl, rfl⟩ := run
    have lowered := expr_lowered operand coherent ran
    refine ⟨lowered.grows, ?_, fun indices => ?_, ?_⟩
    · simp [Sql.Expr.isValue, lowered.within.isValue]
    · simpa only [Sql.Expr.references] using lowered.within.references indices
    · simpa only [Sql.Expr.IsQualified, Sql.Expr.qualifiers] using lowered.within.qualified
  | .call function distinct argument _, state, after, value, coherent, run => by
    simp only [expr, yields_bind, yields_lift] at run
    obtain ⟨given, _, ran, called, rfl⟩ := run
    have lowered := optional_lowered argument coherent ran
    exact ⟨lowered.1, call_within lowered.2 called⟩

/-- So does an index or an argument, if there is one. -/
theorem optional_lowered : ∀ (given : Option Resolved.Expr) {state after : LoweringState}
    {value : Option Sql.Expr}, Coherent state.scopes →
      Yields (optional context given) state value after →
        Grows context state.scopes after.scopes ∧ ∀ index ∈ value, Within after.scopes index
  | none, state, after, value, coherent, run => by
    simp only [optional, yields_pure] at run
    obtain ⟨rfl, rfl⟩ := run
    exact ⟨.refl, by simp⟩
  | some given, state, after, value, coherent, run => by
    simp only [optional, yields_bind, yields_pure] at run
    obtain ⟨index, _, ran, rfl, rfl⟩ := run
    have lowered := expr_lowered given coherent ran
    refine ⟨lowered.grows, ?_⟩
    rintro _ ⟨⟩
    exact lowered.within

/-- The segments of a path raise joins. -/
theorem navigate_grows : ∀ (segments : List (Segment Resolved.Expr)) (owner : String)
    {state after : LoweringState} {name : String}, Coherent state.scopes →
      Yields (navigate context segments owner) state name after →
        Grows context state.scopes after.scopes
  | [], owner, state, after, name, coherent, run => by
    simp only [navigate, yields_pure] at run
    obtain ⟨rfl, rfl⟩ := run
    exact .refl
  | ⟨label, declared, index, _⟩ :: rest, owner, state, after, name, coherent, run => by
    simp only [navigate, yields_bind] at run
    obtain ⟨position, indexed, lowered, next, stepped, stepRun, restRun⟩ := run
    have place := optional_lowered index coherent lowered
    have step := step_grows (fun value given => (place.2 value given).isValue) stepRun
    have coherent' := step.coherent (place.1.coherent coherent)
    exact (place.1.trans step).trans (navigate_grows rest next coherent' restRun)

end

/-- The groups at the end of a whole path. -/
theorem pathGroup_lowered {reference : Reference Resolved.Expr} {group : TableGroup}
    (coherent : Coherent state.scopes)
    (run : Yields (pathGroup context reference) state group after) :
    Grows context state.scopes after.scopes ∧ group.Coherent ∧
      group.labels ⊆ visible after.scopes := by
  simp only [pathGroup, yields_bind, yields_group] at run
  obtain ⟨owner, reached, walked, index, indexed, lowered, target, stepped, stepRun, rfl, level,
    space, located⟩ := run
  have walk := navigate_grows reference.init reference.source coherent walked
  have place := optional_lowered reference.last.index (walk.coherent coherent) lowered
  have step := step_grows (fun value given => (place.2 value given).isValue) stepRun
  have grown := (walk.trans place.1).trans step
  exact ⟨grown, located_group (Grows.coherent grown coherent) located⟩

/-- A step that raises joins and gives what holds of the levels from then on does so for all elements
of a list. -/
theorem mapM_grows {α β : Type} {step : α → Lowering β} (holds : List LoweringScope → β → Prop)
    (lasting : ∀ {scopes later : List LoweringScope} {value : β}, Grows context scopes later →
      holds scopes value → holds later value)
    (lowers : ∀ item {state after : LoweringState} {value : β}, Coherent state.scopes →
      Yields (step item) state value after →
        Grows context state.scopes after.scopes ∧ holds after.scopes value) :
    ∀ (items : List α) {state after : LoweringState} {values : List β},
      Coherent state.scopes → Yields (items.mapM step) state values after →
        Grows context state.scopes after.scopes ∧ ∀ value ∈ values, holds after.scopes value := by
  intro items
  induction items with
  | nil =>
    intro state after values coherent run
    obtain ⟨rfl, rfl⟩ := yields_mapM_nil.mp run
    exact ⟨.refl, by simp⟩
  | cons item rest ih =>
    intro state after values coherent run
    obtain ⟨value, between, others, ran, ranRest, rfl⟩ := yields_mapM_cons.mp run
    obtain ⟨grown, held⟩ := lowers item coherent ran
    obtain ⟨further, others⟩ := ih (grown.coherent coherent) ranRest
    exact ⟨grown.trans further, List.forall_mem_cons.mpr ⟨lasting further held, others⟩⟩

/-- Expressions one after the other raise joins and give values. -/
theorem exprs_lowered (given : List Resolved.Expr) {values : List Sql.Expr}
    (coherent : Coherent state.scopes) (run : Yields (given.mapM (expr context)) state values after) :
    Grows context state.scopes after.scopes ∧ ∀ value ∈ values, Within after.scopes value := by
  refine mapM_grows Within (fun grows within => within.mono grows) ?_ given coherent run
  intro item state after value coherent run
  have lowered := expr_lowered item coherent run
  exact ⟨lowered.grows, lowered.within⟩

end ObjectQuery.Lowering

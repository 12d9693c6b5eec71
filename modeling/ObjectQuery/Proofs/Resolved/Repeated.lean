import ObjectQuery.Proofs.Resolved.Filled
/-!
# Typing parameters once more

Parameters are typed from their surroundings, and then by other parameters of their kind. The second
step may give a type to a parameter whose neighbour in a condition still has none, and no third step
comes back to the neighbour. Whatever else is typed by its surroundings has its type after the first
step: operands, indices, patterns, members of collections and assigned values.

So a second typing from the surroundings changes a statement exactly if some condition of it has a
parameter without a type beside something that has one.
-/
namespace ObjectQuery.Resolved

/-- The expression is a parameter without a type. -/
def Expr.IsUntyped (expr : Expr) : Prop := ∃ kind, expr = .parameter ⟨kind, none⟩

/-- If one of the expressions is a parameter without a type, none of them has a type. -/
def AreSettled (exprs : List Expr) : Prop :=
  (∃ expr ∈ exprs, expr.IsUntyped) → ∀ expr ∈ exprs, expr.type? = none

/-- No parameter of the condition is without a type although one of its neighbours has one. -/
def Predicate.IsSettled : Predicate → Prop
  | .compare _ left right => AreSettled [left, right]
  | .inList test values _ => AreSettled (test :: values)
  | .inQuery test query _ => test.IsUntyped → selectedType? query.selections = none
  | .between operand low high _ => AreSettled [operand, low, high]
  | _ => True

/-- Typing leaves the condition as it is, apart from conditions inside it. -/
def Predicate.IsFixed : Predicate → Prop
  | .and _ _ | .or _ _ | .not _ => True
  | .inQuery test query _ =>
    test.infer.withType (selectedType? (inferQuery query).selections) = test ∧
      ∀ selection ∈ query.selections, selection.expr.infer = selection.expr
  | other => other.infer = other

/-! ## Conditions one by one -/

/-- A list is unchanged if each of its items is. -/
theorem map_eq_self {α : Type} {change : α → α} {items : List α} :
    items.map change = items ↔ ∀ item ∈ items, change item = item := by
  have same : items.map change = items.map id ↔ ∀ item ∈ items, change item = id item :=
    List.map_inj_left
  rwa [List.map_id] at same

/-- Selections are unchanged if their values are. -/
theorem infer_selections {selections : List Selection} :
    selections.map (fun selection => { selection with expr := selection.expr.infer }) = selections ↔
      ∀ selection ∈ selections, selection.expr.infer = selection.expr := by
  rw [map_eq_self]
  exact forall₂_congr fun selection _ =>
    ⟨congrArg Selection.expr, fun fixed => by rw [fixed]⟩

mutual

/-- A predicate is left as it is if each condition in it is. -/
theorem Predicate.infer_eq_self : ∀ predicate : Predicate,
    (∀ condition ∈ predicate.conditions, condition.IsFixed) → predicate.infer = predicate
  | .and left right, fixed | .or left right, fixed => by
    simp only [Predicate.conditions, List.forall_mem_cons, List.forall_mem_append] at fixed
    rw [Predicate.infer, left.infer_eq_self fixed.2.1, right.infer_eq_self fixed.2.2]
  | .not operand, fixed => by
    simp only [Predicate.conditions, List.forall_mem_cons] at fixed
    rw [Predicate.infer, operand.infer_eq_self fixed.2]
  | .inQuery test query negated, fixed => by
    simp only [Predicate.conditions, List.forall_mem_cons] at fixed
    obtain ⟨⟨tested, chosen⟩, inner⟩ := fixed
    rw [Predicate.infer, tested, inferQuery_eq_self query chosen inner]
  | .compare op left right, fixed => fixed _ List.mem_cons_self
  | .inList test values negated, fixed => fixed _ List.mem_cons_self
  | .memberOf element collection negated, fixed => fixed _ List.mem_cons_self
  | .isNull operand negated, fixed => fixed _ List.mem_cons_self
  | .like operand pattern negated, fixed => fixed _ List.mem_cons_self
  | .between operand low high negated, fixed => fixed _ List.mem_cons_self

/-- A query of settled values and conditions is unchanged by inference. -/
theorem inferQuery_eq_self : ∀ query : Query Predicate,
    (∀ selection ∈ query.selections, selection.expr.infer = selection.expr) →
      (∀ condition ∈ queryConditions query, condition.IsFixed) → inferQuery query = query
  | ⟨spaces, distinct, selections, filter⟩, chosen, fixed => by
    simp only [queryConditions, List.forall_mem_append] at fixed
    rw [inferQuery, inferSpaces_eq_self spaces fixed.1, inferFilter_eq_self filter fixed.2,
      infer_selections.mpr chosen]

/-- Spaces of settled conditions are unchanged by inference. -/
theorem inferSpaces_eq_self : ∀ spaces : List (FromSpace Predicate),
    (∀ condition ∈ spaceConditions spaces, condition.IsFixed) → inferSpaces spaces = spaces
  | [], _ => rfl
  | ⟨root, joins⟩ :: rest, fixed => by
    simp only [spaceConditions, List.forall_mem_append] at fixed
    rw [inferSpaces, inferJoins_eq_self joins fixed.1, inferSpaces_eq_self rest fixed.2]

/-- Joins of settled conditions are unchanged by inference. -/
theorem inferJoins_eq_self : ∀ joins : List (Join Predicate),
    (∀ condition ∈ joinConditions joins, condition.IsFixed) → inferJoins joins = joins
  | [], _ => rfl
  | ⟨kind, fetch, target, predicate⟩ :: rest, fixed => by
    simp only [joinConditions, List.forall_mem_append] at fixed
    rw [inferJoins, inferFilter_eq_self predicate fixed.1, inferJoins_eq_self rest fixed.2]

/-- A filter of settled conditions is unchanged by inference. -/
theorem inferFilter_eq_self : ∀ filter : Option Predicate,
    (∀ condition ∈ filterConditions filter, condition.IsFixed) → inferFilter filter = filter
  | none, _ => rfl
  | some predicate, fixed => congrArg some (predicate.infer_eq_self fixed)

end

/-- A condition that typing leaves as it is has nothing of its own that typing would change. -/
theorem Predicate.isFixed_of_infer {predicate : Predicate} (same : predicate.infer = predicate) :
    predicate.IsFixed := by
  cases predicate with
  | and left right => trivial
  | or left right => trivial
  | not operand => trivial
  | inQuery test query negated =>
    obtain ⟨spaces, distinct, selections, filter⟩ := query
    simp only [Predicate.infer, Predicate.inQuery.injEq, inferQuery, Query.mk.injEq] at same
    obtain ⟨tested, ⟨_, _, chosen, _⟩, _⟩ := same
    exact ⟨tested, infer_selections.mp chosen⟩
  | _ => exact same

/-! ## What has been typed -/

section Again

variable {new : Parameter → Option DataType}

/-- The new types are given to parameters without one. -/
def KeepsTypes (new : Parameter → Option DataType) : Prop :=
  ∀ kind type, new ⟨kind, some type⟩ = some type

/-- Sharing types keeps the types parameters have. -/
theorem keepsTypes_sharedType (parameters : List Parameter) : KeepsTypes (sharedType parameters) :=
  fun _ _ => rfl

/-- A type changes nothing but an untyped value. -/
theorem Expr.withType_eq_self {type : Option DataType} {expr : Expr} :
    expr.withType type = expr ↔ (expr.IsUntyped → type = none) := by
  constructor
  · rintro same ⟨kind, rfl⟩
    simpa [Expr.withType] using same
  · intro settled
    unfold Expr.withType
    split
    · rename_i kind
      rw [settled ⟨kind, rfl⟩]
    · rfl

/-- No type at all changes nothing. -/
@[simp] theorem Expr.withType_none (expr : Expr) : expr.withType none = expr :=
  Expr.withType_eq_self.mpr fun _ => rfl

/-- A parameter with a type keeps having one. -/
theorem KeepsTypes.stays_typed (keeps : KeepsTypes new) (kind : ParameterKind) (type : DataType) :
    ¬ ((Expr.parameter ⟨kind, some type⟩).retype (.ofParameters new)).IsUntyped := by
  rintro ⟨other, untyped⟩
  have lost : new ⟨kind, some type⟩ = none := congrArg Parameter.type (Expr.parameter.inj untyped)
  rw [keeps] at lost
  cases lost

/-- An expression that has been given a type once does not take it again. -/
theorem Expr.withType_again (keeps : KeepsTypes new) (type : Option DataType) (expr : Expr) :
    ((expr.withType type).retype (.ofParameters new)).withType type =
      (expr.withType type).retype (.ofParameters new) := by
  refine Expr.withType_eq_self.mpr fun untyped => ?_
  cases expr with
  | parameter bound =>
    obtain ⟨kind, _ | own⟩ := bound
    · cases type with
      | none => rfl
      | some type => exact (keeps.stays_typed kind type untyped).elim
    · exact (keeps.stays_typed kind own untyped).elim
  | _ =>
    obtain ⟨_, impossible⟩ := untyped
    cases impossible

/-- A parameter holds nothing that could be typed. -/
theorem Expr.infer_withType_again {type : Option DataType} {expr : Expr}
    (again : (expr.retype (.ofParameters new)).infer = expr.retype (.ofParameters new)) :
    ((expr.withType type).retype (.ofParameters new)).infer =
      (expr.withType type).retype (.ofParameters new) := by
  unfold Expr.withType
  split
  · rw [Expr.retype, Expr.infer]
  · exact again

mutual

/-- An expression is settled once its parameters share their types. -/
theorem Expr.infer_again (keeps : KeepsTypes new) : ∀ expr : Expr,
    (expr.infer.retype (.ofParameters new)).infer = expr.infer.retype (.ofParameters new)
  | .path ⟨source, sourceType, init, ⟨label, declared, index, after⟩, type⟩ => by
    simp only [Expr.infer, Expr.retype, Retyping.entity?_ofParameters, Reference.retargetTo_none,
      inferSegments_again keeps init, inferIndex_again keeps declared.index? index]
  | .arithmetic op left right type => by
    simp only [Expr.infer, Expr.retype, Expr.infer_withType_again (left.infer_again keeps),
      Expr.infer_withType_again (right.infer_again keeps), Expr.withType_again keeps]
  | .negate operand => by simp only [Expr.infer, Expr.retype, operand.infer_again keeps]
  | .call function distinct argument type => by
    simp only [Expr.infer, Expr.retype, inferIndex_again keeps none argument]
  | .element label type => by simp only [Expr.infer, Expr.retype]
  | .literal value => by simp only [Expr.infer, Expr.retype]
  | .parameter bound => by simp only [Expr.infer, Expr.retype]

/-- An index is settled once its parameters share their types. -/
theorem inferIndex_again (keeps : KeepsTypes new) (type : Option DataType) : ∀ index : Option Expr,
    inferIndex type (retypeIndex (.ofParameters new) (inferIndex type index)) =
      retypeIndex (.ofParameters new) (inferIndex type index)
  | none => rfl
  | some index => by
    simp only [inferIndex, retypeIndex, Expr.infer_withType_again (index.infer_again keeps),
      Expr.withType_again keeps]

/-- A path is settled once its parameters share their types. -/
theorem inferSegments_again (keeps : KeepsTypes new) : ∀ segments : List (Segment Expr),
    inferSegments (retypeSegments (.ofParameters new) (inferSegments segments)) =
      retypeSegments (.ofParameters new) (inferSegments segments)
  | [] => rfl
  | ⟨label, declared, index, after⟩ :: rest => by
    simp only [inferSegments, retypeSegments, inferIndex_again keeps declared.index? index,
      inferSegments_again keeps rest]

end

/-- An expression that has been typed by what it holds and by what stands around it. -/
theorem Expr.infer_typed (keeps : KeepsTypes new) (type : Option DataType) (expr : Expr) :
    ((expr.infer.withType type).retype (.ofParameters new)).infer =
      (expr.infer.withType type).retype (.ofParameters new) :=
  Expr.infer_withType_again (expr.infer_again keeps)

end Again

/-! ## Which conditions are settled -/

/-- Expressions that take the first type among them are left as they are if they are settled. -/
theorem areSettled_iff {exprs : List Expr} : AreSettled exprs ↔
    ∀ expr ∈ exprs, expr.withType (exprs.findSome? Expr.type?) = expr := by
  have absent : exprs.findSome? Expr.type? = none ↔ ∀ expr ∈ exprs, expr.type? = none :=
    List.findSome?_eq_none_iff
  constructor
  · intro settled expr listed
    exact Expr.withType_eq_self.mpr fun untyped => absent.mpr (settled ⟨expr, listed, untyped⟩)
  · rintro fixed ⟨expr, listed, untyped⟩
    exact absent.mp (Expr.withType_eq_self.mp (fixed expr listed) untyped)

/-- Two values are settled if neither takes a type from the other. -/
theorem areSettled_pair {left right : Expr} : AreSettled [left, right] ↔
    left.withType right.type? = left ∧ right.withType left.type? = right := by
  have untyped {expr : Expr} (bare : expr.IsUntyped) : expr.type? = none := by
    obtain ⟨kind, rfl⟩ := bare
    rfl
  rw [Expr.withType_eq_self, Expr.withType_eq_self]
  constructor
  · intro settled
    exact ⟨fun bare => settled ⟨left, by simp, bare⟩ right (by simp),
      fun bare => settled ⟨right, by simp, bare⟩ left (by simp)⟩
  · rintro ⟨first, second⟩ ⟨expr, listed, bare⟩
    simp only [List.mem_cons, List.not_mem_nil, or_false] at listed
    rw [List.forall_mem_cons, List.forall_mem_singleton]
    rcases listed with rfl | rfl
    · exact ⟨untyped bare, first bare⟩
    · exact ⟨second bare, untyped bare⟩

/-- The first type among values is that of the first one or of the rest. -/
theorem findSome?_cons_type (expr : Expr) (rest : List Expr) :
    (expr :: rest).findSome? Expr.type? = (expr.type? <|> rest.findSome? Expr.type?) := by
  rw [List.findSome?_cons]
  cases expr.type? <;> rfl

/-- A list whose values hold nothing to be typed changes exactly if it is not settled. -/
theorem Predicate.inList_settled {test : Expr} {values : List Expr} {negated : Bool}
    (tested : test.infer = test) (listed : ∀ value ∈ values, value.infer = value) :
    (Predicate.inList test values negated).infer = .inList test values negated ↔
      AreSettled (test :: values) := by
  rw [areSettled_iff, List.forall_mem_cons, findSome?_cons_type, ← map_eq_self]
  simp only [Predicate.infer, tested, map_eq_self.mpr listed, Predicate.inList.injEq, and_true]

/-- A range is settled if its values are and none takes a type from another. -/
theorem Predicate.between_settled {operand low high : Expr} {negated : Bool}
    (tested : operand.infer = operand) (lower : low.infer = low) (upper : high.infer = high) :
    (Predicate.between operand low high negated).infer = .between operand low high negated ↔
      AreSettled [operand, low, high] := by
  have first : [operand, low, high].findSome? Expr.type? =
      (operand.type? <|> low.type? <|> high.type?) := by
    rw [findSome?_cons_type, findSome?_cons_type, findSome?_cons_type, List.findSome?_nil]
    cases high.type? <;> rfl
  rw [areSettled_iff, first, List.forall_mem_cons, List.forall_mem_cons, List.forall_mem_singleton]
  simp only [Predicate.infer, tested, lower, upper, Predicate.between.injEq, and_true]

/-- Another type for a parameter leaves the type of a path. -/
theorem Reference.type_retype (new : Parameter → Option DataType) (reference : Reference Expr) :
    (reference.retype (.ofParameters new)).type = reference.type := by
  obtain ⟨source, sourceType, init, ⟨label, declared, _ | index, after⟩, type⟩ := reference <;>
    simp [Reference.retype, retypeIndex]

/-- Inference leaves the type a query selects. -/
theorem selectedType?_infer (query : Query Predicate) :
    selectedType? (inferQuery query).selections = selectedType? query.selections := by
  obtain ⟨spaces, distinct, _ | ⟨selection, _ | ⟨second, rest⟩⟩, filter⟩ := query
  · rfl
  · exact selection.expr.type?_infer
  · rfl

variable {new : Parameter → Option DataType}

/-- Selections are settled once their parameters share their types. -/
theorem selections_again (keeps : KeepsTypes new) (query : Query Predicate) :
    ∀ selection ∈ (retypeQuery (.ofParameters new) (inferQuery query)).selections,
      selection.expr.infer = selection.expr := by
  obtain ⟨spaces, distinct, selections, filter⟩ := query
  simp only [inferQuery, retypeQuery, List.map_map, List.forall_mem_map]
  exact fun selection _ => selection.expr.infer_again keeps

/-- A condition that has been typed changes exactly if it is not settled. -/
theorem Predicate.isFixed_iff (keeps : KeepsTypes new) (predicate : Predicate) :
    (predicate.infer.retype (.ofParameters new)).IsFixed ↔
      (predicate.infer.retype (.ofParameters new)).IsSettled := by
  cases predicate with
  | and left right => exact Iff.rfl
  | or left right => exact Iff.rfl
  | not operand => exact Iff.rfl
  | compare op left right =>
    simp only [Predicate.infer, Predicate.retype, Predicate.IsFixed, Predicate.IsSettled,
      Expr.infer_typed keeps, Predicate.compare.injEq, true_and, areSettled_pair]
  | inList test values negated =>
    refine Predicate.inList_settled (test.infer_typed keeps _) ?_
    simp only [List.map_map, List.forall_mem_map]
    exact fun value _ => value.infer_typed keeps _
  | inQuery test query negated =>
    simp only [Predicate.infer, Predicate.retype, Predicate.IsFixed, Predicate.IsSettled,
      Expr.infer_typed keeps, selectedType?_infer, Expr.withType_eq_self]
    exact and_iff_left (selections_again keeps query)
  | memberOf element collection negated =>
    -- Members and patterns have been offered the same type before and would have taken it.
    simp only [Predicate.infer, Predicate.retype, Predicate.IsFixed, Predicate.IsSettled,
      Expr.infer_withType, Reference.type_retype, Expr.infer_typed keeps, Expr.withType_again keeps]
  | isNull operand negated =>
    simp only [Predicate.infer, Predicate.retype, Predicate.IsFixed, Predicate.IsSettled,
      Expr.infer_again keeps]
  | like operand pattern negated =>
    simp only [Predicate.infer, Predicate.retype, Predicate.IsFixed, Predicate.IsSettled,
      Expr.infer_typed keeps, Expr.withType_again keeps]
  | between operand low high negated =>
    exact Predicate.between_settled (operand.infer_typed keeps _) (low.infer_typed keeps _)
      (high.infer_typed keeps _)

/-! ## Statements -/

/-- A statement that has been typed stays as it is if its conditions do. -/
theorem Statement.inferLocally_eq_self (keeps : KeepsTypes new) {statement typed : Statement}
    (same : typed = statement.inferLocally.retype (.ofParameters new))
    (fixed : ∀ condition ∈ typed.conditions, condition.IsFixed) : typed.inferLocally = typed := by
  subst same
  cases statement with
  | select query order =>
    have inner := inferQuery_eq_self _ (selections_again keeps query) fixed
    exact congrArg (Statement.select · _) inner
  | update target assignments filter =>
    have inner := inferFilter_eq_self _ fixed
    have assigned : ∀ assignment ∈ assignments, Assignment.infer
        { assignment.infer with value := assignment.infer.value.retype (.ofParameters new) } =
          { assignment.infer with value := assignment.infer.value.retype (.ofParameters new) } := by
      intro assignment _
      simp only [Assignment.infer, Expr.infer_withType, Expr.infer_typed keeps,
        Expr.withType_again keeps]
    simp only [Statement.inferLocally, Statement.retype, List.map_map, inner]
    exact congrArg (Statement.update target · _) (List.map_congr_left assigned)
  | delete target filter => exact congrArg (Statement.delete target) (inferFilter_eq_self _ fixed)

/-- Typing the parameters of a typed statement from their surroundings changes nothing exactly if all
conditions of the statement are settled. -/
theorem Statement.inferLocally_again_iff (keeps : KeepsTypes new) {statement typed : Statement}
    (same : typed = statement.inferLocally.retype (.ofParameters new)) :
    typed.inferLocally = typed ↔ ∀ condition ∈ typed.conditions, condition.IsSettled := by
  have each : ∀ condition ∈ typed.conditions, condition.IsFixed ↔ condition.IsSettled := by
    rw [same, Statement.conditions_retype, Statement.conditions_inferLocally, List.map_map,
      List.forall_mem_map]
    exact fun condition _ => condition.isFixed_iff keeps
  constructor
  · intro again condition listed
    have kept := congrArg Statement.conditions again
    rw [Statement.conditions_inferLocally] at kept
    have fixed := Predicate.isFixed_of_infer (map_eq_self.mp kept condition listed)
    exact (each condition listed).mp fixed
  · intro settled
    exact inferLocally_eq_self keeps same fun condition listed =>
      (each condition listed).mpr (settled condition listed)

end ObjectQuery.Resolved

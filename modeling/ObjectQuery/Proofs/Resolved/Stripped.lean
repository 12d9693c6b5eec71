import ObjectQuery.Proofs.Resolved.Recorded
/-!
# Statements without recorded types

A resolved statement records types that follow from its names: those of sources, of parameters and of
the results of operations and calls. `stripped` takes them off and keeps the rest. Typing parameters
and recording an entity for the root of a statement differ from doing nothing only in recorded types,
the entity of the root apart.
-/
namespace ObjectQuery.Resolved

/-- Stands where a type has been taken off. -/
def noType : DataType := .entity ""

mutual

/-- The expression without the types of its sources, parameters, operations and calls. -/
def Expr.stripped : Expr → Expr
  | .path ⟨source, _, init, ⟨label, declared, index, after⟩, type⟩ =>
    .path ⟨source, noType, strippedSegments init, ⟨label, declared, strippedIndex index, after⟩, type⟩
  | .element label _ => .element label noType
  | .literal value => .literal value
  | .parameter bound => .parameter ⟨bound.kind, none⟩
  | .arithmetic op left right _ => .arithmetic op left.stripped right.stripped none
  | .negate operand => .negate operand.stripped
  | .call function distinct argument _ => .call function distinct (strippedIndex argument) none

/-- The index or argument without recorded types. -/
def strippedIndex : Option Expr → Option Expr
  | none => none
  | some index => some index.stripped

/-- The segments without types recorded in their indices. -/
def strippedSegments : List (Segment Expr) → List (Segment Expr)
  | [] => []
  | ⟨label, declared, index, after⟩ :: rest =>
    ⟨label, declared, strippedIndex index, after⟩ :: strippedSegments rest

end

/-- The segment without types recorded in its index. -/
def Segment.stripped (segment : Segment Expr) : Segment Expr :=
  { segment with index := strippedIndex segment.index }

/-- The path without recorded types. -/
def Reference.stripped (reference : Reference Expr) : Reference Expr where
  source := reference.source
  sourceType := noType
  init := strippedSegments reference.init
  last := reference.last.stripped
  type := reference.type

/-- The item of a select list without recorded types. -/
def Selection.stripped (selection : Selection) : Selection :=
  { selection with expr := selection.expr.stripped }

mutual

/-- The predicate without recorded types. -/
def Predicate.stripped : Predicate → Predicate
  | .and left right => .and left.stripped right.stripped
  | .or left right => .or left.stripped right.stripped
  | .not operand => .not operand.stripped
  | .compare op left right => .compare op left.stripped right.stripped
  | .inList test values negated => .inList test.stripped (values.map Expr.stripped) negated
  | .inQuery test query negated => .inQuery test.stripped (strippedQuery query) negated
  | .memberOf element collection negated => .memberOf element.stripped collection.stripped negated
  | .isNull operand negated => .isNull operand.stripped negated
  | .like operand pattern negated => .like operand.stripped pattern.stripped negated
  | .between operand low high negated =>
    .between operand.stripped low.stripped high.stripped negated

/-- The query without recorded types. -/
def strippedQuery : Query Predicate → Query Predicate
  | ⟨spaces, distinct, selections, filter⟩ =>
    ⟨strippedSpaces spaces, distinct, selections.map Selection.stripped, strippedFilter filter⟩

/-- The items of a from-clause without recorded types. -/
def strippedSpaces : List (FromSpace Predicate) → List (FromSpace Predicate)
  | [] => []
  | ⟨root, joins⟩ :: rest => ⟨root, strippedJoins joins⟩ :: strippedSpaces rest

/-- Joins without recorded types. -/
def strippedJoins : List (Join Predicate) → List (Join Predicate)
  | [] => []
  | ⟨kind, fetch, target, predicate⟩ :: rest =>
    ⟨kind, fetch, target, strippedFilter predicate⟩ :: strippedJoins rest

/-- A condition that may be absent without recorded types. -/
def strippedFilter : Option Predicate → Option Predicate
  | none => none
  | some predicate => some predicate.stripped

end

/-- The sort key without recorded types. -/
def SortKey.stripped (key : SortKey) : SortKey := { key with expr := key.expr.stripped }

/-- The assignment without recorded types. -/
def Assignment.stripped (assignment : Assignment) : Assignment :=
  ⟨assignment.target.stripped, assignment.value.stripped⟩

/-- The statement without recorded types. -/
def Statement.stripped : Statement → Statement
  | .select query order => .select (strippedQuery query) (order.map SortKey.stripped)
  | .update target assignments filter =>
    .update target (assignments.map Assignment.stripped) (strippedFilter filter)
  | .delete target filter => .delete target (strippedFilter filter)

attribute [simp] Expr.stripped strippedIndex strippedSegments Segment.stripped Reference.stripped
  Selection.stripped Predicate.stripped strippedQuery strippedSpaces strippedJoins strippedFilter
  SortKey.stripped Assignment.stripped Statement.stripped

/-- A path without its types is the path of the reference without them. -/
theorem Expr.stripped_path (reference : Reference Expr) :
    (Expr.path reference).stripped = .path reference.stripped := rfl

/-- An index stays where it was given. -/
theorem strippedIndex_isSome (index : Option Expr) : (strippedIndex index).isSome = index.isSome := by
  cases index <;> rfl

/-- The segments of a path lose their types one by one. -/
theorem strippedSegments_eq_map (segments : List (Segment Expr)) :
    strippedSegments segments = segments.map Segment.stripped := by
  induction segments with
  | nil => rfl
  | cons segment rest ih => simp [ih]

/-- The type after a segment is no recorded one. -/
@[simp] theorem Segment.type_stripped (segment : Segment Expr) :
    segment.stripped.type = segment.type := rfl

/-- The type of a path is no recorded one. -/
@[simp] theorem Reference.type_stripped (reference : Reference Expr) :
    reference.stripped.type = reference.type := rfl

/-- A path reads the same without its types. -/
theorem Reference.dotted_stripped (reference : Reference Expr) :
    reference.stripped.dotted = reference.dotted := by
  simp [Reference.dotted, Reference.segments, strippedSegments_eq_map, strippedIndex_isSome,
    Function.comp_def]

section Retyping

variable {new : Retyping}

mutual

/-- Other types for parameters are lost with the rest of the types. -/
theorem Expr.stripped_retype (keeps : new.entity? = fun _ => none) :
    ∀ expr : Expr, (expr.retype new).stripped = expr.stripped
  | .path ⟨source, sourceType, init, ⟨label, declared, index, after⟩, type⟩ => by
    simp [Expr.retype, keeps, stripped_retypeSegments keeps init, stripped_retypeIndex keeps index]
  | .element label type => by simp [Expr.retype]
  | .literal value => by simp [Expr.retype]
  | .parameter bound => by simp [Expr.retype]
  | .arithmetic op left right type => by
    simp [Expr.retype, left.stripped_retype keeps, right.stripped_retype keeps]
  | .negate operand => by simp [Expr.retype, operand.stripped_retype keeps]
  | .call function distinct argument type => by
    simp [Expr.retype, stripped_retypeIndex keeps argument]

/-- Other types for parameters are lost from an index. -/
theorem stripped_retypeIndex (keeps : new.entity? = fun _ => none) :
    ∀ index : Option Expr, strippedIndex (retypeIndex new index) = strippedIndex index
  | none => rfl
  | some index => by simp [retypeIndex, index.stripped_retype keeps]

/-- Other types for parameters are lost from a path. -/
theorem stripped_retypeSegments (keeps : new.entity? = fun _ => none) :
    ∀ segments : List (Segment Expr),
      strippedSegments (retypeSegments new segments) = strippedSegments segments
  | [] => rfl
  | ⟨label, declared, index, after⟩ :: rest => by
    simp [retypeSegments, stripped_retypeIndex keeps index, stripped_retypeSegments keeps rest]

end

/-- Other types for parameters are lost from a reference. -/
theorem Reference.stripped_retype (keeps : new.entity? = fun _ => none)
    (reference : Reference Expr) : (reference.retype new).stripped = reference.stripped :=
  Expr.path.inj ((Expr.path reference).stripped_retype keeps)

mutual

/-- Other types for parameters are lost from a predicate. -/
theorem Predicate.stripped_retype (keeps : new.entity? = fun _ => none) :
    ∀ predicate : Predicate, (predicate.retype new).stripped = predicate.stripped
  | .and left right | .or left right => by
    simp [Predicate.retype, left.stripped_retype keeps, right.stripped_retype keeps]
  | .not operand => by simp [Predicate.retype, operand.stripped_retype keeps]
  | .compare op left right => by simp [Predicate.retype, Expr.stripped_retype keeps]
  | .inList test values negated => by simp [Predicate.retype, Expr.stripped_retype keeps]
  | .inQuery test query negated => by
    simp [Predicate.retype, Expr.stripped_retype keeps, stripped_retypeQuery keeps query]
  | .memberOf element collection negated => by
    simp only [Predicate.retype, Predicate.stripped, Expr.stripped_retype keeps,
      Reference.stripped_retype keeps]
  | .isNull operand negated => by simp [Predicate.retype, Expr.stripped_retype keeps]
  | .like operand pattern negated => by simp [Predicate.retype, Expr.stripped_retype keeps]
  | .between operand low high negated => by simp [Predicate.retype, Expr.stripped_retype keeps]

/-- Other types for parameters are lost from a query. -/
theorem stripped_retypeQuery (keeps : new.entity? = fun _ => none) :
    ∀ query : Query Predicate, strippedQuery (retypeQuery new query) = strippedQuery query
  | ⟨spaces, distinct, selections, filter⟩ => by
    simp [retypeQuery, Expr.stripped_retype keeps, stripped_retypeSpaces keeps spaces,
      stripped_retypeFilter keeps filter]

/-- Other types for parameters are lost from spaces. -/
theorem stripped_retypeSpaces (keeps : new.entity? = fun _ => none) :
    ∀ spaces : List (FromSpace Predicate),
      strippedSpaces (retypeSpaces new spaces) = strippedSpaces spaces
  | [] => rfl
  | ⟨root, joins⟩ :: rest => by
    simp [retypeSpaces, stripped_retypeJoins keeps joins, stripped_retypeSpaces keeps rest]

/-- Other types for parameters are lost from joins. -/
theorem stripped_retypeJoins (keeps : new.entity? = fun _ => none) :
    ∀ joins : List (Join Predicate), strippedJoins (retypeJoins new joins) = strippedJoins joins
  | [] => rfl
  | ⟨kind, fetch, target, predicate⟩ :: rest => by
    simp [retypeJoins, stripped_retypeFilter keeps predicate, stripped_retypeJoins keeps rest]

/-- Other types for parameters are lost from a filter. -/
theorem stripped_retypeFilter (keeps : new.entity? = fun _ => none) :
    ∀ filter : Option Predicate, strippedFilter (retypeFilter new filter) = strippedFilter filter
  | none => rfl
  | some predicate => by simp [retypeFilter, predicate.stripped_retype keeps]

end

/-- New types are taken off as the old ones are, if they are not those of attributes. -/
theorem Statement.stripped_retype (keeps : new.entity? = fun _ => none)
    (statement : Statement) : (statement.retype new).stripped = statement.stripped := by
  cases statement with
  | select query order =>
    simp [Statement.retype, stripped_retypeQuery keeps, Expr.stripped_retype keeps]
  | update target assignments filter =>
    simp [Statement.retype, stripped_retypeFilter keeps, Expr.stripped_retype keeps]
  | delete target filter => simp [Statement.retype, stripped_retypeFilter keeps]

end Retyping

/-- A type given to an expression is lost with the rest of the types. -/
@[simp] theorem Expr.stripped_withType (type : Option DataType) (expr : Expr) :
    (expr.withType type).stripped = expr.stripped := by
  unfold Expr.withType
  split <;> simp

mutual

/-- Inferred types are lost from an expression. -/
@[simp] theorem Expr.stripped_infer : ∀ expr : Expr, expr.infer.stripped = expr.stripped
  | .path ⟨source, sourceType, init, ⟨label, declared, index, after⟩, type⟩ => by
    simp [Expr.infer, stripped_inferSegments init, stripped_inferIndex declared.index? index]
  | .arithmetic op left right type => by
    simp [Expr.infer, left.stripped_infer, right.stripped_infer]
  | .negate operand => by simp [Expr.infer, operand.stripped_infer]
  | .call function distinct argument type => by
    simp [Expr.infer, stripped_inferIndex none argument]
  | .element label type => by simp [Expr.infer]
  | .literal value => by simp [Expr.infer]
  | .parameter bound => by simp [Expr.infer]

/-- Inferred types are lost from an index. -/
@[simp] theorem stripped_inferIndex (type : Option DataType) :
    ∀ index : Option Expr, strippedIndex (inferIndex type index) = strippedIndex index
  | none => rfl
  | some index => by simp [inferIndex, index.stripped_infer]

/-- Inferred types are lost from a path. -/
@[simp] theorem stripped_inferSegments : ∀ segments : List (Segment Expr),
    strippedSegments (inferSegments segments) = strippedSegments segments
  | [] => rfl
  | ⟨label, declared, index, after⟩ :: rest => by
    simp [inferSegments, stripped_inferIndex declared.index? index, stripped_inferSegments rest]

end

mutual

/-- Inferred types are lost from a predicate. -/
@[simp] theorem Predicate.stripped_infer :
    ∀ predicate : Predicate, predicate.infer.stripped = predicate.stripped
  | .and left right | .or left right => by
    simp [Predicate.infer, left.stripped_infer, right.stripped_infer]
  | .not operand => by simp [Predicate.infer, operand.stripped_infer]
  | .compare op left right => by simp [Predicate.infer]
  | .inList test values negated => by simp [Predicate.infer]
  | .inQuery test query negated => by simp [Predicate.infer, stripped_inferQuery query]
  | .memberOf element collection negated => by simp [Predicate.infer]
  | .isNull operand negated => by simp [Predicate.infer]
  | .like operand pattern negated => by simp [Predicate.infer]
  | .between operand low high negated => by simp [Predicate.infer]

/-- Inferred types are lost from a query. -/
@[simp] theorem stripped_inferQuery :
    ∀ query : Query Predicate, strippedQuery (inferQuery query) = strippedQuery query
  | ⟨spaces, distinct, selections, filter⟩ => by
    simp [inferQuery, stripped_inferSpaces spaces, stripped_inferFilter filter]

/-- Inferred types are lost from spaces. -/
@[simp] theorem stripped_inferSpaces : ∀ spaces : List (FromSpace Predicate),
    strippedSpaces (inferSpaces spaces) = strippedSpaces spaces
  | [] => rfl
  | ⟨root, joins⟩ :: rest => by
    simp [inferSpaces, stripped_inferJoins joins, stripped_inferSpaces rest]

/-- Inferred types are lost from joins. -/
@[simp] theorem stripped_inferJoins : ∀ joins : List (Join Predicate),
    strippedJoins (inferJoins joins) = strippedJoins joins
  | [] => rfl
  | ⟨kind, fetch, target, predicate⟩ :: rest => by
    simp [inferJoins, stripped_inferFilter predicate, stripped_inferJoins rest]

/-- Inferred types are lost from a filter. -/
@[simp] theorem stripped_inferFilter : ∀ filter : Option Predicate,
    strippedFilter (inferFilter filter) = strippedFilter filter
  | none => rfl
  | some predicate => by simp [inferFilter, predicate.stripped_infer]

end

/-- Typing the parameters of a statement changes nothing but recorded types. -/
@[simp] theorem Statement.stripped_infer (statement : Statement) :
    statement.infer.stripped = statement.stripped := by
  rw [Statement.infer, Statement.shareTypes_eq,
    Statement.stripped_retype (Retyping.entity?_ofParameters _)]
  cases statement with
  | select query order => simp [Statement.inferLocally]
  | update target assignments filter =>
    simp [Statement.inferLocally, Assignment.infer, Function.comp_def]
  | delete target filter => simp [Statement.inferLocally]

/-- Statements that differ only in recorded types still do when their roots are given the same
entity. -/
theorem Statement.stripped_withRoot (entity : EntityType) {statement other : Statement}
    (alike : statement.stripped = other.stripped) :
    (statement.withRoot entity).stripped = (other.withRoot entity).stripped := by
  cases statement with
  | select query order =>
    cases other with
    | select query' order' =>
      obtain ⟨_ | ⟨⟨root, joins⟩, rest⟩, distinct, selections, filter⟩ := query <;>
        obtain ⟨_ | ⟨⟨root', joins'⟩, rest'⟩, distinct', selections', filter'⟩ := query' <;>
        simp_all [Statement.withRoot]
    | update target assignments filter => simp at alike
    | delete target filter => simp at alike
  | update target assignments filter =>
    cases other with
    | select query order => simp at alike
    | update target' assignments' filter' =>
      obtain ⟨rfl, assigned, filtered⟩ := Statement.update.inj alike
      -- The types that the targets of assignments are given are taken off again.
      simp only [Statement.withRoot, Statement.stripped, List.map_map, filtered]
      exact congrArg (Statement.update _ · _) assigned
    | delete target' filter' => simp at alike
  | delete target filter =>
    cases other with
    | select query order => simp at alike
    | update target' assignments filter' => simp at alike
    | delete target' filter' => simp_all [Statement.withRoot]

/-- Recording an entity for the root changes the entity of the root and nothing else but recorded
types. -/
theorem Statement.stripped_recorded (label : String) (entity : EntityType) (statement : Statement) :
    (statement.infer.recorded label entity).stripped = (statement.withRoot entity).stripped := by
  apply Statement.stripped_withRoot
  rw [Statement.stripped_retype (entity?_recording label entity), Statement.stripped_infer]

end ObjectQuery.Resolved

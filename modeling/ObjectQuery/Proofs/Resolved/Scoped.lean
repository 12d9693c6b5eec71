import ObjectQuery.Model.Catalog
import ObjectQuery.Proofs.Resolved.Retyped
/-!
# Well-scoped statements

In a well-scoped statement every expression refers only to sources of the query it stands in and of
the queries around that one, or to the target of the change. What is recorded about a source is its
type, and every path follows attributes that exist: the first one is an attribute of the source, and
each further one is an attribute of the entity that the path has led to so far.

Parameters have no part in this, so typing them keeps a statement well-scoped.
-/
namespace ObjectQuery.Resolved

/-! ## Paths that follow attributes -/

section Paths

variable {ε δ : Type} (catalog : Catalog)

/-- The attribute of the entity that a type names. -/
def attributeOf? (type : DataType) (label : String) : Option DataType :=
  match type with
  | .simple (.entity name) => (catalog.resolve? name).bind (·.attribute? label)
  | _ => none

/-- With an index the attribute is an indexed collection and the segment has the type of its elements;
without one the segment has the type of the attribute. -/
def Segment.IsTyped (segment : Segment ε) : Prop :=
  if segment.index.isSome then
    segment.declared.isIndexed ∧ segment.declared.element? = some segment.type
  else segment.type = segment.declared

/-- A segment that leads to a whole collection has no index. -/
theorem Segment.IsTyped.index_of_isPlural {segment : Segment ε} (typed : segment.IsTyped)
    (plural : segment.type.isPlural = true) : segment.index = none := by
  obtain ⟨label, declared, index, after⟩ := segment
  cases index with
  | none => rfl
  | some index =>
    obtain ⟨_, element⟩ := typed
    cases declared with
    | simple given => cases element
    | collection kind given =>
      rw [← Option.some.inj element] at plural
      cases plural

/-- Each segment is an attribute that is found, the first one by `find?` and each further one on the
entity that the type of the one before it names. -/
def AreTyped (find? : String → Option DataType) : List (Segment ε) → Prop
  | [] => True
  | segment :: rest => find? segment.label = some segment.declared ∧ segment.IsTyped ∧
      AreTyped (attributeOf? catalog segment.type) rest

/-- The path starts from the source and follows its attributes. -/
structure Reference.StartsFrom (node : FromNode) (reference : Reference ε) : Prop where
  source : reference.source = node.label
  sourceType : reference.sourceType = node.type
  segments : AreTyped catalog node.entity.attribute? reference.segments
  /-- The path has the type that is reached by its last attribute. -/
  type : reference.type = reference.last.type

/-- A segment is typed exactly if its outline is. -/
theorem Segment.isTyped_outline (segment : Segment ε) :
    segment.outline.IsTyped ↔ segment.IsTyped := by
  unfold Segment.IsTyped
  simp [Segment.outline]

/-- A path is typed exactly if its outline is. -/
theorem areTyped_outline : ∀ {find? : String → Option DataType} {segments : List (Segment ε)},
    AreTyped catalog find? (segments.map Segment.outline) ↔ AreTyped catalog find? segments
  | _, [] => Iff.rfl
  | find?, segment :: rest => by
    rw [List.map_cons, AreTyped, AreTyped, segment.isTyped_outline, areTyped_outline]
    rfl

/-- The values of indices have no part in what a path follows. -/
theorem Reference.StartsFrom.congr {node : FromNode} {reference : Reference ε}
    {other : Reference δ} (starts : reference.StartsFrom catalog node)
    (source : other.source = reference.source) (sourceType : other.sourceType = reference.sourceType)
    (alike : other.segments.map Segment.outline = reference.segments.map Segment.outline)
    (type : other.type = reference.type) : other.StartsFrom catalog node := by
  refine ⟨source.trans starts.source, sourceType.trans starts.sourceType, ?_, ?_⟩
  · rw [← areTyped_outline, alike, areTyped_outline]
    exact starts.segments
  · have ends : other.last.outline = reference.last.outline := by
      simpa [Reference.segments] using congrArg List.getLast? alike
    exact type.trans (starts.type.trans (congrArg Segment.type ends).symm)

end Paths

/-! ## Statements -/

section Scoped

variable (catalog : Catalog)

mutual

/-- Every path and source in the expression refers to a visible source. -/
def Expr.IsScoped (visible : List FromNode) : Expr → Prop
  | .path ⟨source, sourceType, init, ⟨label, declared, index, after⟩, type⟩ =>
    (∃ node ∈ visible, Reference.StartsFrom catalog node
      ⟨source, sourceType, init, ⟨label, declared, index, after⟩, type⟩) ∧
      SegmentsScoped visible init ∧ IndexScoped visible index
  | .element label type => ∃ node ∈ visible, label = node.label ∧ type = node.type
  | .literal _ | .parameter _ => True
  | .arithmetic _ left right _ => left.IsScoped visible ∧ right.IsScoped visible
  | .negate operand => operand.IsScoped visible
  | .call _ _ argument _ => IndexScoped visible argument

/-- The same for an index or an argument. -/
def IndexScoped (visible : List FromNode) : Option Expr → Prop
  | none => True
  | some index => index.IsScoped visible

/-- The same for the indices of segments. -/
def SegmentsScoped (visible : List FromNode) : List (Segment Expr) → Prop
  | [] => True
  | ⟨_, _, index, _⟩ :: rest => IndexScoped visible index ∧ SegmentsScoped visible rest

end

/-- A path to a visible source, as an expression of its own. -/
def Reference.IsScoped (visible : List FromNode) (reference : Reference Expr) : Prop :=
  (Expr.path reference).IsScoped catalog visible

mutual

/-- The expressions of the predicate refer to visible sources, and those of its queries to their own
sources besides. -/
def Predicate.IsScoped (visible : List FromNode) : Predicate → Prop
  | .and left right | .or left right => left.IsScoped visible ∧ right.IsScoped visible
  | .not operand => operand.IsScoped visible
  | .compare _ left right => left.IsScoped catalog visible ∧ right.IsScoped catalog visible
  | .inList test values _ =>
    test.IsScoped catalog visible ∧ ∀ value ∈ values, value.IsScoped catalog visible
  | .inQuery test query _ => test.IsScoped catalog visible ∧ QueryScoped visible query
  | .memberOf element collection _ =>
    element.IsScoped catalog visible ∧ collection.IsScoped catalog visible
  | .isNull operand _ => operand.IsScoped catalog visible
  | .like operand pattern _ => operand.IsScoped catalog visible ∧ pattern.IsScoped catalog visible
  | .between operand low high _ => operand.IsScoped catalog visible ∧
      low.IsScoped catalog visible ∧ high.IsScoped catalog visible

/-- Inside a query its own sources are visible as well as those outside. -/
def QueryScoped (outside : List FromNode) : Query Predicate → Prop
  | ⟨spaces, distinct, selections, filter⟩ =>
    (∀ selection ∈ selections, selection.expr.IsScoped catalog
      ((Query.mk spaces distinct selections filter).elements ++ outside)) ∧
    SpacesScoped ((Query.mk spaces distinct selections filter).elements ++ outside) spaces ∧
    FilterScoped ((Query.mk spaces distinct selections filter).elements ++ outside) filter

/-- The same for the items of a from-clause. -/
def SpacesScoped (visible : List FromNode) : List (FromSpace Predicate) → Prop
  | [] => True
  | ⟨_, joins⟩ :: rest => JoinsScoped visible joins ∧ SpacesScoped visible rest

/-- The same for the conditions of joins. -/
def JoinsScoped (visible : List FromNode) : List (Join Predicate) → Prop
  | [] => True
  | ⟨_, _, _, predicate⟩ :: rest => FilterScoped visible predicate ∧ JoinsScoped visible rest

/-- The same for a condition that may be absent. -/
def FilterScoped (visible : List FromNode) : Option Predicate → Prop
  | none => True
  | some predicate => predicate.IsScoped visible

end

/-- Every expression of the statement refers to sources that are visible where it stands. Sort keys
stand in the query, and in a change only its target is visible. -/
def Statement.IsScoped : Statement → Prop
  | .select query order => QueryScoped catalog [] query ∧
      ∀ key ∈ order, key.expr.IsScoped catalog query.elements
  | .update target assignments filter =>
    (∀ assignment ∈ assignments, assignment.target.IsScoped catalog [target] ∧
      assignment.value.IsScoped catalog [target]) ∧ FilterScoped catalog [target] filter
  | .delete target filter => FilterScoped catalog [target] filter

/-! ## Typing parameters -/

variable {catalog} {visible outside : List FromNode}

/-- Another type for an expression leaves what it refers to. -/
theorem Expr.isScoped_withType (type : Option DataType) (expr : Expr) :
    (expr.withType type).IsScoped catalog visible ↔ expr.IsScoped catalog visible := by
  unfold Expr.withType
  split <;> simp [Expr.IsScoped]

/-- Inferring types leaves the outline of a path. -/
theorem outline_inferSegments (segments : List (Segment Expr)) :
    (inferSegments segments).map Segment.outline = segments.map Segment.outline := by
  induction segments with
  | nil => rfl
  | cons segment rest ih =>
    obtain ⟨label, declared, index, after⟩ := segment
    cases index <;> simp [inferSegments, inferIndex, Segment.outline, ih]

mutual

/-- Inferring types leaves an expression in scope. -/
theorem Expr.isScoped_infer : ∀ expr : Expr, expr.IsScoped catalog visible →
    expr.infer.IsScoped catalog visible
  | .path ⟨source, sourceType, init, ⟨label, declared, index, after⟩, type⟩, within => by
    obtain ⟨⟨node, seen, starts⟩, inner, last⟩ := within
    rw [Expr.infer]
    refine ⟨⟨node, seen, starts.congr catalog rfl rfl ?_ rfl⟩, segmentsScoped_infer init inner,
      indexScoped_infer _ index last⟩
    cases index <;> simp [Reference.segments, outline_inferSegments, Segment.outline, inferIndex]
  | .arithmetic op left right type, within => by
    rw [Expr.infer]
    exact ⟨(Expr.isScoped_withType _ _).mpr (left.isScoped_infer within.1),
      (Expr.isScoped_withType _ _).mpr (right.isScoped_infer within.2)⟩
  | .negate operand, within => operand.isScoped_infer within
  | .call function distinct argument type, within => indexScoped_infer none argument within
  | .element label type, within => within
  | .literal value, within => trivial
  | .parameter bound, within => trivial

/-- Inferring types leaves an index in scope. -/
theorem indexScoped_infer (type : Option DataType) : ∀ index : Option Expr,
    IndexScoped catalog visible index → IndexScoped catalog visible (inferIndex type index)
  | none, _ => trivial
  | some index, within => (Expr.isScoped_withType type _).mpr (index.isScoped_infer within)

/-- Inferring types leaves a path in scope. -/
theorem segmentsScoped_infer : ∀ segments : List (Segment Expr),
    SegmentsScoped catalog visible segments → SegmentsScoped catalog visible (inferSegments segments)
  | [], _ => trivial
  | ⟨_, declared, index, _⟩ :: rest, within =>
    ⟨indexScoped_infer declared.index? index within.1, segmentsScoped_infer rest within.2⟩

end

/-- The sources of a query are not touched. -/
theorem elements_inferSpaces (spaces : List (FromSpace Predicate)) :
    ((inferSpaces spaces).flatMap fun space => space.root :: space.joins.map (·.target)) =
      spaces.flatMap fun space => space.root :: space.joins.map (·.target) := by
  have targets : ∀ joins : List (Join Predicate),
      (inferJoins joins).map (·.target) = joins.map (·.target) := by
    intro joins
    induction joins with
    | nil => rfl
    | cons join joins ih => simp [inferJoins, ih]
  induction spaces with
  | nil => rfl
  | cons space rest ih => simp [inferSpaces, targets, ih]

/-- Inferring types leaves the sources of a query. -/
theorem elements_inferQuery (query : Query Predicate) :
    (inferQuery query).elements = query.elements := by
  obtain ⟨spaces, distinct, selections, filter⟩ := query
  rw [inferQuery]
  exact elements_inferSpaces spaces

mutual

/-- Inferring types leaves a predicate in scope. -/
theorem Predicate.isScoped_infer {visible : List FromNode} : ∀ predicate : Predicate,
    predicate.IsScoped catalog visible → predicate.infer.IsScoped catalog visible
  | .and left right, within | .or left right, within =>
    ⟨left.isScoped_infer within.1, right.isScoped_infer within.2⟩
  | .not operand, within => operand.isScoped_infer within
  | .compare op left right, within =>
    ⟨(Expr.isScoped_withType _ _).mpr (left.isScoped_infer within.1),
      (Expr.isScoped_withType _ _).mpr (right.isScoped_infer within.2)⟩
  | .inList test values negated, within => by
    refine ⟨(Expr.isScoped_withType _ _).mpr (test.isScoped_infer within.1), ?_⟩
    simp only [List.map_map, List.mem_map, Function.comp_apply, forall_exists_index, and_imp]
    rintro _ value listed rfl
    exact (Expr.isScoped_withType _ _).mpr (value.isScoped_infer (within.2 value listed))
  | .inQuery test query negated, within =>
    ⟨(Expr.isScoped_withType _ _).mpr (test.isScoped_infer within.1),
      queryScoped_infer query within.2⟩
  | .memberOf element collection negated, within =>
    ⟨Expr.isScoped_infer _ ((Expr.isScoped_withType _ _).mpr within.1), within.2⟩
  | .isNull operand negated, within => operand.isScoped_infer within
  | .like operand pattern negated, within =>
    ⟨(Expr.isScoped_withType _ _).mpr (operand.isScoped_infer within.1),
      (Expr.isScoped_withType _ _).mpr (pattern.isScoped_infer within.2)⟩
  | .between operand low high negated, within =>
    ⟨(Expr.isScoped_withType _ _).mpr (operand.isScoped_infer within.1),
      (Expr.isScoped_withType _ _).mpr (low.isScoped_infer within.2.1),
      (Expr.isScoped_withType _ _).mpr (high.isScoped_infer within.2.2)⟩

/-- Inferring types leaves a query in scope. -/
theorem queryScoped_infer {outside : List FromNode} : ∀ query : Query Predicate,
    QueryScoped catalog outside query → QueryScoped catalog outside (inferQuery query)
  | ⟨spaces, distinct, selections, filter⟩, within => by
    obtain ⟨selected, joined, filtered⟩ := within
    have same := elements_inferQuery ⟨spaces, distinct, selections, filter⟩
    rw [inferQuery] at same ⊢
    rw [QueryScoped, same]
    refine ⟨?_, spacesScoped_infer spaces joined, filterScoped_infer filter filtered⟩
    simp only [List.mem_map, forall_exists_index, and_imp]
    rintro _ selection listed rfl
    exact selection.expr.isScoped_infer (selected selection listed)

/-- Inferring types leaves spaces in scope. -/
theorem spacesScoped_infer {visible : List FromNode} : ∀ spaces : List (FromSpace Predicate),
    SpacesScoped catalog visible spaces → SpacesScoped catalog visible (inferSpaces spaces)
  | [], _ => trivial
  | ⟨_, joins⟩ :: rest, within =>
    ⟨joinsScoped_infer joins within.1, spacesScoped_infer rest within.2⟩

/-- Inferring types leaves joins in scope. -/
theorem joinsScoped_infer {visible : List FromNode} : ∀ joins : List (Join Predicate),
    JoinsScoped catalog visible joins → JoinsScoped catalog visible (inferJoins joins)
  | [], _ => trivial
  | ⟨_, _, _, predicate⟩ :: rest, within =>
    ⟨filterScoped_infer predicate within.1, joinsScoped_infer rest within.2⟩

/-- Inferring types leaves a filter in scope. -/
theorem filterScoped_infer {visible : List FromNode} : ∀ filter : Option Predicate,
    FilterScoped catalog visible filter → FilterScoped catalog visible (inferFilter filter)
  | none, _ => trivial
  | some predicate, within => predicate.isScoped_infer within

end

section Retyping

variable {parameter : Parameter → Option DataType}

mutual

/-- Another type for a parameter leaves an expression in scope. -/
theorem Expr.isScoped_retype : ∀ expr : Expr, expr.IsScoped catalog visible →
    (expr.retype (.ofParameters parameter)).IsScoped catalog visible
  | .path ⟨source, sourceType, init, ⟨label, declared, index, after⟩, type⟩, within => by
    obtain ⟨⟨node, seen, starts⟩, inner, last⟩ := within
    rw [Expr.retype, Retyping.entity?_ofParameters, Reference.retargetTo_none]
    have alike := outline_retyped (.ofParameters parameter)
      ⟨source, sourceType, init, ⟨label, declared, index, after⟩, type⟩
    exact ⟨⟨node, seen, starts.congr catalog rfl rfl alike rfl⟩, segmentsScoped_retype init inner,
      indexScoped_retype index last⟩
  | .arithmetic _ left right _, within =>
    ⟨left.isScoped_retype within.1, right.isScoped_retype within.2⟩
  | .negate operand, within => operand.isScoped_retype within
  | .call _ _ argument _, within => indexScoped_retype argument within
  | .element _ _, within => within
  | .literal _, _ => trivial
  | .parameter _, _ => trivial

/-- Another type for a parameter leaves an index in scope. -/
theorem indexScoped_retype : ∀ index : Option Expr, IndexScoped catalog visible index →
    IndexScoped catalog visible (retypeIndex (.ofParameters parameter) index)
  | none, _ => trivial
  | some index, within => index.isScoped_retype within

/-- Another type for a parameter leaves a path in scope. -/
theorem segmentsScoped_retype : ∀ segments : List (Segment Expr),
    SegmentsScoped catalog visible segments →
      SegmentsScoped catalog visible (retypeSegments (.ofParameters parameter) segments)
  | [], _ => trivial
  | ⟨_, _, index, _⟩ :: rest, within =>
    ⟨indexScoped_retype index within.1, segmentsScoped_retype rest within.2⟩

end

/-- Another type for a parameter leaves the sources of a query. -/
theorem elements_retypeQuery (new : Retyping) (query : Query Predicate) :
    (retypeQuery new query).elements = query.elements := by
  obtain ⟨spaces, distinct, selections, filter⟩ := query
  have targets : ∀ joins : List (Join Predicate),
      (retypeJoins new joins).map (·.target) = joins.map (·.target) := by
    intro joins
    induction joins with
    | nil => rfl
    | cons join joins ih => simp [retypeJoins, ih]
  rw [retypeQuery, Query.elements, Query.elements]
  induction spaces with
  | nil => rfl
  | cons space rest ih => simpa [retypeSpaces, targets] using ih

mutual

/-- Another type for a parameter leaves a predicate in scope. -/
theorem Predicate.isScoped_retype {visible : List FromNode} : ∀ predicate : Predicate,
    predicate.IsScoped catalog visible →
      (predicate.retype (.ofParameters parameter)).IsScoped catalog visible
  | .and left right, within | .or left right, within =>
    ⟨left.isScoped_retype within.1, right.isScoped_retype within.2⟩
  | .not operand, within => operand.isScoped_retype within
  | .compare _ left right, within =>
    ⟨left.isScoped_retype within.1, right.isScoped_retype within.2⟩
  | .inList test values _, within => by
    refine ⟨test.isScoped_retype within.1, List.forall_mem_map.mpr fun value listed => ?_⟩
    exact value.isScoped_retype (within.2 value listed)
  | .inQuery test query _, within =>
    ⟨test.isScoped_retype within.1, queryScoped_retype query within.2⟩
  | .memberOf element collection _, within =>
    ⟨element.isScoped_retype within.1, Expr.isScoped_retype (.path collection) within.2⟩
  | .isNull operand _, within => operand.isScoped_retype within
  | .like operand pattern _, within =>
    ⟨operand.isScoped_retype within.1, pattern.isScoped_retype within.2⟩
  | .between operand low high _, within =>
    ⟨operand.isScoped_retype within.1, low.isScoped_retype within.2.1,
      high.isScoped_retype within.2.2⟩

/-- Another type for a parameter leaves a query in scope. -/
theorem queryScoped_retype {outside : List FromNode} : ∀ query : Query Predicate,
    QueryScoped catalog outside query →
      QueryScoped catalog outside (retypeQuery (.ofParameters parameter) query)
  | ⟨spaces, distinct, selections, filter⟩, within => by
    obtain ⟨selected, joined, filtered⟩ := within
    have same := elements_retypeQuery (.ofParameters parameter)
      ⟨spaces, distinct, selections, filter⟩
    rw [retypeQuery] at same ⊢
    rw [QueryScoped, same]
    refine ⟨List.forall_mem_map.mpr fun selection listed => ?_, spacesScoped_retype spaces joined,
      filterScoped_retype filter filtered⟩
    exact selection.expr.isScoped_retype (selected selection listed)

/-- Another type for a parameter leaves spaces in scope. -/
theorem spacesScoped_retype {visible : List FromNode} : ∀ spaces : List (FromSpace Predicate),
    SpacesScoped catalog visible spaces →
      SpacesScoped catalog visible (retypeSpaces (.ofParameters parameter) spaces)
  | [], _ => trivial
  | ⟨_, joins⟩ :: rest, within =>
    ⟨joinsScoped_retype joins within.1, spacesScoped_retype rest within.2⟩

/-- Another type for a parameter leaves joins in scope. -/
theorem joinsScoped_retype {visible : List FromNode} : ∀ joins : List (Join Predicate),
    JoinsScoped catalog visible joins →
      JoinsScoped catalog visible (retypeJoins (.ofParameters parameter) joins)
  | [], _ => trivial
  | ⟨_, _, _, predicate⟩ :: rest, within =>
    ⟨filterScoped_retype predicate within.1, joinsScoped_retype rest within.2⟩

/-- Another type for a parameter leaves a filter in scope. -/
theorem filterScoped_retype {visible : List FromNode} : ∀ filter : Option Predicate,
    FilterScoped catalog visible filter →
      FilterScoped catalog visible (retypeFilter (.ofParameters parameter) filter)
  | none, _ => trivial
  | some predicate, within => predicate.isScoped_retype within

end

end Retyping

/-- The local pass of inference leaves a statement in scope. -/
theorem Statement.isScoped_inferLocally {statement : Statement} (within : statement.IsScoped catalog) :
    statement.inferLocally.IsScoped catalog := by
  cases statement with
  | select query order =>
    refine ⟨queryScoped_infer query within.1, ?_⟩
    rw [elements_inferQuery]
    exact within.2
  | update target assignments filter =>
    refine ⟨List.forall_mem_map.mpr fun assignment listed => ?_, filterScoped_infer filter within.2⟩
    obtain ⟨followed, given⟩ := within.1 assignment listed
    exact ⟨followed, Expr.isScoped_infer _ ((Expr.isScoped_withType _ _).mpr given)⟩
  | delete target filter => exact filterScoped_infer filter within

/-- Sharing types between parameters leaves a statement in scope. -/
theorem Statement.isScoped_shareTypes {statement : Statement} (within : statement.IsScoped catalog) :
    statement.shareTypes.IsScoped catalog := by
  cases statement with
  | select query order =>
    refine ⟨queryScoped_retype query within.1, List.forall_mem_map.mpr fun key listed => ?_⟩
    rw [elements_retypeQuery]
    exact key.expr.isScoped_retype (within.2 key listed)
  | update target assignments filter =>
    refine ⟨List.forall_mem_map.mpr fun assignment listed => ?_, filterScoped_retype filter within.2⟩
    obtain ⟨followed, given⟩ := within.1 assignment listed
    exact ⟨followed, assignment.value.isScoped_retype given⟩
  | delete target filter => exact filterScoped_retype filter within

/-- Typing the parameters of a well-scoped statement keeps it well-scoped. -/
theorem Statement.isScoped_infer {statement : Statement} (within : statement.IsScoped catalog) :
    statement.infer.IsScoped catalog :=
  isScoped_shareTypes (isScoped_inferLocally within)

end Scoped
end ObjectQuery.Resolved

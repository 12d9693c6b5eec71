import ObjectQuery.Proofs.PlainName
import ObjectQuery.Proofs.Resolution.Agreement
import ObjectQuery.Proofs.Resolved.Stripped
/-!
# Statements over given sources

A statement is grounded in some sources if every path in it starts from one of them, or from a source
of a query around it, and follows attributes with plain names; if every join along a path does the
same; if no cross join has a condition; and if every assignment is to a basic attribute.

Recorded types have no part in this, and neither has the entity of the root. So a statement whose root
is narrowed to one entity stays grounded in the sources that it was resolved with.
-/
namespace ObjectQuery.Resolved

section Grounded

variable (catalog : Catalog)

/-- The path follows attributes of one of the sources, all with plain names, to the type that it has. -/
structure Reference.IsGrounded (visible : List FromNode) (reference : Reference Expr) : Prop where
  follows : ∃ node ∈ visible, reference.source = node.label ∧
    AreTyped catalog node.entity.attribute? reference.segments
  plain : ∀ segment ∈ reference.segments, IsPlainName segment.label
  type : reference.type = reference.last.type

/-- What the expression itself refers to, apart from its parts, is one of the sources. -/
def Expr.RefersTo (visible : List FromNode) : Expr → Prop
  | .path reference => reference.IsGrounded catalog visible
  | .element label _ => ∃ node ∈ visible, label = node.label
  | _ => True

/-- The expression refers to the sources, and so does everything inside it. -/
def Expr.IsGrounded (visible : List FromNode) (expr : Expr) : Prop :=
  ∀ node ∈ expr.nodes, node.RefersTo catalog visible

/-- A join along a path follows associations of one of the sources, and is no cross join. -/
def FromOrigin.IsGrounded (visible : List FromNode) (kind : JoinKind) : FromOrigin → Prop
  | .root | .entityJoin => True
  | .pathJoin owner path plural => kind ≠ .cross ∧ (∀ name ∈ path, IsPlainName name) ∧
      ∃ node ∈ visible, node.label = owner ∧
        ∃ found, Sources.follow catalog node.entity path = .ok (found, plural)

mutual

/-- The expressions of the predicate refer to the sources, and those of its queries to their own
sources besides. -/
def Predicate.IsGrounded (visible : List FromNode) : Predicate → Prop
  | .and left right | .or left right => left.IsGrounded visible ∧ right.IsGrounded visible
  | .not operand => operand.IsGrounded visible
  | .compare _ left right => left.IsGrounded catalog visible ∧ right.IsGrounded catalog visible
  | .inList test values _ =>
    test.IsGrounded catalog visible ∧ ∀ value ∈ values, value.IsGrounded catalog visible
  | .inQuery test query _ =>
    test.IsGrounded catalog visible ∧ QueryGrounded (query.elements ++ visible) query
  | .memberOf element collection _ => element.IsGrounded catalog visible ∧
      (Expr.path collection).IsGrounded catalog visible ∧ collection.type.isPlural = true
  | .isNull operand _ => operand.IsGrounded catalog visible
  | .like operand pattern _ =>
    operand.IsGrounded catalog visible ∧ pattern.IsGrounded catalog visible
  | .between operand low high _ => operand.IsGrounded catalog visible ∧
      low.IsGrounded catalog visible ∧ high.IsGrounded catalog visible

/-- The same for a query, whose own sources are among those given. -/
def QueryGrounded (visible : List FromNode) : Query Predicate → Prop
  | ⟨spaces, _, selections, filter⟩ =>
    (∀ selection ∈ selections, selection.expr.IsGrounded catalog visible) ∧
      SpacesGrounded visible spaces ∧ FilterGrounded visible filter

/-- The same for the items of a from-clause. -/
def SpacesGrounded (visible : List FromNode) : List (FromSpace Predicate) → Prop
  | [] => True
  | ⟨_, joins⟩ :: rest => JoinsGrounded visible joins ∧ SpacesGrounded visible rest

/-- The same for joins. -/
def JoinsGrounded (visible : List FromNode) : List (Join Predicate) → Prop
  | [] => True
  | ⟨kind, _, target, predicate⟩ :: rest => (kind = .cross → predicate.isSome = false) ∧
      FromOrigin.IsGrounded catalog visible kind target.origin ∧
      FilterGrounded visible predicate ∧ JoinsGrounded visible rest

/-- The same for a condition that may be absent. -/
def FilterGrounded (visible : List FromNode) : Option Predicate → Prop
  | none => True
  | some predicate => predicate.IsGrounded visible

end

/-- The assignment is to a basic attribute of one of the sources. -/
structure Assignment.IsGrounded (visible : List FromNode) (assignment : Assignment) : Prop where
  target : assignment.target.IsGrounded catalog visible
  direct : assignment.target.init = []
  basic : assignment.target.type.basic?.isSome = true
  value : assignment.value.IsGrounded catalog visible

/-- The sources that a statement names itself: those of its query, or the target of a change. -/
def Statement.elements : Statement → List FromNode
  | .select query _ => query.elements
  | .update target _ _ | .delete target _ => [target]

/-- The same for a whole statement. -/
def Statement.IsGrounded (visible : List FromNode) : Statement → Prop
  | .select query order => QueryGrounded catalog visible query ∧
      ∀ key ∈ order, key.expr.IsGrounded catalog visible
  | .update _ assignments filter => (∀ assignment ∈ assignments,
      assignment.IsGrounded catalog visible) ∧ FilterGrounded catalog visible filter
  | .delete _ filter => FilterGrounded catalog visible filter

end Grounded

/-! ## Expressions -/

section Expressions

variable {catalog : Catalog} {visible : List FromNode}

/-- The expressions inside an index or an argument refer to the sources. -/
def IndexGrounded (catalog : Catalog) (visible : List FromNode) (index : Option Expr) : Prop :=
  ∀ node ∈ indexNodes index, node.RefersTo catalog visible

/-- The expressions inside the indices of segments refer to the sources. -/
def SegmentsGrounded (catalog : Catalog) (visible : List FromNode)
    (segments : List (Segment Expr)) : Prop :=
  ∀ node ∈ segmentNodes segments, node.RefersTo catalog visible

/-- A path is grounded if it follows a source and its indices are grounded. -/
theorem isGrounded_path {source : String} {sourceType type : DataType} {init : List (Segment Expr)}
    {last : Segment Expr} :
    (Expr.path ⟨source, sourceType, init, last, type⟩).IsGrounded catalog visible ↔
      Reference.IsGrounded catalog visible ⟨source, sourceType, init, last, type⟩ ∧
        SegmentsGrounded catalog visible init ∧ IndexGrounded catalog visible last.index := by
  obtain ⟨label, declared, index, after⟩ := last
  simp only [Expr.IsGrounded, Expr.nodes, List.forall_mem_cons, List.forall_mem_append,
    Expr.RefersTo, SegmentsGrounded, IndexGrounded]

/-- A source as a whole has to be visible. -/
theorem isGrounded_element {label : String} {type : DataType} :
    (Expr.element label type).IsGrounded catalog visible ↔ ∃ node ∈ visible, label = node.label := by
  simp [Expr.IsGrounded, Expr.nodes, Expr.RefersTo]

/-- A literal refers to nothing. -/
theorem isGrounded_literal {value : Literal} : (Expr.literal value).IsGrounded catalog visible := by
  simp [Expr.IsGrounded, Expr.nodes, Expr.RefersTo]

/-- A parameter refers to nothing. -/
theorem isGrounded_parameter {bound : Parameter} :
    (Expr.parameter bound).IsGrounded catalog visible := by
  simp [Expr.IsGrounded, Expr.nodes, Expr.RefersTo]

/-- An operation is grounded if its operands are. -/
theorem isGrounded_arithmetic {op : ArithmeticOp} {left right : Expr} {type : Option BasicType} :
    (Expr.arithmetic op left right type).IsGrounded catalog visible ↔
      left.IsGrounded catalog visible ∧ right.IsGrounded catalog visible := by
  simp only [Expr.IsGrounded, Expr.nodes, List.forall_mem_cons, List.forall_mem_append,
    Expr.RefersTo, true_and]

/-- A negated value is grounded if the value is. -/
theorem isGrounded_negate {operand : Expr} :
    (Expr.negate operand).IsGrounded catalog visible ↔ operand.IsGrounded catalog visible := by
  simp only [Expr.IsGrounded, Expr.nodes, List.forall_mem_cons, Expr.RefersTo, true_and]

/-- A call is grounded if its argument is. -/
theorem isGrounded_call {function : Function} {distinct : Bool} {argument : Option Expr}
    {type : Option DataType} : (Expr.call function distinct argument type).IsGrounded catalog visible ↔
      IndexGrounded catalog visible argument := by
  simp only [Expr.IsGrounded, Expr.nodes, List.forall_mem_cons, Expr.RefersTo, true_and,
    IndexGrounded]

/-- Segments are grounded if the index of each is. -/
theorem segmentsGrounded_cons {segment : Segment Expr} {rest : List (Segment Expr)} :
    SegmentsGrounded catalog visible (segment :: rest) ↔
      IndexGrounded catalog visible segment.index ∧ SegmentsGrounded catalog visible rest := by
  obtain ⟨label, declared, index, after⟩ := segment
  simp only [SegmentsGrounded, IndexGrounded, segmentNodes, List.forall_mem_append]

/-- Segments in a row are grounded if both parts are. -/
theorem segmentsGrounded_append {first second : List (Segment Expr)} :
    SegmentsGrounded catalog visible (first ++ second) ↔
      SegmentsGrounded catalog visible first ∧ SegmentsGrounded catalog visible second := by
  induction first with
  | nil => simp [SegmentsGrounded, segmentNodes]
  | cons segment rest ih =>
    rw [List.cons_append, segmentsGrounded_cons, segmentsGrounded_cons, ih, and_assoc]

end Expressions

/-! ## Recorded types -/

section Stripped

variable {catalog : Catalog} {visible : List FromNode}

mutual

/-- The expressions in a stripped expression are the stripped ones. -/
theorem Expr.nodes_stripped : ∀ expr : Expr, expr.stripped.nodes = expr.nodes.map Expr.stripped
  | .path ⟨source, sourceType, init, ⟨label, declared, index, after⟩, type⟩ => by
    simp [Expr.nodes, segmentNodes_stripped init, indexNodes_stripped index]
  | .element label type => by simp [Expr.nodes]
  | .literal value => by simp [Expr.nodes]
  | .parameter bound => by simp [Expr.nodes]
  | .arithmetic op left right type => by
    simp [Expr.nodes, left.nodes_stripped, right.nodes_stripped]
  | .negate operand => by simp [Expr.nodes, operand.nodes_stripped]
  | .call function distinct argument type => by
    simp [Expr.nodes, indexNodes_stripped argument]

/-- So are those in an index or argument. -/
theorem indexNodes_stripped : ∀ index : Option Expr,
    indexNodes (strippedIndex index) = (indexNodes index).map Expr.stripped
  | none => rfl
  | some index => by simp [indexNodes, index.nodes_stripped]

/-- So are those in segments. -/
theorem segmentNodes_stripped : ∀ segments : List (Segment Expr),
    segmentNodes (strippedSegments segments) = (segmentNodes segments).map Expr.stripped
  | [] => rfl
  | ⟨label, declared, index, after⟩ :: rest => by
    simp [segmentNodes, indexNodes_stripped index, segmentNodes_stripped rest]

end

/-- A stripped segment has the same label and types. -/
theorem Segment.outline_stripped (segment : Segment Expr) :
    segment.stripped.outline = segment.outline := by
  obtain ⟨label, declared, index, after⟩ := segment
  cases index <;> rfl

/-- The segments of a stripped path are the stripped ones. -/
theorem Reference.segments_stripped (reference : Reference Expr) :
    reference.stripped.segments = reference.segments.map Segment.stripped := by
  simp [Reference.segments, strippedSegments_eq_map]

/-- Whether a path follows a source does not depend on recorded types. -/
theorem Reference.isGrounded_stripped (reference : Reference Expr) :
    reference.stripped.IsGrounded catalog visible ↔ reference.IsGrounded catalog visible := by
  have outlines : reference.stripped.segments.map Segment.outline =
      reference.segments.map Segment.outline := by
    rw [reference.segments_stripped, List.map_map]
    exact List.map_congr_left fun segment _ => segment.outline_stripped
  have typed (find? : String → Option DataType) :
      AreTyped catalog find? reference.stripped.segments ↔
        AreTyped catalog find? reference.segments := by
    rw [← areTyped_outline, outlines, areTyped_outline]
  have plain : (∀ segment ∈ reference.stripped.segments, IsPlainName segment.label) ↔
      ∀ segment ∈ reference.segments, IsPlainName segment.label := by
    rw [reference.segments_stripped, List.forall_mem_map]
    rfl
  constructor
  · rintro ⟨⟨node, seen, starts, follows⟩, named, ends⟩
    exact ⟨⟨node, seen, starts, (typed _).mp follows⟩, plain.mp named, ends⟩
  · rintro ⟨⟨node, seen, starts, follows⟩, named, ends⟩
    exact ⟨⟨node, seen, starts, (typed _).mpr follows⟩, plain.mpr named, ends⟩

/-- Nor does what an expression refers to. -/
theorem Expr.refersTo_stripped (expr : Expr) :
    expr.stripped.RefersTo catalog visible ↔ expr.RefersTo catalog visible := by
  cases expr with
  | path reference =>
    rw [Expr.stripped_path]
    exact reference.isGrounded_stripped
  | _ => simp [Expr.RefersTo]

/-- Nor does whether an expression is grounded. -/
@[simp] theorem Expr.isGrounded_stripped (expr : Expr) :
    expr.stripped.IsGrounded catalog visible ↔ expr.IsGrounded catalog visible := by
  unfold Expr.IsGrounded
  rw [expr.nodes_stripped, List.forall_mem_map]
  exact forall₂_congr fun node _ => node.refersTo_stripped

/-- The sources of a query are not touched. -/
theorem elements_strippedQuery (query : Query Predicate) :
    (strippedQuery query).elements = query.elements := by
  obtain ⟨spaces, distinct, selections, filter⟩ := query
  have targets : ∀ joins : List (Join Predicate),
      (strippedJoins joins).map (·.target) = joins.map (·.target) := by
    intro joins
    induction joins with
    | nil => rfl
    | cons join joins ih => simp [ih]
  rw [strippedQuery, Query.elements, Query.elements]
  induction spaces with
  | nil => rfl
  | cons space rest ih => simpa [targets] using ih

mutual

/-- Nor does whether a predicate is. -/
theorem Predicate.isGrounded_stripped {visible : List FromNode} : ∀ predicate : Predicate,
    predicate.stripped.IsGrounded catalog visible ↔ predicate.IsGrounded catalog visible
  | .and left right | .or left right => by
    simp [Predicate.IsGrounded, left.isGrounded_stripped, right.isGrounded_stripped]
  | .not operand => by simp [Predicate.IsGrounded, operand.isGrounded_stripped]
  | .compare op left right => by simp [Predicate.IsGrounded]
  | .inList test values negated => by simp [Predicate.IsGrounded]
  | .inQuery test query negated => by
    simp only [Predicate.stripped, Predicate.IsGrounded, Expr.isGrounded_stripped,
      elements_strippedQuery, queryGrounded_stripped query]
  | .memberOf element collection negated => by
    simp only [Predicate.stripped, Predicate.IsGrounded, Expr.isGrounded_stripped,
      ← Expr.stripped_path, collection.type_stripped]
  | .isNull operand negated => by simp [Predicate.IsGrounded]
  | .like operand pattern negated => by simp [Predicate.IsGrounded]
  | .between operand low high negated => by simp [Predicate.IsGrounded]

/-- Nor does whether a query is. -/
theorem queryGrounded_stripped {visible : List FromNode} : ∀ query : Query Predicate,
    QueryGrounded catalog visible (strippedQuery query) ↔ QueryGrounded catalog visible query
  | ⟨spaces, distinct, selections, filter⟩ => by
    simp [QueryGrounded, spacesGrounded_stripped spaces, filterGrounded_stripped filter]

/-- Nor does whether the items of a from-clause are. -/
theorem spacesGrounded_stripped {visible : List FromNode} : ∀ spaces : List (FromSpace Predicate),
    SpacesGrounded catalog visible (strippedSpaces spaces) ↔ SpacesGrounded catalog visible spaces
  | [] => Iff.rfl
  | ⟨root, joins⟩ :: rest => by
    simp [SpacesGrounded, joinsGrounded_stripped joins, spacesGrounded_stripped rest]

/-- Nor does whether joins are. -/
theorem joinsGrounded_stripped {visible : List FromNode} : ∀ joins : List (Join Predicate),
    JoinsGrounded catalog visible (strippedJoins joins) ↔ JoinsGrounded catalog visible joins
  | [] => Iff.rfl
  | ⟨kind, fetch, target, predicate⟩ :: rest => by
    have present : (strippedFilter predicate).isSome = predicate.isSome := by cases predicate <;> rfl
    simp only [strippedJoins, JoinsGrounded, present, filterGrounded_stripped predicate,
      joinsGrounded_stripped rest]

/-- Nor does whether a condition is. -/
theorem filterGrounded_stripped {visible : List FromNode} : ∀ filter : Option Predicate,
    FilterGrounded catalog visible (strippedFilter filter) ↔ FilterGrounded catalog visible filter
  | none => Iff.rfl
  | some predicate => predicate.isGrounded_stripped

end

/-- Nor does whether an assignment is. -/
theorem Assignment.isGrounded_stripped (assignment : Assignment) :
    assignment.stripped.IsGrounded catalog visible ↔ assignment.IsGrounded catalog visible := by
  constructor
  · rintro ⟨target, direct, basic, value⟩
    refine ⟨assignment.target.isGrounded_stripped.mp target, ?_, ?_,
      assignment.value.isGrounded_stripped.mp value⟩
    · simpa [strippedSegments_eq_map] using direct
    · rwa [Assignment.stripped, Reference.type_stripped] at basic
  · rintro ⟨target, direct, basic, value⟩
    refine ⟨assignment.target.isGrounded_stripped.mpr target, ?_, ?_,
      assignment.value.isGrounded_stripped.mpr value⟩
    · simp [direct]
    · rwa [Assignment.stripped, Reference.type_stripped]

/-- Nor does whether a statement is. -/
theorem Statement.isGrounded_stripped (statement : Statement) :
    statement.stripped.IsGrounded catalog visible ↔ statement.IsGrounded catalog visible := by
  cases statement with
  | select query order =>
    simp [Statement.IsGrounded, queryGrounded_stripped]
  | update target assignments filter =>
    simp only [Statement.stripped, Statement.IsGrounded, List.forall_mem_map,
      Assignment.isGrounded_stripped, filterGrounded_stripped]
  | delete target filter =>
    simp [Statement.IsGrounded, filterGrounded_stripped]

/-- The entity of the root has no part in what a statement refers to. -/
theorem Statement.isGrounded_withRoot (entity : EntityType) {statement : Statement}
    (grounded : statement.IsGrounded catalog visible) :
    (statement.withRoot entity).IsGrounded catalog visible := by
  cases statement with
  | select query order =>
    obtain ⟨_ | ⟨⟨root, joins⟩, rest⟩, distinct, selections, filter⟩ := query <;> exact grounded
  | update target assignments filter =>
    refine ⟨List.forall_mem_map.mpr fun assignment listed => ?_, grounded.2⟩
    obtain ⟨⟨follows, plain, ends⟩, direct, basic, value⟩ := grounded.1 assignment listed
    exact ⟨⟨follows, plain, ends⟩, direct, basic, value⟩
  | delete target filter => exact grounded

mutual

/-- A stripped predicate has the same sources. -/
theorem Predicate.sources_stripped :
    ∀ predicate : Predicate, predicate.stripped.sources = predicate.sources
  | .and left right | .or left right => by
    simp [Predicate.sources, left.sources_stripped, right.sources_stripped]
  | .not operand => by simp [Predicate.sources, operand.sources_stripped]
  | .inQuery test query negated => by simp [Predicate.sources, querySources_stripped query]
  | .compare _ _ _ | .inList _ _ _ | .memberOf _ _ _ | .isNull _ _ | .like _ _ _
  | .between _ _ _ _ => by simp [Predicate.sources]

/-- So has a stripped query. -/
theorem querySources_stripped :
    ∀ query : Query Predicate, querySources (strippedQuery query) = querySources query
  | ⟨spaces, distinct, selections, filter⟩ => by
    simp [querySources, spaceSources_stripped spaces, filterSources_stripped filter]

/-- So have stripped items of a from-clause. -/
theorem spaceSources_stripped : ∀ spaces : List (FromSpace Predicate),
    spaceSources (strippedSpaces spaces) = spaceSources spaces
  | [] => rfl
  | ⟨root, joins⟩ :: rest => by
    simp [spaceSources, joinSources_stripped joins, spaceSources_stripped rest]

/-- So have stripped joins. -/
theorem joinSources_stripped : ∀ joins : List (Join Predicate),
    joinSources (strippedJoins joins) = joinSources joins
  | [] => rfl
  | ⟨kind, fetch, target, predicate⟩ :: rest => by
    simp [joinSources, filterSources_stripped predicate, joinSources_stripped rest]

/-- So has a stripped condition. -/
theorem filterSources_stripped : ∀ filter : Option Predicate,
    filterSources (strippedFilter filter) = filterSources filter
  | none => rfl
  | some predicate => predicate.sources_stripped

end

/-- So has a stripped statement. -/
theorem Statement.sources_stripped (statement : Statement) :
    statement.stripped.sources = statement.sources := by
  cases statement with
  | select query order => simp [Statement.sources, querySources_stripped]
  | update target assignments filter => simp [Statement.sources, filterSources_stripped]
  | delete target filter => simp [Statement.sources, filterSources_stripped]

end Stripped

section Retyped

variable {new : Retyping}

mutual

/-- The sources of a predicate are not retyped. -/
theorem Predicate.sources_retype : ∀ predicate : Predicate,
    (predicate.retype new).sources = predicate.sources
  | .and left right | .or left right => by
    simp [Predicate.retype, Predicate.sources, left.sources_retype, right.sources_retype]
  | .not operand => by simp [Predicate.retype, Predicate.sources, operand.sources_retype]
  | .inQuery test query negated => by
    simp [Predicate.retype, Predicate.sources, querySources_retype query]
  | .compare _ _ _ | .inList _ _ _ | .memberOf _ _ _ | .isNull _ _ | .like _ _ _
  | .between _ _ _ _ => by simp [Predicate.retype, Predicate.sources]

/-- Nor are those of a query. -/
theorem querySources_retype : ∀ query : Query Predicate,
    querySources (retypeQuery new query) = querySources query
  | ⟨spaces, distinct, selections, filter⟩ => by
    simp [retypeQuery, querySources, spaceSources_retype spaces, filterSources_retype filter]

/-- Nor are those of the items of a from-clause. -/
theorem spaceSources_retype : ∀ spaces : List (FromSpace Predicate),
    spaceSources (retypeSpaces new spaces) = spaceSources spaces
  | [] => rfl
  | ⟨root, joins⟩ :: rest => by
    simp [retypeSpaces, spaceSources, joinSources_retype joins, spaceSources_retype rest]

/-- Nor are those of joins. -/
theorem joinSources_retype : ∀ joins : List (Join Predicate),
    joinSources (retypeJoins new joins) = joinSources joins
  | [] => rfl
  | ⟨kind, fetch, target, predicate⟩ :: rest => by
    simp [retypeJoins, joinSources, filterSources_retype predicate, joinSources_retype rest]

/-- Nor are those of a condition that may be absent. -/
theorem filterSources_retype : ∀ filter : Option Predicate,
    filterSources (retypeFilter new filter) = filterSources filter
  | none => rfl
  | some predicate => predicate.sources_retype

end

/-- A statement with new types has the same sources. -/
theorem Statement.sources_retype (statement : Statement) :
    (statement.retype new).sources = statement.sources := by
  cases statement with
  | select query order => exact querySources_retype query
  | update target assignments filter | delete target filter =>
    exact congrArg (target :: ·) (filterSources_retype filter)

end Retyped
end ObjectQuery.Resolved

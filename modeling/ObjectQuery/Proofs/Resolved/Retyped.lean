import ObjectQuery.Resolved.Inference
import ObjectQuery.Resolved.Narrowing
/-!
# Retyped statements

Retyping a statement retypes each of its expressions where it stands. So the result has the parameters
of the statement, one for one and in the same order, and each with its new type. Sharing the types of
parameters is one such retyping. Narrowing the root of a statement is another one, which leaves
parameters alone; so the parts that a statement is split into have its parameters.

Two retypings that agree about what the expressions of a statement record, each by itself, agree about
the statement. In particular one that gives each of them what it has already changes nothing.
-/
namespace ObjectQuery.Resolved

section First

variable {ε δ : Type} (reference : Reference ε)

/-- The first attribute of a path. -/
def Reference.first : Segment ε := reference.init.headD reference.last

/-- The types of a path that depend on what its first attribute is looked up in: that of the attribute,
the one after it, and that of the whole path. -/
structure FirstTypes where
  declared : DataType
  after : DataType
  whole : DataType

/-- The types of the path that depend on its first attribute. -/
def Reference.firstTypes : FirstTypes :=
  ⟨reference.first.declared, reference.first.type, reference.type⟩

/-- The path with other types for its first attribute and for the whole. -/
def Reference.withFirst (types : FirstTypes) : Reference ε → Reference ε
  | ⟨source, sourceType, [], last, _⟩ =>
    ⟨source, sourceType, [], { last with declared := types.declared, type := types.after }, types.whole⟩
  | ⟨source, sourceType, first :: rest, last, _⟩ =>
    ⟨source, sourceType, { first with declared := types.declared, type := types.after } :: rest, last,
      types.whole⟩

/-- Other types leave the last index of the path. -/
@[simp] theorem Reference.index_withFirst (types : FirstTypes) :
    (reference.withFirst types).last.index = reference.last.index := by
  obtain ⟨source, sourceType, _ | ⟨first, rest⟩, last, type⟩ := reference <;> rfl

/-- A path has the types that it has. -/
theorem Reference.withFirst_firstTypes : reference.withFirst reference.firstTypes = reference := by
  obtain ⟨source, sourceType, _ | ⟨first, rest⟩, last, type⟩ := reference <;> rfl

/-- Nothing is looked up again. -/
@[simp] theorem Reference.retargetTo_none : reference.retargetTo none = reference := rfl

/-- Looking an attribute up again leaves its name and its index. -/
theorem Segment.retarget_eq (entity : EntityType) (segment : Segment ε) : segment.retarget entity =
    { segment with
      declared := (segment.retarget entity).declared
      type := (segment.retarget entity).type } := by
  unfold Segment.retarget
  cases entity.attribute? segment.label <;> rfl

/-- Looking the first attribute up again changes the types that depend on it and nothing else. -/
theorem Reference.retargetTo_eq (entity : Option EntityType) :
    reference.retargetTo entity = reference.withFirst (reference.retargetTo entity).firstTypes := by
  cases entity with
  | none => exact reference.withFirst_firstTypes.symm
  | some entity =>
    obtain ⟨source, sourceType, _ | ⟨first, rest⟩, last, type⟩ := reference
    · exact congrArg (fun segment => Reference.mk source sourceType [] segment _) (last.retarget_eq entity)
    · exact congrArg (fun segment => Reference.mk source sourceType (segment :: rest) last _)
        (first.retarget_eq entity)

/-- The segment with no more of its index than that there is one. -/
def Segment.outline (segment : Segment ε) : Segment Unit :=
  ⟨segment.label, segment.declared, segment.index.map fun _ => (), segment.type⟩

/-- The value of an index has no part in the types that a segment is given. -/
theorem Segment.outline_retarget (entity : EntityType) (segment : Segment ε) :
    (segment.retarget entity).outline = segment.outline.retarget entity := by
  have label : segment.outline.label = segment.label := rfl
  unfold Segment.retarget
  rw [label]
  cases entity.attribute? segment.label with
  | none => rfl
  | some declared => simp [Segment.outline]

/-- The values of indices have no part in the types that a path is given. -/
theorem Reference.firstTypes_retargetTo {reference : Reference ε} {other : Reference δ}
    (alike : reference.segments.map Segment.outline = other.segments.map Segment.outline)
    (type : reference.type = other.type) (entity : Option EntityType) :
    (reference.retargetTo entity).firstTypes = (other.retargetTo entity).firstTypes := by
  have types {segment : Segment ε} {like : Segment δ} (same : segment.outline = like.outline) :
      segment.declared = like.declared ∧ segment.type = like.type :=
    ⟨congrArg Segment.declared same, congrArg Segment.type same⟩
  have again {segment : Segment ε} {like : Segment δ} (entity : EntityType)
      (same : segment.outline = like.outline) :
      (segment.retarget entity).outline = (like.retarget entity).outline := by
    rw [segment.outline_retarget, like.outline_retarget, same]
  obtain ⟨_, _, _ | ⟨first, rest⟩, last, whole⟩ := reference <;>
    obtain ⟨_, _, _ | ⟨head, tail⟩, final, _⟩ := other <;>
    simp [Reference.segments] at alike
  · cases entity with
    | none => simp [Reference.firstTypes, Reference.first, types alike, show whole = _ from type]
    | some entity =>
      simp [Reference.retargetTo, Reference.retarget, Reference.firstTypes, Reference.first,
        types (again entity alike)]
  · obtain ⟨begins, _, ends⟩ := alike
    cases entity with
    | none => simp [Reference.firstTypes, Reference.first, types begins, show whole = _ from type]
    | some entity =>
      simp [Reference.retargetTo, Reference.retarget, Reference.firstTypes, Reference.first,
        types (again entity begins), types ends]

/-- Entities that give a path the same types give them to a path that differs in the values of its
indices alone. -/
theorem Reference.retargetTo_congr {reference : Reference ε} {other : Reference δ}
    {entity entityToo : Option EntityType}
    (same : (other.retargetTo entity).firstTypes = (other.retargetTo entityToo).firstTypes)
    (alike : reference.segments.map Segment.outline = other.segments.map Segment.outline)
    (type : reference.type = other.type) :
    reference.retargetTo entity = reference.retargetTo entityToo := by
  rw [reference.retargetTo_eq, reference.retargetTo_eq entityToo, firstTypes_retargetTo alike type,
    firstTypes_retargetTo alike type, same]

end First

/-- Other types leave what is inside a path. -/
@[simp] theorem segmentNodes_withFirst (types : FirstTypes) (reference : Reference Expr) :
    segmentNodes (reference.withFirst types).init = segmentNodes reference.init := by
  obtain ⟨source, sourceType, _ | ⟨first, rest⟩, last, type⟩ := reference <;> rfl

/-- Looking the first attribute up again leaves what is inside a path. -/
@[simp] theorem segmentNodes_retargetTo (entity : Option EntityType) (reference : Reference Expr) :
    segmentNodes (reference.retargetTo entity).init = segmentNodes reference.init := by
  rw [reference.retargetTo_eq, segmentNodes_withFirst]

/-- Looking the first attribute up again leaves the last index. -/
@[simp] theorem Reference.index_retargetTo {ε : Type} (entity : Option EntityType)
    (reference : Reference ε) :
    (reference.retargetTo entity).last.index = reference.last.index := by
  rw [reference.retargetTo_eq, Reference.index_withFirst]

/-- New types inside a path leave its segments with no more of their indices than that there are some. -/
theorem outline_retyped (new : Retyping) (reference : Reference Expr) :
    (retypeSegments new reference.init ++
        [{ reference.last with index := retypeIndex new reference.last.index }]).map Segment.outline =
      reference.segments.map Segment.outline := by
  have inner : ∀ segments : List (Segment Expr),
      (retypeSegments new segments).map Segment.outline = segments.map Segment.outline := by
    intro segments
    induction segments with
    | nil => rfl
    | cons segment rest ih =>
      obtain ⟨label, declared, index, after⟩ := segment
      cases index <;> simp [retypeSegments, retypeIndex, Segment.outline, ih]
  have last : Segment.outline { reference.last with index := retypeIndex new reference.last.index } =
      reference.last.outline := by
    cases present : reference.last.index <;> simp [retypeIndex, Segment.outline, present]
  simp [Reference.segments, inner, last]

/-- The expressions in a path are the path and those in its indices. -/
theorem Expr.nodes_path (reference : Reference Expr) : (Expr.path reference).nodes =
    .path reference :: (segmentNodes reference.init ++ indexNodes reference.last.index) := rfl

/-- New types for parameters alone. -/
def Retyping.ofParameters (parameter : Parameter → Option DataType) : Retyping :=
  { Retyping.unchanged with parameter := parameter }

/-- No attribute is looked up again for new types of parameters. -/
@[simp] theorem Retyping.entity?_ofParameters (parameter : Parameter → Option DataType) :
    (Retyping.ofParameters parameter).entity? = fun _ => none := rfl

section Nodes

variable (new : Retyping)

mutual

/-- The expressions in a retyped expression are the retyped ones. -/
@[simp] theorem Expr.nodes_retype : ∀ expr : Expr,
    (expr.retype new).nodes = expr.nodes.map (Expr.retype new)
  | .path ⟨source, sourceType, init, ⟨label, declared, index, after⟩, type⟩ => by
    simp [Expr.retype, Expr.nodes_path, segmentNodes_retype init, indexNodes_retype index]
  | .element label type => by simp [Expr.retype, Expr.nodes]
  | .literal value => by simp [Expr.retype, Expr.nodes]
  | .parameter bound => by simp [Expr.retype, Expr.nodes]
  | .arithmetic op left right type => by
    simp [Expr.retype, Expr.nodes, left.nodes_retype, right.nodes_retype]
  | .negate operand => by simp [Expr.retype, Expr.nodes, operand.nodes_retype]
  | .call function distinct argument type => by
    simp [Expr.retype, Expr.nodes, indexNodes_retype argument]

/-- So are those in an index or argument. -/
@[simp] theorem indexNodes_retype : ∀ index : Option Expr,
    indexNodes (retypeIndex new index) = (indexNodes index).map (Expr.retype new)
  | none => rfl
  | some index => index.nodes_retype

/-- So are those in segments. -/
@[simp] theorem segmentNodes_retype : ∀ segments : List (Segment Expr),
    segmentNodes (retypeSegments new segments) = (segmentNodes segments).map (Expr.retype new)
  | [] => rfl
  | ⟨label, declared, index, after⟩ :: rest => by
    simp [retypeSegments, segmentNodes, indexNodes_retype index, segmentNodes_retype rest]

end

/-- A path is retyped as a reference. -/
theorem Expr.retype_path (reference : Reference Expr) :
    (Expr.path reference).retype new = .path (reference.retype new) := rfl

mutual

/-- The expressions in a retyped predicate are the retyped ones. -/
@[simp] theorem Predicate.nodes_retype : ∀ predicate : Predicate,
    (predicate.retype new).nodes = predicate.nodes.map (Expr.retype new)
  | .and left right | .or left right => by
    simp [Predicate.retype, Predicate.nodes, left.nodes_retype, right.nodes_retype]
  | .not operand => by simp [Predicate.retype, Predicate.nodes, operand.nodes_retype]
  | .compare op left right => by simp [Predicate.retype, Predicate.nodes]
  | .inList test values negated => by
    simp [Predicate.retype, Predicate.nodes, List.map_flatMap, List.flatMap_map]
  | .inQuery test query negated => by
    simp [Predicate.retype, Predicate.nodes, queryNodes_retype query]
  | .memberOf element collection negated => by
    simp [Predicate.retype, Predicate.nodes, ← Expr.retype_path]
  | .isNull operand negated => by simp [Predicate.retype, Predicate.nodes]
  | .like operand pattern negated => by simp [Predicate.retype, Predicate.nodes]
  | .between operand low high negated => by simp [Predicate.retype, Predicate.nodes]

/-- So are those in a query. -/
@[simp] theorem queryNodes_retype : ∀ query : Query Predicate,
    queryNodes (retypeQuery new query) = (queryNodes query).map (Expr.retype new)
  | ⟨spaces, distinct, selections, filter⟩ => by
    simp [retypeQuery, queryNodes, spaceNodes_retype spaces, filterNodes_retype filter,
      List.map_flatMap, List.flatMap_map]

/-- So are those in the items of a from-clause. -/
@[simp] theorem spaceNodes_retype : ∀ spaces : List (FromSpace Predicate),
    spaceNodes (retypeSpaces new spaces) = (spaceNodes spaces).map (Expr.retype new)
  | [] => rfl
  | ⟨root, joins⟩ :: rest => by
    simp [retypeSpaces, spaceNodes, joinNodes_retype joins, spaceNodes_retype rest]

/-- So are those in joins. -/
@[simp] theorem joinNodes_retype : ∀ joins : List (Join Predicate),
    joinNodes (retypeJoins new joins) = (joinNodes joins).map (Expr.retype new)
  | [] => rfl
  | ⟨kind, fetch, target, predicate⟩ :: rest => by
    simp [retypeJoins, joinNodes, filterNodes_retype predicate, joinNodes_retype rest]

/-- So are those in a condition that may be absent. -/
@[simp] theorem filterNodes_retype : ∀ filter : Option Predicate,
    filterNodes (retypeFilter new filter) = (filterNodes filter).map (Expr.retype new)
  | none => rfl
  | some predicate => predicate.nodes_retype

end

/-- The expressions in a retyped statement are the retyped ones. -/
theorem Statement.nodes_retype (statement : Statement) :
    (statement.retype new).nodes = statement.nodes.map (Expr.retype new) := by
  cases statement with
  | select query order => simp [Statement.retype, Statement.nodes, List.map_flatMap, List.flatMap_map]
  | update target assignments filter =>
    simp [Statement.retype, Statement.nodes, List.map_flatMap, List.flatMap_map]
  | delete target filter => simp [Statement.retype, Statement.nodes]

/-- A retyped parameter keeps its kind and has its new type. -/
theorem Expr.parameter?_retype (expr : Expr) : (expr.retype new).parameter? =
    expr.parameter?.map fun parameter => ⟨parameter.kind, new.parameter parameter⟩ := by
  cases expr <;> rfl

/-- Every occurrence of a parameter gets its new type and nothing else changes. -/
theorem Statement.occurrences_retype (statement : Statement) :
    (statement.retype new).occurrences = statement.occurrences.map fun parameter =>
      ⟨parameter.kind, new.parameter parameter⟩ := by
  rw [occurrences, nodes_retype, List.filterMap_map, occurrences, List.map_filterMap]
  exact congrArg (List.filterMap · statement.nodes) (funext (Expr.parameter?_retype new))

end Nodes

/-! ## Retypings that agree -/

section Agreement

variable {new other : Retyping}

/-- Both retypings give the same types to what the expression records itself, apart from its parts. -/
def Expr.SameOwn (new other : Retyping) : Expr → Prop
  | .path reference =>
    new.source reference.source reference.sourceType =
      other.source reference.source reference.sourceType ∧
    (reference.retargetTo (new.entity? reference.source)).firstTypes =
      (reference.retargetTo (other.entity? reference.source)).firstTypes
  | .element label type => new.element label type = other.element label type
  | .parameter bound => new.parameter bound = other.parameter bound
  | _ => True

mutual

/-- Retypings that do the same to every expression inside do the same to the whole. -/
theorem Expr.retype_congr : ∀ expr : Expr, (∀ node ∈ expr.nodes, node.SameOwn new other) →
    expr.retype new = expr.retype other
  | .path ⟨source, sourceType, init, ⟨label, declared, index, after⟩, type⟩, same => by
    simp only [Expr.nodes, List.forall_mem_cons, List.forall_mem_append] at same
    obtain ⟨⟨sources, firsts⟩, inner, last⟩ := same
    rw [Expr.retype, Expr.retype, retypeSegments_congr init inner, retypeIndex_congr index last,
      sources]
    -- The indices have new types, and everything that the first attribute depends on is as before.
    exact congrArg Expr.path (Reference.retargetTo_congr firsts
      (outline_retyped other ⟨source, sourceType, init, ⟨label, declared, index, after⟩, type⟩) rfl)
  | .element label type, same => by
    rw [Expr.retype, Expr.retype, show new.element label type = other.element label type from
      same _ List.mem_cons_self]
  | .literal value, _ => by rw [Expr.retype, Expr.retype]
  | .parameter bound, same => by
    rw [Expr.retype, Expr.retype, show new.parameter bound = other.parameter bound from
      same _ List.mem_cons_self]
  | .arithmetic op left right type, same => by
    simp only [Expr.nodes, List.forall_mem_cons, List.forall_mem_append] at same
    rw [Expr.retype, Expr.retype, left.retype_congr same.2.1, right.retype_congr same.2.2]
  | .negate operand, same => by
    simp only [Expr.nodes, List.forall_mem_cons] at same
    rw [Expr.retype, Expr.retype, operand.retype_congr same.2]
  | .call function distinct argument type, same => by
    simp only [Expr.nodes, List.forall_mem_cons] at same
    rw [Expr.retype, Expr.retype, retypeIndex_congr argument same.2]

/-- So they do to an index or argument. -/
theorem retypeIndex_congr : ∀ index : Option Expr,
    (∀ node ∈ indexNodes index, node.SameOwn new other) →
      retypeIndex new index = retypeIndex other index
  | none, _ => rfl
  | some index, same => congrArg some (index.retype_congr same)

/-- So they do to segments. -/
theorem retypeSegments_congr : ∀ segments : List (Segment Expr),
    (∀ node ∈ segmentNodes segments, node.SameOwn new other) →
      retypeSegments new segments = retypeSegments other segments
  | [], _ => rfl
  | ⟨label, declared, index, after⟩ :: rest, same => by
    simp only [segmentNodes, List.forall_mem_append] at same
    rw [retypeSegments, retypeSegments, retypeIndex_congr index same.1,
      retypeSegments_congr rest same.2]

end

/-- So they do to all items of a list. -/
theorem map_congr_of_nodes {α : Type} {items : List α} {parts : α → List Expr} {first second : α → α}
    (each : ∀ item ∈ items, (∀ node ∈ parts item, node.SameOwn new other) →
      first item = second item)
    (same : ∀ node ∈ items.flatMap parts, node.SameOwn new other) :
    items.map first = items.map second :=
  List.map_congr_left fun item listed => each item listed fun node found =>
    same node (List.mem_flatMap.mpr ⟨item, listed, found⟩)

mutual

/-- So they do to a predicate. -/
theorem Predicate.retype_congr : ∀ predicate : Predicate,
    (∀ node ∈ predicate.nodes, node.SameOwn new other) → predicate.retype new = predicate.retype other
  | .and left right, same | .or left right, same => by
    simp only [Predicate.nodes, List.forall_mem_append] at same
    rw [Predicate.retype, Predicate.retype, left.retype_congr same.1, right.retype_congr same.2]
  | .not operand, same => by
    rw [Predicate.retype, Predicate.retype, operand.retype_congr same]
  | .compare op left right, same => by
    simp only [Predicate.nodes, List.forall_mem_append] at same
    rw [Predicate.retype, Predicate.retype, left.retype_congr same.1, right.retype_congr same.2]
  | .inList test values negated, same => by
    simp only [Predicate.nodes, List.forall_mem_append] at same
    rw [Predicate.retype, Predicate.retype, test.retype_congr same.1,
      map_congr_of_nodes (fun value _ => value.retype_congr) same.2]
  | .inQuery test query negated, same => by
    simp only [Predicate.nodes, List.forall_mem_append] at same
    rw [Predicate.retype, Predicate.retype, test.retype_congr same.1, retypeQuery_congr query same.2]
  | .memberOf element collection negated, same => by
    simp only [Predicate.nodes, List.forall_mem_append] at same
    have collected : collection.retype new = collection.retype other :=
      Expr.path.inj (Expr.retype_congr (.path collection) same.2)
    rw [Predicate.retype, Predicate.retype, element.retype_congr same.1, collected]
  | .isNull operand negated, same => by
    rw [Predicate.retype, Predicate.retype, operand.retype_congr same]
  | .like operand pattern negated, same => by
    simp only [Predicate.nodes, List.forall_mem_append] at same
    rw [Predicate.retype, Predicate.retype, operand.retype_congr same.1, pattern.retype_congr same.2]
  | .between operand low high negated, same => by
    simp only [Predicate.nodes, List.forall_mem_append] at same
    rw [Predicate.retype, Predicate.retype, operand.retype_congr same.1.1, low.retype_congr same.1.2,
      high.retype_congr same.2]

/-- So they do to a query. -/
theorem retypeQuery_congr : ∀ query : Query Predicate,
    (∀ node ∈ queryNodes query, node.SameOwn new other) → retypeQuery new query = retypeQuery other query
  | ⟨spaces, distinct, selections, filter⟩, same => by
    simp only [queryNodes, List.forall_mem_append] at same
    obtain ⟨⟨selected, joined⟩, filtered⟩ := same
    rw [retypeQuery, retypeQuery, retypeSpaces_congr spaces joined, retypeFilter_congr filter filtered,
      map_congr_of_nodes (fun selection _ kept => by rw [selection.expr.retype_congr kept]) selected]

/-- So they do to the items of a from-clause. -/
theorem retypeSpaces_congr : ∀ spaces : List (FromSpace Predicate),
    (∀ node ∈ spaceNodes spaces, node.SameOwn new other) →
      retypeSpaces new spaces = retypeSpaces other spaces
  | [], _ => rfl
  | ⟨root, joins⟩ :: rest, same => by
    simp only [spaceNodes, List.forall_mem_append] at same
    rw [retypeSpaces, retypeSpaces, retypeJoins_congr joins same.1, retypeSpaces_congr rest same.2]

/-- So they do to joins. -/
theorem retypeJoins_congr : ∀ joins : List (Join Predicate),
    (∀ node ∈ joinNodes joins, node.SameOwn new other) → retypeJoins new joins = retypeJoins other joins
  | [], _ => rfl
  | ⟨kind, fetch, target, predicate⟩ :: rest, same => by
    simp only [joinNodes, List.forall_mem_append] at same
    rw [retypeJoins, retypeJoins, retypeFilter_congr predicate same.1, retypeJoins_congr rest same.2]

/-- So they do to a condition that may be absent. -/
theorem retypeFilter_congr : ∀ filter : Option Predicate,
    (∀ node ∈ filterNodes filter, node.SameOwn new other) →
      retypeFilter new filter = retypeFilter other filter
  | none, _ => rfl
  | some predicate, same => congrArg some (predicate.retype_congr same)

end

/-- Retypings that agree about what each expression of a statement records agree about the
statement. -/
theorem Statement.retype_congr {statement : Statement}
    (same : ∀ node ∈ statement.nodes, node.SameOwn new other) :
    statement.retype new = statement.retype other := by
  cases statement with
  | select query order =>
    simp only [Statement.nodes, List.forall_mem_append] at same
    rw [Statement.retype, Statement.retype, retypeQuery_congr query same.1,
      map_congr_of_nodes (fun key _ kept => by rw [key.expr.retype_congr kept]) same.2]
  | update target assignments filter =>
    simp only [Statement.nodes, List.forall_mem_append] at same
    rw [Statement.retype, Statement.retype, retypeFilter_congr filter same.2,
      map_congr_of_nodes (fun assignment _ kept => by rw [assignment.value.retype_congr kept]) same.1]
  | delete target filter => rw [Statement.retype, Statement.retype, retypeFilter_congr filter same]

end Agreement

mutual

/-- With the types that it has, an expression is what it was. -/
@[simp] theorem Expr.retype_unchanged : ∀ expr : Expr, expr.retype .unchanged = expr
  | .path ⟨source, sourceType, init, ⟨label, declared, index, after⟩, type⟩ => by
    rw [Expr.retype, retypeSegments_unchanged init, retypeIndex_unchanged index]
    rfl
  | .element label type => by rw [Expr.retype]; rfl
  | .literal value => by rw [Expr.retype]
  | .parameter bound => by rw [Expr.retype]; rfl
  | .arithmetic op left right type => by
    rw [Expr.retype, left.retype_unchanged, right.retype_unchanged]
  | .negate operand => by rw [Expr.retype, operand.retype_unchanged]
  | .call function distinct argument type => by rw [Expr.retype, retypeIndex_unchanged argument]

/-- So is an index or argument. -/
theorem retypeIndex_unchanged : ∀ index : Option Expr, retypeIndex .unchanged index = index
  | none => rfl
  | some index => congrArg some index.retype_unchanged

/-- So are segments. -/
theorem retypeSegments_unchanged : ∀ segments : List (Segment Expr),
    retypeSegments .unchanged segments = segments
  | [] => rfl
  | ⟨label, declared, index, after⟩ :: rest => by
    rw [retypeSegments, retypeIndex_unchanged index, retypeSegments_unchanged rest]

end

/-- So is a path. -/
theorem Reference.retype_unchanged (reference : Reference Expr) :
    reference.retype .unchanged = reference :=
  Expr.path.inj (Expr.path reference).retype_unchanged

mutual

/-- So is a predicate. -/
theorem Predicate.retype_unchanged : ∀ predicate : Predicate, predicate.retype .unchanged = predicate
  | .and left right | .or left right => by
    rw [Predicate.retype, left.retype_unchanged, right.retype_unchanged]
  | .not operand => by rw [Predicate.retype, operand.retype_unchanged]
  | .compare op left right => by simp [Predicate.retype]
  | .inList test values negated => by
    have each : values.map (Expr.retype .unchanged) = values.map id :=
      List.map_congr_left fun value _ => value.retype_unchanged
    rw [Predicate.retype, test.retype_unchanged, each, List.map_id]
  | .inQuery test query negated => by simp [Predicate.retype, retypeQuery_unchanged query]
  | .memberOf element collection negated => by
    simp [Predicate.retype, collection.retype_unchanged]
  | .isNull operand negated => by simp [Predicate.retype]
  | .like operand pattern negated => by simp [Predicate.retype]
  | .between operand low high negated => by simp [Predicate.retype]

/-- So is a query. -/
theorem retypeQuery_unchanged : ∀ query : Query Predicate, retypeQuery .unchanged query = query
  | ⟨spaces, distinct, selections, filter⟩ => by
    simp [retypeQuery, retypeSpaces_unchanged spaces, retypeFilter_unchanged filter]

/-- So are the items of a from-clause. -/
theorem retypeSpaces_unchanged : ∀ spaces : List (FromSpace Predicate),
    retypeSpaces .unchanged spaces = spaces
  | [] => rfl
  | ⟨root, joins⟩ :: rest => by
    rw [retypeSpaces, retypeJoins_unchanged joins, retypeSpaces_unchanged rest]

/-- So are joins. -/
theorem retypeJoins_unchanged : ∀ joins : List (Join Predicate), retypeJoins .unchanged joins = joins
  | [] => rfl
  | ⟨kind, fetch, target, predicate⟩ :: rest => by
    rw [retypeJoins, retypeFilter_unchanged predicate, retypeJoins_unchanged rest]

/-- So is a condition that may be absent. -/
theorem retypeFilter_unchanged : ∀ filter : Option Predicate, retypeFilter .unchanged filter = filter
  | none => rfl
  | some predicate => congrArg some predicate.retype_unchanged

end

/-- With the types that it has, a statement is what it was. -/
theorem Statement.retype_unchanged (statement : Statement) :
    statement.retype .unchanged = statement := by
  cases statement with
  | select query order => simp [Statement.retype, retypeQuery_unchanged]
  | update target assignments filter => simp [Statement.retype, retypeFilter_unchanged]
  | delete target filter => rw [Statement.retype, retypeFilter_unchanged]

/-- A retyping that gives each expression what it records already changes nothing. -/
theorem Statement.retype_eq_self {new : Retyping} {statement : Statement}
    (same : ∀ node ∈ statement.nodes, node.SameOwn new .unchanged) : statement.retype new = statement :=
  (retype_congr same).trans statement.retype_unchanged

/-! ## New types for parameters, twice -/

section Twice

variable (first second : Parameter → Option DataType)

/-- The second types, given to parameters that have the first ones. -/
def retypedAgain (parameter : Parameter) : Option DataType :=
  second ⟨parameter.kind, first parameter⟩

mutual

/-- Typing the parameters of an expression twice is typing them once with both. -/
@[simp] theorem Expr.retype_again : ∀ expr : Expr,
    (expr.retype (.ofParameters first)).retype (.ofParameters second) =
      expr.retype (.ofParameters (retypedAgain first second))
  | .path ⟨source, sourceType, init, ⟨label, declared, index, after⟩, type⟩ => by
    simp only [Expr.retype, Retyping.entity?_ofParameters, Reference.retargetTo_none,
      retypeSegments_again init, retypeIndex_again index]
    rfl
  | .element label type => by simp only [Expr.retype]; rfl
  | .literal value => by simp only [Expr.retype]
  | .parameter bound => by simp only [Expr.retype]; rfl
  | .arithmetic op left right type => by
    simp only [Expr.retype, left.retype_again, right.retype_again]
  | .negate operand => by simp only [Expr.retype, operand.retype_again]
  | .call function distinct argument type => by simp only [Expr.retype, retypeIndex_again argument]

/-- The same for an index or argument. -/
theorem retypeIndex_again : ∀ index : Option Expr,
    retypeIndex (.ofParameters second) (retypeIndex (.ofParameters first) index) =
      retypeIndex (.ofParameters (retypedAgain first second)) index
  | none => rfl
  | some index => congrArg some index.retype_again

/-- The same for segments. -/
theorem retypeSegments_again : ∀ segments : List (Segment Expr),
    retypeSegments (.ofParameters second) (retypeSegments (.ofParameters first) segments) =
      retypeSegments (.ofParameters (retypedAgain first second)) segments
  | [] => rfl
  | ⟨label, declared, index, after⟩ :: rest => by
    simp only [retypeSegments, retypeIndex_again index, retypeSegments_again rest]

end

/-- The same for a path. -/
@[simp] theorem Reference.retype_again (reference : Reference Expr) :
    (reference.retype (.ofParameters first)).retype (.ofParameters second) =
      reference.retype (.ofParameters (retypedAgain first second)) :=
  Expr.path.inj ((Expr.path reference).retype_again first second)

mutual

/-- The same for a predicate. -/
theorem Predicate.retype_again : ∀ predicate : Predicate,
    (predicate.retype (.ofParameters first)).retype (.ofParameters second) =
      predicate.retype (.ofParameters (retypedAgain first second))
  | .and left right | .or left right => by
    simp only [Predicate.retype, left.retype_again, right.retype_again]
  | .not operand => by simp only [Predicate.retype, operand.retype_again]
  | .compare op left right => by simp [Predicate.retype]
  | .inList test values negated => by simp [Predicate.retype]
  | .inQuery test query negated => by simp [Predicate.retype, retypeQuery_again query]
  | .memberOf element collection negated => by simp [Predicate.retype]
  | .isNull operand negated => by simp [Predicate.retype]
  | .like operand pattern negated => by simp [Predicate.retype]
  | .between operand low high negated => by simp [Predicate.retype]

/-- The same for a query. -/
theorem retypeQuery_again : ∀ query : Query Predicate,
    retypeQuery (.ofParameters second) (retypeQuery (.ofParameters first) query) =
      retypeQuery (.ofParameters (retypedAgain first second)) query
  | ⟨spaces, distinct, selections, filter⟩ => by
    simp [retypeQuery, retypeSpaces_again spaces, retypeFilter_again filter]

/-- The same for the items of a from-clause. -/
theorem retypeSpaces_again : ∀ spaces : List (FromSpace Predicate),
    retypeSpaces (.ofParameters second) (retypeSpaces (.ofParameters first) spaces) =
      retypeSpaces (.ofParameters (retypedAgain first second)) spaces
  | [] => rfl
  | ⟨root, joins⟩ :: rest => by
    simp only [retypeSpaces, retypeJoins_again joins, retypeSpaces_again rest]

/-- The same for joins. -/
theorem retypeJoins_again : ∀ joins : List (Join Predicate),
    retypeJoins (.ofParameters second) (retypeJoins (.ofParameters first) joins) =
      retypeJoins (.ofParameters (retypedAgain first second)) joins
  | [] => rfl
  | ⟨kind, fetch, target, predicate⟩ :: rest => by
    simp only [retypeJoins, retypeFilter_again predicate, retypeJoins_again rest]

/-- The same for a condition that may be absent. -/
theorem retypeFilter_again : ∀ filter : Option Predicate,
    retypeFilter (.ofParameters second) (retypeFilter (.ofParameters first) filter) =
      retypeFilter (.ofParameters (retypedAgain first second)) filter
  | none => rfl
  | some predicate => congrArg some predicate.retype_again

end

/-- Giving new types to parameters twice is giving new types to them once. -/
theorem Statement.retype_again (statement : Statement) :
    (statement.retype (.ofParameters first)).retype (.ofParameters second) =
      statement.retype (.ofParameters (retypedAgain first second)) := by
  cases statement with
  | select query order => simp [Statement.retype, retypeQuery_again]
  | update target assignments filter => simp [Statement.retype, retypeFilter_again]
  | delete target filter => simp only [Statement.retype, retypeFilter_again]

end Twice

/-- The type of a parameter, or else that of the first one of its kind that has one. -/
def sharedType (parameters : List Parameter) (parameter : Parameter) : Option DataType :=
  parameter.type <|> knownType? parameters parameter.kind

/-- Sharing types is typing the parameters with the types that occur. -/
theorem Statement.shareTypes_eq (statement : Statement) : statement.shareTypes =
    statement.retype (.ofParameters (sharedType statement.occurrences)) := rfl

/-- An occurrence without a type takes that of the first one of its kind that has one. -/
theorem Statement.occurrences_infer (statement : Statement) :
    statement.infer.occurrences = statement.inferLocally.occurrences.map fun parameter =>
      ⟨parameter.kind, parameter.type <|>
        knownType? statement.inferLocally.occurrences parameter.kind⟩ :=
  occurrences_retype _ statement.inferLocally

/-- Another entity for the root leaves the expressions of a statement. -/
theorem Statement.nodes_withRoot (entity : EntityType) (statement : Statement) :
    (statement.withRoot entity).nodes = statement.nodes := by
  cases statement with
  | select query order =>
    obtain ⟨_ | ⟨⟨root, joins⟩, rest⟩, distinct, selections, filter⟩ := query <;> rfl
  | update target assignments filter => simp [Statement.withRoot, Statement.nodes, List.flatMap_map]
  | delete target filter => rfl

/-- So do other types for the targets of assignments. -/
theorem Statement.nodes_withTargets (entity : EntityType) (statement : Statement) :
    (statement.withTargets entity).nodes = statement.nodes := by
  cases statement with
  | update target assignments filter => simp [Statement.withTargets, Statement.nodes, List.flatMap_map]
  | _ => rfl

/-- The parts of a statement have the parameters of the statement. -/
theorem Statement.occurrences_of_split {statement part : Statement} (listed : part ∈ statement.split) :
    part.occurrences = statement.occurrences := by
  unfold split at listed
  split at listed
  · obtain ⟨entity, _, rfl⟩ := List.mem_map.mp listed
    rw [narrow, occurrences, nodes_withRoot, nodes_withTargets, ← occurrences, occurrences_retype]
    exact List.map_id _
  · obtain rfl := List.mem_singleton.mp listed
    rfl

end ObjectQuery.Resolved

import ObjectQuery.Proofs.Outcome
import ObjectQuery.Proofs.Resolved.Repeated
/-!
# What typing visits

Typing looks at select lists, assigned values and the operands of conditions, in all queries. It looks
neither at sort keys nor at the collections of membership tests. Together these are all expressions of
a statement.

An expression that is visited has been typed as a whole, with all that it holds. So a parameter that is
an index in it has the type of the index. An expression that is not visited stays as it was, and its
parameters have only the types that other occurrences of them have.
-/
namespace ObjectQuery.Resolved

/-- The expressions of a condition itself that typing visits. The select list of a query belongs to
the condition that the query stands in. -/
def Predicate.visited : Predicate → List Expr
  | .and _ _ | .or _ _ | .not _ => []
  | .compare _ left right => [left, right]
  | .inList test values _ => test :: values
  | .inQuery test query _ => test :: query.selections.map (·.expr)
  | .memberOf element _ _ => [element]
  | .isNull operand _ => [operand]
  | .like operand pattern _ => [operand, pattern]
  | .between operand low high _ => [operand, low, high]

/-- The expressions of a condition itself that typing leaves out. -/
def Predicate.unvisited : Predicate → List Expr
  | .memberOf _ collection _ => [.path collection]
  | _ => []

/-- The expressions of a statement that belong to no condition and that typing visits. -/
def Statement.selected : Statement → List Expr
  | .select query _ => query.selections.map (·.expr)
  | .update _ assignments _ => assignments.map (·.value)
  | .delete _ _ => []

/-- The sort keys of a statement. -/
def Statement.sorted : Statement → List Expr
  | .select _ order => order.map (·.expr)
  | _ => []

/-- The expressions of a statement that typing visits. -/
def Statement.visited (statement : Statement) : List Expr :=
  statement.selected ++ statement.conditions.flatMap Predicate.visited

/-- The expressions of a statement that typing leaves out. -/
def Statement.unvisited (statement : Statement) : List Expr :=
  statement.conditions.flatMap Predicate.unvisited ++ statement.sorted

/-! ## All expressions -/

/-- The expressions of a condition itself, with everything inside them. -/
def Predicate.ownNodes (predicate : Predicate) : List Expr :=
  (predicate.visited ++ predicate.unvisited).flatMap Expr.nodes

mutual

/-- The nodes of a predicate are those its parts hold themselves. -/
theorem Predicate.nodes_eq : ∀ predicate : Predicate,
    predicate.nodes = predicate.conditions.flatMap Predicate.ownNodes
  | .and left right | .or left right => by
    simp [Predicate.nodes, Predicate.conditions, Predicate.ownNodes, Predicate.visited,
      Predicate.unvisited, left.nodes_eq, right.nodes_eq]
  | .not operand => by
    simp [Predicate.nodes, Predicate.conditions, Predicate.ownNodes, Predicate.visited,
      Predicate.unvisited, operand.nodes_eq]
  | .inQuery test query negated => by
    simp [Predicate.nodes, Predicate.conditions, Predicate.ownNodes, Predicate.visited,
      Predicate.unvisited, queryNodes_eq query, List.flatMap_map]
  | .compare op left right => by
    simp [Predicate.nodes, Predicate.conditions, Predicate.ownNodes, Predicate.visited,
      Predicate.unvisited]
  | .inList test values negated => by
    simp [Predicate.nodes, Predicate.conditions, Predicate.ownNodes, Predicate.visited,
      Predicate.unvisited]
  | .memberOf element collection negated => by
    simp [Predicate.nodes, Predicate.conditions, Predicate.ownNodes, Predicate.visited,
      Predicate.unvisited]
  | .isNull operand negated => by
    simp [Predicate.nodes, Predicate.conditions, Predicate.ownNodes, Predicate.visited,
      Predicate.unvisited]
  | .like operand pattern negated => by
    simp [Predicate.nodes, Predicate.conditions, Predicate.ownNodes, Predicate.visited,
      Predicate.unvisited]
  | .between operand low high negated => by
    simp [Predicate.nodes, Predicate.conditions, Predicate.ownNodes, Predicate.visited,
      Predicate.unvisited]

/-- The nodes of a query are those of its selections and its conditions. -/
theorem queryNodes_eq : ∀ query : Query Predicate, queryNodes query =
    query.selections.flatMap (fun selection => selection.expr.nodes) ++
      (queryConditions query).flatMap Predicate.ownNodes
  | ⟨spaces, distinct, selections, filter⟩ => by
    simp [queryNodes, queryConditions, spaceNodes_eq spaces, filterNodes_eq filter]

/-- The nodes of spaces are those of their conditions. -/
theorem spaceNodes_eq : ∀ spaces : List (FromSpace Predicate),
    spaceNodes spaces = (spaceConditions spaces).flatMap Predicate.ownNodes
  | [] => rfl
  | ⟨root, joins⟩ :: rest => by
    simp [spaceNodes, spaceConditions, joinNodes_eq joins, spaceNodes_eq rest]

/-- The nodes of joins are those of their conditions. -/
theorem joinNodes_eq : ∀ joins : List (Join Predicate),
    joinNodes joins = (joinConditions joins).flatMap Predicate.ownNodes
  | [] => rfl
  | ⟨kind, fetch, target, predicate⟩ :: rest => by
    simp [joinNodes, joinConditions, filterNodes_eq predicate, joinNodes_eq rest]

/-- The nodes of a filter are those of its conditions. -/
theorem filterNodes_eq : ∀ filter : Option Predicate,
    filterNodes filter = (filterConditions filter).flatMap Predicate.ownNodes
  | none => rfl
  | some predicate => predicate.nodes_eq

end

/-- The nodes of a statement are those of its selections, conditions and sort keys. -/
theorem Statement.nodes_eq (statement : Statement) : statement.nodes =
    statement.selected.flatMap Expr.nodes ++ statement.conditions.flatMap Predicate.ownNodes ++
      statement.sorted.flatMap Expr.nodes := by
  cases statement with
  | select query order =>
    simp [Statement.nodes, Statement.selected, Statement.conditions, Statement.sorted, queryNodes_eq,
      List.flatMap_map]
  | update target assignments filter =>
    simp [Statement.nodes, Statement.selected, Statement.conditions, Statement.sorted, filterNodes_eq,
      List.flatMap_map]
  | delete target filter =>
    simp [Statement.nodes, Statement.selected, Statement.conditions, Statement.sorted, filterNodes_eq]

/-- What is visited and what is left out are together all expressions of the statement. -/
theorem Statement.mem_nodes_iff {statement : Statement} {expr : Expr} : expr ∈ statement.nodes ↔
    ∃ whole ∈ statement.visited ++ statement.unvisited, expr ∈ whole.nodes := by
  rw [← List.mem_flatMap, statement.nodes_eq, Statement.visited, Statement.unvisited]
  simp only [Predicate.ownNodes, List.flatMap_append, List.flatMap_assoc, List.mem_append,
    List.mem_flatMap, and_or_left, exists_or, or_assoc]

/-! ## What typing makes of them -/

/-- The second expression is the first one, typed by what it holds and by some type around it. -/
def Expr.TypedFrom (given typed : Expr) : Prop := ∃ type, typed = given.infer.withType type

/-- Values typed one by one are typed as a list. -/
theorem typedFrom_map {values : List Expr} {typed : Expr → Expr}
    (each : ∀ value ∈ values, value.TypedFrom (typed value)) :
    List.Forall₂ Expr.TypedFrom values (values.map typed) := by
  rw [List.forall₂_map_right_iff]
  exact List.forall₂_same.mpr each

/-- Inference types the selections of a query one by one. -/
theorem typedFrom_selections (query : Query Predicate) : List.Forall₂ Expr.TypedFrom
    (query.selections.map (·.expr)) ((inferQuery query).selections.map (·.expr)) := by
  obtain ⟨spaces, distinct, selections, filter⟩ := query
  rw [inferQuery, List.map_map, List.forall₂_map_left_iff, List.forall₂_map_right_iff]
  exact List.forall₂_same.mpr fun selection _ => ⟨none, (Expr.withType_none _).symm⟩

/-- Whatever typing visits in a condition is typed as a whole. -/
theorem Predicate.visited_infer (predicate : Predicate) :
    List.Forall₂ Expr.TypedFrom predicate.visited predicate.infer.visited := by
  cases predicate with
  | and left right => exact .nil
  | or left right => exact .nil
  | not operand => exact .nil
  | compare op left right => exact .cons ⟨_, rfl⟩ (.cons ⟨_, rfl⟩ .nil)
  | inList test values negated =>
    simp only [Predicate.infer, Predicate.visited, List.map_map]
    exact .cons ⟨_, rfl⟩ (typedFrom_map fun value _ => ⟨_, rfl⟩)
  | inQuery test query negated => exact .cons ⟨_, rfl⟩ (typedFrom_selections query)
  | memberOf element collection negated => exact .cons ⟨_, Expr.infer_withType _ element⟩ .nil
  | isNull operand negated => exact .cons ⟨none, (Expr.withType_none _).symm⟩ .nil
  | like operand pattern negated => exact .cons ⟨_, rfl⟩ (.cons ⟨_, rfl⟩ .nil)
  | between operand low high negated =>
    exact .cons ⟨_, rfl⟩ (.cons ⟨_, rfl⟩ (.cons ⟨_, rfl⟩ .nil))

/-- Inference types what a statement selects one by one. -/
theorem Statement.selected_inferLocally (statement : Statement) :
    List.Forall₂ Expr.TypedFrom statement.selected statement.inferLocally.selected := by
  cases statement with
  | select query order => exact typedFrom_selections query
  | update target assignments filter =>
    simp only [Statement.selected, Statement.inferLocally, List.map_map]
    rw [List.forall₂_map_left_iff, List.forall₂_map_right_iff]
    exact List.forall₂_same.mpr fun assignment _ => ⟨_, Expr.infer_withType _ assignment.value⟩
  | delete target filter => exact .nil

/-- Whatever typing visits is typed as a whole. -/
theorem Statement.visited_inferLocally {statement : Statement} {typed : Expr}
    (listed : typed ∈ statement.inferLocally.visited) :
    ∃ given ∈ statement.visited, given.TypedFrom typed := by
  rcases List.mem_append.mp listed with own | inside
  · obtain ⟨given, member, around⟩ := exists_of_forall₂ statement.selected_inferLocally own
    exact ⟨given, List.mem_append_left _ member, around⟩
  · rw [Statement.conditions_inferLocally, List.flatMap_map] at inside
    obtain ⟨condition, tested, visited⟩ := List.mem_flatMap.mp inside
    obtain ⟨given, member, around⟩ := exists_of_forall₂ condition.visited_infer visited
    exact ⟨given, List.mem_append_right _ (List.mem_flatMap.mpr ⟨condition, tested, member⟩), around⟩

/-- Whatever typing leaves out stays as it is. -/
theorem Statement.unvisited_inferLocally (statement : Statement) :
    statement.inferLocally.unvisited = statement.unvisited := by
  have same : ∀ predicate : Predicate, predicate.infer.unvisited = predicate.unvisited := by
    intro predicate
    cases predicate <;> rfl
  have keys : statement.inferLocally.sorted = statement.sorted := by cases statement <;> rfl
  simp only [Statement.unvisited, Statement.conditions_inferLocally, List.flatMap_map, same, keys]

section Retyping

variable (new : Retyping)

/-- Other types for parameters leave which values of a predicate are visited. -/
theorem Predicate.visited_retype (predicate : Predicate) :
    (predicate.retype new).visited = predicate.visited.map (Expr.retype new) := by
  cases predicate with
  | inQuery test query negated =>
    obtain ⟨spaces, distinct, selections, filter⟩ := query
    simp [Predicate.retype, Predicate.visited, retypeQuery]
  | _ => simp [Predicate.retype, Predicate.visited]

/-- Other types for parameters leave which values of a predicate are passed over. -/
theorem Predicate.unvisited_retype (predicate : Predicate) :
    (predicate.retype new).unvisited = predicate.unvisited.map (Expr.retype new) := by
  cases predicate <;> rfl

/-- Other types for parameters leave which values of a statement are visited. -/
theorem Statement.visited_retype (statement : Statement) :
    (statement.retype new).visited = statement.visited.map (Expr.retype new) := by
  have own : (statement.retype new).selected = statement.selected.map (Expr.retype new) := by
    cases statement with
    | select query order =>
      obtain ⟨spaces, distinct, selections, filter⟩ := query
      simp [Statement.retype, Statement.selected, retypeQuery]
    | update target assignments filter => simp [Statement.retype, Statement.selected]
    | delete target filter => rfl
  simp only [Statement.visited, own, Statement.conditions_retype, List.flatMap_map,
    Predicate.visited_retype, List.map_append, List.map_flatMap]

/-- Other types for parameters leave which values of a statement are passed over. -/
theorem Statement.unvisited_retype (statement : Statement) :
    (statement.retype new).unvisited = statement.unvisited.map (Expr.retype new) := by
  have keys : (statement.retype new).sorted = statement.sorted.map (Expr.retype new) := by
    cases statement <;> simp [Statement.retype, Statement.sorted]
  simp only [Statement.unvisited, keys, Statement.conditions_retype, List.flatMap_map,
    Predicate.unvisited_retype, List.map_append, List.map_flatMap]

end Retyping

/-! ## Indices -/

/-- If the expression is a parameter, it has no type yet. -/
def Expr.AwaitsType : Expr → Prop
  | .parameter bound => bound.type = none
  | _ => True

/-- If the index of the segment is a parameter, it has the type of the index. -/
def Segment.IndexTyped (segment : Segment Expr) : Prop :=
  ∀ bound, segment.index = some (.parameter bound) →
    ∀ key, segment.declared.index? = some key → bound.type = some key

/-- If the expression is a path, the parameters among its indices have the types of these. -/
def Expr.IndicesTyped : Expr → Prop
  | .path reference => ∀ segment ∈ reference.segments, segment.IndexTyped
  | _ => True

/-- A type given to an expression leaves its indices typed. -/
theorem Expr.indicesTyped_withType {expr : Expr} (type : Option DataType)
    (typed : ∀ node ∈ expr.nodes, node.IndicesTyped) :
    ∀ node ∈ (expr.withType type).nodes, node.IndicesTyped := by
  unfold Expr.withType
  split
  · simp [Expr.nodes, Expr.IndicesTyped]
  · exact typed

/-- A parameter without a type takes that of the index. -/
theorem Segment.indexTyped_infer {label : String} {declared : DataType} {index : Option Expr}
    (awaits : ∀ node ∈ indexNodes index, node.AwaitsType) :
    Segment.IndexTyped ⟨label, declared, inferIndex declared.index? index, after⟩ := by
  intro bound stands key keyed
  cases index with
  | none => cases stands
  | some index =>
    have same : index.infer.withType declared.index? = .parameter bound := Option.some.inj stands
    cases index with
    | parameter given =>
      obtain ⟨kind, type⟩ := given
      obtain rfl : type = none := awaits _ (Expr.self_mem_nodes _)
      obtain rfl := Expr.parameter.inj same
      exact keyed
    | _ => cases same

mutual

/-- Typing an expression types the parameters among all indices inside it. -/
theorem Expr.indicesTyped_infer : ∀ expr : Expr, (∀ node ∈ expr.nodes, node.AwaitsType) →
    ∀ node ∈ expr.infer.nodes, node.IndicesTyped
  | .path ⟨source, sourceType, init, ⟨label, declared, index, after⟩, type⟩, awaits => by
    simp only [Expr.nodes, List.forall_mem_cons, List.forall_mem_append] at awaits
    obtain ⟨_, inner, last⟩ := awaits
    obtain ⟨along, inside⟩ := segmentsTyped_infer init inner
    simp only [Expr.infer, Expr.nodes, List.forall_mem_cons, List.forall_mem_append]
    refine ⟨?_, inside, indexTyped_infer declared.index? index last⟩
    rw [Expr.IndicesTyped, Reference.segments, List.forall_mem_append, List.forall_mem_singleton]
    exact ⟨along, Segment.indexTyped_infer last⟩
  | .arithmetic op left right type, awaits => by
    simp only [Expr.nodes, List.forall_mem_cons, List.forall_mem_append] at awaits
    simp only [Expr.infer, Expr.nodes, List.forall_mem_cons, List.forall_mem_append]
    exact ⟨trivial, Expr.indicesTyped_withType _ (left.indicesTyped_infer awaits.2.1),
      Expr.indicesTyped_withType _ (right.indicesTyped_infer awaits.2.2)⟩
  | .negate operand, awaits => by
    simp only [Expr.nodes, List.forall_mem_cons] at awaits
    simp only [Expr.infer, Expr.nodes, List.forall_mem_cons]
    exact ⟨trivial, operand.indicesTyped_infer awaits.2⟩
  | .call function distinct argument type, awaits => by
    simp only [Expr.nodes, List.forall_mem_cons] at awaits
    simp only [Expr.infer, Expr.nodes, List.forall_mem_cons]
    exact ⟨trivial, indexTyped_infer none argument awaits.2⟩
  | .element label type, _ => by simp [Expr.infer, Expr.nodes, Expr.IndicesTyped]
  | .literal value, _ => by simp [Expr.infer, Expr.nodes, Expr.IndicesTyped]
  | .parameter bound, _ => by simp [Expr.infer, Expr.nodes, Expr.IndicesTyped]

/-- Inference types the indices inside an index. -/
theorem indexTyped_infer (type : Option DataType) : ∀ index : Option Expr,
    (∀ node ∈ indexNodes index, node.AwaitsType) →
      ∀ node ∈ indexNodes (inferIndex type index), node.IndicesTyped
  | none, _ => by simp [inferIndex, indexNodes]
  | some index, awaits => Expr.indicesTyped_withType type (index.indicesTyped_infer awaits)

/-- Inference types every index of a path. -/
theorem segmentsTyped_infer : ∀ segments : List (Segment Expr),
    (∀ node ∈ segmentNodes segments, node.AwaitsType) →
      (∀ segment ∈ inferSegments segments, segment.IndexTyped) ∧
        ∀ node ∈ segmentNodes (inferSegments segments), node.IndicesTyped
  | [], _ => by simp [inferSegments, segmentNodes]
  | ⟨label, declared, index, after⟩ :: rest, awaits => by
    simp only [segmentNodes, List.forall_mem_append] at awaits
    obtain ⟨along, inside⟩ := segmentsTyped_infer rest awaits.2
    simp only [inferSegments, segmentNodes, List.forall_mem_cons, List.forall_mem_append]
    exact ⟨⟨Segment.indexTyped_infer awaits.1, along⟩,
      indexTyped_infer declared.index? index awaits.1, inside⟩

end

variable {new : Parameter → Option DataType}

/-- The segment with new types in its index. -/
def Segment.retype (new : Retyping) (segment : Segment Expr) : Segment Expr :=
  { segment with index := retypeIndex new segment.index }

/-- The segments of a path get other types one by one. -/
theorem retypeSegments_eq_map (new : Retyping) (segments : List (Segment Expr)) :
    retypeSegments new segments = segments.map (Segment.retype new) := by
  induction segments with
  | nil => rfl
  | cons segment rest ih => rw [retypeSegments, ih, List.map_cons, Segment.retype]

/-- Other types for parameters leave the segments of a path what they are. -/
theorem Reference.segments_retype (reference : Reference Expr) :
    (reference.retype (.ofParameters new)).segments =
      reference.segments.map (Segment.retype (.ofParameters new)) := by
  rw [Reference.retype, Retyping.entity?_ofParameters, Reference.retargetTo_none,
    Reference.segments, Reference.segments, retypeSegments_eq_map, List.map_append,
    List.map_singleton, Segment.retype]

/-- A typed index stays typed where types are kept. -/
theorem Segment.indexTyped_retype (keeps : KeepsTypes new) {segment : Segment Expr}
    (typed : segment.IndexTyped) : (segment.retype (.ofParameters new)).IndexTyped := by
  intro bound stands key keyed
  obtain ⟨label, declared, _ | index, after⟩ := segment
  · cases stands
  · cases index with
    | parameter given =>
      obtain ⟨kind, type⟩ := given
      obtain rfl : type = some key := typed _ rfl key keyed
      obtain rfl := Expr.parameter.inj (Option.some.inj stands)
      exact keeps kind key
    | _ => cases stands

/-- Types that are there stay there. -/
theorem Expr.indicesTyped_retype (keeps : KeepsTypes new) {expr : Expr} (typed : expr.IndicesTyped) :
    (expr.retype (.ofParameters new)).IndicesTyped := by
  cases expr with
  | path reference =>
    rw [Expr.retype_path, Expr.IndicesTyped, Reference.segments_retype, List.forall_mem_map]
    exact fun segment along => Segment.indexTyped_retype keeps (typed segment along)
  | _ => trivial

/-- In what typing visits, the parameters among indices have the types of the indices. -/
theorem Statement.indicesTyped_visited (keeps : KeepsTypes new) {statement : Statement}
    (awaits : ∀ node ∈ statement.nodes, node.AwaitsType) :
    ∀ whole ∈ (statement.inferLocally.retype (.ofParameters new)).visited,
      ∀ node ∈ whole.nodes, node.IndicesTyped := by
  rw [Statement.visited_retype, List.forall_mem_map]
  intro typed listed
  obtain ⟨given, member, type, rfl⟩ := Statement.visited_inferLocally listed
  rw [Expr.nodes_retype, List.forall_mem_map]
  have waits : ∀ node ∈ given.nodes, node.AwaitsType := fun node inside =>
    awaits node (Statement.mem_nodes_iff.mpr ⟨given, List.mem_append_left _ member, inside⟩)
  exact fun node inside => Expr.indicesTyped_retype keeps
    (Expr.indicesTyped_withType type (given.indicesTyped_infer waits) node inside)

/-- In what typing leaves out, a parameter has nothing but what its kind is given. -/
theorem Statement.parameters_unvisited {statement : Statement}
    (awaits : ∀ node ∈ statement.nodes, node.AwaitsType) {whole : Expr}
    (listed : whole ∈ (statement.inferLocally.retype (.ofParameters new)).unvisited)
    {bound : Parameter} (inside : .parameter bound ∈ whole.nodes) :
    bound.type = new ⟨bound.kind, none⟩ := by
  rw [Statement.unvisited_retype, Statement.unvisited_inferLocally] at listed
  obtain ⟨given, member, rfl⟩ := List.mem_map.mp listed
  rw [Expr.nodes_retype] at inside
  obtain ⟨node, early, same⟩ := List.mem_map.mp inside
  cases node with
  | parameter own =>
    have waits := awaits _ (Statement.mem_nodes_iff.mpr ⟨given, List.mem_append_right _ member, early⟩)
    obtain ⟨kind, type⟩ := own
    obtain rfl : type = none := waits
    obtain rfl := Expr.parameter.inj same
    rfl
  | _ => cases same

end ObjectQuery.Resolved

import ObjectQuery.Proofs.Resolved.Retyped
import ObjectQuery.Resolved.Rewriting
/-!
# Statements with rewritten types

A function that rewrites nothing but recorded types leaves the parts of an expression where they are. So
rewriting through it succeeds, and meets the expressions of a statement in the order that `nodes` lists
them in, each as it stands in the statement. The result has the expressions of the statement one for one,
each with the function applied to it and to everything inside it. Retyping is such a rewriting.
-/
namespace ObjectQuery.Resolved

/-! ## Functions that rewrite types -/

/-- The path with the recorded types of another one: that of its source, and those that depend on its
first attribute. -/
def Reference.typedLike {ε : Type} (reference new : Reference ε) : Reference ε :=
  { reference.withFirst new.firstTypes with sourceType := new.sourceType }

/-- The expression with the recorded types of another one of its kind. -/
def Expr.typedLike : Expr → Expr → Expr
  | .path reference, .path new => .path (reference.typedLike new)
  | .element label _, .element _ type => .element label type
  | .parameter bound, .parameter new => .parameter ⟨bound.kind, new.type⟩
  | expr, _ => expr

/-- Other types of a path leave the expressions in its segments. -/
theorem segmentNodes_typedLike (reference new : Reference Expr) :
    segmentNodes (reference.typedLike new).init = segmentNodes reference.init :=
  segmentNodes_withFirst _ reference

/-- Other types of a path leave its last index. -/
theorem Reference.index_typedLike {ε : Type} (reference new : Reference ε) :
    (reference.typedLike new).last.index = reference.last.index :=
  reference.index_withFirst _

/-- Other types leave the number of expressions. -/
theorem Expr.length_typedLike (expr new : Expr) :
    (expr.typedLike new).nodes.length = expr.nodes.length := by
  unfold typedLike
  split
  case h_1 reference new =>
    simp [Expr.nodes_path, segmentNodes_typedLike, Reference.index_typedLike]
  all_goals rfl

/-- A function that gives every expression back with other recorded types at most: that of a parameter,
of a source as a whole, or of the source and the first attribute of a path. -/
structure TypeRewriting where
  apply : Expr → Expr
  keeps : ∀ expr, expr.typedLike (apply expr) = apply expr

namespace TypeRewriting

instance : CoeFun TypeRewriting fun _ => Expr → Expr := ⟨apply⟩

variable (g : TypeRewriting)

/-- A path stays the path but for its types. -/
theorem path (reference : Reference Expr) :
    ∃ new, g (.path reference) = .path (reference.typedLike new) := by
  have kept := g.keeps (.path reference)
  cases given : g (.path reference) with
  | path new =>
    rw [given] at kept
    exact ⟨new, kept.symm⟩
  | _ =>
    rw [given] at kept
    cases kept

/-- A source stays the source but for its type. -/
theorem element (label : String) (type : DataType) :
    ∃ new, g (.element label type) = .element label new := by
  have kept := g.keeps (.element label type)
  cases given : g (.element label type) with
  | element name new =>
    rw [given] at kept
    exact ⟨new, kept.symm⟩
  | _ =>
    rw [given] at kept
    cases kept

/-- A parameter stays a parameter. -/
theorem parameter (bound : Parameter) : ∃ new, g (.parameter bound) = .parameter new := by
  have kept := g.keeps (.parameter bound)
  cases given : g (.parameter bound) with
  | parameter new => exact ⟨new, rfl⟩
  | _ =>
    rw [given] at kept
    cases kept

/-- An expression that records no type is not rewritten. -/
theorem same (expr : Expr) (plain : ∀ new, expr.typedLike new = expr) : g expr = expr :=
  (g.keeps expr).symm.trans (plain _)

/-- Rewriting types leaves the number of expressions. -/
theorem length_nodes (expr : Expr) : (g expr).nodes.length = expr.nodes.length := by
  rw [← g.keeps, Expr.length_typedLike]

end TypeRewriting

/-! ## Rewritten trees -/

section Trees

variable (g : TypeRewriting)

mutual

/-- The expression with the function applied to it and to everything inside it. Where an expression
records no type, only what is inside it differs. -/
def Expr.rewritten : Expr → Expr
  | .path ⟨source, sourceType, init, ⟨label, declared, index, after⟩, type⟩ =>
    (Expr.path ⟨source, sourceType, rewrittenSegments init,
        ⟨label, declared, rewrittenIndex index, after⟩, type⟩).typedLike
      (g (.path ⟨source, sourceType, init, ⟨label, declared, index, after⟩, type⟩))
  | .element label type => g (.element label type)
  | .literal value => .literal value
  | .parameter bound => g (.parameter bound)
  | .arithmetic op left right type => .arithmetic op left.rewritten right.rewritten type
  | .negate operand => .negate operand.rewritten
  | .call function distinct argument type => .call function distinct (rewrittenIndex argument) type

/-- The index or argument with the function applied. -/
def rewrittenIndex : Option Expr → Option Expr
  | none => none
  | some index => some index.rewritten

/-- The segments with the function applied in their indices. -/
def rewrittenSegments : List (Segment Expr) → List (Segment Expr)
  | [] => []
  | ⟨label, declared, index, after⟩ :: rest =>
    ⟨label, declared, rewrittenIndex index, after⟩ :: rewrittenSegments rest

end

/-- The path with the function applied to it and to everything inside it. -/
def Reference.rewritten (reference : Reference Expr) : Reference Expr :=
  match (Expr.path reference).rewritten g with
  | .path new => new
  | _ => reference

/-- The item of a select list with the function applied. -/
def Selection.rewritten (selection : Selection) : Selection :=
  { selection with expr := selection.expr.rewritten g }

mutual

/-- The predicate with the function applied to its expressions. -/
def Predicate.rewritten : Predicate → Predicate
  | .and left right => .and left.rewritten right.rewritten
  | .or left right => .or left.rewritten right.rewritten
  | .not operand => .not operand.rewritten
  | .compare op left right => .compare op (left.rewritten g) (right.rewritten g)
  | .inList test values negated =>
    .inList (test.rewritten g) (values.map (Expr.rewritten g)) negated
  | .inQuery test query negated => .inQuery (test.rewritten g) (rewrittenQuery query) negated
  | .memberOf element collection negated =>
    .memberOf (element.rewritten g) (collection.rewritten g) negated
  | .isNull operand negated => .isNull (operand.rewritten g) negated
  | .like operand pattern negated => .like (operand.rewritten g) (pattern.rewritten g) negated
  | .between operand low high negated =>
    .between (operand.rewritten g) (low.rewritten g) (high.rewritten g) negated

/-- The query with the function applied to its expressions. -/
def rewrittenQuery : Query Predicate → Query Predicate
  | ⟨spaces, distinct, selections, filter⟩ =>
    ⟨rewrittenSpaces spaces, distinct, selections.map (Selection.rewritten g),
      rewrittenFilter filter⟩

/-- The items of a from-clause with the function applied to their expressions. -/
def rewrittenSpaces : List (FromSpace Predicate) → List (FromSpace Predicate)
  | [] => []
  | ⟨root, joins⟩ :: rest => ⟨root, rewrittenJoins joins⟩ :: rewrittenSpaces rest

/-- Joins with the function applied to the expressions of their conditions. -/
def rewrittenJoins : List (Join Predicate) → List (Join Predicate)
  | [] => []
  | ⟨kind, fetch, target, predicate⟩ :: rest =>
    ⟨kind, fetch, target, rewrittenFilter predicate⟩ :: rewrittenJoins rest

/-- A condition that may be absent with the function applied to its expressions. -/
def rewrittenFilter : Option Predicate → Option Predicate
  | none => none
  | some predicate => some predicate.rewritten

end

/-- The sort key with the function applied. -/
def SortKey.rewritten (key : SortKey) : SortKey := { key with expr := key.expr.rewritten g }

/-- The assignment with the function applied to its value. -/
def Assignment.rewritten (assignment : Assignment) : Assignment :=
  { assignment with value := assignment.value.rewritten g }

/-- The statement with the function applied to its expressions. -/
def Statement.rewritten : Statement → Statement
  | .select query order => .select (rewrittenQuery g query) (order.map (SortKey.rewritten g))
  | .update target assignments filter =>
    .update target (assignments.map (Assignment.rewritten g)) (rewrittenFilter g filter)
  | .delete target filter => .delete target (rewrittenFilter g filter)

end Trees

/-- A path is rewritten as a reference. -/
theorem Expr.rewritten_path (g : TypeRewriting) (reference : Reference Expr) :
    (Expr.path reference).rewritten g = .path (reference.rewritten g) := by
  obtain ⟨source, sourceType, init, ⟨label, declared, index, after⟩, type⟩ := reference
  obtain ⟨new, given⟩ := g.path ⟨source, sourceType, init, ⟨label, declared, index, after⟩, type⟩
  simp [Reference.rewritten, Expr.rewritten, given, Expr.typedLike]

/-! ## Rewriting -/

section Passes

variable {σ : Type}

/-- Rewrites an expression through a function, after the expression has been shown as it is. -/
def showing (note : Expr → StateT σ Option Unit) (g : TypeRewriting) (expr : Expr) :
    StateT σ Option expr.Substitute := do
  note expr
  return ⟨g expr, Nat.le_of_eq (g.length_nodes expr)⟩

/-- The index of the first segment is rewritten before the other segments. -/
theorem rewriteSegments_cons (f : (expr : Expr) → StateT σ Option expr.Substitute) (label : String)
    (declared : DataType) (index : Option Expr) (rest : List (Segment Expr)) :
    rewriteSegments f (⟨label, declared, index, after⟩ :: rest) = do
      let index ← rewriteIndex f index
      let rest ← rewriteSegments f rest
      return ⟨label, declared, index, after⟩ :: rest := by
  rw [rewriteSegments]

variable (note : Expr → StateT σ Option Unit) (g : TypeRewriting)

/-- What comes next gets what the function makes of the expression. -/
theorem showing_bind {α : Type} (expr : Expr) (more : expr.Substitute → StateT σ Option α) :
    showing note g expr >>= more =
      note expr >>= fun _ => more ⟨g expr, Nat.le_of_eq (g.length_nodes expr)⟩ := by
  simp [showing]

mutual

/-- Each expression is shown before its parts, and the parts are those that it has in the statement:
the function has not changed them.

Proof: by recursion over the expression. The function keeps the kind of a node, so the walk goes on
with the parts of the original. -/
theorem Expr.rewrite_showing : ∀ expr : Expr, expr.rewrite (showing note g) = do
    expr.nodes.forM note
    return expr.rewritten g
  | .path ⟨source, sourceType, [], ⟨label, declared, index, after⟩, type⟩ => by
    obtain ⟨new, given⟩ := g.path ⟨source, sourceType, [], ⟨label, declared, index, after⟩, type⟩
    rw [Expr.rewrite, showing_bind]
    simp only [given, Reference.typedLike, Reference.withFirst, Reference.firstTypes, Reference.first]
    simp [given, Expr.typedLike, Reference.typedLike, Reference.withFirst, Reference.firstTypes,
      Reference.first, Expr.nodes,
      Expr.rewritten, rewrittenSegments, rewriteSegments_showing [], rewriteIndex_showing index]
  | .path ⟨source, sourceType, first :: rest, ⟨label, declared, index, after⟩, type⟩ => by
    obtain ⟨new, given⟩ := g.path ⟨source, sourceType, first :: rest, ⟨label, declared, index, after⟩, type⟩
    rw [Expr.rewrite, showing_bind]
    simp only [given, Reference.typedLike, Reference.withFirst, Reference.firstTypes, Reference.first]
    simp [given, Expr.typedLike, Reference.typedLike, Reference.withFirst, Reference.firstTypes,
      Reference.first, Expr.nodes,
      segmentNodes, Expr.rewritten, rewrittenSegments, rewriteSegments_cons,
      rewriteIndex_showing first.index, rewriteSegments_showing rest, rewriteIndex_showing index]
  | .element label type => by
    obtain ⟨new, given⟩ := g.element label type
    rw [Expr.rewrite, showing_bind]
    simp only [given]
    simp [given, Expr.nodes, Expr.rewritten]
  | .literal value => by
    rw [Expr.rewrite, showing_bind]
    simp only [g.same (.literal value) fun _ => rfl]
    simp [Expr.nodes, Expr.rewritten]
  | .parameter bound => by
    obtain ⟨new, given⟩ := g.parameter bound
    rw [Expr.rewrite, showing_bind]
    simp only [given]
    simp [given, Expr.nodes, Expr.rewritten]
  | .arithmetic op left right type => by
    have kept := g.same (.arithmetic op left right type) fun _ => rfl
    rw [Expr.rewrite, showing_bind]
    simp only [kept]
    simp [Expr.nodes, Expr.rewritten, left.rewrite_showing, right.rewrite_showing]
  | .negate operand => by
    have kept := g.same (.negate operand) fun _ => rfl
    rw [Expr.rewrite, showing_bind]
    simp only [kept]
    simp [Expr.nodes, Expr.rewritten, operand.rewrite_showing]
  | .call function distinct argument type => by
    have kept := g.same (.call function distinct argument type) fun _ => rfl
    rw [Expr.rewrite, showing_bind]
    simp only [kept]
    simp [Expr.nodes, Expr.rewritten, rewriteIndex_showing argument]

/-- A walk that notes what it sees notes the expressions of an index in order. -/
theorem rewriteIndex_showing : ∀ index : Option Expr, rewriteIndex (showing note g) index = do
    (indexNodes index).forM note
    return rewrittenIndex g index
  | none => by
    rw [rewriteIndex]
    simp [indexNodes, rewrittenIndex]
  | some index => by
    rw [rewriteIndex]
    simp [indexNodes, rewrittenIndex, index.rewrite_showing]

/-- So it does for segments. -/
theorem rewriteSegments_showing : ∀ segments : List (Segment Expr),
    rewriteSegments (showing note g) segments = do
      (segmentNodes segments).forM note
      return rewrittenSegments g segments
  | [] => by
    rw [rewriteSegments]
    simp [segmentNodes, rewrittenSegments]
  | ⟨label, declared, index, after⟩ :: rest => by
    simp [rewriteSegments_cons, segmentNodes, rewrittenSegments, rewriteIndex_showing index,
      rewriteSegments_showing rest]

end

/-- So it does for a path. -/
theorem Reference.rewrite_showing (reference : Reference Expr) :
    reference.rewrite (showing note g) = do
      (Expr.path reference).nodes.forM note
      return reference.rewritten g := by
  simp [Reference.rewrite, (Expr.path reference).rewrite_showing note g, Expr.rewritten_path g]

/-- Items that are each rewritten so, one after the other. -/
theorem mapM_showing {α : Type} {rewrite : α → StateT σ Option α} {nodes : α → List Expr}
    {rewritten : α → α} (each : ∀ item, rewrite item = do
      (nodes item).forM note
      return rewritten item) (items : List α) :
    items.mapM rewrite = do
      (items.flatMap nodes).forM note
      return items.map rewritten := by
  induction items with
  | nil => simp
  | cons item rest ih => simp [each, ih]

/-- So it does for an item of a select list. -/
theorem Selection.rewrite_showing (selection : Selection) :
    selection.rewrite (showing note g) = do
      selection.expr.nodes.forM note
      return selection.rewritten g := by
  simp [Selection.rewrite, selection.expr.rewrite_showing note g, Selection.rewritten]

/-- So it does for a sort key. -/
theorem SortKey.rewrite_showing (key : SortKey) : key.rewrite (showing note g) = do
    key.expr.nodes.forM note
    return key.rewritten g := by
  simp [SortKey.rewrite, key.expr.rewrite_showing note g, SortKey.rewritten]

/-- So it does for the value of an assignment. -/
theorem Assignment.rewrite_showing (assignment : Assignment) :
    assignment.rewrite (showing note g) = do
      assignment.value.nodes.forM note
      return assignment.rewritten g := by
  simp [Assignment.rewrite, assignment.value.rewrite_showing note g, Assignment.rewritten]

mutual

/-- So it does for a predicate. -/
theorem Predicate.rewriteExprs_showing : ∀ predicate : Predicate,
    predicate.rewriteExprs (showing note g) = do
      predicate.nodes.forM note
      return predicate.rewritten g
  | .and left right | .or left right => by
    simp [Predicate.rewriteExprs, Predicate.nodes, Predicate.rewritten, left.rewriteExprs_showing,
      right.rewriteExprs_showing]
  | .not operand => by
    simp [Predicate.rewriteExprs, Predicate.nodes, Predicate.rewritten, operand.rewriteExprs_showing]
  | .compare op left right => by
    simp [Predicate.rewriteExprs, Predicate.nodes, Predicate.rewritten, Expr.rewrite_showing]
  | .inList test values negated => by
    have listed := mapM_showing note (Expr.rewrite_showing note g) values
    simp [Predicate.rewriteExprs, Predicate.nodes, Predicate.rewritten, Expr.rewrite_showing, listed]
  | .inQuery test query negated => by
    simp [Predicate.rewriteExprs, Predicate.nodes, Predicate.rewritten, Expr.rewrite_showing,
      rewriteQuery_showing query]
  | .memberOf element collection negated => by
    simp [Predicate.rewriteExprs, Predicate.nodes, Predicate.rewritten, Expr.rewrite_showing,
      Reference.rewrite_showing]
  | .isNull operand negated => by
    simp [Predicate.rewriteExprs, Predicate.nodes, Predicate.rewritten, Expr.rewrite_showing]
  | .like operand pattern negated => by
    simp [Predicate.rewriteExprs, Predicate.nodes, Predicate.rewritten, Expr.rewrite_showing]
  | .between operand low high negated => by
    simp [Predicate.rewriteExprs, Predicate.nodes, Predicate.rewritten, Expr.rewrite_showing]

/-- So it does for a query. -/
theorem rewriteQuery_showing : ∀ query : Query Predicate, rewriteQuery (showing note g) query = do
    (queryNodes query).forM note
    return rewrittenQuery g query
  | ⟨spaces, distinct, selections, filter⟩ => by
    have listed := mapM_showing note (Selection.rewrite_showing note g) selections
    simp [rewriteQuery, queryNodes, rewrittenQuery, listed, rewriteSpaces_showing spaces,
      rewriteFilter_showing filter]

/-- So it does for the items of a from-clause. -/
theorem rewriteSpaces_showing : ∀ spaces : List (FromSpace Predicate),
    rewriteSpaces (showing note g) spaces = do
      (spaceNodes spaces).forM note
      return rewrittenSpaces g spaces
  | [] => by simp [rewriteSpaces, spaceNodes, rewrittenSpaces]
  | ⟨root, joins⟩ :: rest => by
    simp [rewriteSpaces, spaceNodes, rewrittenSpaces, rewriteJoins_showing joins,
      rewriteSpaces_showing rest]

/-- So it does for joins. -/
theorem rewriteJoins_showing : ∀ joins : List (Join Predicate),
    rewriteJoins (showing note g) joins = do
      (joinNodes joins).forM note
      return rewrittenJoins g joins
  | [] => by simp [rewriteJoins, joinNodes, rewrittenJoins]
  | ⟨kind, fetch, target, predicate⟩ :: rest => by
    simp [rewriteJoins, joinNodes, rewrittenJoins, rewriteFilter_showing predicate,
      rewriteJoins_showing rest]

/-- So it does for a condition that may be absent. -/
theorem rewriteFilter_showing : ∀ filter : Option Predicate,
    rewriteFilter (showing note g) filter = do
      (filterNodes filter).forM note
      return rewrittenFilter g filter
  | none => by simp [rewriteFilter, filterNodes, rewrittenFilter]
  | some predicate => by
    simp [rewriteFilter, filterNodes, rewrittenFilter, predicate.rewriteExprs_showing]

end

/-- Rewriting a statement succeeds. What is shown are its expressions in order, none left out and none
twice. -/
theorem Statement.rewriteExprs_showing (statement : Statement) :
    statement.rewriteExprs (showing note g) = do
      statement.nodes.forM note
      return statement.rewritten g := by
  cases statement with
  | select query order =>
    have listed := mapM_showing note (SortKey.rewrite_showing note g) order
    simp [Statement.rewriteExprs, Statement.nodes, Statement.rewritten, rewriteQuery_showing, listed]
  | update target assignments filter =>
    have listed := mapM_showing note (Assignment.rewrite_showing note g) assignments
    simp [Statement.rewriteExprs, Statement.nodes, Statement.rewritten, rewriteFilter_showing, listed]
  | delete target filter =>
    simp [Statement.rewriteExprs, Statement.nodes, Statement.rewritten, rewriteFilter_showing]

end Passes

/-! ## Expressions of the result -/

section Nodes

variable (g : TypeRewriting)

mutual

/-- The expressions in a rewritten expression are the rewritten ones. -/
theorem Expr.nodes_rewritten : ∀ expr : Expr,
    (expr.rewritten g).nodes = expr.nodes.map (Expr.rewritten g)
  | .path ⟨source, sourceType, init, ⟨label, declared, index, after⟩, type⟩ => by
    obtain ⟨new, given⟩ := g.path ⟨source, sourceType, init, ⟨label, declared, index, after⟩, type⟩
    simp [Expr.rewritten, given, Expr.typedLike, Expr.nodes_path, segmentNodes_typedLike,
      Reference.index_typedLike, segmentNodes_rewritten init, indexNodes_rewritten index]
  | .element label type => by
    obtain ⟨new, given⟩ := g.element label type
    simp [Expr.rewritten, given, Expr.nodes]
  | .literal value => by simp [Expr.rewritten, Expr.nodes]
  | .parameter bound => by
    obtain ⟨new, given⟩ := g.parameter bound
    simp [Expr.rewritten, given, Expr.nodes]
  | .arithmetic op left right type => by
    simp [Expr.rewritten, Expr.nodes, left.nodes_rewritten, right.nodes_rewritten]
  | .negate operand => by simp [Expr.rewritten, Expr.nodes, operand.nodes_rewritten]
  | .call function distinct argument type => by
    simp [Expr.rewritten, Expr.nodes, indexNodes_rewritten argument]

/-- So are those in an index or argument. -/
theorem indexNodes_rewritten : ∀ index : Option Expr,
    indexNodes (rewrittenIndex g index) = (indexNodes index).map (Expr.rewritten g)
  | none => rfl
  | some index => index.nodes_rewritten

/-- So are those in segments. -/
theorem segmentNodes_rewritten : ∀ segments : List (Segment Expr),
    segmentNodes (rewrittenSegments g segments) = (segmentNodes segments).map (Expr.rewritten g)
  | [] => rfl
  | ⟨label, declared, index, after⟩ :: rest => by
    simp [rewrittenSegments, segmentNodes, indexNodes_rewritten index, segmentNodes_rewritten rest]

end

mutual

/-- So are those in a predicate. -/
theorem Predicate.nodes_rewritten : ∀ predicate : Predicate,
    (predicate.rewritten g).nodes = predicate.nodes.map (Expr.rewritten g)
  | .and left right | .or left right => by
    simp [Predicate.rewritten, Predicate.nodes, left.nodes_rewritten, right.nodes_rewritten]
  | .not operand => by simp [Predicate.rewritten, Predicate.nodes, operand.nodes_rewritten]
  | .compare op left right => by simp [Predicate.rewritten, Predicate.nodes, Expr.nodes_rewritten]
  | .inList test values negated => by
    simp [Predicate.rewritten, Predicate.nodes, Expr.nodes_rewritten, List.map_flatMap,
      List.flatMap_map]
  | .inQuery test query negated => by
    simp [Predicate.rewritten, Predicate.nodes, Expr.nodes_rewritten, queryNodes_rewritten query]
  | .memberOf element collection negated => by
    simp [Predicate.rewritten, Predicate.nodes, Expr.nodes_rewritten, ← Expr.rewritten_path]
  | .isNull operand negated => by simp [Predicate.rewritten, Predicate.nodes, Expr.nodes_rewritten]
  | .like operand pattern negated => by
    simp [Predicate.rewritten, Predicate.nodes, Expr.nodes_rewritten]
  | .between operand low high negated => by
    simp [Predicate.rewritten, Predicate.nodes, Expr.nodes_rewritten]

/-- So are those in a query. -/
theorem queryNodes_rewritten : ∀ query : Query Predicate,
    queryNodes (rewrittenQuery g query) = (queryNodes query).map (Expr.rewritten g)
  | ⟨spaces, distinct, selections, filter⟩ => by
    simp [rewrittenQuery, queryNodes, Selection.rewritten, Expr.nodes_rewritten,
      spaceNodes_rewritten spaces, filterNodes_rewritten filter, List.map_flatMap, List.flatMap_map]

/-- So are those in the items of a from-clause. -/
theorem spaceNodes_rewritten : ∀ spaces : List (FromSpace Predicate),
    spaceNodes (rewrittenSpaces g spaces) = (spaceNodes spaces).map (Expr.rewritten g)
  | [] => rfl
  | ⟨root, joins⟩ :: rest => by
    simp [rewrittenSpaces, spaceNodes, joinNodes_rewritten joins, spaceNodes_rewritten rest]

/-- So are those in joins. -/
theorem joinNodes_rewritten : ∀ joins : List (Join Predicate),
    joinNodes (rewrittenJoins g joins) = (joinNodes joins).map (Expr.rewritten g)
  | [] => rfl
  | ⟨kind, fetch, target, predicate⟩ :: rest => by
    simp [rewrittenJoins, joinNodes, filterNodes_rewritten predicate, joinNodes_rewritten rest]

/-- So are those in a condition that may be absent. -/
theorem filterNodes_rewritten : ∀ filter : Option Predicate,
    filterNodes (rewrittenFilter g filter) = (filterNodes filter).map (Expr.rewritten g)
  | none => rfl
  | some predicate => predicate.nodes_rewritten

end

/-- The result has the expressions of the statement one for one, each rewritten as a whole. -/
theorem Statement.nodes_rewritten (statement : Statement) :
    (statement.rewritten g).nodes = statement.nodes.map (Expr.rewritten g) := by
  cases statement with
  | select query order =>
    simp [Statement.rewritten, Statement.nodes, SortKey.rewritten, Expr.nodes_rewritten,
      queryNodes_rewritten, List.map_flatMap, List.flatMap_map]
  | update target assignments filter =>
    simp [Statement.rewritten, Statement.nodes, Assignment.rewritten, Expr.nodes_rewritten,
      filterNodes_rewritten, List.map_flatMap, List.flatMap_map]
  | delete target filter => simp [Statement.rewritten, Statement.nodes, filterNodes_rewritten]

end Nodes

/-! ## Retyping -/

/-- The expression with the types that a retyping gives to itself. -/
def Expr.retypeAlone (new : Retyping) : Expr → Expr
  | .path reference => .path { reference.retargetTo (new.entity? reference.source) with
      sourceType := new.source reference.source reference.sourceType }
  | .element label type => .element label (new.element label type)
  | .parameter bound => .parameter ⟨bound.kind, new.parameter bound⟩
  | other => other

/-- A retyping as a function on expressions. -/
def Retyping.rewriting (new : Retyping) : TypeRewriting where
  apply := Expr.retypeAlone new
  keeps := by
    intro expr
    cases expr with
    | path reference =>
      exact congrArg (fun typed : Reference Expr => Expr.path { typed with
          sourceType := new.source reference.source reference.sourceType })
        (reference.retargetTo_eq _).symm
    | _ => rfl

section Retypings

variable (new : Retyping)

mutual

/-- Rewriting with new types is retyping. -/
theorem Expr.rewritten_retyping : ∀ expr : Expr, expr.rewritten new.rewriting = expr.retype new
  | .path ⟨source, sourceType, init, ⟨label, declared, index, after⟩, type⟩ => by
    -- What the first attribute depends on is the same before and after its index is rewritten.
    have types : (Reference.retargetTo (new.entity? source) ⟨source, new.source source sourceType,
        retypeSegments new init, ⟨label, declared, retypeIndex new index, after⟩, type⟩).firstTypes = _ :=
      Reference.firstTypes_retargetTo
        (outline_retyped new ⟨source, sourceType, init, ⟨label, declared, index, after⟩, type⟩)
        (show type = Reference.type ⟨source, sourceType, init, ⟨label, declared, index, after⟩, type⟩
          from rfl) _
    rw [Expr.retype, Reference.retargetTo_eq, types, ← rewrittenSegments_retyping init,
      ← rewrittenIndex_retyping index]
    cases init <;> rfl
  | .element _ _ | .literal _ | .parameter _ => rfl
  | .arithmetic op left right type => by
    simp [Expr.rewritten, Expr.retype, left.rewritten_retyping, right.rewritten_retyping]
  | .negate operand => by simp [Expr.rewritten, Expr.retype, operand.rewritten_retyping]
  | .call function distinct argument type => by
    simp [Expr.rewritten, Expr.retype, rewrittenIndex_retyping argument]

/-- The same for an index or argument. -/
theorem rewrittenIndex_retyping : ∀ index : Option Expr,
    rewrittenIndex new.rewriting index = retypeIndex new index
  | none => rfl
  | some index => congrArg some index.rewritten_retyping

/-- The same for segments. -/
theorem rewrittenSegments_retyping : ∀ segments : List (Segment Expr),
    rewrittenSegments new.rewriting segments = retypeSegments new segments
  | [] => rfl
  | ⟨label, declared, index, after⟩ :: rest => by
    simp [rewrittenSegments, retypeSegments, rewrittenIndex_retyping index,
      rewrittenSegments_retyping rest]

end

/-- The same for a path. -/
theorem Reference.rewritten_retyping (reference : Reference Expr) :
    reference.rewritten new.rewriting = reference.retype new := by
  have same := (Expr.path reference).rewritten_retyping new
  rw [Expr.rewritten_path, Expr.retype_path] at same
  exact Expr.path.inj same

mutual

/-- The same for a predicate. -/
theorem Predicate.rewritten_retyping : ∀ predicate : Predicate,
    predicate.rewritten new.rewriting = predicate.retype new
  | .and left right | .or left right => by
    simp [Predicate.rewritten, Predicate.retype, left.rewritten_retyping, right.rewritten_retyping]
  | .not operand => by simp [Predicate.rewritten, Predicate.retype, operand.rewritten_retyping]
  | .compare op left right => by
    simp [Predicate.rewritten, Predicate.retype, Expr.rewritten_retyping]
  | .inList test values negated => by
    simp [Predicate.rewritten, Predicate.retype, Expr.rewritten_retyping]
  | .inQuery test query negated => by
    simp [Predicate.rewritten, Predicate.retype, Expr.rewritten_retyping,
      rewrittenQuery_retyping query]
  | .memberOf element collection negated => by
    simp [Predicate.rewritten, Predicate.retype, Expr.rewritten_retyping, Reference.rewritten_retyping]
  | .isNull operand negated => by
    simp [Predicate.rewritten, Predicate.retype, Expr.rewritten_retyping]
  | .like operand pattern negated => by
    simp [Predicate.rewritten, Predicate.retype, Expr.rewritten_retyping]
  | .between operand low high negated => by
    simp [Predicate.rewritten, Predicate.retype, Expr.rewritten_retyping]

/-- The same for a query. -/
theorem rewrittenQuery_retyping : ∀ query : Query Predicate,
    rewrittenQuery new.rewriting query = retypeQuery new query
  | ⟨spaces, distinct, selections, filter⟩ => by
    simp [rewrittenQuery, retypeQuery, Selection.rewritten, Expr.rewritten_retyping,
      rewrittenSpaces_retyping spaces, rewrittenFilter_retyping filter]

/-- The same for the items of a from-clause. -/
theorem rewrittenSpaces_retyping : ∀ spaces : List (FromSpace Predicate),
    rewrittenSpaces new.rewriting spaces = retypeSpaces new spaces
  | [] => rfl
  | ⟨root, joins⟩ :: rest => by
    simp [rewrittenSpaces, retypeSpaces, rewrittenJoins_retyping joins, rewrittenSpaces_retyping rest]

/-- The same for joins. -/
theorem rewrittenJoins_retyping : ∀ joins : List (Join Predicate),
    rewrittenJoins new.rewriting joins = retypeJoins new joins
  | [] => rfl
  | ⟨kind, fetch, target, predicate⟩ :: rest => by
    simp [rewrittenJoins, retypeJoins, rewrittenFilter_retyping predicate, rewrittenJoins_retyping rest]

/-- The same for a condition that may be absent. -/
theorem rewrittenFilter_retyping : ∀ filter : Option Predicate,
    rewrittenFilter new.rewriting filter = retypeFilter new filter
  | none => rfl
  | some predicate => congrArg some predicate.rewritten_retyping

end

/-- The same for a statement. -/
theorem Statement.rewritten_retyping (statement : Statement) :
    statement.rewritten new.rewriting = statement.retype new := by
  cases statement <;>
    simp [Statement.rewritten, Statement.retype, SortKey.rewritten, Assignment.rewritten,
      Expr.rewritten_retyping, rewrittenQuery_retyping, rewrittenFilter_retyping]

/-- Retyping a statement rewrites it through a function. -/
theorem Statement.rewriteExprs_retyping {σ : Type} (statement : Statement) :
    statement.rewriteExprs (showing (fun _ => (return : StateT σ Option Unit)) new.rewriting) =
      return statement.retype new := by
  have silent : ∀ exprs : List Expr, (exprs.forM fun _ => (return : StateT σ Option Unit)) = return := by
    intro exprs
    induction exprs with
    | nil => rfl
    | cons _ _ ih => simpa using ih
  calc statement.rewriteExprs (showing (fun _ => return) new.rewriting)
      = do
        statement.nodes.forM (fun _ => return)
        return statement.rewritten new.rewriting :=
      statement.rewriteExprs_showing (fun _ => return) new.rewriting
    _ = return statement.retype new := by rw [silent, pure_bind, statement.rewritten_retyping new]

end Retypings

end ObjectQuery.Resolved

import ObjectQuery.Resolved.Visit
/-!
# Rewriting through a function

A rewriting hands the parts of a statement one after the other to a function, which may keep a state
and may fail, and puts what the function makes of a part in its place. The expressions of a statement are
rewritten each before its parts: the function meets an expression with its parts as they were, and the
parts that are rewritten next are those of the outcome. So that this ends, the function must not make
more expressions out of one. Predicates are rewritten each after its parts.
-/
namespace ObjectQuery.Resolved

section Expressions

variable {σ : Type}

/-- What a function may put in the place of an expression: one with no more expressions inside it. -/
abbrev Expr.Substitute (expr : Expr) : Type := { new : Expr // new.nodes.length ≤ expr.nodes.length }

mutual

/-- Rewrites the expression and then everything inside the outcome, in the order of the text. -/
def Expr.rewrite (f : (expr : Expr) → StateT σ Option expr.Substitute) (expr : Expr) :
    StateT σ Option Expr := do
  match ← f expr with
  | ⟨.path ⟨source, sourceType, init, ⟨label, declared, index, after⟩, type⟩, _⟩ =>
    let init ← rewriteSegments f init
    let index ← rewriteIndex f index
    return .path ⟨source, sourceType, init, ⟨label, declared, index, after⟩, type⟩
  | ⟨.element label type, _⟩ => return .element label type
  | ⟨.literal value, _⟩ => return .literal value
  | ⟨.parameter bound, _⟩ => return .parameter bound
  | ⟨.arithmetic op left right type, _⟩ =>
    let left ← left.rewrite f
    let right ← right.rewrite f
    return .arithmetic op left right type
  | ⟨.negate operand, _⟩ =>
    let operand ← operand.rewrite f
    return .negate operand
  | ⟨.call function distinct argument type, _⟩ =>
    let argument ← rewriteIndex f argument
    return .call function distinct argument type
termination_by (expr.nodes.length, 0)
decreasing_by all_goals simp_all only [Expr.nodes, List.length_cons, List.length_append]; omega

/-- Rewrites an index or an argument. -/
def rewriteIndex (f : (expr : Expr) → StateT σ Option expr.Substitute) (index : Option Expr) :
    StateT σ Option (Option Expr) := do
  match index with
  | none => return none
  | some index =>
    let index ← index.rewrite f
    return some index
termination_by ((indexNodes index).length, 1)
decreasing_by simp only [indexNodes]; omega

/-- Rewrites the indices of segments. -/
def rewriteSegments (f : (expr : Expr) → StateT σ Option expr.Substitute)
    (segments : List (Segment Expr)) : StateT σ Option (List (Segment Expr)) := do
  match segments with
  | [] => return []
  | ⟨label, declared, index, after⟩ :: rest =>
    let index ← rewriteIndex f index
    let rest ← rewriteSegments f rest
    return ⟨label, declared, index, after⟩ :: rest
termination_by ((segmentNodes segments).length, 2 + segments.length)
decreasing_by all_goals simp only [segmentNodes, List.length_cons, List.length_append]; omega

end

variable (f : (expr : Expr) → StateT σ Option expr.Substitute)

/-- Rewrites a collection, which has to stay a path. -/
def Reference.rewrite (reference : Reference Expr) : StateT σ Option (Reference Expr) := do
  match ← (Expr.path reference).rewrite f with
  | .path reference => return reference
  | _ => failure

/-- Rewrites an item of a select list. -/
def Selection.rewrite (selection : Selection) : StateT σ Option Selection := do
  let expr ← selection.expr.rewrite f
  return { selection with expr }

mutual

/-- Rewrites the expressions of a predicate. -/
def Predicate.rewriteExprs : Predicate → StateT σ Option Predicate
  | .and left right => do
    let left ← left.rewriteExprs
    let right ← right.rewriteExprs
    return .and left right
  | .or left right => do
    let left ← left.rewriteExprs
    let right ← right.rewriteExprs
    return .or left right
  | .not operand => do
    let operand ← operand.rewriteExprs
    return .not operand
  | .compare op left right => do
    let left ← left.rewrite f
    let right ← right.rewrite f
    return .compare op left right
  | .inList test values negated => do
    let test ← test.rewrite f
    let values ← values.mapM (Expr.rewrite f)
    return .inList test values negated
  | .inQuery test query negated => do
    let test ← test.rewrite f
    let query ← rewriteQuery query
    return .inQuery test query negated
  | .memberOf element collection negated => do
    let element ← element.rewrite f
    let collection ← collection.rewrite f
    return .memberOf element collection negated
  | .isNull operand negated => do
    let operand ← operand.rewrite f
    return .isNull operand negated
  | .like operand pattern negated => do
    let operand ← operand.rewrite f
    let pattern ← pattern.rewrite f
    return .like operand pattern negated
  | .between operand low high negated => do
    let operand ← operand.rewrite f
    let low ← low.rewrite f
    let high ← high.rewrite f
    return .between operand low high negated

/-- Rewrites the expressions of a query: of its select list, of its joins and of its condition. -/
def rewriteQuery : Query Predicate → StateT σ Option (Query Predicate)
  | ⟨spaces, distinct, selections, filter⟩ => do
    let selections ← selections.mapM (Selection.rewrite f)
    let spaces ← rewriteSpaces spaces
    let filter ← rewriteFilter filter
    return ⟨spaces, distinct, selections, filter⟩

/-- Rewrites the expressions of the items of a from-clause. -/
def rewriteSpaces : List (FromSpace Predicate) → StateT σ Option (List (FromSpace Predicate))
  | [] => return []
  | ⟨root, joins⟩ :: rest => do
    let joins ← rewriteJoins joins
    let rest ← rewriteSpaces rest
    return ⟨root, joins⟩ :: rest

/-- Rewrites the expressions of the conditions of joins. -/
def rewriteJoins : List (Join Predicate) → StateT σ Option (List (Join Predicate))
  | [] => return []
  | ⟨kind, fetch, target, predicate⟩ :: rest => do
    let predicate ← rewriteFilter predicate
    let rest ← rewriteJoins rest
    return ⟨kind, fetch, target, predicate⟩ :: rest

/-- Rewrites the expressions of a condition that may be absent. -/
def rewriteFilter : Option Predicate → StateT σ Option (Option Predicate)
  | none => return none
  | some predicate => do
    let predicate ← predicate.rewriteExprs
    return some predicate

end

/-- Rewrites a sort key. -/
def SortKey.rewrite (key : SortKey) : StateT σ Option SortKey := do
  let expr ← key.expr.rewrite f
  return { key with expr }

/-- Rewrites an assigned value. -/
def Assignment.rewrite (assignment : Assignment) : StateT σ Option Assignment := do
  let value ← assignment.value.rewrite f
  return { assignment with value }

/-- Rewrites the expressions of a statement. Sort keys come last, and the targets of assignments are not
among them. -/
def Statement.rewriteExprs : Statement → StateT σ Option Statement
  | .select query order => do
    let query ← rewriteQuery f query
    let order ← order.mapM (SortKey.rewrite f)
    return .select query order
  | .update target assignments filter => do
    let assignments ← assignments.mapM (Assignment.rewrite f)
    let filter ← rewriteFilter f filter
    return .update target assignments filter
  | .delete target filter => do
    let filter ← rewriteFilter f filter
    return .delete target filter

end Expressions

section Predicates

variable {σ : Type} (f : Predicate → StateM σ Predicate)

mutual

/-- Rewrites the predicates inside a predicate and then the predicate itself. Of a sub-query only the
condition is looked at. -/
def Predicate.rewrite : Predicate → StateM σ Predicate
  | .and left right => do
    let left ← left.rewrite
    let right ← right.rewrite
    f (.and left right)
  | .or left right => do
    let left ← left.rewrite
    let right ← right.rewrite
    f (.or left right)
  | .not operand => do
    let operand ← operand.rewrite
    f (.not operand)
  | .inQuery test ⟨spaces, distinct, selections, filter⟩ negated => do
    let filter ← rewriteCondition filter
    f (.inQuery test ⟨spaces, distinct, selections, filter⟩ negated)
  | other => f other

/-- Rewrites the predicates inside a condition that may be absent. -/
def rewriteCondition : Option Predicate → StateM σ (Option Predicate)
  | none => return none
  | some predicate => do
    let predicate ← predicate.rewrite
    return some predicate

end

end Predicates

end ObjectQuery.Resolved

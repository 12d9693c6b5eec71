import ObjectQuery.Resolution.Expression
/-!
# Resolving statements

The second walk over a parse tree. What the first walk registered for a from-clause, an item or a
join is found again under its span; everything else is resolved in the scope of the query it stands
in.
-/
namespace ObjectQuery.Resolution

open Resolved (FromNode)

/-- The scope that was registered for a place. -/
def scopeAt (names : Names) (span : Span) : Except ResolutionError Nat :=
  match names.index.scopeAt? span with
  | some clause => .ok clause
  | none => .error (.misuse (.noClauseAt span))

/-- The source that was registered for a place. -/
def nodeAt (names : Names) (span : Span) : Except ResolutionError FromNode :=
  match names.index.elementAt? span with
  | some element => .ok (.ofElement element)
  | none => .error (.misuse (.noElementAt span))

/-- Resolves a path to a collection. -/
def collection (names : Names) (clause : Nat) (route : Grammar.Path Grammar.Expr) :
    Resolving (Resolved.Reference Resolved.Expr) := do
  match ← path names clause route with
  | .path reference =>
    if reference.type.isPlural then return reference
    else throw (.illegalUse (.notCollection route.dotted))
  | _ => throw (.illegalUse (.notCollection route.dotted))

/-- Resolves a select list. -/
def selections (names : Names) (clause : Nat) (list : List Grammar.Selection) :
    Resolving (List Resolved.Selection) :=
  list.mapM fun selection => do
    let resolved ← expr names clause selection.expr
    return ⟨resolved, selection.label.map (·.value)⟩

/-- Without a select list, the first source of each item of the from-clause is selected. -/
def defaultSelections (spaces : List (Resolved.FromSpace Resolved.Predicate)) :
    List Resolved.Selection :=
  spaces.map fun space => ⟨.element space.root.label space.root.type, none⟩

mutual

/-- Resolves a predicate in a scope. -/
def predicate (names : Names) (clause : Nat) : Grammar.Predicate → Resolving Resolved.Predicate
  | .and _ left right => do
    let left ← predicate names clause left
    let right ← predicate names clause right
    return .and left right
  | .or _ left right => do
    let left ← predicate names clause left
    let right ← predicate names clause right
    return .or left right
  | .not _ operand => do
    let operand ← predicate names clause operand
    return .not operand
  | .compare _ op left right => do
    let left ← expr names clause left
    let right ← expr names clause right
    return .compare op left right
  | .inList _ test values negated => do
    let test ← expr names clause test
    let values ← values.mapM (expr names clause)
    return .inList test values negated
  | .inQuery _ test query negated => do
    let test ← expr names clause test
    let query ← querySpec names query
    return .inQuery test query negated
  | .memberOf _ element route negated => do
    let element ← expr names clause element
    let reference ← collection names clause route
    return .memberOf element reference negated
  | .isNull _ operand negated => do
    let operand ← expr names clause operand
    return .isNull operand negated
  | .like _ operand pattern negated => do
    let operand ← expr names clause operand
    let pattern ← expr names clause pattern
    return .like operand pattern negated
  | .between _ operand low high negated => do
    let operand ← expr names clause operand
    let low ← expr names clause low
    let high ← expr names clause high
    return .between operand low high negated

/-- Resolves a condition that may be absent. -/
def filter (names : Names) (clause : Nat) :
    Option Grammar.Predicate → Resolving (Option Resolved.Predicate)
  | none => return none
  | some condition => do
    let condition ← predicate names clause condition
    return some condition

/-- Resolves joins. -/
def joins (names : Names) (clause : Nat) :
    List (Grammar.Join Grammar.Predicate) → Resolving (List (Resolved.Join Resolved.Predicate))
  | [] => return []
  | ⟨kind, fetch, _, _, condition, span⟩ :: rest => do
    let target ← nodeAt names span
    let condition ← filter names clause condition
    let join ← Resolved.Join.make kind fetch target condition
    let rest ← joins names clause rest
    return join :: rest

/-- Resolves the items of a from-clause. -/
def spaces (names : Names) (clause : Nat) :
    List (Grammar.FromSpace Grammar.Predicate) →
      Resolving (List (Resolved.FromSpace Resolved.Predicate))
  | [] => return []
  | ⟨root, joined, _⟩ :: rest => do
    let root ← nodeAt names root.span
    let joined ← joins names clause joined
    let rest ← spaces names clause rest
    return ⟨root, joined⟩ :: rest

/-- Resolves a query: first its select list, then its from-clause, then its condition. -/
def querySpec (names : Names) :
    Grammar.Query Grammar.Predicate → Resolving (Resolved.Query Resolved.Predicate)
  | ⟨select, ⟨items, span⟩, condition, _⟩ => do
    let clause ← scopeAt names span
    let chosen ← selections names clause ((select.map (·.selections)).getD [])
    let items ← spaces names clause items
    let condition ← filter names clause condition
    return {
      spaces := items
      distinct := (select.map (·.distinct)).getD false
      selections := if select.isSome then chosen else defaultSelections items
      filter := condition }

end

/-- Resolves a sort key. Without a direction it ascends. -/
def sortKey (names : Names) (clause : Nat) (key : Grammar.SortSpec) : Resolving Resolved.SortKey := do
  let resolved ← expr names clause key.expr
  return ⟨resolved, key.order.getD .ascending⟩

/-- Resolves an assignment, whose target is a basic attribute of the statement's target. -/
def assignment (names : Names) (clause : Nat) (target : FromNode) (given : Grammar.Assignment) :
    Resolving Resolved.Assignment := do
  let illegal := ResolutionError.illegalUse (.assignmentTarget target.entity.name given.target.dotted)
  match ← path names clause given.target with
  | .path reference =>
    if reference.source == target.label && reference.init.isEmpty && reference.type.basic?.isSome then
      let value ← expr names clause given.value
      return ⟨reference, value⟩
    else throw illegal
  | _ => throw illegal

/-- Resolves a statement whose sources are registered. -/
def statement (names : Names) : Grammar.Statement → Resolving Resolved.Statement
  | .select query order => do
    let resolved ← querySpec names query
    let order ← order.mapM fun key => do
      let clause ← scopeAt names query.sources.span
      sortKey names clause key
    return .select resolved order
  | .update target assignments condition => do
    let clause ← scopeAt names target.span
    let node ← nodeAt names target.span
    let assignments ← assignments.mapM (assignment names clause node)
    let condition ← filter names clause condition
    return .update node assignments condition
  | .delete target condition => do
    let clause ← scopeAt names target.span
    let node ← nodeAt names target.span
    let condition ← filter names clause condition
    return .delete node condition

end ObjectQuery.Resolution

namespace ObjectQuery.Resolved

/-- The resolved form of a parsed statement, parameters still without types. -/
def Statement.resolve (catalog : Catalog) (tree : Grammar.Statement) :
    Except ResolutionError Statement := do
  let index ← Sources.ofStatement catalog tree
  let (statement, _) ← (Resolution.statement ⟨catalog, index⟩ tree).run .unused
  return statement

end ObjectQuery.Resolved

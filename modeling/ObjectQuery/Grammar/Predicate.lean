import ObjectQuery.Grammar.Expression
/-!
# Reading predicates and queries

A simple predicate is an expression and a tail: a comparison, a test for null, or one of the tests
that may be negated. Over simple predicates and predicates in parentheses stand negations,
conjunctions and disjunctions, each binding less tightly than the one before.

A query has an optional select list, a from-clause and an optional condition. Queries in parentheses
occur inside predicates, so the query reader takes the predicate reader as a parameter.
-/
namespace ObjectQuery.Grammar

open Reader

/-- Reads a name that a statement gives to something, with or without `as`. -/
def label : Reader (Spanned String) := do
  let _ ← optional (keyword .asKw)
  name

/-- Reads an entity name, which may have several parts joined by dots, and its label. -/
def rootRef : Reader RootRef := do
  let ((entity, label), span) ← spanned do
    let (parts, span) ← spanned do
      let first ← identifier
      let rest ← many (do mark .dot; identifier)
      return first :: rest
    let label ← optional label
    return ((⟨".".intercalate parts, span⟩ : Spanned String), label)
  return ⟨entity, label, span⟩

/-- Reads one item of a select list. -/
def selection : Reader Selection := do
  let ((expr, label), span) ← spanned do
    let expr ← expression
    let label ← optional label
    return (expr, label)
  return ⟨expr, label, span⟩

/-- Reads a select list. -/
def selectClause : Reader SelectClause := do
  let ((distinct, selections), span) ← spanned do
    keyword .select
    let distinct ← flag .distinct
    let selections ← commaSeparated selection
    return (distinct, selections)
  return ⟨distinct, selections, span⟩

/-- Reads the words before `join`. Without any the join is an inner one. -/
def joinKind : Reader JoinKind := do
  let kind ← optional (
    (do keyword .inner; return .inner)
      <|> (do keyword .left; let _ ← optional (keyword .outer); return .leftOuter)
      <|> (do keyword .cross; return .cross))
  return kind.getD .inner

/-- Reads a join. -/
def join (predicate : Reader Predicate) : Reader (Join Predicate) := do
  let ((kind, fetch, target, label, condition), span) ← spanned do
    let kind ← joinKind
    keyword .join
    let fetch ← flag .fetch
    let target ← path expression
    let label ← optional label
    let condition ← optional (do
      keyword .withKw <|> keyword .onKw
      predicate)
    return (kind, fetch, target, label, condition)
  return ⟨kind, fetch, target, label, condition, span⟩

/-- Reads one item of a from-clause. -/
def fromSpace (predicate : Reader Predicate) : Reader (FromSpace Predicate) := do
  let ((root, joins), span) ← spanned do
    let root ← rootRef
    let joins ← many (join predicate)
    return (root, joins)
  return ⟨root, joins, span⟩

/-- Reads a from-clause. -/
def fromClause (predicate : Reader Predicate) : Reader (FromClause Predicate) := do
  let (spaces, span) ← spanned do
    keyword .fromKw
    commaSeparated (fromSpace predicate)
  return ⟨spaces, span⟩

/-- Reads a condition after `where`. -/
def condition (predicate : Reader Predicate) : Reader Predicate := do
  keyword .whereKw
  predicate

/-- Reads a query. -/
def query (predicate : Reader Predicate) : Reader QuerySpec := do
  let ((select, sources, filter), span) ← spanned do
    let select ← optional selectClause
    let sources ← fromClause predicate
    let filter ← optional (condition predicate)
    return (select, sources, filter)
  return ⟨select, sources, filter, span⟩

/-- What completes an expression to a predicate, given the span of the whole. -/
abbrev Tail := Span → Expr → Predicate

/-- The comparison that a token stands for. -/
def comparisonOp? : Token → Option ComparisonOp
  | .mark .eq => some .eq
  | .mark .ne => some .ne
  | .mark .lt => some .lt
  | .mark .le => some .le
  | .mark .gt => some .gt
  | .mark .ge => some .ge
  | _ => none

/-- Reads a comparison operator and its right operand. -/
def comparisonTail : Reader Tail := do
  let op ← item comparisonOp?
  let right ← expression
  return fun span left => .compare span op left right

/-- Reads a test for null. -/
def nullTail : Reader Tail := do
  keyword .isKw
  let negated ← flag .notKw
  keyword .null
  return fun span operand => .isNull span operand negated

/-- Reads a test for membership in a query or a list. A query starts with `select` or `from`, which
no expression does, so it is tried first. -/
def inTail (predicate : Reader Predicate) (negated : Bool) : Reader Tail := do
  keyword .inKw
  (do
    let query ← between .leftParen .rightParen (query predicate)
    return fun span test => .inQuery span test query negated)
  <|> (do
    let values ← between .leftParen .rightParen (commaSeparated expression)
    return fun span test => .inList span test values negated)

/-- Reads a test for membership in a collection. -/
def memberTail (negated : Bool) : Reader Tail := do
  keyword .member
  let _ ← optional (keyword .ofKw)
  let collection ← path expression
  return fun span element => .memberOf span element collection negated

/-- Reads a pattern. -/
def likeTail (negated : Bool) : Reader Tail := do
  keyword .like
  let pattern ← expression
  return fun span operand => .like span operand pattern negated

/-- Reads the two ends of a range. -/
def betweenTail (negated : Bool) : Reader Tail := do
  keyword .between
  let low ← expression
  keyword .andKw
  let high ← expression
  return fun span operand => .between span operand low high negated

/-- Reads a tail that may be negated. -/
def negatableTail (predicate : Reader Predicate) : Reader Tail := do
  let negated ← flag .notKw
  inTail predicate negated <|> memberTail negated <|> likeTail negated <|> betweenTail negated

/-- Reads an expression and the tail that makes it a predicate. -/
def simplePredicate (predicate : Reader Predicate) : Reader Predicate := do
  let ((left, tail), span) ← spanned do
    let left ← expression
    let tail ← comparisonTail <|> nullTail <|> negatableTail predicate
    return (left, tail)
  return tail span left

/-- Reads a simple predicate or one in parentheses. -/
def primaryPredicate (predicate : Reader Predicate) : Reader Predicate :=
  simplePredicate predicate <|> between .leftParen .rightParen predicate

/-- Reads a primary predicate with any number of negations before it. -/
def negation (predicate : Reader Predicate) : Reader Predicate := do
  let words ← many (spanned (keyword .notKw))
  let operand ← primaryPredicate predicate
  return words.foldr (fun (_, word) operand => .not (word.through operand.span) operand) operand

/-- Reads predicates with the keyword between them, which `combine` joins from the left. -/
def connected (word : Keyword) (combine : Span → Predicate → Predicate → Predicate)
    (operand : Reader Predicate) : Reader Predicate := do
  let first ← operand
  let rest ← many (do keyword word; operand)
  return rest.foldl (fun left right => combine (left.span.through right.span) left right) first

/-- Reads a conjunction. -/
def conjunction (predicate : Reader Predicate) : Reader Predicate :=
  connected .andKw .and (negation predicate)

/-- Reads a disjunction. -/
def disjunction (predicate : Reader Predicate) : Reader Predicate :=
  connected .orKw .or (conjunction predicate)

/-- Reads a predicate. -/
def predicate : Reader Predicate := nested disjunction

end ObjectQuery.Grammar

import ObjectQuery.Sql.Expr
/-!
# Writing expressions and queries

Parentheses follow from the operators. An operand that is itself an operation needs them when it
binds less tightly than the operation it stands in, and on the right also when it binds as tightly,
unless both are the same associative operator. Under a negation every operation has them.
-/
namespace ObjectQuery.Sql

open Token

/-- `as` and a name, if there is one. -/
def labelTokens : Option String → List Token
  | some label => spaced .asKw ++ [identifier label]
  | none => []

/-- A table with its name in the query. -/
def TableRef.tokens (table : TableRef) : List Token :=
  (if table.derived then verbatim table.name else identifier table.name) :: labelTokens table.label

/-- The words of a join. -/
def joinWord : JoinKind → Keyword
  | .inner => .inner
  | .leftOuter => .leftOuter
  | .cross => .cross

/-- The word of a sort order. -/
def orderWord : SortOrder → Keyword
  | .ascending => .asc
  | .descending => .desc

/-- A literal. -/
def literalToken : Literal → Token
  | .integer value => .integer value
  | .decimal value => .decimal value
  | .text content => .string content
  | .boolean true => .keyword .trueKw
  | .boolean false => .keyword .falseKw
  | .null => .keyword .null

/-- A space and `not` before the word that they negate. -/
def negationTokens (negated : Bool) : List Token :=
  if negated then [space, keyword .notKw] else []

/-- Whether the operand of an operator needs parentheses. -/
def needsParens (parent : BinaryOp) (onRight : Bool) : Expr → Bool
  | .binary op _ _ =>
    op.strength < parent.strength ||
      (onRight && op.strength == parent.strength && !(op == parent && parent.isAssociative))
  | _ => false

/-- Whether the expression is an operation. -/
def isOperation : Expr → Bool
  | .binary _ _ _ => true
  | _ => false

/-- The tokens, in parentheses if they are needed. -/
def parenthesisedIf (needed : Bool) (tokens : List Token) : List Token :=
  if needed then parenthesised tokens else tokens

mutual

/-- The tokens of an expression. A test for membership in an empty list is a constant, because there
is no way to write the list. -/
def Expr.tokens : Expr → List Token
  | .column (some table) column => [identifier table, symbol .dot, identifier column]
  | .column none column => [identifier column]
  | .literal value => [literalToken value]
  | .parameter parameter => [placeholder parameter]
  | .binary op left right =>
    parenthesisedIf (needsParens op false left) left.tokens ++ [space, op.token, space] ++
      parenthesisedIf (needsParens op true right) right.tokens
  | .not operand =>
    keyword .notKw :: space :: parenthesisedIf (isOperation operand) operand.tokens
  | .negate operand => symbol .minus :: parenthesisedIf (isOperation operand) operand.tokens
  | .call callee distinct arguments =>
    function callee :: parenthesised (
      (if distinct then [keyword .distinct, space] else []) ++ separated (listTokens arguments))
  | .inList _ [] negated => [keyword (if negated then .trueKw else .falseKw)]
  | .inList test (value :: values) negated =>
    test.tokens ++ negationTokens negated ++ spaced .inKw ++
      parenthesised (separated (value.tokens :: listTokens values))
  | .inQuery test query negated =>
    test.tokens ++ negationTokens negated ++ spaced .inKw ++ parenthesised (queryTokens query)
  | .between operand low high negated =>
    operand.tokens ++ negationTokens negated ++ spaced .between ++ low.tokens ++ spaced .andKw ++
      high.tokens
  | .isNull operand negated =>
    operand.tokens ++ [space, keyword (if negated then .isNotNull else .isNull)]
  | .like operand pattern negated =>
    operand.tokens ++ negationTokens negated ++ spaced .like ++ pattern.tokens
  | .star => [symbol .star]

/-- The tokens of each expression of a list. -/
def listTokens : List Expr → List (List Token)
  | [] => []
  | expr :: rest => expr.tokens :: listTokens rest

/-- The tokens of each item of a select list. -/
def selectionTokens : List (Selection Expr) → List (List Token)
  | [] => []
  | ⟨expr, label⟩ :: rest => (expr.tokens ++ labelTokens label) :: selectionTokens rest

/-- The tokens of a condition after the word that introduces it. -/
def conditionTokens (word : Keyword) : Option Expr → List Token
  | some condition => spaced word ++ condition.tokens
  | none => []

/-- The tokens of joins. -/
def joinTokens : List (Join Expr) → List Token
  | [] => []
  | ⟨kind, table, condition⟩ :: rest =>
    [space, keyword (joinWord kind), space, keyword .join, space] ++ table.tokens ++
      conditionTokens .onKw condition ++ joinTokens rest

/-- The tokens of each sort key. -/
def sortTokens : List (SortKey Expr) → List (List Token)
  | [] => []
  | ⟨expr, order⟩ :: rest => (expr.tokens ++ [space, keyword (orderWord order)]) :: sortTokens rest

/-- The tokens of a query. -/
def queryTokens : Query Expr → List Token
  | ⟨distinct, selections, source, joins, filter, order⟩ =>
    let selected := selectionTokens selections
    let keys := sortTokens order
    keyword .select :: (if distinct then [space, keyword .distinct] else []) ++
      (if selected.isEmpty then [] else space :: separated selected) ++
      (match source with
        | some table => spaced .fromKw ++ table.tokens
        | none => []) ++
      joinTokens joins ++ conditionTokens .whereKw filter ++
      (if keys.isEmpty then [] else spaced .orderBy ++ separated keys)

end

/-- The tokens of a query. -/
abbrev Query.tokens (query : Query Expr) : List Token := queryTokens query

/-- The text of an expression. -/
def Expr.text (expr : Expr) : String := render expr.tokens

end ObjectQuery.Sql

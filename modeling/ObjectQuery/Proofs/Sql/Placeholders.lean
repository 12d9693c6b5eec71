import Mathlib.Algebra.BigOperators.Group.Multiset.Basic
import Mathlib.Algebra.Order.Group.Multiset
import ObjectQuery.Sql.Statement
/-!
# Placeholders of a statement

The tokens of a statement carry a parameter for each placeholder. What matters here is which parameters
these are and how often, so they are taken as a multiset: what the statement needs. The needs of a
whole are the sum of the needs of its parts, wherever the parts are written. The one exception is a
test for membership in an empty list, of which nothing is written.
-/
namespace ObjectQuery.Sql

open Token

variable {tokens more : List Token} {token : Token}

/-- The parameter that a token stands for, if it is a placeholder. -/
def Token.needs : Token → Multiset Parameter
  | placeholder parameter => {parameter}
  | _ => 0

/-- The parameters that the placeholders among the tokens stand for. -/
def tokenNeeds (tokens : List Token) : Multiset Parameter :=
  Multiset.ofList (Token.parameters tokens)

/-- Of which kinds these parameters are. -/
def placeholderKinds (tokens : List Token) : Multiset ParameterKind :=
  Multiset.ofList ((Token.parameters tokens).map (·.kind))

/-- The kinds of placeholders are those of the needed parameters. -/
theorem placeholderKinds_eq (tokens : List Token) :
    placeholderKinds tokens = (tokenNeeds tokens).map (·.kind) := rfl

/-- No tokens need nothing. -/
@[simp] theorem tokenNeeds_nil : tokenNeeds [] = 0 := rfl

/-- Tokens in a row need what both parts need. -/
@[simp] theorem tokenNeeds_append :
    tokenNeeds (tokens ++ more) = tokenNeeds tokens + tokenNeeds more := by
  simp [tokenNeeds, Token.parameters]

/-- A first token adds what it needs. -/
@[simp] theorem tokenNeeds_cons :
    tokenNeeds (token :: tokens) = token.needs + tokenNeeds tokens := by
  unfold tokenNeeds Token.parameters Token.needs
  split
  · simp [Token.parameter?]
  · simp [Token.parameter?]

/-- A placeholder needs its parameter. -/
@[simp] theorem needs_placeholder (parameter : Parameter) :
    (placeholder parameter).needs = {parameter} := rfl

/-- A space needs nothing. -/
@[simp] theorem needs_space : space.needs = 0 := rfl

/-- A symbol needs nothing. -/
@[simp] theorem needs_symbol (sign : Symbol) : (symbol sign).needs = 0 := rfl

/-- A keyword needs nothing. -/
@[simp] theorem needs_keyword (word : Keyword) : (keyword word).needs = 0 := rfl

/-- An identifier needs nothing. -/
@[simp] theorem needs_identifier (name : String) : (identifier name).needs = 0 := rfl

/-- The name of a function needs nothing. -/
@[simp] theorem needs_function (name : String) : (function name).needs = 0 := rfl

/-- A text that is copied needs nothing. -/
@[simp] theorem needs_verbatim (text : String) : (verbatim text).needs = 0 := rfl

/-! ## What is written around expressions -/

/-- Parentheses need nothing. -/
@[simp] theorem tokenNeeds_parenthesised :
    tokenNeeds (parenthesised tokens) = tokenNeeds tokens := by
  simp [parenthesised]

/-- Nor do parentheses that may be left out. -/
@[simp] theorem tokenNeeds_parenthesisedIf (needed : Bool) :
    tokenNeeds (parenthesisedIf needed tokens) = tokenNeeds tokens := by
  cases needed with
  | true => exact tokenNeeds_parenthesised
  | false => rfl

/-- A list with commas needs what its items need. -/
theorem tokenNeeds_separated : ∀ items : List (List Token),
    tokenNeeds (separated items) = (items.map tokenNeeds).sum
  | [] => rfl
  | [item] => by simp [separated]
  | item :: second :: rest => by
    have split : separated (item :: second :: rest) =
        item ++ (symbol .comma :: space :: separated (second :: rest)) := by
      simp [separated, separator]
    rw [split]
    simp [tokenNeeds_separated (second :: rest)]

/-- A keyword between spaces needs nothing. -/
@[simp] theorem tokenNeeds_spaced (word : Keyword) : tokenNeeds (spaced word) = 0 := rfl

/-- A negation that may be left out needs nothing. -/
@[simp] theorem tokenNeeds_negation (negated : Bool) :
    tokenNeeds (negationTokens negated) = 0 := by
  cases negated <;> rfl

/-- A label needs nothing. -/
@[simp] theorem tokenNeeds_label (label : Option String) :
    tokenNeeds (labelTokens label) = 0 := by
  cases label <;> rfl

/-- A table needs nothing. -/
@[simp] theorem tokenNeeds_table (table : TableRef) : tokenNeeds table.tokens = 0 := by
  unfold TableRef.tokens
  split <;> simp

/-- An operator needs nothing. -/
@[simp] theorem needs_op (op : BinaryOp) : op.token.needs = 0 := by
  cases op with
  | arithmetic op => cases op <;> rfl
  | comparison op => cases op <;> rfl
  | _ => rfl

/-- A literal is a token that needs nothing. -/
@[simp] theorem needs_literalToken (value : Literal) : (literalToken value).needs = 0 := by
  cases value with
  | boolean value => cases value <;> rfl
  | _ => rfl

/-! ## Expressions -/

namespace Expr

/-- The parameters of an expression. -/
def needs (expr : Expr) : Multiset Parameter := tokenNeeds expr.tokens

variable (left right test low high operand pattern : Expr) (negated : Bool)

/-- A column needs nothing. -/
@[simp] theorem needs_column (table : Option String) (name : String) :
    (column table name).needs = 0 := by
  cases table <;> simp [needs, tokens]

/-- Nor does a column of a named table. -/
@[simp] theorem needs_tableColumn (table name : String) : (tableColumn table name).needs = 0 :=
  needs_column _ _

/-- A literal needs nothing. -/
@[simp] theorem needs_literal (value : Literal) : (literal value).needs = 0 := by
  simp [needs, tokens]

/-- A parameter needs itself. -/
@[simp] theorem needs_parameter (bound : Parameter) : (parameter bound).needs = {bound} := by
  simp [needs, tokens]

/-- An operation needs what its operands need. -/
@[simp] theorem needs_binary (op : BinaryOp) :
    (binary op left right).needs = left.needs + right.needs := by
  simp [needs, tokens]

/-- So does a comparison for equality. -/
@[simp] theorem needs_equals : (equals left right).needs = left.needs + right.needs :=
  needs_binary left right _

/-- So does a conjunction. -/
@[simp] theorem needs_both : (both left right).needs = left.needs + right.needs :=
  needs_binary left right _

/-- A negated condition needs what the condition needs. -/
@[simp] theorem needs_not : (Expr.not operand).needs = operand.needs := by
  simp [needs, tokens]

/-- A negated value needs what the value needs. -/
@[simp] theorem needs_negate : (negate operand).needs = operand.needs := by
  simp [needs, tokens]

/-- A test against a range needs what its three operands need. -/
@[simp] theorem needs_between :
    (between operand low high negated).needs = operand.needs + low.needs + high.needs := by
  simp [needs, tokens, add_assoc]

/-- A test for null needs what its operand needs. -/
@[simp] theorem needs_isNull : (isNull operand negated).needs = operand.needs := by
  simp [needs, tokens]

/-- A test against a pattern needs what the operand and the pattern need. -/
@[simp] theorem needs_like : (like operand pattern negated).needs = operand.needs + pattern.needs := by
  simp [needs, tokens]

/-- A test against a query needs what its operand and the query need. -/
@[simp] theorem needs_inQuery (query : Query Expr) :
    (inQuery test query negated).needs = test.needs + tokenNeeds query.tokens := by
  simp [needs, tokens]

end Expr

/-- The tokens of each argument need what the argument needs. -/
theorem tokenNeeds_list (exprs : List Expr) :
    (listTokens exprs).map tokenNeeds = exprs.map Expr.needs := by
  induction exprs with
  | nil => simp [listTokens]
  | cons expr rest ih => simp [listTokens, ih, Expr.needs]

namespace Expr

/-- A call needs what its arguments need. -/
@[simp] theorem needs_call (name : String) (distinct : Bool) (arguments : List Expr) :
    (call name distinct arguments).needs = (arguments.map needs).sum := by
  cases distinct <;>
    simp [needs, tokens, tokenNeeds_separated, tokenNeeds_list]

/-- All of a test for membership in a list is written if the list has an item. -/
theorem needs_inList (test : Expr) {values : List Expr} (filled : values ≠ []) (negated : Bool) :
    (inList test values negated).needs = test.needs + (values.map needs).sum := by
  cases values with
  | nil => exact absurd rfl filled
  | cons value rest =>
    simp [needs, tokens, tokenNeeds_separated, tokenNeeds_list]

/-- The needs of a conjunction are those of its conditions. -/
theorem needs_conjunction (conditions : List Expr) :
    ((conjunction conditions).map needs).getD 0 = (conditions.map needs).sum := by
  cases conditions with
  | nil => rfl
  | cons first rest =>
    change (rest.foldl both first).needs = _
    induction rest generalizing first with
    | nil => simp
    | cons second rest ih => simp [ih, add_assoc]

end Expr

/-! ## Queries and statements -/

/-- The parameters of a condition that may be absent. -/
def conditionNeeds (condition : Option Expr) : Multiset Parameter :=
  (condition.map Expr.needs).getD 0

/-- A condition behind its keyword needs what the condition needs. -/
@[simp] theorem tokenNeeds_condition (word : Keyword) (condition : Option Expr) :
    tokenNeeds (conditionTokens word condition) = conditionNeeds condition := by
  cases condition with
  | none => simp [conditionTokens, conditionNeeds]
  | some condition => simp [conditionTokens, conditionNeeds, Expr.needs]

/-- The parameters of the conditions of joins. -/
def joinNeeds (joins : List (Join Expr)) : Multiset Parameter :=
  (joins.map fun join => conditionNeeds join.condition).sum

/-- The tokens of joins need what the joins need. -/
@[simp] theorem tokenNeeds_joins (joins : List (Join Expr)) :
    tokenNeeds (joinTokens joins) = joinNeeds joins := by
  induction joins with
  | nil => simp [joinTokens, joinNeeds]
  | cons join rest ih => simp [joinTokens, joinNeeds, ih]

/-- The parameters of a select list. -/
def selectionNeeds (selections : List (Selection Expr)) : Multiset Parameter :=
  (selections.map fun selection => selection.expr.needs).sum

/-- The tokens of a select list need what its items need. -/
theorem tokenNeeds_selections (selections : List (Selection Expr)) :
    tokenNeeds (separated (selectionTokens selections)) = selectionNeeds selections := by
  rw [tokenNeeds_separated, selectionNeeds]
  congr 1
  induction selections with
  | nil => simp [selectionTokens]
  | cons selection rest ih => simp [selectionTokens, ih, Expr.needs]

/-- The parameters of sort keys. -/
def sortNeeds (order : List (SortKey Expr)) : Multiset Parameter :=
  (order.map fun key => key.expr.needs).sum

/-- The tokens of sort keys need what the keys need. -/
theorem tokenNeeds_order (order : List (SortKey Expr)) :
    tokenNeeds (separated (sortTokens order)) = sortNeeds order := by
  rw [tokenNeeds_separated, sortNeeds]
  congr 1
  induction order with
  | nil => simp [sortTokens]
  | cons key rest ih => simp [sortTokens, ih, Expr.needs]

/-- The needs of a query are those of its select list, its joins, its condition and its sort keys. -/
theorem tokenNeeds_query (query : Query Expr) :
    tokenNeeds query.tokens = selectionNeeds query.selections + joinNeeds query.joins +
      conditionNeeds query.filter + sortNeeds query.order := by
  obtain ⟨distinct, selections, source, joins, filter, order⟩ := query
  have chosen : tokenNeeds (if selectionTokens selections = [] then []
      else space :: separated (selectionTokens selections)) = selectionNeeds selections := by
    rw [← tokenNeeds_selections]
    split
    · rename_i empty
      rw [empty]
      rfl
    · simp
  have sorted : tokenNeeds (if sortTokens order = [] then []
      else spaced .orderBy ++ separated (sortTokens order)) = sortNeeds order := by
    rw [← tokenNeeds_order]
    split
    · rename_i empty
      rw [empty]
      rfl
    · simp
  have leading : tokenNeeds (if distinct then [space, keyword .distinct] else []) = 0 := by
    cases distinct <;> rfl
  cases source <;> simp [Query.tokens, queryTokens, chosen, sorted, leading, add_assoc]

/-- The parameters of the conditions inside a group. -/
def TableGroup.needs (group : TableGroup) : Multiset Parameter :=
  (group.secondary.map fun join => conditionNeeds join.condition).sum

/-- The parameters of the conditions of a join of a group. -/
def GroupJoin.needs (join : GroupJoin) : Multiset Parameter :=
  conditionNeeds join.condition + join.group.needs

/-- The parameters of the conditions of all joins of a space. -/
def TableSpace.needs (space : TableSpace) : Multiset Parameter :=
  space.root.needs + (space.joins.map GroupJoin.needs).sum

/-- Joins in a row need what both parts need. -/
theorem joinNeeds_append (joins later : List (Join Expr)) :
    joinNeeds (joins ++ later) = joinNeeds joins + joinNeeds later := by
  simp [joinNeeds]

/-- The joins of a group need what the group needs. -/
theorem GroupJoin.joinNeeds_toJoins (join : GroupJoin) : joinNeeds join.toJoins = join.needs := by
  obtain ⟨kind, group, condition⟩ := join
  rw [toJoins, joinNeeds, List.map_cons, List.sum_cons, List.map_map]
  congr 3
  funext table
  -- Whether a further table is outer joined does not matter for its condition.
  change conditionNeeds (if kind = .leftOuter then _ else table.toJoin).condition = _
  split <;> rfl

/-- The joins of a space need what the space needs. -/
theorem TableSpace.joinNeeds_toJoins (space : TableSpace) : joinNeeds space.toJoins = space.needs := by
  obtain ⟨root, joins⟩ := space
  rw [toJoins, joinNeeds_append]
  congr 1
  · rw [joinNeeds, List.map_map]
    rfl
  · induction joins with
    | nil => rfl
    | cons join rest ih =>
      rw [List.flatMap_cons, joinNeeds_append, ih, GroupJoin.joinNeeds_toJoins, List.map_cons,
        List.sum_cons]

/-- Every condition of every space is written once. -/
theorem joinNeeds_joins (spaces : List TableSpace) :
    joinNeeds (Select.joins spaces) = (spaces.map TableSpace.needs).sum := by
  have crossed : ∀ rest : List TableSpace, joinNeeds (rest.flatMap fun space =>
      ⟨.cross, space.root.root.toRef, none⟩ :: space.toJoins) = (rest.map TableSpace.needs).sum := by
    intro rest
    induction rest with
    | nil => rfl
    | cons space later ih =>
      have first : joinNeeds (⟨.cross, space.root.root.toRef, none⟩ :: space.toJoins) =
          space.needs := by
        rw [← space.joinNeeds_toJoins]
        simp [joinNeeds, conditionNeeds]
      rw [List.flatMap_cons, joinNeeds_append, ih, first, List.map_cons, List.sum_cons]
  cases spaces with
  | nil => rfl
  | cons first rest =>
    rw [Select.joins, joinNeeds_append, first.joinNeeds_toJoins, crossed, List.map_cons, List.sum_cons]

/-- A query needs what its items, its spaces, its filter and its sort keys need. -/
theorem Select.tokenNeeds_toQuery (select : Select) :
    tokenNeeds select.toQuery.tokens = selectionNeeds select.selections +
      (select.spaces.map TableSpace.needs).sum + conditionNeeds select.filter +
        sortNeeds select.order := by
  rw [tokenNeeds_query, ← joinNeeds_joins]
  rfl

/-- An update needs what its values and its filter need. -/
theorem Update.tokenNeeds_tokens (update : Update) :
    tokenNeeds update.tokens = (update.assignments.map (·.2.needs)).sum +
      conditionNeeds update.filter := by
  simp [Update.tokens, tokenNeeds_separated, Function.comp_def, Expr.needs]

/-- A removal needs what its filter needs. -/
theorem Delete.tokenNeeds_tokens (delete : Delete) :
    tokenNeeds delete.tokens = conditionNeeds delete.filter := by
  simp [Delete.tokens]

end ObjectQuery.Sql

import ObjectQuery.Sql.Statement
/-!
# SQL without the types of its parameters

A placeholder remembers the type of its parameter, and nothing that a database is given depends on
it. `stripped` takes these types off a statement and everything in it. The tokens of what remains are
the stripped tokens, so the text, the kinds of the parameters and their positions are the same.
-/
namespace ObjectQuery

/-- The parameter without its type. -/
def Parameter.stripped (parameter : Parameter) : Parameter := ⟨parameter.kind, none⟩

namespace Sql

open Token

/-- The token without the type of a parameter. -/
def Token.stripped : Token → Token
  | placeholder parameter => placeholder parameter.stripped
  | other => other

mutual

/-- The expression without the types of its parameters. -/
def Expr.stripped : Expr → Expr
  | .column table name => .column table name
  | .literal value => .literal value
  | .parameter parameter => .parameter parameter.stripped
  | .binary op left right => .binary op left.stripped right.stripped
  | .not operand => .not operand.stripped
  | .negate operand => .negate operand.stripped
  | .call name distinct arguments => .call name distinct (strippedList arguments)
  | .inList test values negated => .inList test.stripped (strippedList values) negated
  | .inQuery test query negated => .inQuery test.stripped (strippedQuery query) negated
  | .between operand low high negated =>
    .between operand.stripped low.stripped high.stripped negated
  | .isNull operand negated => .isNull operand.stripped negated
  | .like operand pattern negated => .like operand.stripped pattern.stripped negated
  | .star => .star

/-- The expressions of a list without the types of their parameters. -/
def strippedList : List Expr → List Expr
  | [] => []
  | expr :: rest => expr.stripped :: strippedList rest

/-- The items of a select list without the types of their parameters. -/
def strippedSelections : List (Selection Expr) → List (Selection Expr)
  | [] => []
  | ⟨expr, label⟩ :: rest => ⟨expr.stripped, label⟩ :: strippedSelections rest

/-- A condition that may be absent without the types of its parameters. -/
def strippedCondition : Option Expr → Option Expr
  | none => none
  | some condition => some condition.stripped

/-- The joins of a query without the types of their parameters. -/
def strippedJoins : List (Join Expr) → List (Join Expr)
  | [] => []
  | ⟨kind, table, condition⟩ :: rest => ⟨kind, table, strippedCondition condition⟩ :: strippedJoins rest

/-- The sort keys without the types of their parameters. -/
def strippedOrder : List (SortKey Expr) → List (SortKey Expr)
  | [] => []
  | ⟨expr, order⟩ :: rest => ⟨expr.stripped, order⟩ :: strippedOrder rest

/-- The query without the types of its parameters. -/
def strippedQuery : Query Expr → Query Expr
  | ⟨distinct, selections, source, joins, filter, order⟩ =>
    ⟨distinct, strippedSelections selections, source, strippedJoins joins, strippedCondition filter,
      strippedOrder order⟩

end

attribute [simp] Expr.stripped strippedList strippedSelections strippedCondition strippedJoins
  strippedOrder strippedQuery

/-- The placeholder of a parameter loses the type of the parameter. -/
@[simp] theorem Token.stripped_placeholder (parameter : Parameter) :
    (placeholder parameter).stripped = placeholder parameter.stripped := rfl

/-- All other tokens stay. -/
@[simp] theorem Token.stripped_other {token : Token}
    (other : ∀ parameter, token ≠ placeholder parameter) : token.stripped = token := by
  cases token <;> simp_all [Token.stripped]

/-- A join of a query without the types of its parameters. -/
def Join.stripped (join : Join Expr) : Join Expr :=
  ⟨join.kind, join.table, strippedCondition join.condition⟩

/-- An item of a select list without the types of its parameters. -/
def Selection.stripped (selection : Selection Expr) : Selection Expr :=
  ⟨selection.expr.stripped, selection.label⟩

/-- A sort key without the types of its parameters. -/
def SortKey.stripped (key : SortKey Expr) : SortKey Expr := ⟨key.expr.stripped, key.order⟩

/-- Arguments are stripped one by one. -/
theorem strippedList_eq_map (exprs : List Expr) :
    strippedList exprs = exprs.map Expr.stripped := by
  induction exprs with
  | nil => simp
  | cons expr rest ih => simp [ih]

/-- So are the items of a select list. -/
theorem strippedSelections_eq_map :
    ∀ selections, strippedSelections selections = selections.map Selection.stripped
  | [] => by simp
  | selection :: rest => by simp [Selection.stripped, strippedSelections_eq_map rest]

/-- So are joins. -/
theorem strippedJoins_eq_map : ∀ joins, strippedJoins joins = joins.map Join.stripped
  | [] => by simp
  | join :: rest => by simp [Join.stripped, strippedJoins_eq_map rest]

/-- So are sort keys. -/
theorem strippedOrder_eq_map : ∀ order, strippedOrder order = order.map SortKey.stripped
  | [] => by simp
  | key :: rest => by simp [SortKey.stripped, strippedOrder_eq_map rest]

/-- A condition is stripped if it is there. -/
theorem strippedCondition_eq_map (condition : Option Expr) :
    strippedCondition condition = condition.map Expr.stripped := by
  cases condition <;> simp

/-- Stripped items with commas in between are the stripped list. -/
theorem separated_map_stripped : ∀ items : List (List Token),
    separated (items.map (List.map Token.stripped)) = (separated items).map Token.stripped
  | [] => rfl
  | [item] => by simp [separated]
  | first :: second :: rest => by
    have later := separated_map_stripped (second :: rest)
    simp only [separated, List.map_cons, List.intersperse_cons_cons, List.flatten_cons,
      List.map_append] at later ⊢
    rw [later]
    simp [separator]

/-- Whether an operand needs parentheses does not depend on types. -/
@[simp] theorem needsParens_stripped (parent : BinaryOp) (onRight : Bool) (operand : Expr) :
    needsParens parent onRight operand.stripped = needsParens parent onRight operand := by
  cases operand <;> simp [needsParens]

/-- Nor does whether it is an operation. -/
@[simp] theorem isOperation_stripped (operand : Expr) :
    isOperation operand.stripped = isOperation operand := by
  cases operand <;> simp [isOperation]

/-- Parentheses have no types. -/
theorem parenthesisedIf_map_stripped (needed : Bool) (tokens : List Token) :
    parenthesisedIf needed (tokens.map Token.stripped) =
      (parenthesisedIf needed tokens).map Token.stripped := by
  cases needed <;> simp [parenthesisedIf, parenthesised]

/-- A label has no types. -/
@[simp] theorem stripped_labelTokens (label : Option String) :
    (labelTokens label).map Token.stripped = labelTokens label := by
  cases label <;> simp [labelTokens, spaced]

/-- A negation has no types. -/
@[simp] theorem stripped_negationTokens (negated : Bool) :
    (negationTokens negated).map Token.stripped = negationTokens negated := by
  cases negated <;> simp [negationTokens]

/-- A keyword has no types. -/
@[simp] theorem stripped_spaced (word : Keyword) :
    (spaced word).map Token.stripped = spaced word := by
  simp [spaced]

/-- A table has no types. -/
@[simp] theorem stripped_tableTokens (table : TableRef) :
    table.tokens.map Token.stripped = table.tokens := by
  cases derived : table.derived <;> simp [TableRef.tokens, derived]

/-- A literal has no types. -/
@[simp] theorem stripped_literalToken (value : Literal) :
    (literalToken value).stripped = literalToken value := by
  rcases value with _ | _ | _ | (_ | _) | _ <;> simp [literalToken]

/-- An operator has no types. -/
@[simp] theorem stripped_operatorToken (op : BinaryOp) : op.token.stripped = op.token := by
  rcases op with _ | _ | (_ | _ | _ | _ | _ | _) | (_ | _ | _ | _ | _) <;> simp [BinaryOp.token]

mutual

/-- A stripped expression has the stripped tokens. -/
@[simp] theorem Expr.tokens_stripped :
    ∀ expr : Expr, expr.stripped.tokens = expr.tokens.map Token.stripped
  | .column (some table) name => by simp [Expr.tokens]
  | .column none name => by simp [Expr.tokens]
  | .literal value => by simp [Expr.tokens]
  | .parameter parameter => by simp [Expr.tokens]
  | .binary op left right => by
    simp [Expr.tokens, left.tokens_stripped, right.tokens_stripped, parenthesisedIf_map_stripped]
  | .not operand => by simp [Expr.tokens, operand.tokens_stripped, parenthesisedIf_map_stripped]
  | .negate operand => by simp [Expr.tokens, operand.tokens_stripped, parenthesisedIf_map_stripped]
  | .call name distinct arguments => by
    cases distinct <;>
      simp [Expr.tokens, parenthesised, listTokens_stripped arguments, separated_map_stripped]
  | .inList test [] negated => by simp [Expr.tokens]
  | .inList test (value :: values) negated => by
    have listed := separated_map_stripped (value.tokens :: listTokens values)
    rw [List.map_cons] at listed
    simp [Expr.tokens, parenthesised, test.tokens_stripped, value.tokens_stripped,
      listTokens_stripped values, listed]
  | .inQuery test query negated => by
    simp [Expr.tokens, parenthesised, test.tokens_stripped, queryTokens_stripped query]
  | .between operand low high negated => by
    simp [Expr.tokens, operand.tokens_stripped, low.tokens_stripped, high.tokens_stripped]
  | .isNull operand negated => by simp [Expr.tokens, operand.tokens_stripped]
  | .like operand pattern negated => by
    simp [Expr.tokens, operand.tokens_stripped, pattern.tokens_stripped]
  | .star => by simp [Expr.tokens]

/-- So have stripped arguments. -/
theorem listTokens_stripped : ∀ exprs : List Expr,
    listTokens (strippedList exprs) = (listTokens exprs).map (List.map Token.stripped)
  | [] => by simp [listTokens]
  | expr :: rest => by simp [listTokens, expr.tokens_stripped, listTokens_stripped rest]

/-- So have stripped items of a select list. -/
theorem selectionTokens_stripped : ∀ selections : List (Selection Expr),
    selectionTokens (strippedSelections selections) =
      (selectionTokens selections).map (List.map Token.stripped)
  | [] => by simp [selectionTokens]
  | ⟨expr, label⟩ :: rest => by
    simp [selectionTokens, expr.tokens_stripped, selectionTokens_stripped rest]

/-- So has a stripped condition behind its keyword. -/
theorem conditionTokens_stripped (word : Keyword) : ∀ condition : Option Expr,
    conditionTokens word (strippedCondition condition) =
      (conditionTokens word condition).map Token.stripped
  | none => by simp [conditionTokens]
  | some condition => by simp [conditionTokens, condition.tokens_stripped]

/-- So have stripped joins. -/
theorem joinTokens_stripped : ∀ joins : List (Join Expr),
    joinTokens (strippedJoins joins) = (joinTokens joins).map Token.stripped
  | [] => by simp [joinTokens]
  | ⟨kind, table, condition⟩ :: rest => by
    simp [joinTokens, conditionTokens_stripped .onKw condition, joinTokens_stripped rest]

/-- So have stripped sort keys. -/
theorem sortTokens_stripped : ∀ order : List (SortKey Expr),
    sortTokens (strippedOrder order) = (sortTokens order).map (List.map Token.stripped)
  | [] => by simp [sortTokens]
  | ⟨expr, order⟩ :: rest => by simp [sortTokens, expr.tokens_stripped, sortTokens_stripped rest]

/-- So has a stripped query. -/
theorem queryTokens_stripped : ∀ query : Query Expr,
    queryTokens (strippedQuery query) = (queryTokens query).map Token.stripped
  | ⟨distinct, selections, source, joins, filter, order⟩ => by
    have selected := selectionTokens_stripped selections
    have keys := sortTokens_stripped order
    simp only [strippedQuery, queryTokens, selected, keys, separated_map_stripped,
      joinTokens_stripped joins, conditionTokens_stripped .whereKw filter, List.isEmpty_map]
    cases source <;> cases distinct <;> cases (selectionTokens selections).isEmpty <;>
      cases (sortTokens order).isEmpty <;> simp

end

/-- A joined table without the types of parameters. -/
def TableJoin.stripped (join : TableJoin) : TableJoin :=
  { join with condition := strippedCondition join.condition }

/-- A group of tables without the types of parameters. -/
def TableGroup.stripped (group : TableGroup) : TableGroup :=
  { group with secondary := group.secondary.map TableJoin.stripped }

/-- A joined group without the types of parameters. -/
def GroupJoin.stripped (join : GroupJoin) : GroupJoin :=
  ⟨join.kind, join.group.stripped, strippedCondition join.condition⟩

/-- The tables of an item of a from-clause without the types of parameters. -/
def TableSpace.stripped (space : TableSpace) : TableSpace :=
  ⟨space.root.stripped, space.joins.map GroupJoin.stripped⟩

/-- A query over spaces without the types of its parameters. -/
def Select.stripped (select : Select) : Select where
  distinct := select.distinct
  selections := select.selections.map Selection.stripped
  spaces := select.spaces.map TableSpace.stripped
  filter := strippedCondition select.filter
  order := select.order.map SortKey.stripped

/-- An update without the types of its parameters. -/
def Update.stripped (update : Update) : Update where
  table := update.table
  assignments := update.assignments.map (Prod.map id Expr.stripped)
  filter := strippedCondition update.filter

/-- A delete without the types of its parameters. -/
def Delete.stripped (delete : Delete) : Delete := ⟨delete.table, strippedCondition delete.filter⟩

/-- The statement without the types of its parameters. -/
def Statement.stripped : Statement → Statement
  | select query => .select query.stripped
  | update change => .update change.stripped
  | delete removal => .delete removal.stripped

/-- The join of a stripped further table is the stripped join. -/
theorem TableJoin.toJoin_stripped (join : TableJoin) :
    join.stripped.toJoin = join.toJoin.stripped := rfl

/-- The joins of a stripped group are the stripped joins. -/
theorem GroupJoin.toJoins_stripped (join : GroupJoin) :
    join.stripped.toJoins = join.toJoins.map Join.stripped := by
  by_cases outer : join.kind = .leftOuter
  · simp [GroupJoin.toJoins, GroupJoin.stripped, TableGroup.stripped, outer, Join.stripped,
      TableJoin.toJoin, TableJoin.stripped]
  · simp [GroupJoin.toJoins, GroupJoin.stripped, TableGroup.stripped, outer, Join.stripped,
      TableJoin.toJoin, TableJoin.stripped]

/-- So are those of a stripped space. -/
theorem TableSpace.toJoins_stripped (space : TableSpace) :
    space.stripped.toJoins = space.toJoins.map Join.stripped := by
  simp [TableSpace.toJoins, TableSpace.stripped, TableGroup.stripped, List.map_flatMap,
    List.flatMap_map, GroupJoin.toJoins_stripped, Function.comp_def, TableJoin.toJoin_stripped]

/-- The root table of a space has no types. -/
@[simp] theorem TableSpace.stripped_root_root (space : TableSpace) :
    space.stripped.root.root = space.root.root := rfl

/-- The joins of stripped spaces are the stripped joins. -/
theorem Select.joins_stripped (spaces : List TableSpace) :
    Select.joins (spaces.map TableSpace.stripped) = (Select.joins spaces).map Join.stripped := by
  cases spaces with
  | nil => rfl
  | cons first rest =>
    have crossed : ∀ space : TableSpace, (⟨.cross, space.root.root.toRef, none⟩ : Join Expr).stripped =
        ⟨.cross, space.root.root.toRef, none⟩ := fun _ => rfl
    simp [Select.joins, TableSpace.toJoins_stripped, List.map_flatMap, List.flatMap_map, crossed]

/-- The query of stripped spaces is the stripped query. -/
theorem Select.toQuery_stripped (select : Select) :
    select.stripped.toQuery = strippedQuery select.toQuery := by
  simp [Select.toQuery, Select.stripped, Select.joins_stripped, strippedSelections_eq_map,
    strippedJoins_eq_map, strippedOrder_eq_map, Function.comp_def]

namespace Statement

/-- A stripped statement has the stripped tokens. -/
theorem tokens_stripped (statement : Statement) :
    statement.stripped.tokens = statement.tokens.map Token.stripped := by
  cases statement with
  | select query => simp [stripped, tokens, Select.toQuery_stripped, queryTokens_stripped]
  | update change =>
    have assigned := separated_map_stripped (change.assignments.map fun assigned =>
      identifier assigned.1 :: space :: symbol .eq :: space :: assigned.2.tokens)
    simp only [List.map_map, Function.comp_def, List.map_cons] at assigned
    simpa [stripped, tokens, Update.stripped, Update.tokens, conditionTokens_stripped,
      Function.comp_def] using assigned
  | delete removal =>
    simp [stripped, tokens, Delete.stripped, Delete.tokens, conditionTokens_stripped]

/-- What is supplied to a database: the text, and for each placeholder the kind of its parameter and
its position. -/
def outline (statement : Statement) : String × List (ParameterKind × Nat) :=
  (statement.text, statement.plan.binders.map fun binder => (binder.parameter, binder.position))

/-- Types do not show in the text of a statement. -/
theorem text_stripped (statement : Statement) : statement.stripped.text = statement.text := by
  have same : ∀ token : Token, token.stripped.text = token.text := by
    intro token
    cases token <;> simp [Token.text]
  simp [text, render, tokens_stripped, same, Function.comp_def]

/-- The parameters of a stripped statement are those of the statement without their types. -/
theorem parameters_stripped (statement : Statement) :
    parameters statement.stripped.tokens =
      (parameters statement.tokens).map Parameter.stripped := by
  have same : ∀ token : Token, token.stripped.parameter? = token.parameter?.map Parameter.stripped := by
    intro token
    cases token <;> simp [Token.parameter?]
  rw [parameters, parameters, tokens_stripped, List.filterMap_map, List.map_filterMap]
  exact congrArg (List.filterMap · statement.tokens) (funext same)

/-- The types of parameters are no part of what is supplied. -/
theorem outline_stripped (statement : Statement) :
    statement.stripped.outline = statement.outline := by
  simp [outline, plan, text_stripped, parameters_stripped, Parameter.stripped, List.zipIdx_map,
    Function.comp_def]

end Statement
end Sql
end ObjectQuery

import ObjectQuery.Proofs.Sql.TokenPieces
import ObjectQuery.Sql.Statement
/-!
# Tokens next to one another in a statement

Nearly everywhere in the tokens of a statement there is a space, a comma or a parenthesis between two
parts. The exceptions are qualified names and the minus sign of a negation, which stands directly in
front of its operand. So a relation that breaks and qualified names satisfy holds between any two
neighbours exactly if it holds between a minus sign and the first token of every negated operand.
-/
namespace ObjectQuery.Sql

open Token

mutual

/-- The operands of all negations in an expression, as far as it is written. -/
def Expr.negated : Expr → List Expr
  | .column _ _ | .literal _ | .parameter _ | .star => []
  | .binary _ left right => left.negated ++ right.negated
  | .not operand | .isNull operand _ => operand.negated
  | .negate operand => operand :: operand.negated
  | .call _ _ arguments => listNegated arguments
  | .inList _ [] _ => []
  | .inList test (value :: values) _ => test.negated ++ (value.negated ++ listNegated values)
  | .inQuery test query _ => test.negated ++ queryNegated query
  | .between operand low high _ => operand.negated ++ low.negated ++ high.negated
  | .like operand pattern _ => operand.negated ++ pattern.negated

/-- The operands of negations in expressions. -/
def listNegated : List Expr → List Expr
  | [] => []
  | expr :: rest => expr.negated ++ listNegated rest

/-- The operands of negations in a select list. -/
def selectionNegated : List (Selection Expr) → List Expr
  | [] => []
  | ⟨expr, _⟩ :: rest => expr.negated ++ selectionNegated rest

/-- The operands of negations in a condition. -/
def conditionNegated : Option Expr → List Expr
  | none => []
  | some condition => condition.negated

/-- The operands of negations in the conditions of joins. -/
def joinNegated : List (Join Expr) → List Expr
  | [] => []
  | ⟨_, _, condition⟩ :: rest => conditionNegated condition ++ joinNegated rest

/-- The operands of negations in sort keys. -/
def sortNegated : List (SortKey Expr) → List Expr
  | [] => []
  | ⟨expr, _⟩ :: rest => expr.negated ++ sortNegated rest

/-- The operands of negations in a query. -/
def queryNegated : Query Expr → List Expr
  | ⟨_, selections, _, joins, filter, order⟩ =>
    selectionNegated selections ++ joinNegated joins ++ conditionNegated filter ++ sortNegated order

end

/-- The operands of all negations in a statement. -/
def Statement.negated : Statement → List Expr
  | .select given => queryNegated given.toQuery
  | .update change => change.assignments.flatMap (·.2.negated) ++ conditionNegated change.filter
  | .delete removal => conditionNegated removal.filter

/-- Whether the text of the expression begins with a minus sign. -/
def Expr.beginsWithMinus : Expr → Bool
  | .negate _ => true
  | .literal value => (literalToken value).beginsWithMinus
  | .binary op left _ => !needsParens op false left && left.beginsWithMinus
  | .inList test (_ :: _) _ | .inQuery test _ _ => test.beginsWithMinus
  | .between operand _ _ _ | .isNull operand _ | .like operand _ _ => operand.beginsWithMinus
  | .column _ _ | .parameter _ | .not _ | .call _ _ _ | .inList _ [] _ | .star => false

/-- Whether the minus sign of a negation meets another one when the expression is negated. Operations
are negated in parentheses. -/
def Expr.meetsMinus (operand : Expr) : Bool := !isOperation operand && operand.beginsWithMinus

/-! ## Chains of tokens -/

/-- The relation holds where one of the tokens is a break and within a qualified name. -/
structure Tolerant (allowed : Token → Token → Prop) : Prop where
  before : ∀ token next : Token, next.isBreak = true → allowed token next
  after : ∀ token next : Token, token.isBreak = true → allowed token next
  dot : ∀ table : String, allowed (identifier table) (symbol .dot)
  qualified : ∀ column : String, allowed (symbol .dot) (identifier column)

/-- The tokens begin with a break, if there are any. -/
def BreaksOff (tokens : List Token) : Prop := ∀ token ∈ tokens.head?, token.isBreak = true

variable {allowed : Token → Token → Prop} {first second : List Token}

/-- A text that breaks off may be followed by any that is fine itself. -/
theorem chain_before (tolerant : Tolerant allowed) (breaks : BreaksOff second) :
    (first ++ second).IsChain allowed ↔ first.IsChain allowed ∧ second.IsChain allowed := by
  rw [List.isChain_append]
  constructor
  · rintro ⟨chainFirst, chainSecond, _⟩
    exact ⟨chainFirst, chainSecond⟩
  · rintro ⟨chainFirst, chainSecond⟩
    refine ⟨chainFirst, chainSecond, ?_⟩
    intro token _ next isNext
    exact tolerant.before token next (breaks next isNext)

/-- A token that breaks may stand before anything. -/
theorem chain_break (tolerant : Tolerant allowed) {token : Token} (isBreak : token.isBreak = true) :
    (token :: second).IsChain allowed ↔ second.IsChain allowed := by
  rw [List.isChain_cons]
  constructor
  · exact And.right
  · intro chain
    exact ⟨fun next _ => tolerant.after token next isBreak, chain⟩

/-- Spaces on both sides of a token separate what is before it from what is after it. -/
theorem chain_spaced (tolerant : Tolerant allowed) {token : Token} :
    (first ++ [space, token, space] ++ second).IsChain allowed ↔
      first.IsChain allowed ∧ second.IsChain allowed := by
  have last : (space :: second).IsChain allowed ↔ second.IsChain allowed := chain_break tolerant rfl
  have after : (space :: ([token] ++ space :: second)).IsChain allowed ↔
      second.IsChain allowed := by
    rw [chain_break tolerant rfl, chain_before tolerant (by rintro _ ⟨⟩; rfl), last]
    simp
  rw [List.append_assoc, chain_before tolerant (by rintro _ ⟨⟩; rfl)]
  exact and_congr_right fun _ => after

/-- A word at the beginning, before a space. -/
theorem chain_lead (tolerant : Tolerant allowed) {token : Token} :
    (token :: space :: second).IsChain allowed ↔ second.IsChain allowed := by
  have rest : (space :: second).IsChain allowed ↔ second.IsChain allowed := chain_break tolerant rfl
  change ([token] ++ space :: second).IsChain allowed ↔ _
  rw [chain_before tolerant (by rintro _ ⟨⟩; rfl), rest]
  simp

/-- A word at the end, after a space. -/
theorem chain_suffix (tolerant : Tolerant allowed) {token : Token} :
    (first ++ [space, token]).IsChain allowed ↔ first.IsChain allowed := by
  rw [chain_before tolerant (by rintro _ ⟨⟩; rfl), chain_break tolerant rfl]
  simp

/-- Parentheses bring nothing together. -/
theorem chain_parenthesised (tolerant : Tolerant allowed) :
    (parenthesised first).IsChain allowed ↔ first.IsChain allowed := by
  rw [parenthesised, List.cons_append, chain_break tolerant rfl,
    chain_before tolerant (by rintro _ ⟨⟩; rfl)]
  simp

/-- A name before parentheses brings nothing together. -/
theorem chain_called (tolerant : Tolerant allowed) {token : Token} :
    (token :: parenthesised first).IsChain allowed ↔ first.IsChain allowed := by
  change ([token] ++ parenthesised first).IsChain allowed ↔ _
  rw [chain_before tolerant (by rintro _ ⟨⟩; rfl), chain_parenthesised tolerant]
  simp

/-- Parentheses where they are needed bring nothing together. -/
theorem chain_parenthesisedIf (tolerant : Tolerant allowed) (needed : Bool) :
    (parenthesisedIf needed first).IsChain allowed ↔ first.IsChain allowed := by
  cases needed with
  | true => exact chain_parenthesised tolerant
  | false => rfl

/-- The `not` of a condition brings nothing together. -/
theorem chain_negation (tolerant : Tolerant allowed) (negated : Bool) :
    (first ++ negationTokens negated).IsChain allowed ↔ first.IsChain allowed := by
  cases negated with
  | false => simp [negationTokens]
  | true =>
    exact chain_suffix tolerant

/-- Commas keep texts apart. -/
theorem chain_separated (tolerant : Tolerant allowed) : ∀ {items : List (List Token)},
    (separated items).IsChain allowed ↔ ∀ item ∈ items, item.IsChain allowed
  | [] => by simp [separated]
  | [item] => by simp [separated]
  | item :: second :: rest => by
    have split : separated (item :: second :: rest) =
        item ++ (symbol .comma :: space :: separated (second :: rest)) := by
      simp [separated, separator]
    rw [split, chain_before tolerant (by rintro _ ⟨⟩; rfl), chain_break tolerant rfl,
      chain_break tolerant rfl, chain_separated tolerant, List.forall_mem_cons (a := item)]

/-- A space and items, if there are any. -/
theorem chain_items (tolerant : Tolerant allowed) {items : List (List Token)} :
    (if items.isEmpty then [] else space :: separated items).IsChain allowed ↔
      ∀ item ∈ items, item.IsChain allowed := by
  cases items with
  | nil => simp
  | cons item rest =>
    change (space :: separated (item :: rest)).IsChain allowed ↔ _
    rw [chain_break tolerant rfl, chain_separated tolerant]

/-- A word and items, if there are any. -/
theorem chain_wordItems (tolerant : Tolerant allowed) {word : Keyword} {items : List (List Token)} :
    (if items.isEmpty then [] else spaced word ++ separated items).IsChain allowed ↔
      ∀ item ∈ items, item.IsChain allowed := by
  cases items with
  | nil => simp
  | cons item rest =>
    change ([] ++ [space, keyword word, space] ++ separated (item :: rest)).IsChain allowed ↔ _
    rw [chain_spaced tolerant, chain_separated tolerant]
    simp

/-- A condition behind its keyword breaks off. -/
theorem breaksOff_condition (word : Keyword) (condition : Option Expr) :
    BreaksOff (conditionTokens word condition) := by
  cases condition with
  | none =>
    rw [conditionTokens]
    rintro _ ⟨⟩
  | some condition =>
    rw [conditionTokens]
    rintro _ ⟨⟩
    rfl

/-- Joins break off. -/
theorem breaksOff_joins (joins : List (Join Expr)) : BreaksOff (joinTokens joins) := by
  cases joins with
  | nil =>
    rw [joinTokens]
    rintro _ ⟨⟩
  | cons join rest =>
    rw [joinTokens]
    rintro _ ⟨⟩
    rfl

/-- A label brings nothing together. -/
theorem chain_label (tolerant : Tolerant allowed) (label : Option String) :
    (first ++ labelTokens label).IsChain allowed ↔ first.IsChain allowed := by
  cases label with
  | none => simp [labelTokens]
  | some label =>
    change (first ++ ([space, keyword .asKw, space] ++ [identifier label])).IsChain allowed ↔ _
    rw [← List.append_assoc, chain_spaced tolerant]
    simp

/-- A table is fine by itself. -/
theorem chain_table (tolerant : Tolerant allowed) (table : TableRef) :
    table.tokens.IsChain allowed := by
  have single : ∀ token, ([token] ++ labelTokens table.label).IsChain allowed := by
    intro token
    rw [chain_label tolerant]
    simp
  exact single _

/-- The table after `from`. -/
def sourceTokens : Option TableRef → List Token
  | some table => spaced .fromKw ++ table.tokens
  | none => []

/-- The source of a query is fine by itself. -/
theorem chain_source (tolerant : Tolerant allowed) (source : Option TableRef) :
    (sourceTokens source).IsChain allowed := by
  cases source with
  | none => simp [sourceTokens]
  | some table =>
    change ([] ++ [space, keyword .fromKw, space] ++ table.tokens).IsChain allowed
    rw [chain_spaced tolerant]
    exact ⟨by simp, chain_table tolerant table⟩

/-- The parts of a query, each of which begins with a space. -/
theorem queryTokens_parts (distinct : Bool) (selections : List (Selection Expr))
    (source : Option TableRef) (joins : List (Join Expr)) (filter : Option Expr)
    (order : List (SortKey Expr)) :
    queryTokens ⟨distinct, selections, source, joins, filter, order⟩ =
      (keyword .select :: if distinct then [space, keyword .distinct] else []) ++
        (if (selectionTokens selections).isEmpty then [] else
          space :: separated (selectionTokens selections)) ++
        sourceTokens source ++ joinTokens joins ++ conditionTokens .whereKw filter ++
        (if (sortTokens order).isEmpty then [] else
          spaced .orderBy ++ separated (sortTokens order)) := by
  simp only [queryTokens]
  cases source <;> rfl

/-- The relation holds between a minus sign and the operand behind it. -/
def Behind (allowed : Token → Token → Prop) (operand : Expr) : Prop :=
  ∀ token ∈ (parenthesisedIf (isOperation operand) operand.tokens).head?,
    allowed (symbol .minus) token

mutual

/-- Neighbours in the tokens of an expression are related exactly if each minus sign is related to
what it negates.

Proof: by recursion over the expression. Nearly all tokens stand next to a space or a sign that
breaks what is before it; only a minus sign stands right before its operand. -/
theorem chain_expr (tolerant : Tolerant allowed) : ∀ expr : Expr,
    expr.tokens.IsChain allowed ↔ ∀ operand ∈ expr.negated, Behind allowed operand
  | .column (some table) column => by
    simp [Expr.tokens, Expr.negated, tolerant.dot, tolerant.qualified]
  | .column none _ | .literal _ | .parameter _ | .star => by
    simp [Expr.tokens, Expr.negated]
  | .binary op left right => by
    rw [Expr.tokens, Expr.negated, chain_spaced tolerant, chain_parenthesisedIf tolerant,
      chain_parenthesisedIf tolerant, chain_expr tolerant left, chain_expr tolerant right,
      List.forall_mem_append]
  | .not operand => by
    rw [Expr.tokens, Expr.negated, chain_lead tolerant, chain_parenthesisedIf tolerant,
      chain_expr tolerant operand]
  | .negate operand => by
    rw [Expr.tokens, Expr.negated, List.isChain_cons, chain_parenthesisedIf tolerant,
      chain_expr tolerant operand, List.forall_mem_cons]
    rfl
  | .call callee distinct arguments => by
    have listed : (separated (listTokens arguments)).IsChain allowed ↔ _ :=
      chain_separated tolerant
    rw [Expr.tokens, Expr.negated, chain_called tolerant, ← chain_list tolerant arguments, ← listed]
    cases distinct with
    | true => exact chain_lead tolerant
    | false => rfl
  | .inList _ [] _ => by
    simp [Expr.tokens, Expr.negated]
  | .inList test (value :: values) negated => by
    rw [Expr.tokens, Expr.negated, spaced, chain_spaced tolerant, chain_negation tolerant,
      chain_parenthesised tolerant, chain_separated tolerant, List.forall_mem_cons,
      chain_expr tolerant test, chain_expr tolerant value, chain_list tolerant values,
      List.forall_mem_append, List.forall_mem_append]
  | .inQuery test query negated => by
    rw [Expr.tokens, Expr.negated, spaced, chain_spaced tolerant, chain_negation tolerant,
      chain_parenthesised tolerant, chain_expr tolerant test, chain_query tolerant query,
      List.forall_mem_append]
  | .between operand low high negated => by
    rw [Expr.tokens, Expr.negated, spaced, spaced, chain_spaced tolerant, chain_spaced tolerant,
      chain_negation tolerant, chain_expr tolerant operand, chain_expr tolerant low,
      chain_expr tolerant high, List.forall_mem_append, List.forall_mem_append]
  | .isNull operand negated => by
    rw [Expr.tokens, Expr.negated, chain_suffix tolerant, chain_expr tolerant operand]
  | .like operand pattern negated => by
    rw [Expr.tokens, Expr.negated, spaced, chain_spaced tolerant, chain_negation tolerant,
      chain_expr tolerant operand, chain_expr tolerant pattern, List.forall_mem_append]

/-- In a list only what its negations stand before matters. -/
theorem chain_list (tolerant : Tolerant allowed) : ∀ exprs : List Expr,
    (∀ item ∈ listTokens exprs, item.IsChain allowed) ↔
      ∀ operand ∈ listNegated exprs, Behind allowed operand
  | [] => by simp [listTokens, listNegated]
  | expr :: rest => by
    rw [listTokens, listNegated, List.forall_mem_cons, List.forall_mem_append,
      chain_expr tolerant expr, chain_list tolerant rest]

/-- In selections only what their negations stand before matters. -/
theorem chain_selections (tolerant : Tolerant allowed) : ∀ selections : List (Selection Expr),
    (∀ item ∈ selectionTokens selections, item.IsChain allowed) ↔
      ∀ operand ∈ selectionNegated selections, Behind allowed operand
  | [] => by simp [selectionTokens, selectionNegated]
  | ⟨expr, label⟩ :: rest => by
    rw [selectionTokens, selectionNegated, List.forall_mem_cons, List.forall_mem_append,
      chain_label tolerant, chain_expr tolerant expr, chain_selections tolerant rest]

/-- In a condition only what its negations stand before matters. -/
theorem chain_condition (tolerant : Tolerant allowed) (word : Keyword) :
    ∀ condition : Option Expr, (conditionTokens word condition).IsChain allowed ↔
      ∀ operand ∈ conditionNegated condition, Behind allowed operand
  | none => by simp [conditionTokens, conditionNegated]
  | some condition => by
    have split : conditionTokens word (some condition) =
        [] ++ [space, keyword word, space] ++ condition.tokens := by
      rw [conditionTokens]
      rfl
    rw [split, conditionNegated, chain_spaced tolerant, chain_expr tolerant condition]
    simp

/-- In joins only what their negations stand before matters. -/
theorem chain_joins (tolerant : Tolerant allowed) : ∀ joins : List (Join Expr),
    (joinTokens joins).IsChain allowed ↔ ∀ operand ∈ joinNegated joins, Behind allowed operand
  | [] => by simp [joinTokens, joinNegated]
  | ⟨kind, table, condition⟩ :: rest => by
    rw [joinTokens, joinNegated, chain_before tolerant (breaksOff_joins rest),
      chain_before tolerant (breaksOff_condition .onKw condition), List.forall_mem_append,
      chain_condition tolerant .onKw condition, chain_joins tolerant rest]
    have named : ([space, keyword (joinWord kind), space, keyword .join, space] ++
        table.tokens).IsChain allowed := by
      change (space :: keyword _ :: space :: keyword _ :: space :: table.tokens).IsChain allowed
      rw [chain_break tolerant rfl, chain_lead tolerant, chain_lead tolerant]
      exact chain_table tolerant table
    exact and_congr_left fun _ => and_iff_right named

/-- In sort keys only what their negations stand before matters. -/
theorem chain_keys (tolerant : Tolerant allowed) : ∀ keys : List (SortKey Expr),
    (∀ item ∈ sortTokens keys, item.IsChain allowed) ↔
      ∀ operand ∈ sortNegated keys, Behind allowed operand
  | [] => by simp [sortTokens, sortNegated]
  | ⟨expr, order⟩ :: rest => by
    rw [sortTokens, sortNegated, List.forall_mem_cons, List.forall_mem_append,
      chain_suffix tolerant, chain_expr tolerant expr, chain_keys tolerant rest]

/-- In a query only what its negations stand before matters. -/
theorem chain_query (tolerant : Tolerant allowed) : ∀ query : Query Expr,
    (queryTokens query).IsChain allowed ↔ ∀ operand ∈ queryNegated query, Behind allowed operand
  | ⟨distinct, selections, source, joins, filter, order⟩ => by
    rw [queryTokens_parts, queryNegated]
    have begun : (keyword .select :: if distinct then [space, keyword .distinct] else []).IsChain
        allowed := by
      cases distinct with
      | true =>
        rw [if_pos rfl, chain_lead tolerant]
        simp
      | false => simp
    have itemsBreak : BreaksOff (if (selectionTokens selections).isEmpty then [] else
        space :: separated (selectionTokens selections)) := by
      split <;> rintro _ ⟨⟩
      rfl
    have sourceBreak : BreaksOff (sourceTokens source) := by
      cases source <;> rintro _ ⟨⟩
      rfl
    have keysBreak : BreaksOff (if (sortTokens order).isEmpty then [] else
        spaced .orderBy ++ separated (sortTokens order)) := by
      split <;> rintro _ ⟨⟩
      rfl
    rw [chain_before tolerant keysBreak, chain_before tolerant (breaksOff_condition .whereKw filter),
      chain_before tolerant (breaksOff_joins joins), chain_before tolerant sourceBreak,
      chain_before tolerant itemsBreak, chain_items tolerant, chain_wordItems tolerant,
      chain_condition tolerant .whereKw filter, chain_joins tolerant joins,
      chain_selections tolerant selections, chain_keys tolerant order,
      and_iff_right begun, and_iff_left (chain_source tolerant source), List.forall_mem_append,
      List.forall_mem_append, List.forall_mem_append]

end

/-- Neighbours in the tokens of a statement are related exactly if each minus sign is related to what
it negates. -/
theorem chain_statement (tolerant : Tolerant allowed) (statement : Statement) :
    statement.tokens.IsChain allowed ↔ ∀ operand ∈ statement.negated, Behind allowed operand := by
  cases statement with
  | select given => exact chain_query tolerant given.toQuery
  | update change =>
    have target : [keyword .update, space, identifier change.table].IsChain allowed := by
      rw [chain_lead tolerant]
      simp
    have single (column : String) (value : Expr) :
        ([identifier column, space, symbol .eq, space] ++ value.tokens).IsChain allowed ↔
          ∀ operand ∈ value.negated, Behind allowed operand := by
      change (identifier column :: space :: symbol .eq :: space :: value.tokens).IsChain allowed ↔ _
      rw [chain_lead tolerant, chain_lead tolerant, chain_expr tolerant value]
    change (_ ++ [space, keyword .setKw, space] ++ _ ++ _).IsChain allowed ↔ _
    rw [chain_before tolerant (breaksOff_condition .whereKw change.filter), chain_spaced tolerant,
      chain_separated tolerant, chain_condition tolerant .whereKw change.filter,
      and_iff_right target, Statement.negated, List.forall_mem_append, List.forall_mem_map,
      List.forall_mem_flatMap]
    exact and_congr_left fun _ => forall₂_congr fun assignment _ => single assignment.1 assignment.2
  | delete removal =>
    have target : [keyword .deleteFrom, space, identifier removal.table].IsChain allowed := by
      rw [chain_lead tolerant]
      simp
    change (_ ++ conditionTokens .whereKw removal.filter).IsChain allowed ↔ _
    rw [chain_before tolerant (breaksOff_condition .whereKw removal.filter),
      chain_condition tolerant .whereKw removal.filter, and_iff_right target, Statement.negated]

/-! ## The beginning of an expression -/

/-- The first token of an expression is one that an expression can begin with, and it begins with a
minus sign if the expression does. -/
theorem head_tokens : ∀ expr : Expr, ∃ token, expr.tokens.head? = some token ∧
    token.beginsOperand = true ∧ token.beginsWithMinus = expr.beginsWithMinus
  | .column (some table) column => ⟨identifier table, by simp [Expr.tokens], rfl, rfl⟩
  | .column none column => ⟨identifier column, by simp [Expr.tokens], rfl, rfl⟩
  | .literal value => by
    refine ⟨literalToken value, by simp [Expr.tokens], ?_, rfl⟩
    cases value with
    | boolean given => cases given <;> rfl
    | _ => rfl
  | .parameter parameter => ⟨placeholder parameter, by simp [Expr.tokens], rfl, rfl⟩
  | .binary op left right => by
    obtain ⟨token, first, begins, sign⟩ := head_tokens left
    by_cases needed : needsParens op false left = true
    · refine ⟨symbol .leftParen, ?_, rfl, ?_⟩
      · simp [Expr.tokens, needed, parenthesisedIf, parenthesised]
      · simp [Expr.beginsWithMinus, needed, Token.beginsWithMinus]
    · rw [Bool.not_eq_true] at needed
      refine ⟨token, ?_, begins, ?_⟩
      · simp [Expr.tokens, needed, parenthesisedIf, first]
      · simp [Expr.beginsWithMinus, needed, sign]
  | .not operand => ⟨keyword .notKw, by simp [Expr.tokens], rfl, rfl⟩
  | .negate operand => ⟨symbol .minus, by simp [Expr.tokens], rfl, rfl⟩
  | .call callee distinct arguments => ⟨function callee, by simp [Expr.tokens], rfl, rfl⟩
  | .inList test [] negated => ⟨keyword _, by rw [Expr.tokens]; rfl, rfl, rfl⟩
  | .inList operand (_ :: _) _ | .inQuery operand _ _ | .between operand _ _ _ | .isNull operand _
  | .like operand _ _ => by
    obtain ⟨token, first, begins, sign⟩ := head_tokens operand
    exact ⟨token, by simp [Expr.tokens, first], begins, sign⟩
  | .star => ⟨symbol .star, by simp [Expr.tokens], rfl, rfl⟩

/-- Whether a relation holds behind a minus sign depends on one token. -/
theorem behind_iff (operand : Expr) : ∃ token : Token, token.beginsOperand = true ∧
    token.beginsWithMinus = operand.meetsMinus ∧
      ∀ allowed : Token → Token → Prop, Behind allowed operand ↔ allowed (symbol .minus) token := by
  obtain ⟨token, first, begins, sign⟩ := head_tokens operand
  by_cases operation : isOperation operand = true
  · refine ⟨symbol .leftParen, rfl, ?_, ?_⟩
    · simp [Expr.meetsMinus, operation, Token.beginsWithMinus]
    · intro allowed
      simp [Behind, operation, parenthesisedIf, parenthesised]
  · rw [Bool.not_eq_true] at operation
    refine ⟨token, begins, ?_, ?_⟩
    · simp [Expr.meetsMinus, operation, sign]
    · intro allowed
      simp [Behind, operation, parenthesisedIf, first]

/-- Tokens that may abut tolerate whatever breaks. -/
theorem tolerant_abuts : Tolerant Abuts where
  before token next isBreak := by
    unfold Abuts
    split
    · trivial
    · trivial
    · exact Or.inr isBreak
    · exact Or.inr isBreak
  after token next isBreak := by
    unfold Abuts
    split
    · trivial
    · trivial
    · cases isBreak
    · exact Or.inl isBreak
  dot _ := trivial
  qualified _ := trivial

/-- Tokens that stay apart tolerate whatever breaks. -/
theorem tolerant_apart : Tolerant Apart where
  before token next isBreak := by
    intro _
    unfold Token.isBreak at isBreak
    split at isBreak
    · rfl
    · rfl
    · rfl
    · rfl
    · cases isBreak
  after token next isBreak := by
    rintro rfl
    cases isBreak
  dot _ := by rintro ⟨⟩
  qualified _ := by rintro ⟨⟩

/-- The text of a statement of plain tokens says what they say exactly if no minus sign is written
directly in front of another one. -/
theorem Statement.saysItsTokens_iff (statement : Statement)
    (plain : ∀ token ∈ statement.tokens, token.isPlain = true) :
    SaysItsTokens statement.tokens ↔
      ∀ operand ∈ statement.negated, operand.meetsMinus = false := by
  have abuts : statement.tokens.IsChain Abuts := by
    rw [chain_statement tolerant_abuts]
    intro operand _
    obtain ⟨token, begins, _, behind⟩ := behind_iff operand
    exact (behind Abuts).mpr (Or.inl begins)
  rw [Token.saysItsTokens_iff plain abuts, chain_statement tolerant_apart]
  have apart (operand : Expr) : Behind Apart operand ↔ operand.meetsMinus = false := by
    obtain ⟨token, _, sign, behind⟩ := behind_iff operand
    rw [behind Apart, ← sign]
    exact ⟨fun apart => apart rfl, fun positive _ => positive⟩
  exact forall₂_congr fun operand _ => apart operand

end ObjectQuery.Sql

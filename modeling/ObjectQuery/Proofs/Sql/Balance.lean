import ObjectQuery.Proofs.Sql.ReaderRules
/-!
# Parentheses are balanced

In the tokens of an expression or a query, every parenthesis that opens is closed. A sub-select can
therefore be told from what follows it by counting parentheses, without reading it.
-/
namespace ObjectQuery.Sql

/-- The tokens are balanced without their spaces. -/
def Closes (tokens : List Token) : Prop := Balanced (bare tokens)

variable {tokens more : List Token} {token : Token}

/-- No tokens at all are closed. -/
theorem closes_nil : Closes [] := balanced_nil

/-- Closed texts one behind the other are closed. -/
theorem Closes.append (first : Closes tokens) (second : Closes more) : Closes (tokens ++ more) := by
  rw [Closes, bare_append]
  exact Balanced.append first second

/-- Whether the token is a parenthesis. -/
def isParen : Token → Bool
  | .symbol .leftParen | .symbol .rightParen => true
  | _ => false

/-- A token that is no parenthesis keeps a text closed. -/
theorem Closes.cons (plain : isParen token = false) (closed : Closes tokens) :
    Closes (token :: tokens) := by
  by_cases space : token = .space
  · subst space
    exact closed
  · rw [Closes, bare_cons space]
    have single : Balanced [token] := by
      refine balanced_token ?_ ?_
      · rintro rfl
        cases plain
      · rintro rfl
        cases plain
    exact single.append closed

/-- A keyword between spaces is closed. -/
theorem closes_word {word : Keyword} : Closes (Token.spaced word) :=
  .cons rfl (.cons rfl (.cons rfl closes_nil))

/-- A closed text in parentheses is closed. -/
theorem Closes.parenthesised (closed : Closes tokens) : Closes (Token.parenthesised tokens) := by
  rw [Closes, bare_parenthesised]
  exact Balanced.parenthesised closed

/-- Parentheses where they are needed keep a text closed. -/
theorem Closes.parenthesisedIf (closed : Closes tokens) (needed : Bool) :
    Closes (parenthesisedIf needed tokens) := by
  cases needed with
  | true => exact closed.parenthesised
  | false => exact closed

/-- Closed texts between commas are closed. -/
theorem closes_separated : ∀ {items : List (List Token)}, (∀ item ∈ items, Closes item) →
    Closes (Token.separated items)
  | [], _ => closes_nil
  | [only], closed => by
    rw [Closes, bare_separated_one]
    exact closed only (by simp)
  | first :: second :: rest, closed => by
    obtain ⟨closedFirst, closedRest⟩ := List.forall_mem_cons.mp closed
    have further := closes_separated closedRest
    rw [Closes, bare_separated_cons]
    have comma : Balanced [.symbol .comma] := balanced_token (by simp) (by simp)
    exact Balanced.append closedFirst (comma.append further)

/-- The `not` of a condition is closed. -/
theorem closes_negation (negated : Bool) : Closes (negationTokens negated) := by
  cases negated with
  | true => exact .cons rfl (.cons rfl closes_nil)
  | false => exact closes_nil

/-- An operator between spaces is closed. -/
theorem closes_op (op : BinaryOp) : Closes [.space, op.token, .space] := by
  refine .cons rfl (.cons ?_ (.cons rfl closes_nil))
  cases op with
  | arithmetic op => cases op <;> rfl
  | comparison op => cases op <;> rfl
  | _ => rfl

/-- A label is closed. -/
theorem closes_label (label : Option String) : Closes (labelTokens label) := by
  cases label with
  | none => exact closes_nil
  | some label => exact closes_word.append (.cons rfl closes_nil)

/-- A table is closed. -/
theorem closes_table (table : TableRef) : Closes table.tokens := by
  unfold TableRef.tokens
  refine .cons ?_ (closes_label table.label)
  split <;> rfl

/-- A literal is closed. -/
theorem closes_literal (value : Literal) : Closes [literalToken value] := by
  refine .cons ?_ closes_nil
  cases value with
  | boolean given => cases given <;> rfl
  | _ => rfl

mutual

/-- Every expression closes its parentheses.

Proof: by recursion over the expression. Whatever is put in parentheses closes by itself. -/
theorem closes_expr : ∀ expr : Expr, Closes expr.tokens
  | .column (some _) _ => by
    simp only [Expr.tokens]
    exact .cons rfl (.cons rfl (.cons rfl closes_nil))
  | .column none _ | .parameter _ | .star => by
    simp only [Expr.tokens]
    exact .cons rfl closes_nil
  | .literal value => by
    simp only [Expr.tokens]
    exact closes_literal value
  | .binary op left right => by
    simp only [Expr.tokens]
    exact (((closes_expr left).parenthesisedIf _).append (closes_op op)).append
      ((closes_expr right).parenthesisedIf _)
  | .not operand => by
    simp only [Expr.tokens]
    exact .cons rfl (.cons rfl ((closes_expr operand).parenthesisedIf _))
  | .negate operand => by
    simp only [Expr.tokens]
    exact .cons rfl ((closes_expr operand).parenthesisedIf _)
  | .call _ distinct arguments => by
    simp only [Expr.tokens]
    refine .cons rfl (Closes.parenthesised (Closes.append ?_ (closes_separated (closes_list arguments))))
    cases distinct with
    | true => exact .cons rfl (.cons rfl closes_nil)
    | false => exact closes_nil
  | .inList _ [] _ => by
    simp only [Expr.tokens]
    exact .cons rfl closes_nil
  | .inList test (value :: values) negated => by
    simp only [Expr.tokens]
    refine (((closes_expr test).append (closes_negation negated)).append closes_word).append
      (Closes.parenthesised (closes_separated ?_))
    exact List.forall_mem_cons.mpr ⟨closes_expr value, closes_list values⟩
  | .inQuery test query negated => by
    simp only [Expr.tokens]
    exact (((closes_expr test).append (closes_negation negated)).append closes_word).append
      (closes_query query).parenthesised
  | .between operand low high negated => by
    simp only [Expr.tokens]
    exact (((((closes_expr operand).append (closes_negation negated)).append closes_word).append
      (closes_expr low)).append closes_word).append (closes_expr high)
  | .isNull operand _ => by
    simp only [Expr.tokens]
    exact (closes_expr operand).append (.cons rfl (.cons rfl closes_nil))
  | .like operand pattern negated => by
    simp only [Expr.tokens]
    exact (((closes_expr operand).append (closes_negation negated)).append closes_word).append
      (closes_expr pattern)

/-- Every value of a list closes its parentheses. -/
theorem closes_list : ∀ exprs : List Expr, ∀ item ∈ listTokens exprs, Closes item
  | [] => by simp [listTokens]
  | expr :: rest => by
    simp only [listTokens]
    exact List.forall_mem_cons.mpr ⟨closes_expr expr, closes_list rest⟩

/-- Every selection closes its parentheses. -/
theorem closes_selections : ∀ selections : List (Selection Expr),
    ∀ item ∈ selectionTokens selections, Closes item
  | [] => by simp [selectionTokens]
  | ⟨expr, label⟩ :: rest => by
    simp only [selectionTokens]
    exact List.forall_mem_cons.mpr
      ⟨(closes_expr expr).append (closes_label label), closes_selections rest⟩

/-- Every condition behind its keyword closes its parentheses. -/
theorem closes_condition (word : Keyword) : ∀ condition : Option Expr,
    Closes (conditionTokens word condition)
  | none => by
    simp only [conditionTokens]
    exact closes_nil
  | some condition => by
    simp only [conditionTokens]
    exact closes_word.append (closes_expr condition)

/-- Joins close their parentheses. -/
theorem closes_joins : ∀ joins : List (Join Expr), Closes (joinTokens joins)
  | [] => by
    simp only [joinTokens]
    exact closes_nil
  | ⟨_, table, condition⟩ :: rest => by
    simp only [joinTokens]
    refine ((Closes.append ?_ (closes_table table)).append (closes_condition .onKw condition)).append
      (closes_joins rest)
    exact .cons rfl (.cons rfl (.cons rfl (.cons rfl (.cons rfl closes_nil))))

/-- Every sort key closes its parentheses. -/
theorem closes_keys : ∀ keys : List (SortKey Expr), ∀ item ∈ sortTokens keys, Closes item
  | [] => by simp [sortTokens]
  | ⟨expr, _⟩ :: rest => by
    simp only [sortTokens]
    exact List.forall_mem_cons.mpr
      ⟨(closes_expr expr).append (.cons rfl (.cons rfl closes_nil)), closes_keys rest⟩

/-- Every query closes its parentheses. -/
theorem closes_query : ∀ query : Query Expr, Closes (queryTokens query)
  | ⟨distinct, selections, source, joins, filter, order⟩ => by
    simp only [queryTokens]
    refine Closes.append (Closes.append (Closes.append (Closes.append (Closes.append (.cons rfl ?_) ?_) ?_)
      (closes_joins joins)) (closes_condition .whereKw filter)) ?_
    · cases distinct with
      | true => exact .cons rfl (.cons rfl closes_nil)
      | false => exact closes_nil
    · split
      · exact closes_nil
      · exact .cons rfl (closes_separated (closes_selections selections))
    · cases source with
      | none => exact closes_nil
      | some table => exact closes_word.append (closes_table table)
    · split
      · exact closes_nil
      · exact closes_word.append (closes_separated (closes_keys order))

end

/-- Up to the parenthesis after a query there is the query. -/
theorem takeInside_query (query : Query Expr) (rest : List Token) :
    takeInside 0 (bare query.tokens ++ .symbol .rightParen :: rest) =
      some (bare query.tokens, rest) := by
  rw [closes_query query 0]
  simp [takeInside]

end ObjectQuery.Sql

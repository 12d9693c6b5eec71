import ObjectQuery.Sql.Statement
/-!
# Values and conditions

The type of SQL expressions does not tell values from conditions. `Expr.isValue` and
`Expr.isCondition` do: arithmetic is over values, a test is of values, and only tests and boolean
literals are joined by `and`, `or` and `not`. A star stands for a value only where rows are counted.
-/
namespace ObjectQuery.Sql

mutual

/-- Whether the expression is a value: a column, a literal, a parameter, or an operation on values
that gives one. -/
def Expr.isValue : Expr → Bool
  | .column _ _ | .literal _ | .parameter _ => true
  | .binary (.arithmetic _) left right => left.isValue && right.isValue
  | .negate operand => operand.isValue
  | .call callee _ [.star] => callee == "COUNT"
  | .call _ _ arguments => areValues arguments
  | _ => false

/-- Whether all expressions of a list are values. -/
def areValues : List Expr → Bool
  | [] => true
  | expr :: rest => expr.isValue && areValues rest

end

/-- Whether the expression is a condition: a test of values, a boolean literal, or conditions joined
by the logical operators. What a sub-select is made of is not looked at. -/
def Expr.isCondition : Expr → Bool
  | .binary .and left right | .binary .or left right => left.isCondition && right.isCondition
  | .binary (.comparison _) left right => left.isValue && right.isValue
  | .not operand => operand.isCondition
  | .inList test values _ => test.isValue && !values.isEmpty && areValues values
  | .inQuery test _ _ => test.isValue
  | .between operand low high _ => operand.isValue && low.isValue && high.isValue
  | .isNull operand _ => operand.isValue
  | .like operand pattern _ => operand.isValue && pattern.isValue
  | .literal (.boolean _) => true
  | _ => false

/-- Values are plain if each of them is. -/
theorem areValues_iff {exprs : List Expr} :
    areValues exprs = true ↔ ∀ expr ∈ exprs, expr.isValue = true := by
  induction exprs with
  | nil => simp [areValues]
  | cons expr rest ih => simp [areValues, ih]

/-- The arguments of a call are values, or there is one star and rows are counted. -/
theorem Expr.isValue_call {callee : String} {distinct : Bool} {arguments : List Expr}
    (value : (Expr.call callee distinct arguments).isValue = true) :
    arguments = [.star] ∧ callee = "COUNT" ∨ areValues arguments = true := by
  by_cases star : arguments = [.star]
  · subst star
    exact Or.inl ⟨rfl, by simpa [Expr.isValue] using value⟩
  · refine Or.inr ?_
    rwa [Expr.isValue] at value
    intro same
    exact star same

/-- A call of values is a value. -/
theorem Expr.isValue_call_of_areValues {callee : String} {distinct : Bool} {arguments : List Expr}
    (values : areValues arguments = true) : (Expr.call callee distinct arguments).isValue = true := by
  rw [Expr.isValue]
  · exact values
  · rintro rfl
    simp [areValues, Expr.isValue] at values

end ObjectQuery.Sql

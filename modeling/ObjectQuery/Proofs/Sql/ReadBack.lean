import ObjectQuery.Proofs.Sql.Balance
/-!
# Reading back what was written

Every value and every condition is read back from its tokens, all of them, as the same tree but for
the grouping of rows of operators. It differs from the tree in no more than the grouping of rows of
one associative operator exactly if the tree is tight.
-/
namespace ObjectQuery.Sql

open ObjectQuery.Sql.Tree (graft sameStrength)

/-- The level of an expression when it is written without parentheses around it. -/
def Expr.level : Expr → Nat
  | .binary op _ _ => op.level
  | .not _ => 3
  | .inList _ _ _ | .inQuery _ _ _ | .between _ _ _ _ | .isNull _ _ | .like _ _ _ => 4
  | _ => 7

/-- The expression is an operation with an operator of the given level. -/
def Expr.IsOperationAt (level : Nat) : Expr → Prop
  | .binary inner _ _ => inner.level = level
  | _ => False

/-- The tokens of the expression are read as its tree, as a first operand or behind an operator. -/
structure Readable (expr : Expr) : Prop where
  chunk : Chunk (bare expr.tokens) expr.outline.reread expr.level
  extending : ∀ op : BinaryOp, op.level < expr.level ∨ expr.IsOperationAt op.level →
    Extends op (bare expr.tokens) fun left => graft (sameStrength op) op left expr.outline.reread

variable {op : BinaryOp} {expr left right : Expr} {tree : Tree}

/-- Before an expression that does not bind as tightly there is no row to follow. -/
theorem graft_reread (different : ¬ expr.IsOperationAt op.level) :
    graft (sameStrength op) op tree expr.outline.reread = .binary op tree expr.outline.reread := by
  cases expr with
  | binary inner left right =>
    obtain ⟨first, second, same⟩ := Tree.regroup_binary sameStrength inner left.outline right.outline
    have foreign : sameStrength op inner = false := by
      have below := level_lt_iff op inner
      have above := level_lt_iff inner op
      simp only [Expr.IsOperationAt] at different
      simp only [sameStrength, beq_eq_false_iff_ne]
      omega
    simp only [Expr.outline, Tree.reread, same, graft, foreign, Bool.false_eq_true, if_false]
  | _ => simp only [Expr.outline, Tree.reread, Tree.regroup, graft]

/-- An expression that is no operation is readable if it is read as a first operand. -/
theorem readable_of_chunk (single : isOperation expr = false)
    (chunk : Chunk (bare expr.tokens) expr.outline.reread expr.level) : Readable expr := by
  have alone (level : Nat) : ¬ expr.IsOperationAt level := by
    cases expr <;> simp_all [Expr.IsOperationAt, isOperation]
  refine ⟨chunk, ?_⟩
  rintro op (tighter | operation)
  · simp only [graft_reread (alone op.level)]
    exact chunk.extends tighter
  · exact (alone _ operation).elim

/-- Every value stands on a level of at least one. -/
theorem level_pos (expr : Expr) : 1 ≤ expr.level := by
  cases expr with
  | binary op _ _ => exact (level_bounds op).1
  | _ => simp [Expr.level]

/-- An operand with or without parentheses is read as a first operand. -/
theorem Readable.operand (readable : Readable expr) (needed : Bool) :
    Chunk (bare (parenthesisedIf needed expr.tokens)) expr.outline.reread
      (if needed then 7 else expr.level) := by
  cases needed with
  | false => exact readable.chunk
  | true =>
    simp only [parenthesisedIf, if_true, bare_parenthesised]
    exact readable.chunk.parenthesised (level_pos expr)

/-- What becomes of a left operand when the operator and its right operand are read. -/
def attach (op : BinaryOp) (right : Tree) (left : Tree) : Tree :=
  if right.continues op then graft (sameStrength op) op left right.reread
  else .binary op left right.reread

/-- Reading an operation again attaches it to the operation on its right. -/
theorem reread_binary (op : BinaryOp) (left right : Tree) :
    (Tree.binary op left right).reread = attach op right left.reread := by
  simp only [Tree.reread, Tree.regroup, attach]

/-- Operators of the same level have the same strength. -/
theorem sameStrength_of_level {op inner : BinaryOp} (same : inner.level = op.level) :
    sameStrength inner = sameStrength op := by
  have below := level_lt_iff op inner
  have above := level_lt_iff inner op
  have strengths : inner.strength = op.strength := by omega
  funext other
  simp only [sameStrength, strengths]

/-- Whether operators of one level are attached one by one or as a row makes no difference. -/
theorem graft_attach {inner : BinaryOp} (same : inner.level = op.level) (first second third : Tree) :
    attach inner third (graft (sameStrength op) op first second) =
      graft (sameStrength op) op first (attach inner third second) := by
  have member : sameStrength op inner = true := by
    rw [← sameStrength_of_level same]
    simp [sameStrength]
  unfold attach
  split
  · rw [sameStrength_of_level same, Tree.graft_assoc member]
  · simp only [graft, member, if_true]

/-- A left operand without parentheses is no looser than its operator. -/
theorem level_of_left (tight : isOperation left = true ∨ op.level < left.level)
    (bare : needsParens op false left = false) : op.level ≤ left.level := by
  cases left with
  | binary inner first second =>
    simp only [needsParens, Bool.false_and, Bool.or_false, decide_eq_false_iff_not] at bare
    rw [← level_lt_iff] at bare
    exact Nat.le_of_not_lt bare
  | _ =>
    rcases tight with operation | tighter
    · simp [isOperation] at operation
    · exact Nat.le_of_lt tighter

/-- A left operand behind an operator of the same level is followed as a row. -/
theorem Readable.extendsLeft {outer : BinaryOp} (readable : Readable left)
    (tight : isOperation left = true ∨ op.level < left.level) (same : op.level = outer.level) :
    Extends outer (bare (parenthesisedIf (needsParens op false left) left.tokens))
      fun tree => graft (sameStrength outer) outer tree left.outline.reread := by
  cases needed : needsParens op false left with
  | true =>
    have alone : ¬ left.IsOperationAt outer.level := by
      cases left with
      | binary inner first second =>
        simp only [needsParens, Bool.false_and, Bool.or_false, decide_eq_true_eq] at needed
        rw [← level_lt_iff] at needed
        simp only [Expr.IsOperationAt]
        omega
      | _ => simp [Expr.IsOperationAt]
    simp only [graft_reread alone]
    have chunk := readable.operand true
    exact chunk.extends (Nat.lt_of_le_of_lt (level_bounds outer).2 (by simp))
  | false =>
    refine readable.extending outer ?_
    have within := level_of_left tight needed
    by_cases equal : left.level = outer.level
    · refine Or.inr ?_
      cases left with
      | binary inner first second => exact equal
      | _ =>
        rcases tight with operation | tighter
        · simp [isOperation] at operation
        · omega
    · exact Or.inl (by omega)

/-- A right operand is attached to what stands before its operator.

Proof: in parentheses the operand is read by itself. Without them it either goes on with the same
operator, and then the reader grafts it onto the left operand, or it binds tighter and is read
before the operator is. -/
theorem Readable.extendsRight (readable : Readable right)
    (tight : isOperation right = true ∨ op.level < right.level) :
    Extends op (bare (parenthesisedIf (needsParens op true right) right.tokens))
      (attach op right.outline) := by
  cases needed : needsParens op true right with
  | true =>
    have alone : right.outline.continues op = false := by
      cases right with
      | binary inner first second =>
        simp only [needsParens, Bool.true_and, Bool.or_eq_true, decide_eq_true_eq,
          Bool.and_eq_true, Bool.not_eq_true', beq_iff_eq] at needed
        simp only [Expr.outline, Tree.continues]
        rcases needed with looser | ⟨_, different⟩
        · have : inner ≠ op := fun same => by simp [same] at looser
          simp [this]
        · exact different
      | _ => simp [Expr.outline, Tree.continues]
    have chunk := readable.operand true
    have attached : attach op right.outline = fun tree => .binary op tree right.outline.reread := by
      funext tree
      simp [attach, alone]
    rw [attached]
    exact chunk.extends (Nat.lt_of_le_of_lt (level_bounds op).2 (by simp))
  | false =>
    cases continued : right.outline.continues op with
    | true =>
      have attached : attach op right.outline =
          fun tree => graft (sameStrength op) op tree right.outline.reread := by
        funext tree
        simp [attach, continued]
      rw [attached]
      refine readable.extending op (Or.inr ?_)
      cases right with
      | binary inner first second =>
        simp only [Expr.outline, Tree.continues, Bool.and_eq_true, beq_iff_eq] at continued
        rw [Expr.IsOperationAt, continued.1]
      | _ => simp [Expr.outline, Tree.continues] at continued
    | false =>
      have tighter : op.level < right.level := by
        cases right with
        | binary inner first second =>
          simp only [Expr.outline, Tree.continues] at continued
          simp only [needsParens, continued, Bool.true_and, Bool.not_false, Bool.and_true,
            Bool.or_eq_false_iff, decide_eq_false_iff_not, beq_eq_false_iff_ne] at needed
          have above := level_lt_iff inner op
          simp only [Expr.level]
          omega
        | _ => exact tight.resolve_left (by simp [isOperation])
      have alone : ¬ right.IsOperationAt op.level := by
        cases right with
        | binary inner first second =>
          simp only [Expr.level] at tighter
          simp only [Expr.IsOperationAt]
          omega
        | _ => simp [Expr.IsOperationAt]
      have extended := readable.extending op (Or.inl tighter)
      simp only [graft_reread alone] at extended
      have attached : attach op right.outline = fun tree => .binary op tree right.outline.reread := by
        funext tree
        simp [attach, continued]
      rw [attached]
      exact extended

/-- An operation on readable operands is readable. -/
theorem Readable.binary (readableLeft : Readable left) (readableRight : Readable right)
    (tightLeft : isOperation left = true ∨ op.level < left.level)
    (tightRight : isOperation right = true ∨ op.level < right.level) :
    Readable (.binary op left right) := by
  have tokens : bare (Expr.binary op left right).tokens =
      bare (parenthesisedIf (needsParens op false left) left.tokens) ++ op.token ::
        bare (parenthesisedIf (needsParens op true right) right.tokens) := by
    simp only [Expr.tokens, bare_append, bare_token, List.append_assoc, List.singleton_append]
  have outline : (Expr.binary op left right).outline.reread =
      attach op right.outline left.outline.reread := by
    rw [Expr.outline, reread_binary]
  have within : op.level ≤ if needsParens op false left then 7 else left.level := by
    cases needed : needsParens op false left with
    | true =>
      have := (level_bounds op).2
      simp only [if_true]
      omega
    | false => exact level_of_left tightLeft needed
  have extending := readableRight.extendsRight tightRight
  have chunk : Chunk (bare (Expr.binary op left right).tokens)
      (Expr.binary op left right).outline.reread (Expr.binary op left right).level := by
    rw [tokens, outline]
    exact (readableLeft.operand _).binary within extending
  refine ⟨chunk, ?_⟩
  intro outer position
  by_cases same : op.level = outer.level
  · rw [tokens, outline]
    have row := (readableLeft.extendsLeft tightLeft same).trans extending same
    simpa only [graft_attach same] using row
  · have tighter : outer.level < (Expr.binary op left right).level :=
      position.resolve_right same
    have alone : ¬ (Expr.binary op left right).IsOperationAt outer.level := same
    simp only [graft_reread alone]
    exact chunk.extends tighter

/-- A literal is read as an operand. -/
theorem chunk_literal (value : Literal) : Chunk [literalToken value] (.literal value) 7 := by
  refine chunk_atom fun _ fuel enough => ?_
  obtain ⟨fuel, rfl⟩ : ∃ less, fuel = less + 1 := ⟨fuel - 1, by omega⟩
  cases value with
  | boolean given => cases given <;> simp [literalToken, readOperand, readAtom]
  | _ => simp [literalToken, readOperand, readAtom]

/-- A literal holds no space. -/
theorem bare_literal (value : Literal) : bare [literalToken value] = [literalToken value] := by
  cases value with
  | boolean given => cases given <;> rfl
  | _ => rfl

/-- A literal opens a value. -/
theorem opens_literal (value : Literal) : opens (literalToken value) = true := by
  cases value with
  | boolean given => cases given <;> rfl
  | _ => rfl

/-- A value opens a value with or without parentheses. -/
theorem Opens.parenthesisedIf {tokens : List Token} (opening : Opens (bare tokens)) (needed : Bool) :
    Opens (bare (parenthesisedIf needed tokens)) := by
  cases needed with
  | true => exact ⟨.symbol .leftParen, _, bare_parenthesised, rfl⟩
  | false => exact opening

/-- The first token of a value is one that values begin with. -/
theorem opens_value : ∀ expr : Expr, expr.isValue = true → Opens (bare expr.tokens)
  | .column (some table) name, _ => ⟨.identifier table, _, by simp only [Expr.tokens]; rfl, rfl⟩
  | .column none name, _ => ⟨.identifier name, _, by simp only [Expr.tokens]; rfl, rfl⟩
  | .literal value, _ => ⟨_, [], by simp only [Expr.tokens, bare_literal], opens_literal value⟩
  | .parameter bound, _ => ⟨.placeholder bound, [], by simp only [Expr.tokens]; rfl, rfl⟩
  | .binary (.arithmetic op) left right, value => by
    simp only [Expr.isValue, Bool.and_eq_true] at value
    simp only [Expr.tokens, bare_append, List.append_assoc]
    exact ((opens_value left value.1).parenthesisedIf _).append
  | .negate operand, _ => ⟨.symbol .minus, _, by simp only [Expr.tokens]; rfl, rfl⟩
  | .call callee distinct arguments, _ =>
    ⟨.function callee, _, by simp only [Expr.tokens]; rfl, rfl⟩

/-- A list of readable values is read back value by value. -/
theorem readList_of_chunks : ∀ {exprs : List Expr}, exprs ≠ [] →
    (∀ expr ∈ exprs, Readable expr) →
      ReadsList (bare (Token.separated (listTokens exprs))) (Tree.regroupAll sameStrength (outlines exprs))
  | [only], _, readable => by
    simp only [listTokens, bare_separated_one, outlines, Tree.regroupAll]
    exact (readable only (by simp)).chunk.readsOne (level_pos only)
  | first :: second :: rest, _, readable => by
    obtain ⟨readableFirst, readableRest⟩ := List.forall_mem_cons.mp readable
    have further := readList_of_chunks (List.cons_ne_nil second rest) readableRest
    simp only [listTokens, bare_separated_cons, outlines, Tree.regroupAll] at further ⊢
    exact readableFirst.chunk.readsCons (level_pos first) further

/-- A name that no dot follows is a column without a table. -/
theorem chunk_column (name : String) : Chunk [.identifier name] (.column none name) 7 := by
  refine chunk_atom fun {min rest} stopped fuel enough => ?_
  obtain ⟨fuel, rfl⟩ : ∃ less, fuel = less + 1 := ⟨fuel - 1, by omega⟩
  simp only [readOperand]
  unfold readAtom
  split
  · rename_i same
    simp only [List.cons.injEq] at same
    rw [same.2] at stopped
    cases stopped
  · rename_i same
    simp only [List.cons.injEq, Token.identifier.injEq] at same
    obtain ⟨rfl, rfl⟩ := same
    rfl
  all_goals simp_all

/-- A value that is no operation is an operand. -/
theorem level_value {expr : Expr} (value : expr.isValue = true) :
    isOperation expr = true ∨ expr.level = 7 := by
  cases expr <;> simp_all [Expr.isValue, isOperation, Expr.level]

/-- A plain value binds tighter than an operator or is an operation itself. -/
theorem tight_value {expr : Expr} (value : expr.isValue = true) (op : BinaryOp) :
    isOperation expr = true ∨ op.level < expr.level := by
  refine (level_value value).imp_right fun same => ?_
  have := (level_bounds op).2
  omega

/-- A call is its name, the parentheses and what stands in them. -/
theorem bare_call (callee : String) (distinct : Bool) (arguments : List Expr) :
    bare (Expr.call callee distinct arguments).tokens =
      .function callee :: .symbol .leftParen :: (distinctWord distinct ++
        bare (Token.separated (listTokens arguments)) ++ [.symbol .rightParen]) := by
  rw [Expr.tokens, bare_cons (by simp), bare_parenthesised, bare_append]
  cases distinct <;> rfl

/-- A list of plain values opens a value. -/
theorem opens_separated {first : Expr} {rest : List Expr} (values : areValues (first :: rest) = true) :
    Opens (bare (Token.separated (listTokens (first :: rest)))) := by
  simp only [areValues, Bool.and_eq_true] at values
  have opening := opens_value first values.1
  cases rest with
  | nil => simpa only [listTokens, bare_separated_one] using opening
  | cons second rest =>
    simp only [listTokens, bare_separated_cons]
    exact opening.append

/-- A call of readable values, of nothing or of a star is readable. -/
theorem readable_call {callee : String} {distinct : Bool} {arguments : List Expr}
    (value : arguments = [.star] ∨ areValues arguments = true)
    (readable : arguments ≠ [.star] → ∀ argument ∈ arguments, Readable argument) :
    Readable (.call callee distinct arguments) := by
  refine readable_of_chunk rfl ?_
  rw [bare_call]
  simp only [Expr.outline, Tree.reread, Tree.regroup]
  rcases value with rfl | values
  · exact chunk_call (Nat.zero_le _) (fun rest => rfl) (fun rest fuel _ => rfl)
  · cases arguments with
    | nil => exact chunk_call (Nat.zero_le _) (fun rest => rfl) (fun rest fuel _ => rfl)
    | cons first rest =>
      have opening := opens_separated values
      have notStar : first :: rest ≠ [.star] := by
        intro same
        rw [same] at values
        simp [areValues, Expr.isValue] at values
      have listed := readList_of_chunks (List.cons_ne_nil first rest) (readable notStar)
      refine chunk_call (Nat.le_refl _) (fun rest => readDistinct_opens opening.append) ?_
      intro rest fuel enough
      rw [readNoValues_opens opening.append, listed rest fuel (by omega)]
      rfl

mutual

/-- Every value is readable. -/
theorem readable_value : ∀ expr : Expr, expr.isValue = true → Readable expr
  | .column (some table) name, _ => by
    refine readable_of_chunk rfl (chunk_of_begins 1 ?_ ?_)
    · simp [Expr.tokens, bare]
    · intro min rest _ _ fuel enough
      obtain ⟨fuel, rfl⟩ : ∃ less, fuel = less + 1 := ⟨fuel - 1, by omega⟩
      simp [Expr.tokens, bare, readOperand, readAtom, Expr.outline, Tree.reread, Tree.regroup]
  | .column none name, _ => readable_of_chunk rfl (chunk_column name)
  | .literal value, _ => by
    refine readable_of_chunk rfl ?_
    simp only [Expr.tokens, bare_literal]
    exact chunk_literal value
  | .parameter bound, _ => by
    refine readable_of_chunk rfl (chunk_atom fun _ fuel enough => ?_)
    obtain ⟨fuel, rfl⟩ : ∃ less, fuel = less + 1 := ⟨fuel - 1, by omega⟩
    simp [readOperand, readAtom, Expr.outline, Tree.reread, Tree.regroup]
  | .binary (.arithmetic op) left right, value => by
    simp only [Expr.isValue, Bool.and_eq_true] at value
    exact (readable_value left value.1).binary (readable_value right value.2)
      (tight_value value.1 _) (tight_value value.2 _)
  | .negate operand, value => by
    simp only [Expr.isValue] at value
    have chunk := (readable_value operand value).operand (isOperation operand)
    have level : (if isOperation operand then 7 else operand.level) = 7 := by
      rcases level_value value with operation | operand
      · simp [operation]
      · simp [operand]
    rw [level] at chunk
    refine readable_of_chunk rfl ?_
    rw [Expr.tokens, bare_cons (by simp)]
    exact chunk.negate
  | .call callee distinct arguments, value => by
    refine readable_call ((Expr.isValue_call value).imp_left And.left) fun notStar => ?_
    have values : areValues arguments = true :=
      (Expr.isValue_call value).resolve_left fun star => notStar star.1
    exact readable_values arguments values

/-- Every one of a list of plain values is readable. -/
theorem readable_values : ∀ exprs : List Expr, areValues exprs = true →
    ∀ expr ∈ exprs, Readable expr
  | [], _ => by simp
  | expr :: rest, values => by
    simp only [areValues, Bool.and_eq_true] at values
    exact List.forall_mem_cons.mpr
      ⟨readable_value expr values.1, readable_values rest values.2⟩

end

/-- A plain value stands on a level of at least five. -/
theorem level_value_le {expr : Expr} (value : expr.isValue = true) : 5 ≤ expr.level := by
  cases expr with
  | binary op left right =>
    cases op with
    | arithmetic op => cases op <;> simp [Expr.level, BinaryOp.level]
    | _ => simp [Expr.isValue] at value
  | _ => simp_all [Expr.isValue, Expr.level]

section Tests

variable {operand : Expr} {negated : Bool}

/-- A test for `null` is readable. -/
theorem readable_isNull (value : operand.isValue = true) : Readable (.isNull operand negated) := by
  refine readable_of_chunk rfl ?_
  have tokens : bare (Expr.isNull operand negated).tokens =
      bare operand.tokens ++ ((TestWord.isNull negated).words ++ []) := by
    rw [Expr.tokens, bare_append, List.append_nil]
    cases negated <;> rfl
  rw [tokens]
  refine (readable_value operand value).chunk.test (level_value_le value) (Nat.le_refl _) ?_
  intro rest _ fuel enough
  obtain ⟨fuel, rfl⟩ : ∃ less, fuel = less + 1 := ⟨fuel - 1, by simp at enough; omega⟩
  simp [readTest, Expr.outline, Tree.reread, Tree.regroup]

/-- A test against a pattern is readable. -/
theorem readable_like {pattern : Expr} (value : operand.isValue = true)
    (patternValue : pattern.isValue = true) : Readable (.like operand pattern negated) := by
  refine readable_of_chunk rfl ?_
  have tokens : bare (Expr.like operand pattern negated).tokens =
      bare operand.tokens ++ ((TestWord.like negated).words ++ bare pattern.tokens) := by
    simp only [Expr.tokens, bare_append, List.append_assoc, bare_spaced, TestWord.words]
  rw [tokens]
  refine (readable_value operand value).chunk.test (level_value_le value) (Nat.le_refl _) ?_
  intro rest stopped fuel enough
  obtain ⟨fuel, rfl⟩ : ∃ less, fuel = less + 1 := ⟨fuel - 1, by omega⟩
  have read := (readable_value pattern patternValue).chunk.reads (level_value_le patternValue)
    stopped fuel (by omega)
  simp [readTest, read, Expr.outline, Tree.reread, Tree.regroup]

/-- A test for a range is readable. -/
theorem readable_between {low high : Expr} (value : operand.isValue = true)
    (lowValue : low.isValue = true) (highValue : high.isValue = true) :
    Readable (.between operand low high negated) := by
  refine readable_of_chunk rfl ?_
  have tokens : bare (Expr.between operand low high negated).tokens =
      bare operand.tokens ++ ((TestWord.between negated).words ++
        (bare low.tokens ++ .keyword .andKw :: bare high.tokens)) := by
    simp only [Expr.tokens, bare_append, List.append_assoc, bare_spaced, TestWord.words,
      List.singleton_append]
  rw [tokens]
  refine (readable_value operand value).chunk.test (level_value_le value) (Nat.le_refl _) ?_
  intro rest stopped fuel enough
  simp only [List.length_append, List.length_cons] at enough
  obtain ⟨fuel, rfl⟩ : ∃ less, fuel = less + 1 := ⟨fuel - 1, by omega⟩
  have stopped' : stops 5 (.keyword .andKw :: (bare high.tokens ++ rest)) = true := rfl
  have readLow := (readable_value low lowValue).chunk.reads (level_value_le lowValue) stopped' fuel
    (by omega)
  have readHigh := (readable_value high highValue).chunk.reads (level_value_le highValue) stopped
    fuel (by omega)
  simp [readTest, readLow, readHigh, Expr.outline, Tree.reread, Tree.regroup]

/-- A test for membership of a list is readable. -/
theorem readable_inList {first : Expr} {rest : List Expr} (value : operand.isValue = true)
    (values : areValues (first :: rest) = true) :
    Readable (.inList operand (first :: rest) negated) := by
  refine readable_of_chunk rfl ?_
  have tokens : bare (Expr.inList operand (first :: rest) negated).tokens =
      bare operand.tokens ++ ((TestWord.inSet negated).words ++ (.symbol .leftParen ::
        (bare (Token.separated (listTokens (first :: rest))) ++ [.symbol .rightParen]))) := by
    simp only [Expr.tokens, bare_append, List.append_assoc, bare_spaced, TestWord.words,
      bare_parenthesised, listTokens]
  rw [tokens]
  refine (readable_value operand value).chunk.test (level_value_le value) (Nat.le_refl _) ?_
  intro after _ fuel enough
  simp only [List.length_append, List.length_cons] at enough
  obtain ⟨fuel, rfl⟩ : ∃ less, fuel = less + 1 := ⟨fuel - 1, by omega⟩
  have read := readList_of_chunks (List.cons_ne_nil first rest) (readable_values _ values) after fuel
    (by omega)
  simp only [List.cons_append, List.append_assoc, List.nil_append]
  rw [readTest_values (opens_separated values).append, read]
  simp [Expr.outline, Tree.reread, Tree.regroup]

/-- A test for membership of a sub-query is readable. -/
theorem readable_inQuery {query : Query Expr} (value : operand.isValue = true) :
    Readable (.inQuery operand query negated) := by
  refine readable_of_chunk rfl ?_
  have tokens : bare (Expr.inQuery operand query negated).tokens =
      bare operand.tokens ++ ((TestWord.inSet negated).words ++ (.symbol .leftParen ::
        (bare query.tokens ++ [.symbol .rightParen]))) := by
    simp only [Expr.tokens, bare_append, List.append_assoc, bare_spaced, TestWord.words,
      bare_parenthesised]
  rw [tokens]
  refine (readable_value operand value).chunk.test (level_value_le value) (Nat.le_refl _) ?_
  intro rest _ fuel enough
  obtain ⟨fuel, rfl⟩ : ∃ less, fuel = less + 1 := ⟨fuel - 1, by omega⟩
  obtain ⟨others, starts⟩ : ∃ others, bare query.tokens = .keyword .select :: others := by
    cases query
    simp only [Query.tokens, queryTokens, List.cons_append]
    exact ⟨_, bare_cons (by simp)⟩
  have inside := takeInside_query query rest
  simp only [starts, List.cons_append, List.append_assoc, List.nil_append, readTest] at inside ⊢
  rw [inside]
  simp [Expr.outline, Tree.reread, Tree.regroup, starts]

end Tests

/-- Conditions are looser than values, and a condition that is no operation is tighter than `and`. -/
theorem tight_condition {op : BinaryOp} {expr : Expr} (condition : expr.isCondition = true)
    (logical : op.level ≤ 2) : isOperation expr = true ∨ op.level < expr.level := by
  cases expr <;> simp_all [Expr.isCondition, isOperation, Expr.level] <;> omega

/-- Every condition is readable.

Proof: by cases on the condition. What it tests are values, which bind tighter than any test. -/
theorem readable_condition : ∀ expr : Expr, expr.isCondition = true → Readable expr
  | .binary .and left right, condition => by
    simp only [Expr.isCondition, Bool.and_eq_true] at condition
    exact (readable_condition left condition.1).binary (readable_condition right condition.2)
      (tight_condition condition.1 (by decide)) (tight_condition condition.2 (by decide))
  | .binary .or left right, condition => by
    simp only [Expr.isCondition, Bool.and_eq_true] at condition
    exact (readable_condition left condition.1).binary (readable_condition right condition.2)
      (tight_condition condition.1 (by decide)) (tight_condition condition.2 (by decide))
  | .binary (.comparison _) left right, condition => by
    simp only [Expr.isCondition, Bool.and_eq_true] at condition
    exact (readable_value left condition.1).binary (readable_value right condition.2)
      (tight_value condition.1 _) (tight_value condition.2 _)
  | .not operand, condition => by
    simp only [Expr.isCondition] at condition
    have chunk := (readable_condition operand condition).operand (isOperation operand)
    have level : 3 ≤ if isOperation operand then 7 else operand.level := by
      have tight : isOperation operand = true ∨ BinaryOp.and.level < operand.level :=
        tight_condition condition (by decide)
      rcases tight with operation | tighter
      · simp [operation]
      · split
        · omega
        · exact tighter
    refine readable_of_chunk rfl ?_
    rw [Expr.tokens, bare_cons (by simp), bare_space]
    exact chunk.not level
  | .inList test [] _, condition => by simp [Expr.isCondition] at condition
  | .inList test (first :: rest) _, condition => by
    simp only [Expr.isCondition, Bool.and_eq_true] at condition
    exact readable_inList condition.1.1 condition.2
  | .inQuery test _ _, condition => readable_inQuery (by simpa [Expr.isCondition] using condition)
  | .between operand low high _, condition => by
    simp only [Expr.isCondition, Bool.and_eq_true] at condition
    exact readable_between condition.1.1 condition.1.2 condition.2
  | .isNull operand _, condition => readable_isNull (by simpa [Expr.isCondition] using condition)
  | .like operand pattern _, condition => by
    simp only [Expr.isCondition, Bool.and_eq_true] at condition
    exact readable_like condition.1 condition.2
  | .literal (.boolean given), _ => readable_value (.literal (.boolean given)) rfl

/-- The tokens of a readable expression are read as its tree, all of them. -/
theorem Readable.readTokens {expr : Expr} (readable : Readable expr) :
    readTokens expr.tokens = some expr.outline.reread := by
  have read : Reads (1 + 3 * (bare expr.tokens).length) 1 (bare expr.tokens ++ [])
      expr.outline.reread [] := readable.chunk.reads (level_pos expr) rfl
  have all := read (3 * (bare expr.tokens).length + 1) (by omega)
  rw [List.append_nil] at all
  simp only [Sql.readTokens, all]

/-- The tokens of a value or a condition are read to the end and give a tree. It is the expression up
to the grouping of rows of one associative operator exactly if no right operand that continues its
operator begins with an operation of the same strength. -/
theorem readTokens_tokens (expr : Expr) (shape : expr.isValue = true ∨ expr.isCondition = true) :
    ∃ tree, readTokens expr.tokens = some tree ∧
      (tree.leftward = expr.outline.leftward ↔ expr.outline.isTight = true) := by
  have readable := shape.elim (readable_value expr) (readable_condition expr)
  exact ⟨_, readable.readTokens, Tree.leftward_reread_iff expr.outline⟩

/-- A column without a table. -/
def plain (name : String) : Expr := .column none name

/-- `a + (b + c)`, which is written without parentheses. -/
def nestedSum : Expr :=
  .binary (.arithmetic .add) (plain "a") (.binary (.arithmetic .add) (plain "b") (plain "c"))

/-- The sum is read back as `(a + b) + c`, the same up to grouping. -/
theorem readTokens_nestedSum : ∃ tree, readTokens nestedSum.tokens = some tree ∧
    tree.leftward = nestedSum.outline.leftward := by
  obtain ⟨tree, read, same⟩ := readTokens_tokens nestedSum (Or.inl rfl)
  exact ⟨tree, read, same.mpr rfl⟩

/-- `a * ((b / a) * b)`, which is written as `a * b / a * b`. -/
def nestedProduct : Expr :=
  .binary (.arithmetic .multiply) (plain "a") (.binary (.arithmetic .multiply)
    (.binary (.arithmetic .divide) (plain "b") (plain "a")) (plain "b"))

/-- The product is read back as `((a * b) / a) * b`, which is something else. -/
theorem readTokens_nestedProduct : (nestedProduct.isValue = true ∨ nestedProduct.isCondition = true) ∧
    ∃ tree, readTokens nestedProduct.tokens = some tree ∧
      tree.leftward ≠ nestedProduct.outline.leftward := by
  have readable := readable_value nestedProduct rfl
  refine ⟨Or.inl rfl, _, readable.readTokens, fun equal => ?_⟩
  exact absurd ((Tree.leftward_reread_iff _).mp equal) (by decide)

end ObjectQuery.Sql

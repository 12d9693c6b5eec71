import ObjectQuery.Proofs.Grammar.Phrases
/-!
# What follows the rules is read: expressions

Every expression that the rules derive is read in front of anything that does not go on with it. The
first two tokens tell the kinds of atoms apart, so no alternative tried earlier hides the one that
the rules use.
-/
namespace ObjectQuery.Grammar

open Reader

/-! ## What phrases begin and go on with -/

/-- An atom begins with a literal, a name or one of three signs. -/
def startsAtom : Token → Bool
  | .identifier _ | .quotation _ | .number _ => true
  | .keyword .trueKw | .keyword .falseKw | .keyword .null => true
  | .mark .colon | .mark .question | .mark .leftParen => true
  | _ => false

/-- An expression begins with an atom or a minus sign. -/
def startsExpr (token : Token) : Bool := startsAtom token || token = .mark .minus

/-- A path goes on with a bracket or a dot. -/
def pathGoesOn (token : Token) : Bool := token = .mark .leftBracket || token = .mark .dot

/-- An atom goes on like a path, with arguments or, a bare parameter, with a number. -/
def atomGoesOn : Token → Bool
  | .number _ | .mark .leftParen => true
  | token => pathGoesOn token

/-- What goes on as a path goes on as an operand. -/
theorem pathGoesOn_atom (token : Token) (goesOn : pathGoesOn token = true) :
    atomGoesOn token = true := by
  simp only [pathGoesOn, Bool.or_eq_true, decide_eq_true_eq] at goesOn
  rcases goesOn with rfl | rfl <;> rfl

/-- A product goes on like an atom or with an operator. -/
def productGoesOn (token : Token) : Bool := atomGoesOn token || (productOp? token).isSome

/-- An expression goes on like a product or with an operator. -/
def sumGoesOn (token : Token) : Bool := productGoesOn token || (sumOp? token).isSome

/-- A literal may start an operand. -/
theorem literal_starts {token : Token} {value : Literal} (denotes : literalOf? token = some value) :
    startsAtom token = true := by
  unfold literalOf? at denotes
  split at denotes <;> first | rfl | cases denotes

/-- A path begins with an identifier that no parenthesis follows. -/
theorem isPath_begins : ∀ {word : List Token} {route : Path Expr}, IsPath word route →
    ∃ name others, word = .identifier name :: others ∧ .mark .leftParen ∉ others.head? := by
  rintro _ _ ⟨begins, follows⟩
  cases begins with
  | plain name =>
    refine ⟨name, _, rfl, ?_⟩
    cases follows with
    | nil => simp
    | cons first further => simp
  | indexed name inside => exact ⟨name, _, rfl, by simp⟩

/-- An operand begins with a token that may start one. -/
theorem isAtom_begins : Begins IsAtom (startsAtom · = true) := by
  intro word expr derived
  cases derived with
  | literal denotes => exact ⟨_, _, rfl, literal_starts denotes⟩
  | path followed =>
    obtain ⟨name, others, rfl, _⟩ := isPath_begins followed
    exact ⟨_, _, rfl, rfl⟩
  | _ => exact ⟨_, _, rfl, rfl⟩

/-- An operator and the operand behind it. -/
def IsOperation (op? : Token → Option ArithmeticOp) (phrase : Phrase Expr) :
    Phrase (ArithmeticOp × Expr) :=
  fun word item => ∃ token others, word = token :: others ∧ op? token = some item.1 ∧
    phrase others item.2

/-- An operation begins with its operator. -/
theorem isOperation_begins (op? : Token → Option ArithmeticOp) (phrase : Phrase Expr) :
    Begins (IsOperation op? phrase) fun token => (op? token).isSome = true := by
  rintro _ ⟨op, right⟩ ⟨token, others, rfl, operator, _⟩
  exact ⟨token, others, rfl, Option.isSome_of_eq_some operator⟩

/-- The operation on two operands, without places. -/
def joinedBy (left : Expr) (item : ArithmeticOp × Expr) : Expr :=
  .arithmetic .nowhere item.1 left item.2

/-- A product is a row of signed operands. -/
theorem isProduct_row : IsRow IsProduct IsSigned (IsOperation productOp? IsSigned) joinedBy := by
  rintro _ _ (single | ⟨first, operator, second⟩)
  · exact .inl single
  · exact .inr ⟨_, _, _, (_, _), rfl, first, ⟨_, _, rfl, operator, second⟩, rfl⟩

/-- A sum is a row of products. -/
theorem isSum_row : IsRow IsSum IsProduct (IsOperation sumOp? IsProduct) joinedBy := by
  rintro _ _ (single | ⟨first, operator, second⟩)
  · exact .inl single
  · exact .inr ⟨_, _, _, (_, _), rfl, first, ⟨_, _, rfl, operator, second⟩, rfl⟩

/-- A value begins with a token that may start one. -/
theorem isSum_begins : Begins IsSum (startsExpr · = true) := by
  have signed : Begins IsSigned (startsExpr · = true) := by
    intro word expr derived
    cases derived with
    | atom plain =>
      obtain ⟨token, others, rfl, starts⟩ := isAtom_begins plain
      exact ⟨token, others, rfl, by simp [startsExpr, starts]⟩
    | negate inside => exact ⟨_, _, rfl, rfl⟩
  exact isSum_row.begins (isOperation_begins _ _) (isProduct_row.begins (isOperation_begins _ _) signed)

/-! ## Expressions -/

/-- A name is read from its identifier. -/
theorem name_accepts (text : String) {rest : List Token} :
    Accepts name [.identifier text] rest fun found => found.unplaced = ⟨text, .nowhere⟩ := by
  refine .placed ((Accepts.identifier text).weaken ?_)
  rintro _ rfl span
  rfl

section Expressions

variable {inner : Reader Expr} {size : Nat} (takes : Takes inner Expr.unplaced IsSum sumGoesOn size)

include takes in
/-- One part of a path is taken back from its words, its index with it. -/
theorem part_takes :
    Takes (path.part inner) PathPart.unplaced IsPart (· = .mark .leftBracket) (size + 1) := by
  intro word part rest derived short stops
  cases derived with
  | plain text =>
    refine .step (name_accepts text) fun found named => ?_
    refine .map (.absent (.bind (.token (stops.not_head rfl)))) ?_
    rintro _ rfl
    rw [PathPart.unplaced, named]
    rfl
  | indexed text inside =>
    simp only [List.cons_append, List.length_cons, List.length_append, List.length_nil] at short
    refine .step (name_accepts text) fun found named => ?_
    refine .map (.there (between_accepts (takes inside (by omega) (stops_cons.mpr rfl)))) ?_
    rintro _ ⟨index, rfl, viewed⟩
    rw [PathPart.unplaced, named, ← viewed]
    rfl

/-- The parts behind the first are a sequence of parts led by dots. -/
theorem isParts_sequence : ∀ {word : List Token} {parts : List (PathPart Expr)},
    IsParts word parts → IsSequence (Led (.mark .dot) IsPart) word parts
  | _, [], .nil => .nil
  | _, _ :: _, .cons first follows => .cons ⟨_, rfl, first⟩ (isParts_sequence follows)

include takes in
/-- A path is taken back from its words. -/
theorem path_takes : Takes (path inner) unplacedPath IsPath pathGoesOn (size + 1) := by
  rintro _ _ rest ⟨begins, follows⟩ short stops
  rw [List.length_append] at short
  have sequence := isParts_sequence follows
  have dots : Begins (Led (.mark .dot) IsPart) fun token =>
      decide (token = .mark .leftBracket) = false := by
    rintro _ _ ⟨inside, rfl, _⟩
    exact ⟨_, inside, rfl, rfl⟩
  have stopsPart : Stops (· = .mark .leftBracket) rest := stops.mono fun token => by
    simp +contextual [pathGoesOn]
  have declined : Declines (do mark .dot; path.part inner) rest :=
    .bind (.token (stops.not_head rfl))
  refine .placed (.bind (part_takes takes begins (by omega) (sequence.stops dots stopsPart))
    fun first viewed => .map (.many (sequence_accepts (led_takes _ (part_takes takes)) dots sequence
      (by omega) stopsPart declined)) fun parts viewedAll span => ?_)
  rw [← viewed, ← viewedAll, ← unplacedParts_eq_map]
  rfl

/-- A token that denotes no literal is left to the other readings. -/
theorem literal_declines {token : Token} {others : List Token} (other : literalOf? token = none) :
    Declines literal (token :: others) := by
  refine .bind (.spanned (.item ?_))
  simpa using other

/-- A token other than a colon is no named parameter. -/
theorem namedParameter_declines {token : Token} {others : List Token} (other : token ≠ .mark .colon) :
    Declines namedParameter (token :: others) :=
  .bind (.spanned (.bind (.token (by simpa using other))))

/-- A token other than a question mark is no positional parameter. -/
theorem positionalParameter_declines {token : Token} {others : List Token}
    (other : token ≠ .mark .question) : Declines positionalParameter (token :: others) :=
  .bind (.spanned (.bind (.token (by simpa using other))))

/-- A name without an opening parenthesis behind it calls nothing. -/
theorem call_declines {text : String} {others : List Token} (other : .mark .leftParen ∉ others.head?) :
    Declines (call inner) (.identifier text :: others) := by
  refine .bind (.spanned (.later (name_accepts text) fun _ _ => ?_))
  exact .bind (.token other)

/-- A token that is no identifier is no name. -/
theorem name_declines {token : Token} {others : List Token}
    (unnamed : ∀ text, token ≠ .identifier text) : Declines name (token :: others) :=
  .bind (.spanned (.identifier (by simpa using unnamed)))

/-- A token that is no identifier starts no call. -/
theorem call_declines_other {token : Token} {others : List Token}
    (unnamed : ∀ text, token ≠ .identifier text) : Declines (call inner) (token :: others) :=
  .bind (.spanned (.bind (name_declines unnamed)))

/-- A token that is no identifier starts no path. -/
theorem path_declines {token : Token} {others : List Token}
    (unnamed : ∀ text, token ≠ .identifier text) : Declines (path inner) (token :: others) :=
  .bind (.spanned (.bind (.bind (name_declines unnamed))))

/-- A keyword that may stand is read where it stands and missed where it does not. -/
theorem flag_accepts (word : Keyword) (present : Bool) {rest : List Token}
    (other : .keyword word ∉ rest.head?) :
    Accepts (flag word) (tokenIf present (.keyword word)) rest (· = present) := by
  cases present with
  | false =>
    refine .map (.absent (.token other)) ?_
    rintro _ rfl
    rfl
  | true =>
    refine .map (.there (.token _)) ?_
    rintro _ ⟨_, rfl, _⟩
    rfl

/-- The digits behind a question mark are read as the position they denote. -/
theorem ordinal_accepts {digits : String} {position : Nat} {rest : List Token}
    (denotes : positionOf digits.toList = .ok position) :
    Accepts ordinal [.number digits] rest (· = position) := by
  intro used behind spelled _
  obtain ⟨⟨token, text, span⟩, others, rfl, rfl, empty⟩ := tokens_eq_cons.mp spelled
  obtain rfl : others = [] := List.map_eq_nil_iff.mp empty
  refine ⟨position, ?_, rfl⟩
  simp only [Reads, ordinal, List.cons_append, List.nil_append, denotes]

/-- Without digits there is no position to read. -/
theorem ordinal_declines {rest : List Token} (other : ∀ digits, .number digits ∉ rest.head?) :
    Declines ordinal rest := by
  rintro input rfl
  unfold Refuses ordinal
  split
  · exact absurd rfl (other _)
  · rfl

include takes in
/-- A call is taken back from its words, its argument a star or a value. -/
theorem call_takes {text : String} {distinct : Bool} {word rest : List Token} {argument : Option Expr}
    (inside : (argument = none ∧ word = [.mark .star]) ∨
      ∃ expr, argument = some expr ∧ IsSum word expr ∧ word.length < size) :
    Accepts (call inner)
      (.identifier text :: parenthesised (tokenIf distinct (.keyword .distinct) ++ word)) rest
      fun found => found.unplaced = .call .nowhere ⟨text, .nowhere⟩ distinct argument := by
  have begins : ∃ token others, word = token :: others ∧ token ≠ .keyword .distinct := by
    rcases inside with ⟨rfl, rfl⟩ | ⟨expr, rfl, derived, _⟩
    · exact ⟨_, _, rfl, by simp⟩
    · obtain ⟨token, others, rfl, starts⟩ := isSum_begins derived
      refine ⟨token, others, rfl, ?_⟩
      rintro rfl
      cases starts
  have argued : Accepts ((do mark .star; pure none) <|> (do let argument ← inner; pure (some argument)))
      word (.mark .rightParen :: rest) fun found => unplacedOptional found = argument := by
    rcases inside with ⟨rfl, rfl⟩ | ⟨expr, rfl, derived, short⟩
    · exact .first (.map (.token _) fun _ _ => rfl)
    · refine .second (.bind (.token ?_)) (.map (takes derived short (stops_cons.mpr rfl)) ?_)
      · obtain ⟨token, others, rfl, starts⟩ := isSum_begins derived
        rintro ⟨⟩
        cases starts
      · rintro found rfl
        rfl
  rw [parenthesised, List.cons_append, List.append_assoc]
  refine .placed (.step (name_accepts text) fun name named => .behind ?_)
  refine .bind (flag_accepts .distinct distinct ?_) ?_
  · obtain ⟨token, others, rfl, other⟩ := begins
    simpa using other
  rintro _ rfl
  refine .bind argued fun found viewed => .map (.token _) fun _ _ span => ?_
  rw [Expr.unplaced, named, viewed]

include takes in
/-- An operand is taken back from its words.

Proof: by cases on how the operand is derived. The readings in front of the right one decline it by
its first token. -/
theorem atom_takes : Takes (atom inner) Expr.unplaced IsAtom atomGoesOn (size + 1) := by
  intro word expr rest derived short stops
  cases derived with
  | literal denotes =>
    refine .first (.placed ((Accepts.item denotes).weaken ?_))
    rintro _ rfl span
    rfl
  | named text =>
    refine .second (literal_declines rfl) (.first (.placed (.behind ?_)))
    refine (Accepts.identifier text).weaken ?_
    rintro _ rfl span
    rfl
  | unnumbered =>
    refine .second (literal_declines rfl) (.second (namedParameter_declines (by simp)) (.first ?_))
    refine .placed (.behind ((Accepts.absent (ordinal_declines ?_)).weaken ?_))
    · exact fun digits => stops.not_head rfl
    · rintro _ rfl span
      rfl
  | numbered denotes =>
    refine .second (literal_declines rfl) (.second (namedParameter_declines (by simp)) (.first ?_))
    refine .placed (.behind ((Accepts.there (ordinal_accepts denotes)).weaken ?_))
    rintro _ ⟨_, rfl, rfl⟩ span
    rfl
  | callStar text distinct =>
    refine .second (literal_declines rfl) (.second (namedParameter_declines (by simp))
      (.second (positionalParameter_declines (by simp)) (.first ?_)))
    exact call_takes takes (.inl ⟨rfl, rfl⟩)
  | call text distinct inside =>
    refine .second (literal_declines rfl) (.second (namedParameter_declines (by simp))
      (.second (positionalParameter_declines (by simp)) (.first ?_)))
    refine call_takes takes (.inr ⟨_, rfl, inside, ?_⟩)
    simp only [parenthesised, List.length_cons, List.length_append] at short
    omega
  | path followed =>
    have taken := path_takes takes followed short (stops.mono pathGoesOn_atom)
    obtain ⟨text, others, rfl, bare⟩ := isPath_begins followed
    refine .second (literal_declines rfl) (.second (namedParameter_declines (by simp))
      (.second (positionalParameter_declines (by simp)) (.second (call_declines ?_) (.first ?_))))
    · cases others with
      | nil => exact stops.not_head rfl
      | cons token others => exact bare
    · refine .map taken ?_
      rintro found rfl
      rfl
  | grouped inside =>
    refine .second (literal_declines rfl) (.second (namedParameter_declines (by simp))
      (.second (positionalParameter_declines (by simp)) (.second (call_declines_other (by simp))
        (.second (.bind (path_declines (by simp))) ?_))))
    simp only [parenthesised, List.length_cons, List.length_append] at short
    exact between_accepts (takes inside (by omega) (stops_cons.mpr rfl))

include takes in
/-- An operand with its signs is taken back from its words. -/
theorem unary_takes : Takes (unary inner) Expr.unplaced IsSigned atomGoesOn (size + 1) := by
  refine signs_take (atom_takes takes) ?_ ?_ fun _ _ => rfl
  · intro word expr derived
    obtain ⟨token, others, rfl, starts⟩ := isAtom_begins derived
    refine ⟨token, others, rfl, ?_⟩
    rintro rfl
    cases starts
  · rintro _ _ (plain | inside)
    · exact .inl plain
    · exact .inr ⟨_, _, rfl, inside, rfl⟩

/-- A row of operands with operators of one strength between them. -/
theorem leftAssociative_takes {operand : Reader Expr} {phrase row : Phrase Expr}
    {op? : Token → Option ArithmeticOp} {goesOn : Token → Bool}
    (rows : IsRow row phrase (IsOperation op? phrase) joinedBy)
    (operands : Takes operand Expr.unplaced phrase goesOn size)
    (ended : ∀ token, (op? token).isSome = true → goesOn token = false) :
    Takes (leftAssociative (item op?) operand) Expr.unplaced row
      (fun token => goesOn token || (op? token).isSome) size := by
  have items : Takes (do let op ← item op?; let right ← operand; pure (op, right))
      (fun found => (found.1, found.2.unplaced)) (IsOperation op? phrase) goesOn size := by
    rintro _ ⟨op, right⟩ rest ⟨token, others, rfl, operator, derived⟩ short stops
    rw [List.length_cons] at short
    refine .step (.item operator) ?_
    rintro _ rfl
    exact .map (operands derived (by omega) stops) fun found viewed => congrArg (Prod.mk _) viewed
  refine row_takes rows operands items ?_ (fun token more => by simp [more]) ?_ fun _ _ => rfl
  · intro word item derived
    obtain ⟨token, others, rfl, operator⟩ := isOperation_begins _ _ derived
    exact ⟨token, others, rfl, ended token operator⟩
  · intro rest stops
    refine .bind (.item fun token first => ?_)
    have finished := stops token first
    simp only [Bool.or_eq_false_iff, Option.isSome_eq_false_iff, Option.isNone_iff_eq_none] at finished
    exact finished.2

include takes in
/-- A sum is taken back from its words, its operands at the size inside. -/
theorem sum_takes : Takes (sum inner) Expr.unplaced IsSum sumGoesOn (size + 1) := by
  refine leftAssociative_takes isSum_row (leftAssociative_takes isProduct_row (unary_takes takes) ?_) ?_
  · intro token operator
    unfold productOp? at operator
    split at operator <;> first | rfl | cases operator
  · intro token operator
    unfold sumOp? at operator
    split at operator <;> first | rfl | cases operator

end Expressions

/-- A sum is taken back from its words at every size that holds its text. -/
theorem sumWithin_takes : ∀ size, Takes (nestedWithin sum size) Expr.unplaced IsSum sumGoesOn size
  | 0 => fun _ _ _ _ short => absurd short (Nat.not_lt_zero _)
  | size + 1 => sum_takes (sumWithin_takes size)

/-- An expression is taken back from its words. -/
theorem expression_takes (size : Nat) : Takes expression Expr.unplaced IsSum sumGoesOn size := by
  intro word expr rest derived _ stops
  refine .nested fun depth deep => ?_
  exact sum_takes (sumWithin_takes depth) derived (Nat.lt_succ_of_le deep) stops

end ObjectQuery.Grammar

import ObjectQuery.Proofs.Sql.Regrouping
/-!
# How the reader goes through tokens

The reader goes through the tokens of an expression from left to right, and what it has read so far
is the left operand of what follows. The statements about it are therefore about tokens in front of
others: `Chunk` says that the reader takes them for the first operand of whatever it goes on with,
and `Extends` that an operator and these tokens are added to the left operand. The bound on the
steps of the reader is three for each token.
-/
namespace ObjectQuery.Sql

open ObjectQuery.Sql.Tree (graft sameStrength)

/-- With the given number of steps or more, an expression is read. -/
def Reads (steps min : Nat) (tokens : List Token) (tree : Tree) (rest : List Token) : Prop :=
  ∀ fuel, steps ≤ fuel → readExpr fuel min tokens = some (tree, rest)

/-- With the given number of steps or more, an operand is read. -/
def Begins (steps min : Nat) (tokens : List Token) (tree : Tree) (rest : List Token) : Prop :=
  ∀ fuel, steps ≤ fuel → readOperand fuel min tokens = some (tree, rest)

/-- With the given number of steps or more, what follows an operand is read. -/
def Goes (steps min : Nat) (left : Tree) (tokens : List Token) (tree : Tree) (rest : List Token) :
    Prop :=
  ∀ fuel, steps ≤ fuel → readFurther fuel min left tokens = some (tree, rest)

/-- Whether nothing of the level `min` or tighter follows, and no dot, which would be part of a
name. -/
def stops (min : Nat) : List Token → Bool
  | [] => true
  | token :: rest =>
    match binaryOp? token with
    | some op => op.level < min
    | none => token != .symbol .dot && ((testWord? (token :: rest)).isNone || 4 < min)

/-- The tokens are read as a first operand whose level is the given one. -/
def Chunk (tokens : List Token) (tree : Tree) (level : Nat) : Prop :=
  ∀ ⦃min steps : Nat⦄ ⦃rest after : List Token⦄ ⦃result : Tree⦄, min ≤ level →
    stops (level + 1) rest = true → Goes steps min tree rest result after →
      Reads (steps + 3 * tokens.length) min (tokens ++ rest) result after

/-- The operator and the tokens after it are read as an addition to the left operand. -/
def Extends (op : BinaryOp) (tokens : List Token) (attach : Tree → Tree) : Prop :=
  ∀ ⦃min steps : Nat⦄ ⦃left result : Tree⦄ ⦃rest after : List Token⦄, min ≤ op.level →
    stops (op.level + 1) rest = true → Goes steps min (attach left) rest result after →
      Goes (steps + 3 * (tokens.length + 1)) min left (op.token :: tokens ++ rest) result after

variable {min level steps : Nat} {tokens rest after : List Token} {tree left result : Tree}
  {op : BinaryOp}

/-- The operators stand on the levels from one to six. -/
theorem level_bounds (op : BinaryOp) : 1 ≤ op.level ∧ op.level ≤ 6 := by
  cases op with
  | arithmetic op => cases op <;> decide
  | _ => simp [BinaryOp.level]

/-- The levels order the operators as their strengths do. -/
theorem level_lt_iff (op inner : BinaryOp) :
    inner.level < op.level ↔ inner.strength < op.strength := by
  have levels (op : BinaryOp) : op.level = if op.strength ≤ 2 then op.strength else op.strength + 1 := by
    cases op with
    | arithmetic op => cases op <;> rfl
    | _ => rfl
  rw [levels, levels]
  split <;> split <;> omega

/-- An operator is read back from its token. -/
theorem binaryOp?_token (op : BinaryOp) : binaryOp? op.token = some op := by
  cases op with
  | arithmetic op => cases op <;> rfl
  | comparison op => cases op <;> rfl
  | _ => rfl

/-- A reader that stops stops at a tighter level too. -/
theorem stops_mono {wider : Nat} (tighter : min ≤ wider) (stopped : stops min rest = true) :
    stops wider rest = true := by
  cases rest with
  | nil => rfl
  | cons token rest =>
    simp only [stops] at stopped ⊢
    split <;> rename_i found
    · simp only [found, decide_eq_true_eq] at stopped ⊢
      omega
    · simp only [found, Bool.and_eq_true, Bool.or_eq_true, decide_eq_true_eq] at stopped ⊢
      exact stopped.imp_right (Or.imp_right fun low => by omega)

/-- No operator binds as tightly as a sign. -/
theorem stops_seven (stopped : stops 8 rest = true) : stops 7 rest = true := by
  cases rest with
  | nil => rfl
  | cons token rest =>
    simp only [stops] at stopped ⊢
    split <;> rename_i found
    · rename_i op
      have := (level_bounds op).2
      simp only [decide_eq_true_eq]
      omega
    · simpa [found] using stopped

/-- There is no operator on the level of `not`. -/
theorem stops_three (stopped : stops 4 rest = true) : stops 3 rest = true := by
  cases rest with
  | nil => rfl
  | cons token rest =>
    simp only [stops] at stopped ⊢
    split <;> rename_i found
    · rename_i op
      simp only [found, decide_eq_true_eq] at stopped ⊢
      have : op.level ≠ 3 := by
        cases op with
        | arithmetic op => cases op <;> decide
        | _ => simp [BinaryOp.level]
      omega
    · simpa [found] using stopped

/-- A reader stops before an operator of a lower level. -/
theorem stops_op (lower : op.level < min) : stops min (op.token :: rest) = true := by
  simpa [stops, binaryOp?_token] using lower

/-- Where the reader stops, what it has read is the result. -/
theorem goes_of_stops (stopped : stops min rest = true) : Goes 1 min left rest left rest := by
  intro fuel enough
  obtain ⟨fuel, rfl⟩ : ∃ further, fuel = further + 1 := ⟨fuel - 1, by omega⟩
  cases rest with
  | nil => simp only [readFurther]
  | cons token rest =>
    simp only [stops] at stopped
    simp only [readFurther]
    split <;> rename_i found
    · simp only [found, decide_eq_true_eq] at stopped
      simp only [if_neg (Nat.not_le.mpr stopped)]
    · simp only [found, Bool.and_eq_true, Bool.or_eq_true, decide_eq_true_eq,
        Option.isNone_iff_eq_none] at stopped
      rcases stopped.2 with none | high
      · simp only [none]
      · split
        · simp only [if_neg (Nat.not_le.mpr high)]
        · rfl

/-- A chunk is read on its own where nothing that follows belongs to it. -/
theorem Chunk.reads (chunk : Chunk tokens tree level) (within : min ≤ level)
    (stopped : stops min rest = true) :
    Reads (1 + 3 * tokens.length) min (tokens ++ rest) tree rest :=
  chunk within (stops_mono (by omega) stopped) (goes_of_stops stopped)

/-- An operand is a chunk. -/
theorem chunk_of_begins (steps : Nat) (bound : steps + 1 ≤ 3 * tokens.length)
    (begins : ∀ {min rest}, min ≤ level → stops (level + 1) rest = true →
      Begins steps min (tokens ++ rest) tree rest) : Chunk tokens tree level := by
  intro min further rest after result within stopped goes fuel enough
  obtain ⟨fuel, rfl⟩ : ∃ less, fuel = less + 1 := ⟨fuel - 1, by omega⟩
  simp only [readExpr, begins within stopped fuel (by omega), Option.bind_eq_bind,
    Option.bind_some]
  exact goes fuel (by omega)

/-- A chunk after a looser operator is its right operand. -/
theorem Chunk.extends (chunk : Chunk tokens tree level) (tighter : op.level < level) :
    Extends op tokens fun left => .binary op left tree := by
  intro min further left result rest after within stopped goes fuel enough
  obtain ⟨fuel, rfl⟩ : ∃ less, fuel = less + 1 := ⟨fuel - 1, by omega⟩
  have read := chunk.reads tighter stopped fuel (by omega)
  simp only [List.cons_append, readFurther, binaryOp?_token, if_pos within, read,
    Option.bind_eq_bind, Option.bind_some]
  exact goes fuel (by omega)

/-- Two additions on the same level follow each other. -/
theorem Extends.trans {inner : BinaryOp} {first second : List Token} {attach attach' : Tree → Tree}
    (extends₁ : Extends op first attach) (extends₂ : Extends inner second attach')
    (same : inner.level = op.level) :
    Extends op (first ++ inner.token :: second) fun left => attach' (attach left) := by
  intro min further left result rest after within stopped goes
  have later := extends₂ (same ▸ within) (same ▸ stopped) goes
  have stopped' : stops (op.level + 1) (inner.token :: second ++ rest) = true :=
    stops_op (by omega)
  have whole := extends₁ within stopped' later
  intro fuel enough
  have := whole fuel (by simp only [List.length_append, List.length_cons] at enough; omega)
  simpa [List.append_assoc] using this

/-- A first operand and an addition to it are an operation. -/
theorem Chunk.binary {first second : List Token} {attach : Tree → Tree}
    (chunk : Chunk first tree level) (tighter : op.level ≤ level)
    (further : Extends op second attach) :
    Chunk (first ++ op.token :: second) (attach tree) op.level := by
  intro min steps rest after result within stopped goes
  have later := further within stopped goes
  have stopped' : stops (level + 1) (op.token :: second ++ rest) = true := stops_op (by omega)
  have whole := chunk (by omega) stopped' later
  intro fuel enough
  have := whole fuel (by simp only [List.length_append, List.length_cons] at enough; omega)
  simpa [List.append_assoc] using this

section Bare

/-- Spaces are left out of two texts one by one. -/
theorem bare_append {first second : List Token} : bare (first ++ second) = bare first ++ bare second :=
  List.filter_append ..

/-- A space is left out. -/
theorem bare_space {tokens : List Token} : bare (.space :: tokens) = bare tokens := rfl

/-- A token that is no space stays. -/
theorem bare_cons {token : Token} (visible : token ≠ .space) :
    bare (token :: tokens) = token :: bare tokens :=
  List.filter_cons_of_pos (by simpa using visible)

/-- A keyword between spaces is the keyword alone. -/
theorem bare_spaced (word : Keyword) : bare (Token.spaced word) = [.keyword word] := rfl

/-- Parentheses stay around a text without spaces. -/
theorem bare_parenthesised : bare (Token.parenthesised tokens) =
    .symbol .leftParen :: (bare tokens ++ [.symbol .rightParen]) := by
  rw [Token.parenthesised, List.cons_append, bare_cons (by simp), bare_append]
  rfl

/-- An operator between spaces is the operator alone. -/
theorem bare_token (op : BinaryOp) : bare [.space, op.token, .space] = [op.token] := by
  cases op with
  | arithmetic op => cases op <;> rfl
  | comparison op => cases op <;> rfl
  | _ => rfl

/-- The commas between texts stay where the spaces are left out. -/
theorem bare_separated_cons (first second : List Token) (others : List (List Token)) :
    bare (Token.separated (first :: second :: others)) =
      bare first ++ .symbol .comma :: bare (Token.separated (second :: others)) := by
  simp only [Token.separated, List.intersperse_cons_cons, List.flatten_cons, bare_append,
    Token.separator]
  rfl

/-- A single text has no comma. -/
theorem bare_separated_one (only : List Token) : bare (Token.separated [only]) = bare only := by
  simp [Token.separated]

end Bare

section Rules

/-- A token that is read as an operand by itself is a chunk of the tightest level. -/
theorem chunk_atom {token : Token}
    (atom : ∀ {min rest}, stops 8 rest = true → Begins 1 min (token :: rest) tree rest) :
    Chunk [token] tree 7 :=
  chunk_of_begins 1 (by simp) fun _ stopped => atom stopped

/-- Parentheses make a chunk an operand. -/
theorem Chunk.parenthesised (chunk : Chunk tokens tree level) (positive : 1 ≤ level) :
    Chunk (.symbol .leftParen :: (tokens ++ [.symbol .rightParen])) tree 7 := by
  refine chunk_of_begins (2 + 3 * tokens.length) (by simp; omega) ?_
  intro min rest _ _ fuel enough
  obtain ⟨fuel, rfl⟩ : ∃ less, fuel = less + 1 := ⟨fuel - 1, by omega⟩
  have read : readExpr fuel 1 (tokens ++ .symbol .rightParen :: rest) =
      some (tree, .symbol .rightParen :: rest) := chunk.reads positive rfl fuel (by omega)
  simp [readOperand, read, closing]

/-- A sign before an operand is an operand. -/
theorem Chunk.negate (chunk : Chunk tokens tree 7) :
    Chunk (.symbol .minus :: tokens) (.negate tree) 7 := by
  refine chunk_of_begins (2 + 3 * tokens.length) (by simp; omega) ?_
  intro min rest _ stopped fuel enough
  obtain ⟨fuel, rfl⟩ : ∃ less, fuel = less + 1 := ⟨fuel - 1, by omega⟩
  have read := chunk.reads (Nat.le_refl 7) (stops_seven stopped) fuel (by omega)
  simp [readOperand, read]

/-- `not` before a condition. -/
theorem Chunk.not (chunk : Chunk tokens tree level) (tighter : 3 ≤ level) :
    Chunk (.keyword .notKw :: tokens) (.not tree) 3 := by
  refine chunk_of_begins (2 + 3 * tokens.length) (by simp; omega) ?_
  intro min rest within stopped fuel enough
  obtain ⟨fuel, rfl⟩ : ∃ less, fuel = less + 1 := ⟨fuel - 1, by omega⟩
  have read := chunk.reads tighter (stops_three stopped) fuel (by omega)
  simp [readOperand, within, read]

/-- The words of a test are recognised, and none of them is an operator or a dot. -/
theorem testWord?_words (word : TestWord) (rest : List Token) :
    testWord? (word.words ++ rest) = some (word, rest) ∧ ∃ token others,
      word.words ++ rest = token :: others ∧ binaryOp? token = none ∧ token ≠ .symbol .dot := by
  cases word with
  | isNull negated | inSet negated | between negated | like negated =>
    cases negated <;> exact ⟨rfl, _, _, rfl, rfl, by simp⟩

/-- A test after its first operand. -/
theorem Chunk.test {word : TestWord} {operands : List Token} {test : Tree} {cost : Nat}
    (chunk : Chunk tokens left level) (tighter : 4 < level)
    (bound : cost ≤ 2 + 3 * operands.length)
    (read : ∀ rest, stops 5 rest = true → ∀ fuel, cost ≤ fuel →
      readTest fuel left word (operands ++ rest) = some (test, rest)) :
    Chunk (tokens ++ (word.words ++ operands)) test 4 := by
  intro min steps rest after result within stopped goes
  obtain ⟨found, token, others, listed, plain, noDot⟩ := testWord?_words word (operands ++ rest)
  rw [listed] at found
  have nonempty : 1 ≤ word.words.length := by
    cases word <;> simp [TestWord.words]
  have later : Goes (steps + 3 * (word.words ++ operands).length) min left (token :: others)
      result after := by
    intro fuel enough
    simp only [List.length_append] at enough
    obtain ⟨fuel, rfl⟩ : ∃ less, fuel = less + 1 := ⟨fuel - 1, by omega⟩
    simp only [readFurther, plain, found, if_pos within, read rest stopped fuel (by omega),
      Option.bind_eq_bind, Option.bind_some]
    exact goes fuel (by omega)
  have stopped' : stops (level + 1) (token :: others) = true := by
    simp only [stops, plain, Bool.and_eq_true, Bool.or_eq_true, decide_eq_true_eq, bne_iff_ne]
    exact ⟨noDot, Or.inr (by omega)⟩
  have whole := chunk (by omega) stopped' later
  rw [← listed] at whole
  intro fuel enough
  have := whole fuel (by simp only [List.length_append] at enough ⊢; omega)
  simpa [List.append_assoc] using this

/-- The tokens are read as a list of expressions up to the parenthesis after them. -/
def ReadsList (tokens : List Token) (trees : List Tree) : Prop :=
  ∀ rest fuel, 3 * tokens.length + 2 ≤ fuel →
    readList fuel (tokens ++ .symbol .rightParen :: rest) = some (trees, rest)

/-- A chunk is a list of one value. -/
theorem Chunk.readsOne (chunk : Chunk tokens tree level) (positive : 1 ≤ level) :
    ReadsList tokens [tree] := by
  intro rest fuel enough
  obtain ⟨fuel, rfl⟩ : ∃ less, fuel = less + 1 := ⟨fuel - 1, by omega⟩
  have read : readExpr fuel 1 (tokens ++ .symbol .rightParen :: rest) =
      some (tree, .symbol .rightParen :: rest) := chunk.reads positive rfl fuel (by omega)
  simp [readList, read, closing]

/-- A chunk in front of a list is a list of one value more. -/
theorem Chunk.readsCons {others : List Token} {trees : List Tree} (chunk : Chunk tokens tree level)
    (positive : 1 ≤ level) (further : ReadsList others trees) :
    ReadsList (tokens ++ .symbol .comma :: others) (tree :: trees) := by
  intro rest fuel enough
  simp only [List.length_append, List.length_cons] at enough
  obtain ⟨fuel, rfl⟩ : ∃ less, fuel = less + 1 := ⟨fuel - 1, by omega⟩
  have read : readExpr fuel 1 (tokens ++ .symbol .comma :: (others ++ .symbol .rightParen :: rest)) =
      some (tree, .symbol .comma :: (others ++ .symbol .rightParen :: rest)) :=
    chunk.reads positive rfl fuel (by omega)
  simp [readList, read, further rest fuel (by omega)]

/-- Whether a value can begin with the token. -/
def opens : Token → Bool
  | .identifier _ | .integer _ | .decimal _ | .string _ | .placeholder _ | .function _ => true
  | .keyword .trueKw | .keyword .falseKw | .keyword .null => true
  | .symbol .minus | .symbol .leftParen => true
  | _ => false

/-- The first of the tokens is one that a value can begin with. -/
def Opens (tokens : List Token) : Prop := ∃ token rest, tokens = token :: rest ∧ opens token = true

/-- What opens a value still does with more behind it. -/
theorem Opens.append {more : List Token} (opening : Opens tokens) : Opens (tokens ++ more) := by
  obtain ⟨token, rest, rfl, opened⟩ := opening
  exact ⟨token, rest ++ more, rfl, opened⟩

/-- A text that opens a value is not the empty list. -/
theorem readNoValues_opens (opening : Opens tokens) : readNoValues tokens = none := by
  obtain ⟨token, rest, rfl, opened⟩ := opening
  unfold readNoValues
  split
  · rename_i same
    obtain ⟨rfl, _⟩ := List.cons.inj same
    cases opened
  · rename_i same
    obtain ⟨rfl, _⟩ := List.cons.inj same
    cases opened
  · rfl

/-- A text that opens a value has no `distinct` in front. -/
theorem readDistinct_opens (opening : Opens tokens) : readDistinct tokens = (false, tokens) := by
  obtain ⟨token, rest, rfl, opened⟩ := opening
  unfold readDistinct
  split
  · rename_i same
    obtain ⟨rfl, _⟩ := List.cons.inj same
    cases opened
  · rfl

/-- What begins like a value is no sub-select. -/
theorem readTest_values {negated : Bool} {fuel : Nat} (opening : Opens tokens) :
    readTest (fuel + 1) left (.inSet negated) (.symbol .leftParen :: tokens) =
      (readList fuel tokens).map fun (values, rest) => (.inList left values negated, rest) := by
  obtain ⟨token, rest, rfl, opened⟩ := opening
  rw [readTest]
  intro others same
  obtain ⟨rfl, _⟩ := List.cons.inj same
  cases opened

/-- The tokens are passed over as a whole on the way to the parenthesis that closes. -/
def Balanced (tokens : List Token) : Prop :=
  ∀ depth rest, takeInside depth (tokens ++ rest) =
    (takeInside depth rest).map fun (inside, after) => (tokens ++ inside, after)

/-- No tokens are balanced. -/
theorem balanced_nil : Balanced [] := by
  intro depth rest
  simp

/-- Balanced texts one behind the other are balanced. -/
theorem Balanced.append {more : List Token} (first : Balanced tokens) (second : Balanced more) :
    Balanced (tokens ++ more) := by
  intro depth rest
  rw [List.append_assoc, first, second, Option.map_map]
  simp [Function.comp_def]

/-- A token other than a parenthesis. -/
theorem balanced_token {token : Token} (left : token ≠ .symbol .leftParen)
    (right : token ≠ .symbol .rightParen) : Balanced [token] := by
  intro depth rest
  simp only [List.singleton_append]
  rw [takeInside]
  · exact left
  · exact fun _ => right
  · exact fun _ _ => right

/-- A balanced text in parentheses is balanced. -/
theorem Balanced.parenthesised (balanced : Balanced tokens) :
    Balanced (.symbol .leftParen :: (tokens ++ [.symbol .rightParen])) := by
  intro depth rest
  simp only [List.cons_append, List.append_assoc, List.nil_append, takeInside, balanced (depth + 1),
    Option.map_map]
  simp [Function.comp_def]

/-- The word before the arguments of a call. -/
def distinctWord (distinct : Bool) : List Token := if distinct then [.keyword .distinct] else []

/-- A call whose arguments have been read, whichever way they are read. -/
theorem chunk_call {callee : String} {distinct : Bool} {trees : List Tree} {cost : Nat}
    (bound : cost ≤ 3 * tokens.length + 5)
    (plain : ∀ rest, readDistinct (tokens ++ .symbol .rightParen :: rest) =
      (false, tokens ++ .symbol .rightParen :: rest))
    (listed : ∀ rest fuel, cost ≤ fuel → (readNoValues (tokens ++ .symbol .rightParen :: rest) <|>
      readList fuel (tokens ++ .symbol .rightParen :: rest)) = some (trees, rest)) :
    Chunk (.function callee :: .symbol .leftParen :: (distinctWord distinct ++ tokens ++
      [.symbol .rightParen])) (.call callee distinct trees) 7 := by
  refine chunk_of_begins (cost + 1) ?_ ?_
  · simp only [List.length_cons, List.length_append]
    omega
  · intro min rest _ _ fuel enough
    obtain ⟨fuel, rfl⟩ : ∃ less, fuel = less + 1 := ⟨fuel - 1, by omega⟩
    have read := listed rest fuel (by omega)
    have distinctRead : readDistinct (distinctWord distinct ++ (tokens ++ .symbol .rightParen :: rest)) =
        (distinct, tokens ++ .symbol .rightParen :: rest) := by
      cases distinct with
      | true => rfl
      | false => exact plain rest
    simp only [List.cons_append, List.append_assoc, List.nil_append, readOperand, distinctRead, read,
      Option.map_some]

end Rules

end ObjectQuery.Sql

import ObjectQuery.Proofs.Sql.Shape
/-!
# Reading expressions

`readTokens` reads the tokens of an expression with the grammar that SQL has for them. From loose to
tight, the levels are: 1 for `or`, 2 for `and`, 3 for `not`, 4 for comparisons and the tests `in`,
`between`, `like` and `is null`, 5 for `+` and `-`, 6 for `*`, `/` and `%`, and 7 for a minus sign in
front. Operators of one level are grouped to the left. Spaces are passed over, and a sub-select in
parentheses is taken as it stands.
-/
namespace ObjectQuery.Sql

/-- What the reader gives for the tokens of an expression. A sub-select is left as tokens. -/
inductive Tree where
  | column (table : Option String) (name : String)
  | literal (value : Literal)
  | parameter (parameter : Parameter)
  | binary (op : BinaryOp) (left right : Tree)
  | not (operand : Tree)
  | negate (operand : Tree)
  | call (callee : String) (distinct : Bool) (arguments : List Tree)
  | inList (test : Tree) (values : List Tree) (negated : Bool)
  | inQuery (test : Tree) (query : List Token) (negated : Bool)
  | between (operand low high : Tree) (negated : Bool)
  | isNull (operand : Tree) (negated : Bool)
  | like (operand pattern : Tree) (negated : Bool)
  | star

/-- The tokens without spaces. -/
def bare (tokens : List Token) : List Token := tokens.filter (· != .space)

mutual

/-- The expression as a tree, with sub-selects left as tokens. -/
def Expr.outline : Expr → Tree
  | .column table name => .column table name
  | .literal value => .literal value
  | .parameter parameter => .parameter parameter
  | .binary op left right => .binary op left.outline right.outline
  | .not operand => .not operand.outline
  | .negate operand => .negate operand.outline
  | .call callee distinct arguments => .call callee distinct (outlines arguments)
  | .inList test values negated => .inList test.outline (outlines values) negated
  | .inQuery test query negated => .inQuery test.outline (bare query.tokens) negated
  | .between operand low high negated => .between operand.outline low.outline high.outline negated
  | .isNull operand negated => .isNull operand.outline negated
  | .like operand pattern negated => .like operand.outline pattern.outline negated
  | .star => .star

/-- The expressions as trees. -/
def outlines : List Expr → List Tree
  | [] => []
  | expr :: rest => expr.outline :: outlines rest

end

/-- The level of an operator. -/
def BinaryOp.level : BinaryOp → Nat
  | or => 1
  | and => 2
  | comparison _ => 4
  | arithmetic .add | arithmetic .subtract => 5
  | arithmetic .multiply | arithmetic .divide | arithmetic .modulo => 6

/-- The operator that a token stands for. -/
def binaryOp? : Token → Option BinaryOp
  | .keyword .andKw => some .and
  | .keyword .orKw => some .or
  | .symbol .eq => some (.comparison .eq)
  | .symbol .ne => some (.comparison .ne)
  | .symbol .lt => some (.comparison .lt)
  | .symbol .le => some (.comparison .le)
  | .symbol .gt => some (.comparison .gt)
  | .symbol .ge => some (.comparison .ge)
  | .symbol .plus => some (.arithmetic .add)
  | .symbol .minus => some (.arithmetic .subtract)
  | .symbol .star => some (.arithmetic .multiply)
  | .symbol .slash => some (.arithmetic .divide)
  | .symbol .percent => some (.arithmetic .modulo)
  | _ => none

/-- The tests that follow their first operand. -/
inductive TestWord where
  | isNull (negated : Bool)
  | inSet (negated : Bool)
  | between (negated : Bool)
  | like (negated : Bool)

/-- The words of a test. -/
def TestWord.words : TestWord → List Token
  | isNull negated => [.keyword (if negated then .isNotNull else .isNull)]
  | inSet negated => bare (negationTokens negated) ++ [.keyword .inKw]
  | between negated => bare (negationTokens negated) ++ [.keyword .between]
  | like negated => bare (negationTokens negated) ++ [.keyword .like]

/-- The test that begins here. -/
def testWord? : List Token → Option (TestWord × List Token)
  | .keyword .isNull :: rest => some (.isNull false, rest)
  | .keyword .isNotNull :: rest => some (.isNull true, rest)
  | .keyword .inKw :: rest => some (.inSet false, rest)
  | .keyword .between :: rest => some (.between false, rest)
  | .keyword .like :: rest => some (.like false, rest)
  | .keyword .notKw :: .keyword .inKw :: rest => some (.inSet true, rest)
  | .keyword .notKw :: .keyword .between :: rest => some (.between true, rest)
  | .keyword .notKw :: .keyword .like :: rest => some (.like true, rest)
  | _ => none

/-- The tokens up to the parenthesis that closes, and those after it. -/
def takeInside : Nat → List Token → Option (List Token × List Token)
  | _, [] => none
  | depth, .symbol .leftParen :: rest =>
    (takeInside (depth + 1) rest).map fun (inside, after) => (.symbol .leftParen :: inside, after)
  | 0, .symbol .rightParen :: rest => some ([], rest)
  | depth + 1, .symbol .rightParen :: rest =>
    (takeInside depth rest).map fun (inside, after) => (.symbol .rightParen :: inside, after)
  | depth, token :: rest =>
    (takeInside depth rest).map fun (inside, after) => (token :: inside, after)

/-- A column, a literal or a placeholder. -/
def readAtom : List Token → Option (Tree × List Token)
  | .identifier table :: .symbol .dot :: .identifier name :: rest =>
    some (.column (some table) name, rest)
  | .identifier name :: rest => some (.column none name, rest)
  | .integer value :: rest => some (.literal (.integer value), rest)
  | .decimal value :: rest => some (.literal (.decimal value), rest)
  | .string content :: rest => some (.literal (.text content), rest)
  | .keyword .trueKw :: rest => some (.literal (.boolean true), rest)
  | .keyword .falseKw :: rest => some (.literal (.boolean false), rest)
  | .keyword .null :: rest => some (.literal .null, rest)
  | .placeholder parameter :: rest => some (.parameter parameter, rest)
  | _ => none

/-- Whether the arguments of a call are distinct, and the tokens after that word. -/
def readDistinct : List Token → Bool × List Token
  | .keyword .distinct :: rest => (true, rest)
  | tokens => (false, tokens)

/-- A star or nothing at all for the arguments of a call, up to the parenthesis that closes. -/
def readNoValues : List Token → Option (List Tree × List Token)
  | .symbol .star :: .symbol .rightParen :: rest => some ([.star], rest)
  | .symbol .rightParen :: rest => some ([], rest)
  | _ => none

/-- What follows a parenthesis that closes here. -/
def closing : List Token → Option (List Token)
  | .symbol .rightParen :: rest => some rest
  | _ => none

mutual

/-- Reads an expression whose operators are of the level `min` or tighter. -/
def readExpr : Nat → Nat → List Token → Option (Tree × List Token)
  | 0, _, _ => none
  | fuel + 1, min, tokens => do
    let (operand, rest) ← readOperand fuel min tokens
    readFurther fuel min operand rest

/-- Reads an expression without operators between operands. -/
def readOperand : Nat → Nat → List Token → Option (Tree × List Token)
  | 0, _, _ => none
  | fuel + 1, min, .keyword .notKw :: rest =>
    if min ≤ 3 then (readExpr fuel 3 rest).map fun (operand, rest) => (.not operand, rest) else none
  | fuel + 1, _, .symbol .minus :: rest =>
    (readExpr fuel 7 rest).map fun (operand, rest) => (.negate operand, rest)
  | fuel + 1, _, .symbol .leftParen :: rest => do
    let (inner, rest) ← readExpr fuel 1 rest
    (closing rest).map fun rest => (inner, rest)
  | fuel + 1, _, .function callee :: .symbol .leftParen :: rest =>
    let (distinct, rest) := readDistinct rest
    (readNoValues rest <|> readList fuel rest).map fun (arguments, rest) =>
      (.call callee distinct arguments, rest)
  | _ + 1, _, tokens => readAtom tokens

/-- Reads expressions with commas between them, up to a parenthesis that closes. -/
def readList : Nat → List Token → Option (List Tree × List Token)
  | 0, _ => none
  | fuel + 1, tokens => do
    let (first, rest) ← readExpr fuel 1 tokens
    match rest with
    | .symbol .comma :: rest =>
      (readList fuel rest).map fun (others, rest) => (first :: others, rest)
    | rest => (closing rest).map fun rest => ([first], rest)

/-- Goes on reading operators and tests of the level `min` or tighter after their first operand. -/
def readFurther : Nat → Nat → Tree → List Token → Option (Tree × List Token)
  | 0, _, _, _ => none
  | _ + 1, _, left, [] => some (left, [])
  | fuel + 1, min, left, token :: rest =>
    match binaryOp? token with
    | some op =>
      if min ≤ op.level then do
        let (right, rest) ← readExpr fuel (op.level + 1) rest
        readFurther fuel min (.binary op left right) rest
      else some (left, token :: rest)
    | none =>
      match testWord? (token :: rest) with
      | some (word, operands) =>
        if min ≤ 4 then do
          let (test, rest) ← readTest fuel left word operands
          readFurther fuel min test rest
        else some (left, token :: rest)
      | none => some (left, token :: rest)

/-- Reads what a test has after its word. -/
def readTest : Nat → Tree → TestWord → List Token → Option (Tree × List Token)
  | 0, _, _, _ => none
  | _ + 1, left, .isNull negated, rest => some (.isNull left negated, rest)
  | fuel + 1, left, .like negated, rest =>
    (readExpr fuel 5 rest).map fun (pattern, rest) => (.like left pattern negated, rest)
  | fuel + 1, left, .between negated, rest => do
    let (low, rest) ← readExpr fuel 5 rest
    match rest with
    | .keyword .andKw :: rest =>
      (readExpr fuel 5 rest).map fun (high, rest) => (.between left low high negated, rest)
    | _ => none
  | _ + 1, left, .inSet negated, .symbol .leftParen :: .keyword .select :: rest =>
    (takeInside 0 (.keyword .select :: rest)).map fun (query, rest) =>
      (.inQuery left query negated, rest)
  | fuel + 1, left, .inSet negated, .symbol .leftParen :: rest =>
    (readList fuel rest).map fun (values, rest) => (.inList left values negated, rest)
  | _ + 1, _, .inSet _, _ => none

end

/-- Reads all tokens as one expression, if they are one. -/
def readTokens (tokens : List Token) : Option Tree :=
  match readExpr (3 * (bare tokens).length + 1) 1 (bare tokens) with
  | some (tree, []) => some tree
  | _ => none

end ObjectQuery.Sql

import ObjectQuery.Grammar.Reader
import ObjectQuery.Grammar.Tree
import ObjectQuery.Number.Rounding
import ObjectQuery.Text.Quoted
/-!
# Reading expressions

Three layers of operators stand over the atoms: sums over products over minus signs, the first two
associating to the left. An atom is a literal, a parameter, a call, a path or an expression in
parentheses; in a path every name may have an index in brackets.
-/
namespace ObjectQuery.Grammar

open Number Reader

/-- The integers that a literal can denote are those of 64 bits. -/
def maxInteger : Nat := 9223372036854775807

/-- The positions that a parameter can have are those of 32 bits. -/
def maxPosition : Nat := 4294967295

/-- The literal that a number denotes: a decimal if it has a point and otherwise an integer, unless
that is too large. -/
def numberLiteral? (digits : List Char) : Option Literal :=
  if digits.contains '.' then (readUnsigned? false digits).map .decimal
  else if digitsValue digits ≤ maxInteger then some (.integer (digitsValue digits))
  else none

/-- The literal that a token denotes. -/
def literalOf? : Token → Option Literal
  | .number digits => numberLiteral? digits.toList
  | .quotation content => some (.text (String.ofList (Text.collapse '\'' content.toList)))
  | .keyword .trueKw => some (.boolean true)
  | .keyword .falseKw => some (.boolean false)
  | .keyword .null => some .null
  | _ => none

/-- The position that a number denotes, or what is wrong with it. The part before a point decides
first whether the number is too large. -/
def positionOf (digits : List Char) : Except String Nat :=
  if maxPosition < digitsValue (digits.takeWhile Char.isDigit) then
    .error "number too large to fit in target type"
  else if digits.all Char.isDigit then .ok (digitsValue digits)
  else .error "invalid digit found in string"

/-- Reads the position of a parameter. A number that is no position is a stop with a reason. -/
def ordinal : Reader Nat := fun input =>
  match input with
  | ⟨.number digits, _, _⟩ :: rest => match positionOf digits.toList with
    | .ok position => ⟨some (position, rest), none⟩
    | .error reason => ⟨none, some ⟨input.length,
        some ("invalid parameter position '" ++ digits ++ "': " ++ reason)⟩⟩
  | _ => ⟨none, some ⟨input.length, none⟩⟩

/-- Reads a path whose index expressions `nested` reads. -/
def path (nested : Reader Expr) : Reader (Path Expr) := do
  let ((first, rest), span) ← spanned do
    let first ← part
    let rest ← many (do mark .dot; part)
    return (first, rest)
  return ⟨first, rest, span⟩
where
  /-- Reads one name with its index. -/
  part : Reader (PathPart Expr) := do
    let name ← name
    let index ← optional (between .leftBracket .rightBracket nested)
    return ⟨name, index⟩

/-- Reads a literal. -/
def literal : Reader Expr := do
  let (value, span) ← spanned (item literalOf?)
  return .literal span value

/-- Reads a parameter with a name. -/
def namedParameter : Reader Expr := do
  let (name, span) ← spanned (do mark .colon; identifier)
  return .named span name

/-- Reads a parameter with a position, or without. -/
def positionalParameter : Reader Expr := do
  let (position, span) ← spanned (do mark .question; optional ordinal)
  return .positional span position

/-- Reads a call whose argument is a star or what `nested` reads. -/
def call (nested : Reader Expr) : Reader Expr := do
  let ((name, distinct, argument), span) ← spanned do
    let name ← name
    mark .leftParen
    let distinct ← flag .distinct
    let argument ← (do mark .star; return none) <|> (do let argument ← nested; return some argument)
    mark .rightParen
    return (name, distinct, argument)
  return .call span name distinct argument

/-- Reads an operand without operators around it. -/
def atom (nested : Reader Expr) : Reader Expr :=
  literal <|> namedParameter <|> positionalParameter <|> call nested
    <|> (do let path ← path nested; return .path path)
    <|> between .leftParen .rightParen nested

/-- Reads an atom with any number of minus signs before it. -/
def unary (nested : Reader Expr) : Reader Expr := do
  let signs ← many (spanned (mark .minus))
  let operand ← atom nested
  return signs.foldr (fun (_, sign) operand => .negate (sign.through operand.span) operand) operand

/-- The operation on two operands, which spans both. -/
def operation (left : Expr) (op : ArithmeticOp) (right : Expr) : Expr :=
  .arithmetic (left.span.through right.span) op left right

/-- Reads operands with operators between them, which associate to the left. -/
def leftAssociative (operator : Reader ArithmeticOp) (operand : Reader Expr) : Reader Expr := do
  let first ← operand
  let rest ← many (do
    let op ← operator
    let right ← operand
    return (op, right))
  return rest.foldl (fun left (op, right) => operation left op right) first

/-- The operators that bind most tightly. -/
def productOp? : Token → Option ArithmeticOp
  | .mark .star => some .multiply
  | .mark .slash => some .divide
  | .mark .percent => some .modulo
  | _ => none

/-- The operators that bind less tightly. -/
def sumOp? : Token → Option ArithmeticOp
  | .mark .plus => some .add
  | .mark .minus => some .subtract
  | _ => none

/-- Reads a product of signed atoms. -/
def product (nested : Reader Expr) : Reader Expr :=
  leftAssociative (item productOp?) (unary nested)

/-- Reads a sum of products. -/
def sum (nested : Reader Expr) : Reader Expr :=
  leftAssociative (item sumOp?) (product nested)

/-- Reads an expression. -/
def expression : Reader Expr := nested sum

end ObjectQuery.Grammar

import ObjectQuery.Text.Ranges
import ObjectQuery.Text.Identifier
import ObjectQuery.Token.Basic
/-!
# From characters to tokens

Between tokens stand white space, comments from `--` to the end of the line and comments between
`/*` and the next `*/`. What remains is cut into tokens from the left, each as long as possible. A
comment that is never closed is no comment: its two characters are tokens of their own.

Every scanning function answers with a number of characters, so that a token's text is what the
source holds at that place and nothing else has to be kept in step with it.
-/
namespace ObjectQuery

open Text

namespace Trivia

/-- The number of characters up to and including the end of a block comment whose opening has been
read. -/
def closing? : List Char → Option Nat
  | '*' :: '/' :: _ => some 2
  | _ :: rest => (closing? rest).map (· + 1)
  | [] => none

/-- The length of the piece of white space or the comment that the text starts with. -/
def piece? : List Char → Option Nat
  | '-' :: '-' :: rest => some (2 + (rest.takeWhile (· != '\n')).length)
  | '/' :: '*' :: rest => (closing? rest).map (· + 2)
  | c :: _ => if isBlank c then some 1 else none
  | [] => none

/-- The length of all white space and comments before the next token, looking at no more than `fuel`
pieces. -/
def lengthWithin : Nat → List Char → Nat
  | 0, _ => 0
  | fuel + 1, cs => match piece? cs with
    | some taken => taken + lengthWithin fuel (cs.drop taken)
    | none => 0

/-- The length of all white space and comments before the next token. No piece is empty, so there
are no more pieces than characters. -/
def length (cs : List Char) : Nat := lengthWithin cs.length cs

end Trivia

namespace Token

/-- The number of characters of a quotation after its opening mark, the closing one included. Two
marks in a row belong to the content. -/
def quotationLength? : List Char → Option Nat
  | '\'' :: '\'' :: rest => (quotationLength? rest).map (· + 2)
  | '\'' :: _ => some 1
  | _ :: rest => (quotationLength? rest).map (· + 1)
  | [] => none

/-- The number of characters of a number: digits, and a point with further digits if both follow. -/
def numberLength (cs : List Char) : Nat :=
  let whole := (cs.takeWhile Char.isDigit).length
  match cs.drop whole with
  | '.' :: rest =>
    let places := (rest.takeWhile Char.isDigit).length
    if places = 0 then whole else whole + 1 + places
  | _ => whole

/-- The sign that the text starts with, and its length. Signs of two characters come first. -/
def scanMark? : List Char → Option (Mark × Nat)
  | '<' :: '>' :: _ => some (.ne, 2)
  | '!' :: '=' :: _ => some (.ne, 2)
  | '<' :: '=' :: _ => some (.le, 2)
  | '>' :: '=' :: _ => some (.ge, 2)
  | '(' :: _ => some (.leftParen, 1)
  | ')' :: _ => some (.rightParen, 1)
  | '[' :: _ => some (.leftBracket, 1)
  | ']' :: _ => some (.rightBracket, 1)
  | ',' :: _ => some (.comma, 1)
  | '.' :: _ => some (.dot, 1)
  | ':' :: _ => some (.colon, 1)
  | '?' :: _ => some (.question, 1)
  | '=' :: _ => some (.eq, 1)
  | '<' :: _ => some (.lt, 1)
  | '>' :: _ => some (.gt, 1)
  | '+' :: _ => some (.plus, 1)
  | '-' :: _ => some (.minus, 1)
  | '*' :: _ => some (.star, 1)
  | '/' :: _ => some (.slash, 1)
  | '%' :: _ => some (.percent, 1)
  | _ => none

/-- A word is a keyword if it spells one and an identifier otherwise. -/
def ofWord (word : List Char) : Token :=
  match Keyword.ofWord? word with
  | some reserved => .keyword reserved
  | none => .identifier (String.ofList word)

/-- The token that the text starts with, and its length. -/
def scan? : List Char → Option (Token × Nat)
  | [] => none
  | c :: rest =>
    if isIdentifierStart c then
      let word := c :: rest.takeWhile isIdentifierRest
      some (ofWord word, word.length)
    else if c = '\'' then
      (quotationLength? rest).map fun length =>
        (.quotation (String.ofList (rest.take (length - 1))), length + 1)
    else if c.isDigit then
      let length := numberLength (c :: rest)
      some (.number (String.ofList ((c :: rest).take length)), length)
    else (scanMark? (c :: rest)).map fun (sign, length) => (.mark sign, length)

end Token

namespace Lexeme

/-- What is found at a place where no token starts: the character there. An exclamation mark is the
first half of a sign, so what is wrong is the character after it. -/
def failure (start : Nat) : List Char → Diagnostic
  | '!' :: c :: _ => found (start + 1) c
  | '!' :: [] => ⟨⟨start + 1, start + 1⟩, "found end of input"⟩
  | c :: _ => found start c
  | [] => ⟨⟨start, start⟩, "found end of input"⟩
where
  /-- The diagnostic for an unexpected character. -/
  found (start : Nat) (c : Char) : Diagnostic :=
    ⟨⟨start, start + c.utf8Size⟩, "found '" ++ c.toString ++ "'"⟩

/-- The tokens of a text that starts at byte `start`, at most `fuel` of them. -/
def scanWithin : Nat → Nat → List Char → Except Diagnostic (List Lexeme)
  | 0, _, _ => .ok []
  | fuel + 1, start, cs =>
    let gap := Trivia.length cs
    let start := start + byteLength (cs.take gap)
    let cs := cs.drop gap
    if cs.isEmpty then .ok []
    else match Token.scan? cs with
      | none => .error (failure start cs)
      | some (token, length) =>
        let text := cs.take length
        let stop := start + byteLength text
        (scanWithin fuel stop (cs.drop length)).map fun rest =>
          ⟨token, String.ofList text, ⟨start, stop⟩⟩ :: rest

/-- The tokens of a query text as they are spelled, keywords in name positions included. No token
is empty, so there are no more tokens than characters. -/
def scan (source : String) : Except Diagnostic (List Lexeme) :=
  scanWithin source.toList.length 0 source.toList

end Lexeme
end ObjectQuery

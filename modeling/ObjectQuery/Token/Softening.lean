import ObjectQuery.Token.Lexer
/-!
# Keywords in name positions

Entities and attributes may be named like keywords: `from Order o`, `o.set`. Where the grammar can
only have a name, a keyword is read as an identifier with the keyword's own spelling. Such places
follow a dot, `from`, `join`, `fetch`, `update` or `delete`, or a comma between two items of a
from-clause; `join fetch` and `delete from` stay what they are.
-/
namespace ObjectQuery

/-- Whether the text at hand is inside a from-clause, for each level of parentheses: the innermost
open level is `current`, and `outer` holds the levels around it from the inside out. -/
structure FromLevels where
  current : Bool
  outer : List Bool

namespace FromLevels

/-- Nothing is open and no from-clause has begun. -/
def start : FromLevels := ⟨false, []⟩

/-- The levels after a token. Parentheses open and close levels, `from` begins a from-clause, and
the keywords that begin another clause end it. -/
def after (levels : FromLevels) : Token → FromLevels
  | .mark .leftParen => ⟨false, levels.current :: levels.outer⟩
  | .mark .rightParen => match levels.outer with
    | [] => levels
    | level :: outer => ⟨level, outer⟩
  | .keyword .fromKw => { levels with current := true }
  | .keyword .select | .keyword .whereKw | .keyword .order | .keyword .setKw =>
    { levels with current := false }
  | _ => levels

end FromLevels

namespace Lexeme

/-- Whether a keyword that follows `previous` stands where a name is wanted. -/
def isNamePosition (levels : FromLevels) (previous : Option Token) (token : Token) : Bool :=
  match previous with
  | some (.mark .dot) => true
  | some (.mark .comma) => levels.current
  | some (.keyword .fromKw) | some (.keyword .join) | some (.keyword .fetch)
  | some (.keyword .update) => token != .keyword .fetch
  | some (.keyword .delete) => token != .keyword .fromKw
  | _ => false

/-- The lexeme read as a name if it is a keyword and `wanted`, and as it is otherwise. -/
def softenedIf (wanted : Bool) (lexeme : Lexeme) : Lexeme :=
  if wanted && lexeme.token.isKeyword then { lexeme with token := .identifier lexeme.text }
  else lexeme

/-- Softens the keywords after `previous`, which is already softened. -/
def softenAfter (levels : FromLevels) (previous : Option Token) : List Lexeme → List Lexeme
  | [] => []
  | lexeme :: rest =>
    let read := lexeme.softenedIf (isNamePosition levels previous lexeme.token)
    read :: softenAfter (levels.after read.token) (some read.token) rest

/-- Reads every keyword in a name position as an identifier. -/
def soften (lexemes : List Lexeme) : List Lexeme := softenAfter .start none lexemes

/-- The tokens of a query text, keywords in name positions read as names. -/
def read (source : String) : Except Diagnostic (List Lexeme) := (scan source).map soften

end Lexeme
end ObjectQuery

import ObjectQuery.Settings.Basic
import ObjectQuery.Text.Word
/-!
# References to variables

A text may refer to variables of the environment, by a dollar sign and a name or by a dollar sign and
a name in braces. Values take the place of references from left to right; what a value contains is
not looked at again.
-/
namespace ObjectQuery.Expansion

/-- A piece of a text that refers to variables. -/
inductive Piece where
  | plain (c : Char)
  | reference (name : String)
  /-- A reference in braces without the closing one. -/
  | unterminated (name : String)
  deriving DecidableEq, Repr

/-- The characters of a name without braces. -/
def isNameChar (c : Char) : Bool := Text.isAlphanumeric c || c == '_'

/-- The piece for a name: a dollar sign without one stands for itself. -/
def pieceOf (name : List Char) : Piece :=
  if name.isEmpty then .plain '$' else .reference (String.ofList name)

/-- The pieces of a text, at most `fuel` of them. -/
def scanWithin : Nat → List Char → List Piece
  | 0, _ => []
  | _, [] => []
  | fuel + 1, '$' :: '\x7b' :: rest =>
    let name := rest.takeWhile (· != '\x7d')
    match rest.dropWhile (· != '\x7d') with
    | [] => [.unterminated (String.ofList name)]
    | _ :: after => pieceOf name :: scanWithin fuel after
  | fuel + 1, '$' :: rest =>
    pieceOf (rest.takeWhile isNameChar) :: scanWithin fuel (rest.dropWhile isNameChar)
  | fuel + 1, c :: rest => .plain c :: scanWithin fuel rest

/-- The pieces of a text. Every piece has at least one character. -/
def scan (text : String) : List Piece := scanWithin text.toList.length text.toList

/-- The names that a text refers to. -/
def names (text : String) : List String := (scan text).filterMap fun
  | .reference name => some name
  | _ => none

/-- The characters that a piece stands for. -/
def Piece.value (environment : String → Option String) : Piece → Except SettingsError (List Char)
  | .plain c => .ok [c]
  | .reference name => match environment name with
    | some content => .ok content.toList
    | none => .error (.missingVariable name)
  | .unterminated name => .error (.unterminatedReference name)

/-- The text with every reference replaced by the value of its variable. -/
def expand (environment : String → Option String) (text : String) :
    Except SettingsError String := do
  let pieces ← (scan text).mapM (Piece.value environment)
  return String.ofList pieces.flatten

end ObjectQuery.Expansion

namespace ObjectQuery

/-- The path of the model with variables filled in. -/
def Settings.modelPath (environment : String → Option String) (settings : Settings) :
    Except SettingsError (Option String) :=
  match settings.model with
  | none => .ok none
  | some path => (Expansion.expand environment path).map some

end ObjectQuery

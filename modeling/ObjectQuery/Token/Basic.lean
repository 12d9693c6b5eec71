import ObjectQuery.Source.Span
/-!
# Tokens of the query language

The words and signs that a query text is made of. Keywords are one word in any ASCII case;
identifiers keep their spelling; a quoted text keeps its content as written, quotation marks inside
it still doubled. `Token.display` is the form in which diagnostics name a token.
-/
namespace ObjectQuery

/-- The reserved words. -/
inductive Keyword where
  | select | distinct | fromKw | whereKw | order | byKw | asc | desc | asKw
  | update | setKw | delete
  | join | inner | left | outer | cross | fetch | withKw | onKw
  | andKw | orKw | notKw | inKw | member | ofKw | isKw | null | like | between | trueKw | falseKw
  deriving DecidableEq, Repr, Inhabited

namespace Keyword

/-- The lower-case spelling. -/
def text : Keyword → String
  | select => "select"
  | distinct => "distinct"
  | fromKw => "from"
  | whereKw => "where"
  | order => "order"
  | byKw => "by"
  | asc => "asc"
  | desc => "desc"
  | asKw => "as"
  | update => "update"
  | setKw => "set"
  | delete => "delete"
  | join => "join"
  | inner => "inner"
  | left => "left"
  | outer => "outer"
  | cross => "cross"
  | fetch => "fetch"
  | withKw => "with"
  | onKw => "on"
  | andKw => "and"
  | orKw => "or"
  | notKw => "not"
  | inKw => "in"
  | member => "member"
  | ofKw => "of"
  | isKw => "is"
  | null => "null"
  | like => "like"
  | between => "between"
  | trueKw => "true"
  | falseKw => "false"

/-- Every keyword once. -/
def all : List Keyword :=
  [select, distinct, fromKw, whereKw, order, byKw, asc, desc, asKw, update, setKw, delete, join,
   inner, left, outer, cross, fetch, withKw, onKw, andKw, orKw, notKw, inKw, member, ofKw, isKw,
   null, like, between, trueKw, falseKw]

/-- The keyword that a word spells, in any ASCII case. -/
def ofWord? (word : List Char) : Option Keyword :=
  all.find? fun keyword => keyword.text.toList = word.map Char.toLower

end Keyword

/-- Punctuation and operators. -/
inductive Mark where
  | leftParen | rightParen | leftBracket | rightBracket | comma | dot | colon | question
  | eq | ne | lt | le | gt | ge | plus | minus | star | slash | percent
  deriving DecidableEq, Repr, Inhabited

/-- The sign itself; inequality has a second spelling, which is not this one. -/
def Mark.text : Mark → String
  | leftParen => "("
  | rightParen => ")"
  | leftBracket => "["
  | rightBracket => "]"
  | comma => ","
  | dot => "."
  | colon => ":"
  | question => "?"
  | eq => "="
  | ne => "<>"
  | lt => "<"
  | le => "<="
  | gt => ">"
  | ge => ">="
  | plus => "+"
  | minus => "-"
  | star => "*"
  | slash => "/"
  | percent => "%"

/-- One word or sign of a query text. -/
inductive Token where
  | keyword (word : Keyword)
  | identifier (name : String)
  | quotation (content : String)
  | number (digits : String)
  | mark (sign : Mark)
  deriving DecidableEq, Repr, Inhabited

namespace Token

/-- The token as diagnostics show it. -/
def display : Token → String
  | keyword word => word.text
  | identifier name => name
  | quotation content => "'" ++ content ++ "'"
  | number digits => digits
  | mark sign => sign.text

/-- Whether the token is a reserved word. -/
def isKeyword : Token → Bool
  | keyword _ => true
  | _ => false

end Token

/-- A token where it stands: the characters it was read from and their span. -/
structure Lexeme where
  token : Token
  text : String
  span : Span
  deriving DecidableEq, Repr

end ObjectQuery

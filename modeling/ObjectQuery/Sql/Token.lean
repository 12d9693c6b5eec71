import ObjectQuery.Number.Shortest
import ObjectQuery.Parameter
import ObjectQuery.Text.Quoted
import ObjectQuery.Text.Uppercase
/-!
# SQL tokens

A statement is first a list of tokens and only then a text, so that a placeholder still knows which
parameter it stands for. The text is standard SQL: names in double quotation marks, strings in
single ones, and a question mark for each placeholder.
-/
namespace ObjectQuery.Sql

/-- The words of generated statements. Words that always stand together are one. -/
inductive Keyword where
  | select | distinct | fromKw | whereKw | asKw | onKw | join | inner | leftOuter | cross
  | orderBy | asc | desc | andKw | orKw | notKw | inKw | between | like | isNull | isNotNull
  | trueKw | falseKw | null | update | setKw | deleteFrom
  deriving DecidableEq, Repr

/-- The upper-case spelling. -/
def Keyword.text : Keyword → String
  | select => "SELECT"
  | distinct => "DISTINCT"
  | fromKw => "FROM"
  | whereKw => "WHERE"
  | asKw => "AS"
  | onKw => "ON"
  | join => "JOIN"
  | inner => "INNER"
  | leftOuter => "LEFT OUTER"
  | cross => "CROSS"
  | orderBy => "ORDER BY"
  | asc => "ASC"
  | desc => "DESC"
  | andKw => "AND"
  | orKw => "OR"
  | notKw => "NOT"
  | inKw => "IN"
  | between => "BETWEEN"
  | like => "LIKE"
  | isNull => "IS NULL"
  | isNotNull => "IS NOT NULL"
  | trueKw => "TRUE"
  | falseKw => "FALSE"
  | null => "NULL"
  | update => "UPDATE"
  | setKw => "SET"
  | deleteFrom => "DELETE FROM"

/-- Punctuation and operators. -/
inductive Symbol where
  | leftParen | rightParen | comma | dot
  | eq | ne | lt | le | gt | ge | plus | minus | star | slash | percent
  deriving DecidableEq, Repr

/-- The sign itself. -/
def Symbol.text : Symbol → String
  | leftParen => "("
  | rightParen => ")"
  | comma => ","
  | dot => "."
  | eq => "="
  | ne => "<>"
  | lt => "<"
  | le => "<="
  | gt => ">"
  | ge => ">="
  | plus => "+"
  | minus => "-"
  | star => "*"
  | slash => "/"
  | percent => "%"

/-- One element of a statement. -/
inductive Token where
  | keyword (word : Keyword)
  | symbol (sign : Symbol)
  | space
  /-- The name of a table, a column or an alias. -/
  | identifier (content : String)
  | integer (value : Int)
  | decimal (value : Number.Binary64)
  | string (content : String)
  /-- The name of a function, in any case. -/
  | function (name : String)
  | placeholder (parameter : Parameter)
  /-- A query from the model, which is passed on as it is. -/
  | verbatim (text : String)
  deriving DecidableEq, Repr

/-- Decimals are written without an exponent from a hundred-thousandth up to sixteen digits before
the point. -/
def decimalLayout : Number.Layout := ⟨-5, 16⟩

namespace Token

/-- The text of a token. There is no way to write a decimal that is no number. -/
def text : Token → String
  | keyword word => word.text
  | symbol sign => sign.text
  | space => " "
  | identifier content => Text.quoted '"' content
  | integer value => toString value
  | decimal value => if value.isFinite then decimalLayout.number value else "NULL"
  | string content => Text.quoted '\'' content
  | function callee => Text.upper callee
  | placeholder _ => "?"
  | verbatim content => content

/-- The parameter that a placeholder stands for. -/
def parameter? : Token → Option Parameter
  | placeholder bound => some bound
  | _ => none

/-- A comma and a space. -/
def separator : List Token := [symbol .comma, space]

/-- The items with a separator between each two. -/
def separated (items : List (List Token)) : List Token := (items.intersperse separator).flatten

/-- A word with a space on both sides. -/
def spaced (word : Keyword) : List Token := [space, keyword word, space]

/-- The tokens in parentheses. -/
def parenthesised (tokens : List Token) : List Token :=
  symbol .leftParen :: tokens ++ [symbol .rightParen]

/-- The text of a statement. -/
def render (tokens : List Token) : String := String.join (tokens.map text)

/-- The parameters of the placeholders in order. -/
def parameters (tokens : List Token) : List Parameter := tokens.filterMap parameter?

end Token
end ObjectQuery.Sql

import ObjectQuery.Grammar.Predicate
import ObjectQuery.Token.Softening
/-!
# Reading statements

A text is one select, update or delete statement and nothing after it. `Statement.parse` goes all
the way from the text to its tree or to the one diagnostic that says why there is none.
-/
namespace ObjectQuery.Grammar

open Reader

/-- Reads one sort key. -/
def sortSpec : Reader SortSpec := do
  let ((expr, order), span) ← spanned do
    let expr ← expression
    let order ← optional (
      (do keyword .asc; return .ascending) <|> (do keyword .desc; return .descending))
    return (expr, order)
  return ⟨expr, order, span⟩

/-- Reads a query and its sort keys. -/
def selectStatement : Reader Statement := do
  let query ← query predicate
  let order ← optional (do
    keyword .order
    keyword .byKw
    commaSeparated sortSpec)
  return .select query (order.getD [])

/-- Reads one assignment. -/
def assignment : Reader Assignment := do
  let ((target, value), span) ← spanned do
    let target ← path expression
    mark .eq
    let value ← expression
    return (target, value)
  return ⟨target, value, span⟩

/-- Reads an update. -/
def updateStatement : Reader Statement := do
  keyword .update
  let target ← rootRef
  keyword .setKw
  let assignments ← commaSeparated assignment
  let filter ← optional (condition predicate)
  return .update target assignments filter

/-- Reads a delete. -/
def deleteStatement : Reader Statement := do
  keyword .delete
  let _ ← optional (keyword .fromKw)
  let target ← rootRef
  let filter ← optional (condition predicate)
  return .delete target filter

/-- Reads a statement and the end of the text. -/
def statement : Reader Statement := do
  let statement ← selectStatement <|> updateStatement <|> deleteStatement
  finish
  return statement

/-- The diagnostic for a stop in a text of `size` bytes. At the end of the text the span goes from
there to the end of the last lexeme. -/
def diagnose (size : Nat) (lexemes : List Lexeme) (stop : Stop) : Diagnostic :=
  match lexemes.drop (lexemes.length - stop.remaining) with
  | lexeme :: _ =>
    ⟨lexeme.span, stop.reason.getD ("found '" ++ lexeme.token.display ++ "'")⟩
  | [] =>
    ⟨⟨size, (lexemes.getLast?.map (·.span.stop)).getD size⟩, "found end of input"⟩

/-- The statement that the lexemes of a text of `size` bytes form. -/
def Statement.ofLexemes (size : Nat) (lexemes : List Lexeme) : Except Diagnostic Statement :=
  match statement lexemes with
  | ⟨some (tree, _), _⟩ => .ok tree
  | ⟨none, stop⟩ => .error (diagnose size lexemes (stop.getD ⟨lexemes.length, none⟩))

/-- The statement that a text says, or what is wrong with the text. -/
def Statement.parse (source : String) : Except Diagnostic Statement := do
  let lexemes ← Lexeme.read source
  ofLexemes (byteLength source.toList) lexemes

end ObjectQuery.Grammar

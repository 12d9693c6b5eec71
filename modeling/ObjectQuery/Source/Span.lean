/-!
# Places in a query text

A span is a range of bytes of the UTF-8 form of a query text. Spans do two jobs: a diagnostic says
where in the text the problem lies, and name resolution finds what it recorded for a node of a parse
tree under the span of that node.
-/
namespace ObjectQuery

/-- The bytes from `start` up to, and not including, `stop`. -/
structure Span where
  start : Nat
  stop : Nat
  deriving DecidableEq, Repr, Inhabited

namespace Span

/-- The smallest span that starts with the first and stops with the second. -/
def through (first last : Span) : Span := ⟨first.start, last.stop⟩

/-- Both ends with two dots between them. -/
def text (span : Span) : String := toString span.start ++ ".." ++ toString span.stop

end Span

/-- A value and the part of the query text that it was read from. -/
structure Spanned (α : Type) where
  value : α
  span : Span
  deriving DecidableEq, Repr

/-- A problem with a query text and the place it applies to. -/
structure Diagnostic where
  span : Span
  message : String
  deriving DecidableEq, Repr

/-- The message followed by the place. -/
def Diagnostic.text (diagnostic : Diagnostic) : String :=
  diagnostic.message ++ " (at " ++ diagnostic.span.text ++ ")"

/-- The number of bytes that the characters take in UTF-8. -/
def byteLength : List Char → Nat
  | [] => 0
  | c :: cs => c.utf8Size + byteLength cs

end ObjectQuery

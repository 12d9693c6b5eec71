/-!
# Quoting by doubling

Inside a quoted text the quotation mark itself is written twice. `double` writes a text that way and
`collapse` reads it back, replacing each pair of marks from the left by one.
-/
namespace ObjectQuery.Text

/-- Writes every mark twice and every other character once. -/
def double (mark : Char) : List Char → List Char
  | [] => []
  | c :: rest => if c = mark then mark :: mark :: double mark rest else c :: double mark rest

/-- Replaces each pair of marks, from the left, by a single one. -/
def collapse (mark : Char) : List Char → List Char
  | [] => []
  | [c] => [c]
  | c :: d :: rest =>
    if c = mark ∧ d = mark then mark :: collapse mark rest else c :: collapse mark (d :: rest)

/-- The text between two marks, with the marks inside it doubled. -/
def quoted (mark : Char) (text : String) : String :=
  String.ofList (mark :: double mark text.toList ++ [mark])

end ObjectQuery.Text

/-!
# Sets of code points

A character class that a standard fixes by a table is written as the increasing list of the code
points at which membership changes. One such list is much shorter than the class itself, and
membership is a walk along it.

White space is such a class: the characters that separate words in every script. It has the ASCII
blanks, the next-line control, the no-break space and the spaces and separators of the Unicode standard.
Zero-width characters are not among them.
-/
namespace ObjectQuery.Text

/-- A set of code points. The first edge is the smallest member, the second the first code point
after it that is no member, and so on, each edge changing membership once. -/
structure Ranges where
  edges : List Nat

/-- A code point is a member when an odd number of edges lie at or below it. -/
def Ranges.contains (ranges : Ranges) (point : Nat) : Bool :=
  ranges.edges.foldl (fun inside edge => if edge ≤ point then !inside else inside) false

/-! ## White space -/

/-- The code points of white space. -/
def blanks : Ranges where
  edges :=
    [9, 14, 32, 33, 133, 134, 160, 161, 5760, 5761, 8192, 8203, 8232, 8234, 8239, 8240, 8287, 8288,
     12288, 12289]

/-- Whether the character is white space. -/
def isBlank (c : Char) : Bool := blanks.contains c.toNat

/-- The characters without the white space at both ends. -/
def trimBlanks (cs : List Char) : List Char :=
  ((cs.dropWhile isBlank).reverse.dropWhile isBlank).reverse

/-- The text without the white space at both ends. -/
def trim (text : String) : String := String.ofList (trimBlanks text.toList)

end ObjectQuery.Text

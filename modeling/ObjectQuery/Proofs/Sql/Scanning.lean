import ObjectQuery.Text.Quoted
import Mathlib.Data.List.Basic
/-!
# Scanning SQL texts

A scanner cuts an SQL text into pieces: words, numbers, signs, names in double quotation marks and
strings in single ones. Blanks, comments from `--` to the end of the line and comments between `/*`
and `*/` are passed over. The scanner goes through the text once. It keeps the piece that it is in
the middle of, gives every character to this piece as long as the piece can take it, and begins a
new one with the first character that does not belong to it.

Two facts are used later. A text that is one piece stays one in front of anything that does not
continue it (`scanFrom_piece`), and what is written in the pieces of a text has no more characters
than the text (`ink_scanFrom`), so that nothing is found twice.
-/
namespace ObjectQuery.Sql

/-- A piece of an SQL text. A quoted piece is a name or a string, without its quotation marks and
with the marks inside it written once. -/
inductive Piece where
  | word (text : String)
  | number (text : String)
  | sign (text : String)
  | quoted (mark : Char) (content : String)
  deriving DecidableEq, Repr

/-- The place in a number: among the digits before the point or after it, after the letter that
begins the exponent, after the sign of the exponent, or among the digits of the exponent. -/
inductive NumberPlace where
  | whole | fraction | letter | exponentSign | exponent
  deriving DecidableEq, Repr

/-- The place after one more character of the number. -/
def NumberPlace.next? : NumberPlace → Char → Option NumberPlace
  | whole, c =>
    if c.isDigit then some whole else if c = '.' then some fraction
    else if c = 'e' ∨ c = 'E' then some letter else none
  | fraction, c =>
    if c.isDigit then some fraction else if c = 'e' ∨ c = 'E' then some letter else none
  | letter, c =>
    if c.isDigit then some exponent else if c = '+' ∨ c = '-' then some exponentSign else none
  | exponentSign, c => if c.isDigit then some exponent else none
  | exponent, c => if c.isDigit then some exponent else none

/-- Whether a number can end there. -/
def NumberPlace.isEnd : NumberPlace → Bool
  | whole | fraction | exponent => true
  | letter | exponentSign => false

/-- What the scanner is in the middle of. -/
inductive Partial where
  /-- Between two pieces. -/
  | blank
  | word (text : List Char)
  | number (place : NumberPlace) (text : List Char)
  /-- A sign of one character, with which a longer sign or a comment may begin. -/
  | sign (first : Char)
  /-- A sign of two characters. -/
  | longSign (first second : Char)
  | quoted (mark : Char) (content : List Char)
  /-- A quoted piece after a quotation mark, which ends the piece unless another mark follows. -/
  | closed (mark : Char) (content : List Char)
  | lineComment
  | blockComment (afterStar : Bool)
  deriving DecidableEq, Repr

/-- Whether the character can stand in a word. -/
def isWordPart (c : Char) : Bool := c.isAlphanum || c == '_'

/-- The characters that are signs by themselves. -/
def signs : List Char := "()[]{},.;:=<>+-*/%&|^?".toList

/-- The signs of two characters. -/
def longSigns : List (Char × Char) :=
  [('<', '='), ('<', '>'), ('>', '='), ('|', '|'), ('-', '>'), ('.', '.')]

namespace Partial

/-- What begins with a character outside of all pieces; there is nothing for a character that an SQL
text does not have there. -/
def start? (c : Char) : Option Partial :=
  if c.isWhitespace then some blank
  else if c.isDigit then some (number .whole [c])
  else if isWordPart c then some (word [c])
  else if c = '"' ∨ c = '\'' then some (quoted c [])
  else if c ∈ signs then some (sign c)
  else none

/-- The piece with one more character, if the character belongs to it. -/
def extend? : Partial → Char → Option Partial
  | blank, _ => none
  | word text, c => if isWordPart c then some (word (text ++ [c])) else none
  | number place text, c => (place.next? c).map fun next => number next (text ++ [c])
  | sign first, c =>
    if first = '-' ∧ c = '-' then some lineComment
    else if first = '/' ∧ c = '*' then some (blockComment false)
    else if (first, c) ∈ longSigns then some (longSign first c)
    else if first = '.' ∧ c.isDigit then some (number .fraction [first, c])
    else none
  | longSign _ _, _ => none
  | quoted mark content, c =>
    some (if c = mark then closed mark content else quoted mark (content ++ [c]))
  | closed mark content, c => if c = mark then some (quoted mark (content ++ [c])) else none
  | lineComment, c => some (if c = '\n' then blank else lineComment)
  | blockComment afterStar, c =>
    some (if afterStar ∧ c = '/' then blank else blockComment (c = '*'))

/-- The finished piece. A quoted piece and a comment in asterisks have to be closed, and a number has
to be complete. -/
def finish? : Partial → Option (List Piece)
  | blank | lineComment => some []
  | word text => some [.word (String.ofList text)]
  | number place text => if place.isEnd then some [.number (String.ofList text)] else none
  | sign first => some [.sign (String.ofList [first])]
  | longSign first second => some [.sign (String.ofList [first, second])]
  | closed mark content => some [.quoted mark (String.ofList content)]
  | quoted _ _ | blockComment _ => none

end Partial

/-- The pieces of a text that goes on in the middle of a piece. -/
def scanFrom : Partial → List Char → Option (List Piece)
  | current, [] => current.finish?
  | current, c :: rest =>
    match current.extend? c with
    | some longer => scanFrom longer rest
    | none => do
      let finished ← current.finish?
      let begun ← Partial.start? c
      let others ← scanFrom begun rest
      return finished ++ others

/-- The pieces of an SQL text; there are none if it ends in the middle of a quoted piece. -/
def scan (text : String) : Option (List Piece) := scanFrom .blank text.toList

/-! ## Texts that are one piece -/

/-- The piece takes all the characters. -/
def Partial.Takes : Partial → List Char → Partial → Prop
  | current, [], last => current = last
  | current, c :: rest, last => ∃ longer, current.extend? c = some longer ∧ longer.Takes rest last

/-- The text is one piece, which ends as `last`. -/
def IsPiece : List Char → Partial → Prop
  | [], _ => False
  | c :: rest, last => ∃ begun, Partial.start? c = some begun ∧ begun.Takes rest last

/-- What comes next does not continue the piece. -/
def Partial.Stops (current : Partial) (following : List Char) : Prop :=
  ∀ c ∈ following.head?, current.extend? c = none

variable {current last : Partial} {chars more following : List Char} {pieces : List Piece}

/-- No character of a word is a blank. -/
theorem isWhitespace_eq_false {c : Char} (part : isWordPart c = true) :
    c.isWhitespace = false := by
  by_contra blank
  simp only [Bool.not_eq_false, Char.isWhitespace, Bool.or_eq_true, decide_eq_true_eq] at blank
  rcases blank with ((rfl | rfl) | rfl) | rfl <;> cases part

/-- Characters may be taken in two lists. -/
theorem Partial.Takes.append {middle : Partial} (first : current.Takes chars middle)
    (second : middle.Takes more last) : current.Takes (chars ++ more) last := by
  induction chars generalizing current with
  | nil =>
    obtain rfl := first
    exact second
  | cons c rest ih =>
    obtain ⟨longer, extended, taken⟩ := first
    exact ⟨longer, extended, ih taken⟩

/-- A piece may be taken further. -/
theorem IsPiece.append {middle : Partial} (first : IsPiece chars middle)
    (second : middle.Takes more last) : IsPiece (chars ++ more) last := by
  cases chars with
  | nil => exact first.elim
  | cons c rest =>
    obtain ⟨begun, started, taken⟩ := first
    exact ⟨begun, started, taken.append second⟩

/-- Scanning goes on from where the characters taken end. -/
theorem scanFrom_takes (taken : current.Takes chars last) :
    scanFrom current (chars ++ following) = scanFrom last following := by
  induction chars generalizing current with
  | nil =>
    obtain rfl := taken
    rfl
  | cons c rest ih =>
    obtain ⟨longer, extended, taken⟩ := taken
    rw [List.cons_append, scanFrom, extended]
    exact ih taken

/-- Behind a blank scanning starts anew. -/
theorem scanFrom_blank_cons {c : Char} :
    scanFrom .blank (c :: following) = (Partial.start? c).bind (scanFrom · following) := by
  rw [scanFrom]
  simp [Partial.extend?, Partial.finish?]

/-- A piece that is not continued is finished before anything else is scanned. -/
theorem scanFrom_stops (stops : current.Stops following) (finished : current.finish? = some pieces) :
    scanFrom current following = (scanFrom .blank following).map (pieces ++ ·) := by
  cases following with
  | nil =>
    rw [scanFrom, scanFrom, finished]
    simp [Partial.finish?]
  | cons c rest =>
    have ended : current.extend? c = none := stops c rfl
    rw [scanFrom_blank_cons, scanFrom, ended]
    simp only [finished, Option.bind_eq_bind, Option.bind_some, Option.pure_def]
    cases Partial.start? c with
    | none => rfl
    | some begun => cases scanned : scanFrom begun rest <;> simp [scanned]

/-- A text that is one piece is scanned as this piece in front of anything that does not continue
it. -/
theorem scanFrom_piece (piece : IsPiece chars last) (finished : last.finish? = some pieces)
    (stops : last.Stops following) :
    scanFrom .blank (chars ++ following) = (scanFrom .blank following).map (pieces ++ ·) := by
  cases chars with
  | nil => exact piece.elim
  | cons c rest =>
    obtain ⟨begun, started, taken⟩ := piece
    rw [List.cons_append, scanFrom_blank_cons, started, Option.bind_some, scanFrom_takes taken,
      scanFrom_stops stops finished]

/-! ## How much is written in the pieces -/

/-- The characters that a piece is written with. -/
def Piece.written : Piece → List Char
  | word text | number text | sign text => text.toList
  | quoted mark content => mark :: Text.double mark content.toList ++ [mark]

/-- The characters that what has been read of a piece is written with. -/
def Partial.written : Partial → List Char
  | blank | lineComment | blockComment _ => []
  | word text | number _ text => text
  | sign first => [first]
  | longSign first second => [first, second]
  | quoted mark content => mark :: Text.double mark content
  | closed mark content => mark :: Text.double mark content ++ [mark]

/-- The number of characters other than spaces. -/
def ink (chars : List Char) : Nat := chars.countP (· != ' ')

/-- No characters leave no ink. -/
@[simp] theorem ink_nil : ink [] = 0 := rfl

/-- Two texts leave the ink of both. -/
theorem ink_append : ink (chars ++ more) = ink chars + ink more := List.countP_append

/-- A text leaves the ink of its first character and of the rest. -/
theorem ink_cons {c : Char} : ink (c :: chars) = ink [c] + ink chars := by
  rw [← ink_append, List.singleton_append]

/-- The number of characters other than spaces that pieces are written with. -/
def inkOf (pieces : List Piece) : Nat := ink (pieces.flatMap Piece.written)

/-- Two lists of pieces leave the ink of both. -/
theorem inkOf_append {others : List Piece} :
    inkOf (pieces ++ others) = inkOf pieces + inkOf others := by
  rw [inkOf, List.flatMap_append, ink_append]
  rfl

/-- The marks in two texts are doubled one text after the other. -/
theorem double_append {mark : Char} :
    Text.double mark (chars ++ more) = Text.double mark chars ++ Text.double mark more := by
  induction chars with
  | nil => rfl
  | cons c rest ih =>
    simp only [List.cons_append, Text.double, ih]
    split <;> rfl

/-- A piece begins with its first character, and a blank with nothing. -/
theorem written_start {c : Char} (started : Partial.start? c = some current) :
    current.written = [] ∨ current.written = [c] := by
  unfold Partial.start? at started
  split_ifs at started
  all_goals
    obtain rfl := Option.some.inj started
    simp [Partial.written, Text.double]

/-- A character that belongs to a piece is written at its end, and what turns out to be a comment is
not written at all.

Proof: by cases on the state of the scanner and on the character. -/
theorem written_extend {c : Char} {longer : Partial} (extended : current.extend? c = some longer) :
    longer.written = [] ∨ longer.written = current.written ++ [c] := by
  cases current with
  | blank => cases extended
  | word text =>
    simp only [Partial.extend?] at extended
    split_ifs at extended
    obtain rfl := Option.some.inj extended
    exact Or.inr rfl
  | number place text =>
    obtain ⟨next, _, rfl⟩ := Option.map_eq_some_iff.mp extended
    exact Or.inr rfl
  | sign first =>
    simp only [Partial.extend?] at extended
    split_ifs at extended
    all_goals
      obtain rfl := Option.some.inj extended
      simp [Partial.written]
  | longSign first second => cases extended
  | quoted mark content =>
    obtain rfl := Option.some.inj extended
    right
    by_cases same : c = mark
    · simp [Partial.written, same]
    · simp [Partial.written, same, double_append, Text.double]
  | closed mark content =>
    simp only [Partial.extend?] at extended
    split_ifs at extended with same
    obtain rfl := Option.some.inj extended
    right
    simp [Partial.written, same, double_append, Text.double]
  | lineComment =>
    obtain rfl := Option.some.inj extended
    left
    split <;> rfl
  | blockComment afterStar =>
    obtain rfl := Option.some.inj extended
    left
    split <;> rfl

/-- A finished piece is written with the characters taken. -/
theorem written_finish (finished : current.finish? = some pieces) :
    pieces.flatMap Piece.written = current.written := by
  cases current with
  | number place text =>
    simp only [Partial.finish?] at finished
    split_ifs at finished
    obtain rfl := Option.some.inj finished
    simp [Piece.written, Partial.written]
  | quoted mark content => cases finished
  | blockComment afterStar => cases finished
  | _ =>
    obtain rfl := Option.some.inj finished
    simp [Piece.written, Partial.written]

/-- The pieces have no more characters than the text, spaces aside. -/
theorem ink_scanFrom (scanned : scanFrom current chars = some pieces) :
    inkOf pieces ≤ ink current.written + ink chars := by
  induction chars generalizing current pieces with
  | nil =>
    rw [inkOf, written_finish scanned]
    exact Nat.le_refl _
  | cons c rest ih =>
    rw [ink_cons]
    rw [scanFrom] at scanned
    split at scanned
    · rename_i longer extended
      have rest_le := ih scanned
      rcases written_extend extended with nothing | more
      · rw [nothing, ink_nil] at rest_le
        omega
      · rw [more, ink_append] at rest_le
        omega
    · simp only [Option.bind_eq_bind, Option.bind_eq_some_iff, Option.pure_def,
        Option.some.injEq] at scanned
      obtain ⟨finished, ended, begun, started, others, further, rfl⟩ := scanned
      have rest_le := ih further
      have same : inkOf finished = ink current.written := by rw [inkOf, written_finish ended]
      rw [inkOf_append]
      rcases written_start started with nothing | first
      · rw [nothing, ink_nil] at rest_le
        omega
      · rw [first] at rest_le
        omega

end ObjectQuery.Sql

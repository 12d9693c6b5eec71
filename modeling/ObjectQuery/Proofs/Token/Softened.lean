import ObjectQuery.Proofs.Scanning
import ObjectQuery.Token.Softening
/-!
# What softening does

Softening reads some keywords as names and touches nothing else, and a second time it finds nothing
more to do: what it looks at, the levels of parentheses and the token before, it takes from the tokens
that it has already read.

`softenIn` is the same pass over a text and tokens that claim places in it, whether or not they were
read there. A keyword whose place is no part of the text stays a keyword. On the lexemes of a text the
two agree.
-/
namespace ObjectQuery

/-- The part of a text that a span covers, if the span starts and stops between characters of it. -/
def Span.part? (span : Span) (source : String) : Option String :=
  if span.start ≤ span.stop ∧ String.Pos.Raw.isValid source ⟨span.start⟩ = true ∧
      String.Pos.Raw.isValid source ⟨span.stop⟩ = true
  then some (span.textIn source) else none

/-- A piece of a text is what its place covers. -/
theorem Span.part?_eq {source : String} {before text behind : List Char}
    (split : source.toList = before ++ (text ++ behind)) :
    (Span.mk (byteLength before) (byteLength before + byteLength text)).part? source =
      some (String.ofList text) := by
  have further : source.toList = (before ++ text) ++ behind := by rw [split, List.append_assoc]
  have first := isValid_byteLength split
  have last := isValid_byteLength further
  rw [byteLength_append] at last
  rw [Span.part?, Span.textIn_eq split, if_pos]
  exact ⟨Nat.le_add_right _ _, String.Pos.Raw.isValid_eq_true_iff.mpr first,
    String.Pos.Raw.isValid_eq_true_iff.mpr last⟩

namespace FromLevels

/-- The levels after tokens. -/
def through (levels : FromLevels) (word : List Token) : FromLevels := word.foldl after levels

/-- No tokens leave the levels. -/
@[simp] theorem through_nil (levels : FromLevels) : levels.through [] = levels := rfl

/-- The levels go through the first token and then through the rest. -/
@[simp] theorem through_cons (levels : FromLevels) (token : Token) (rest : List Token) :
    levels.through (token :: rest) = (levels.after token).through rest := rfl

/-- The levels go through two texts one after the other. -/
theorem through_append (levels : FromLevels) (first second : List Token) :
    levels.through (first ++ second) = (levels.through first).through second := List.foldl_append

end FromLevels

/-- The token in front of what follows the tokens, if `previous` comes before them. -/
def lastOf (previous : Option Token) (word : List Token) : Option Token := word.getLast?.or previous

/-- Of no tokens the last is the one before them. -/
@[simp] theorem lastOf_nil (previous : Option Token) : lastOf previous [] = previous := rfl

/-- The last of tokens does not depend on what stood before them. -/
@[simp] theorem lastOf_cons (previous : Option Token) (token : Token) (rest : List Token) :
    lastOf previous (token :: rest) = lastOf (some token) rest := by
  cases rest with
  | nil => rfl
  | cons next rest => simp [lastOf, List.getLast?_cons]

/-- The last of two texts is that of the second, or else of the first. -/
theorem lastOf_append (previous : Option Token) (first second : List Token) :
    lastOf previous (first ++ second) = lastOf (lastOf previous first) second := by
  rw [lastOf, lastOf, lastOf, List.getLast?_append, Option.or_assoc]

namespace Lexeme

/-- The token that a place in a text is read as: its part of the text if a keyword stands where a name
is wanted, and otherwise the token that was there. -/
def readIn (source : String) (levels : FromLevels) (previous : Option Token) (token : Token)
    (span : Span) : Token :=
  match span.part? source with
  | some text =>
    if isNamePosition levels previous token && token.isKeyword then .identifier text else token
  | none => token

/-- Softens tokens with places in a text, whatever the places are. -/
def softenIn (source : String) (levels : FromLevels) (previous : Option Token) :
    List (Token × Span) → List (Token × Span)
  | [] => []
  | (token, span) :: rest =>
    let read := readIn source levels previous token span
    (read, span) :: softenIn source (levels.after read) (some read) rest

/-- The second token is what softening may make of the first: the same in the same place, or a
keyword read as the name that its place in the text spells. -/
def MaySoften (source : String) (given read : Token × Span) : Prop :=
  read.2 = given.2 ∧ (read.1 = given.1 ∨ given.1.isKeyword = true ∧
    ∃ text, given.2.part? source = some text ∧ read.1 = .identifier text)

variable {source : String} {levels : FromLevels} {previous : Option Token} {token : Token}
  {span : Span} {lexemes : List Lexeme}

/-- A token is read as it is, or as the name its text spells. -/
theorem readIn_cases : readIn source levels previous token span = token ∨
    token.isKeyword = true ∧ ∃ text, span.part? source = some text ∧
      readIn source levels previous token span = .identifier text := by
  unfold readIn
  split
  · rename_i text covered
    split
    · rename_i wanted
      exact .inr ⟨(Bool.and_eq_true_iff.mp wanted).2, text, covered, rfl⟩
    · exact .inl rfl
  · exact .inl rfl

/-- Softening keeps the number of tokens, their places and all tokens but some keywords. -/
theorem softenIn_keeps : ∀ (levels : FromLevels) (previous : Option Token)
    (tokens : List (Token × Span)),
    List.Forall₂ (MaySoften source) tokens (softenIn source levels previous tokens)
  | _, _, [] => .nil
  | levels, _, _ :: rest =>
    .cons ⟨rfl, readIn_cases⟩ (softenIn_keeps (levels.after _) (some _) rest)

/-- What has been read is read as it is. -/
theorem readIn_readIn : readIn source levels previous (readIn source levels previous token span) span =
    readIn source levels previous token span := by
  rcases @readIn_cases source levels previous token span with same | ⟨_, text, _, named⟩
  · rw [same, same]
  · have plain : (Token.identifier text).isKeyword = false := rfl
    rw [named, readIn, plain, Bool.and_false]
    split <;> rfl

/-- Softening softened tokens changes nothing. -/
theorem softenIn_softenIn : ∀ (levels : FromLevels) (previous : Option Token)
    (tokens : List (Token × Span)),
    softenIn source levels previous (softenIn source levels previous tokens) =
      softenIn source levels previous tokens
  | _, _, [] => rfl
  | levels, previous, (token, span) :: rest => by
    simp only [softenIn, readIn_readIn]
    rw [softenIn_softenIn]

/-! ## Lexemes of a text -/

/-- A lexeme without its characters. -/
def inPlace (lexeme : Lexeme) : Token × Span := (lexeme.token, lexeme.span)

/-- A lexeme is softened where a name is wanted, with the text it covers. -/
theorem softenedIf_token (lexeme : Lexeme)
    (covered : lexeme.span.part? source = some lexeme.text) :
    (lexeme.softenedIf (isNamePosition levels previous lexeme.token)).inPlace =
      (readIn source levels previous lexeme.token lexeme.span, lexeme.span) := by
  rw [readIn, covered, softenedIf]
  dsimp only
  split <;> rfl

/-- Where every lexeme has the characters of its place, softening needs no text besides. -/
theorem softenAfter_inPlace : ∀ (levels : FromLevels) (previous : Option Token)
    (lexemes : List Lexeme), (∀ lexeme ∈ lexemes, lexeme.span.part? source = some lexeme.text) →
      (softenAfter levels previous lexemes).map inPlace =
        softenIn source levels previous (lexemes.map inPlace)
  | _, _, [], _ => rfl
  | levels, previous, lexeme :: rest, covered => by
    rw [List.forall_mem_cons] at covered
    have first := @softenedIf_token source levels previous lexeme covered.1
    have read := congrArg Prod.fst first
    simp only [inPlace] at read
    rw [softenAfter, List.map_cons, List.map_cons, first, read, inPlace, softenIn,
      softenAfter_inPlace _ _ rest covered.2]

/-- Every lexeme covers its text in the source. -/
theorem part?_of_cuts {start : Nat} {before cs : List Char} (cuts : Cuts start cs lexemes)
    (split : source.toList = before ++ cs) (here : start = byteLength before) :
    ∀ lexeme ∈ lexemes, lexeme.span.part? source = some lexeme.text := by
  induction cuts generalizing before with
  | nil => simp
  | @cons start gap text rest token lexemes filled inside spelled behind inductionHypothesis =>
    subst here
    have further : source.toList = (before ++ gap) ++ (text ++ rest) := by
      rw [split, List.append_assoc]
    have furthest : source.toList = (before ++ gap ++ text) ++ rest := by
      rw [further, ← List.append_assoc]
    have own := Span.part?_eq further
    rw [byteLength_append] at own
    rw [List.forall_mem_cons]
    exact ⟨own, inductionHypothesis furthest (by rw [byteLength_append, byteLength_append])⟩

/-- The lexemes of a text have the characters of their places. -/
theorem scan_part? (scanned : scan source = .ok lexemes) :
    ∀ lexeme ∈ lexemes, lexeme.span.part? source = some lexeme.text :=
  part?_of_cuts (cuts_of_scanWithin (Nat.le_refl _) scanned) (List.nil_append _).symm rfl

end Lexeme
end ObjectQuery

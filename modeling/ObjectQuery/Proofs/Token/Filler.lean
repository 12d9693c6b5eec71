import Mathlib.Data.List.Infix
import ObjectQuery.Token.Lexer
/-!
# What stands between tokens

Between tokens a text has white space, closed comments and comments that a newline ends. Scanning
skips exactly such pieces: whatever is made of them is skipped as a whole, and what is skipped is
made of them. The one exception is a comment to the end of a line in the last line of a text, which
no newline ends.
-/
namespace ObjectQuery

open Text

/-- A piece of what stands between tokens. A comment to the end of a line is taken together with
the newline that ends it. -/
inductive Filler where
  | blank (c : Char) (isBlank : isBlank c = true)
  | block (body : List Char) (isOpen : ¬ ['*', '/'] <:+: body)
  | line (body : List Char) (inLine : '\n' ∉ body)

namespace Filler

/-- The piece as it is written. -/
def chars : Filler → List Char
  | blank c _ => [c]
  | block body _ => '/' :: '*' :: (body ++ ['*', '/'])
  | line body _ => '-' :: '-' :: (body ++ ['\n'])

/-- The pieces as they are written, one after the other. -/
def charsOf (fillers : List Filler) : List Char := fillers.flatMap chars

/-- No fillers hold no characters. -/
@[simp] theorem charsOf_nil : charsOf [] = [] := rfl

/-- The characters of fillers are theirs one behind the other. -/
@[simp] theorem charsOf_cons (filler : Filler) (rest : List Filler) :
    charsOf (filler :: rest) = filler.chars ++ charsOf rest := rfl

end Filler

namespace Trivia

variable {cs rest : List Char} {taken : Nat}

/-! ## Single pieces -/

/-- A comment goes on to the first end of one. -/
theorem closing?_append {body : List Char} (isOpen : ¬ ['*', '/'] <:+: body) :
    closing? (body ++ '*' :: '/' :: rest) = some (body.length + 2) := by
  induction body with
  | nil => rfl
  | cons c body inductionHypothesis =>
    rw [List.infix_cons_iff, not_or] at isOpen
    have further := inductionHypothesis isOpen.2
    rw [List.cons_append, closing?, further]
    · simp
    -- The body does not begin with an end of a comment, and its last star is followed by another.
    · rintro others rfl follows
      cases body with
      | nil => cases follows
      | cons d body =>
        obtain ⟨rfl, _⟩ := List.cons.inj follows
        exact isOpen.1 ⟨body, rfl⟩

/-- What has been taken up to the end of a comment has no other end in it. -/
theorem exists_of_closing? (closed : closing? cs = some taken) :
    ∃ body rest, cs = body ++ '*' :: '/' :: rest ∧ ¬ ['*', '/'] <:+: body := by
  fun_induction closing? cs generalizing taken with
  | case1 rest => exact ⟨[], rest, rfl, by simp⟩
  | case2 c others otherwise inductionHypothesis =>
    obtain ⟨further, closed, _⟩ := Option.map_eq_some_iff.mp closed
    obtain ⟨body, rest, rfl, isOpen⟩ := inductionHypothesis closed
    refine ⟨c :: body, rest, rfl, ?_⟩
    rw [List.infix_cons_iff, not_or]
    refine ⟨?_, isOpen⟩
    rintro ⟨behind, same⟩
    obtain ⟨rfl, rfl⟩ := List.cons.inj same
    exact otherwise _ rfl rfl
  | case3 => cases closed

/-- A blank is filler of one character. -/
theorem piece?_blank {c : Char} (blank : isBlank c = true) : piece? (c :: rest) = some 1 := by
  have dash : c ≠ '-' := by
    rintro rfl
    exact absurd blank (by decide)
  have slash : c ≠ '/' := by
    rintro rfl
    exact absurd blank (by decide)
  unfold piece?
  split
  · rename_i same
    exact absurd (List.cons.inj same).1 dash
  · rename_i same
    exact absurd (List.cons.inj same).1 slash
  · rename_i same
    obtain ⟨rfl, _⟩ := List.cons.inj same
    rw [if_pos blank]
  · rename_i same
    cases same

/-- What stands in a line reaches to its end. -/
theorem takeWhile_line {body : List Char} (inLine : '\n' ∉ body) :
    (body ++ rest).takeWhile (· != '\n') = body ++ rest.takeWhile (· != '\n') := by
  refine List.takeWhile_append_of_pos fun c member => ?_
  rw [bne_iff_ne]
  rintro rfl
  exact inLine member

/-- A piece that a newline does not end takes the rest of the text. -/
theorem piece?_open {body : List Char} (inLine : '\n' ∉ body) :
    piece? ('-' :: '-' :: body) = some (body.length + 2) := by
  have whole := @takeWhile_line [] body inLine
  rw [List.append_nil, List.takeWhile_nil, List.append_nil] at whole
  rw [piece?, whole, Nat.add_comm]

/-- Every piece has characters, and no more than there are. -/
theorem piece?_bounds (found : piece? cs = some taken) : 0 < taken ∧ taken ≤ cs.length := by
  unfold piece? at found
  split at found
  · rename_i others
    obtain rfl := Option.some.inj found
    have shorter := (List.takeWhile_sublist (l := others) (· != '\n')).length_le
    simp only [List.length_cons]
    omega
  · rename_i others
    obtain ⟨inside, closed, rfl⟩ := Option.map_eq_some_iff.mp found
    obtain ⟨body, rest, rfl, isOpen⟩ := exists_of_closing? closed
    rw [closing?_append isOpen] at closed
    obtain rfl := Option.some.inj closed
    simp only [List.length_cons, List.length_append]
    omega
  · split at found
    · obtain rfl := Option.some.inj found
      simp
    · cases found
  · cases found

/-! ## All pieces before a token -/

/-- How often one may look for a piece makes no difference if it is as often as there are
characters. -/
theorem lengthWithin_eq {fuel more : Nat} (enough : cs.length ≤ fuel) (enoughToo : cs.length ≤ more) :
    lengthWithin fuel cs = lengthWithin more cs := by
  induction fuel generalizing more cs with
  | zero =>
    obtain rfl : cs = [] := List.length_eq_zero_iff.mp (Nat.le_zero.mp enough)
    cases more <;> rfl
  | succ fuel inductionHypothesis =>
    cases more with
    | zero =>
      obtain rfl : cs = [] := List.length_eq_zero_iff.mp (Nat.le_zero.mp enoughToo)
      rfl
    | succ more =>
      rw [lengthWithin, lengthWithin]
      cases found : piece? cs with
      | none => rfl
      | some taken =>
        have bounds := piece?_bounds found
        have shorter : (cs.drop taken).length + taken = cs.length := by
          rw [List.length_drop]
          omega
        dsimp only
        rw [inductionHypothesis (by omega) (by omega : _ ≤ more)]

/-- Where no filler starts there is none. -/
theorem length_of_none (absent : piece? cs = none) : length cs = 0 := by
  unfold length
  cases cs with
  | nil => rfl
  | cons c others => rw [List.length_cons, lengthWithin, absent]

/-- Filler goes on behind its first piece. -/
theorem length_of_piece (found : piece? cs = some taken) :
    length cs = taken + length (cs.drop taken) := by
  have bounds := piece?_bounds found
  have shorter : (cs.drop taken).length + taken = cs.length := by
    rw [List.length_drop]
    omega
  unfold length
  obtain ⟨fuel, fuelled⟩ : ∃ fuel, cs.length = fuel + 1 := ⟨cs.length - 1, by omega⟩
  rw [fuelled, lengthWithin, found]
  dsimp only
  rw [lengthWithin_eq (by omega : _ ≤ fuel) (Nat.le_refl _)]

/-- A filler is skipped, and then what is behind it. -/
theorem length_filler (filler : Filler) :
    length (filler.chars ++ rest) = filler.chars.length + length rest := by
  cases filler with
  | blank c isBlank => exact length_of_piece (piece?_blank isBlank)
  | block body isOpen =>
    have found : piece? ((Filler.block body isOpen).chars ++ rest) = some (body.length + 4) := by
      simp only [Filler.chars, List.cons_append, List.append_assoc, List.nil_append, piece?,
        closing?_append isOpen, Option.map_some]
    have left : ((Filler.block body isOpen).chars ++ rest).drop (body.length + 4) = rest := by
      simp [Filler.chars]
    rw [length_of_piece found, left]
    simp [Filler.chars]
  | line body inLine =>
    -- The comment stops before its newline, which is white space of its own.
    have found : piece? ((Filler.line body inLine).chars ++ rest) = some (body.length + 2) := by
      simp only [Filler.chars, List.cons_append, List.append_assoc, List.nil_append, piece?,
        takeWhile_line inLine]
      simp [Nat.add_comm]
    have left : ((Filler.line body inLine).chars ++ rest).drop (body.length + 2) = '\n' :: rest := by
      simp [Filler.chars]
    have newline : piece? ('\n' :: rest) = some 1 := piece?_blank (by decide)
    rw [length_of_piece found, left, length_of_piece newline]
    simp only [Filler.chars, List.length_cons, List.length_append, List.length_nil, List.drop_one,
      List.tail_cons]
    omega

/-- Fillers are skipped whole. -/
theorem length_charsOf (fillers : List Filler) :
    length (Filler.charsOf fillers ++ rest) = (Filler.charsOf fillers).length + length rest := by
  induction fillers with
  | nil => simp
  | cons filler fillers inductionHypothesis =>
    rw [Filler.charsOf_cons, List.append_assoc, length_filler, inductionHypothesis,
      List.length_append, Nat.add_assoc]

/-- A piece is a filler, or else a comment in the last line of the text. -/
theorem exists_of_piece? (found : piece? cs = some taken) :
    (∃ filler : Filler, ∃ rest, cs = filler.chars ++ rest) ∨
      ∃ body, '\n' ∉ body ∧ cs = '-' :: '-' :: body := by
  unfold piece? at found
  split at found
  · rename_i others
    have inLine : '\n' ∉ others.takeWhile (· != '\n') := by
      intro member
      have kept := List.all_eq_true.mp List.all_takeWhile _ member
      simp at kept
    have split := List.takeWhile_append_dropWhile (p := (· != '\n')) (l := others)
    cases behind : others.dropWhile (· != '\n') with
    | nil =>
      rw [behind, List.append_nil] at split
      exact .inr ⟨others, split ▸ inLine, rfl⟩
    | cons c rest =>
      have newline : c = '\n' := by
        have stopped := List.head?_dropWhile_not (· != '\n') others
        rw [behind] at stopped
        simpa using stopped
      subst newline
      refine .inl ⟨.line _ inLine, rest, ?_⟩
      rw [behind] at split
      simp [Filler.chars, split]
  · rename_i others
    obtain ⟨inside, closed, _⟩ := Option.map_eq_some_iff.mp found
    obtain ⟨body, rest, rfl, isOpen⟩ := exists_of_closing? closed
    exact .inl ⟨.block body isOpen, rest, by simp [Filler.chars]⟩
  · rename_i c rest _ _
    split at found
    · rename_i isBlank
      exact .inl ⟨.blank c isBlank, rest, rfl⟩
    · cases found
  · cases found

end Trivia

/-! ## What is skipped -/

/-- The characters are white space and comments, and no comment goes on behind them. -/
def IsFilling (cs : List Char) : Prop := ∃ fillers, cs = Filler.charsOf fillers

/-- The characters are white space and comments, the last of which may go on to the end of the
text. -/
def IsLastFilling (cs : List Char) : Prop :=
  IsFilling cs ∨ ∃ fillers body, '\n' ∉ body ∧ cs = Filler.charsOf fillers ++ '-' :: '-' :: body

/-- What is skipped before a token is made of fillers. If nothing is left, the last of them may be a
comment that no newline ends. -/
theorem skipped_isFilling (cs : List Char) :
    (IsFilling (cs.take (Trivia.length cs)) ∧ Trivia.piece? (cs.drop (Trivia.length cs)) = none) ∨
      Trivia.length cs = cs.length ∧ IsLastFilling cs := by
  -- Each filler at the front leaves fewer characters.
  induction counted : cs.length using Nat.strong_induction_on generalizing cs with
  | _ size inductionHypothesis =>
    subst counted
    cases found : Trivia.piece? cs with
    | none =>
      rw [Trivia.length_of_none found]
      exact .inl ⟨⟨[], rfl⟩, found⟩
    | some taken =>
      rcases Trivia.exists_of_piece? found with ⟨filler, rest, rfl⟩ | ⟨body, inLine, rfl⟩
      · have some : 0 < filler.chars.length := by cases filler <;> simp [Filler.chars]
        rw [List.length_append] at inductionHypothesis ⊢
        rw [Trivia.length_filler, List.take_length_add_append, List.drop_length_add_append]
        rcases inductionHypothesis rest.length (by omega) rest rfl with
          ⟨⟨fillers, taken⟩, behind⟩ | ⟨all, filled⟩
        · exact .inl ⟨⟨filler :: fillers, by rw [taken, Filler.charsOf_cons]⟩, behind⟩
        · refine .inr ⟨by rw [all], ?_⟩
          rcases filled with ⟨fillers, rfl⟩ | ⟨fillers, body, inLine, rfl⟩
          · exact .inl ⟨filler :: fillers, rfl⟩
          · exact .inr ⟨filler :: fillers, body, inLine, by simp⟩
      · refine .inr ⟨?_, .inr ⟨[], body, inLine, rfl⟩⟩
        rw [Trivia.length_of_piece (Trivia.piece?_open inLine)]
        simp [Trivia.length, Trivia.lengthWithin]

end ObjectQuery

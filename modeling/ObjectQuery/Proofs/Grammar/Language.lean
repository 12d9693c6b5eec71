import ObjectQuery.Proofs.Grammar.Complete.Statement
import ObjectQuery.Proofs.Grammar.Sound
import ObjectQuery.Proofs.Grammar.Written
/-!
# The language that is read

Reading lexemes and deriving their tokens by the rules come to the same: a tree is read exactly if it
is derived. So no tokens have two trees, and a tree that is written with the parentheses its nesting
requires is read back.
-/
namespace ObjectQuery.Grammar

open Reader

/-- Reading the lexemes gives the tree, up to places. -/
def Statement.IsRead (size : Nat) (lexemes : List Lexeme) (tree : Statement) : Prop :=
  ∃ read, Statement.ofLexemes size lexemes = .ok read ∧ read.unplaced = tree

/-- A statement is read from lexemes if it derives from their tokens. -/
theorem isRead_iff {size : Nat} {lexemes : List Lexeme} {tree : Statement} :
    Statement.IsRead size lexemes tree ↔ IsStatement (tokens lexemes) tree := by
  constructor
  · rintro ⟨read, parsed, rfl⟩
    obtain ⟨rest, taken⟩ := ofLexemes_eq_ok.mp parsed
    exact statement_sound taken
  · intro derived
    obtain ⟨found, taken, viewed⟩ := statement_complete derived
    exact ⟨found, ofLexemes_eq_ok.mpr ⟨[], taken⟩, viewed⟩

/-- The rules derive at most one tree from tokens: the one that is read. -/
theorem isStatement_unique {word : List Token} {first second : Statement}
    (derived : IsStatement word first) (derivedToo : IsStatement word second) : second = first := by
  obtain ⟨lexemes, rfl⟩ := exists_tokens word
  obtain ⟨read, taken, rfl⟩ := statement_complete derived
  obtain ⟨other, takenToo, rfl⟩ := statement_complete derivedToo
  rw [(reads_unique taken takenToo).1]

/-- Reading gives a tree exactly if the rules derive it; the rules derive at most one tree; and a
tree that is derived from any tokens is read back from its own. -/
theorem reads_exactly_what_the_rules_derive :
    (∀ (size : Nat) (lexemes : List Lexeme) (tree : Statement),
      Statement.IsRead size lexemes tree ↔ IsStatement (tokens lexemes) tree) ∧
    (∀ (word : List Token) (first second : Statement),
      IsStatement word first → IsStatement word second → first = second) ∧
    (∀ (word : List Token) (tree : Statement), IsStatement word tree →
      ∀ (size : Nat) (lexemes : List Lexeme), tokens lexemes = tree.words →
        Statement.IsRead size lexemes tree) := by
  refine ⟨fun _ _ _ => isRead_iff, fun _ _ _ derived derivedToo => isStatement_unique derivedToo derived,
    fun word tree derived size lexemes spelled => ?_⟩
  rw [isRead_iff, spelled]
  exact isStatement_written derived

end ObjectQuery.Grammar

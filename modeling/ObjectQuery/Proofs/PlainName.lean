import Mathlib.Data.List.Basic
import ObjectQuery.Resolution.Sources
import ObjectQuery.Text.Identifier
/-!
# Plain names

Names are put together with dots and brackets, and numbered after an underscore. A name without dots
and brackets is plain; all that can be written in a text is, and so are the names that are generated
where the text has none. A text that ends with a mark and a part without that mark can be taken
apart in one way only.
-/
namespace ObjectQuery

/-- Whether the character is one of those that names are put together with. -/
def isJoiner (c : Char) : Bool := c == '.' || c == '[' || c == ']'

/-- No character of the name is one of those that names are put together with. -/
def IsPlainName (name : String) : Prop := ∀ c ∈ name.toList, isJoiner c = false

instance (name : String) : Decidable (IsPlainName name) :=
  inferInstanceAs (Decidable (∀ c ∈ name.toList, isJoiner c = false))

/-- Where the last of the marks stands, a list falls apart in one way. -/
theorem append_mark_inj {α : Type} {mark : α} {front front' back back' : List α}
    (unmarked : mark ∉ back) (unmarked' : mark ∉ back')
    (same : front ++ mark :: back = front' ++ mark :: back') : front = front' ∧ back = back' := by
  rcases List.append_eq_append_iff.mp same with ⟨more, rfl, rest⟩ | ⟨more, rfl, rest⟩
  · cases more with
    | nil => simpa using rest
    | cons first further =>
      obtain ⟨rfl, rfl⟩ := List.cons.inj rest
      exact (unmarked (by simp)).elim
  · cases more with
    | nil => simpa [eq_comm] using rest
    | cons first further =>
      obtain ⟨rfl, rfl⟩ := List.cons.inj rest
      exact (unmarked' (by simp)).elim

/-- Only digits stand in the text of a natural number. -/
theorem isDigit_of_mem_toString {number : Nat} {c : Char} (member : c ∈ (toString number).toList) :
    c.isDigit = true := by
  rw [Nat.toString_eq_repr, Nat.toList_repr] at member
  exact Nat.isDigit_of_mem_toDigits (b := 10) (by decide) (by decide) member

/-- The text of a natural number tells the number. -/
theorem toString_inj {number other : Nat}
    (same : (toString number).toList = (toString other).toList) : number = other := by
  rw [Nat.toString_eq_repr, Nat.toList_repr, Nat.toString_eq_repr, Nat.toList_repr] at same
  simpa using congrArg (fun digits => Nat.ofDigitChars 10 digits 0) same

/-- A digit joins no names. -/
theorem isJoiner_of_isDigit {c : Char} (digit : c.isDigit = true) : isJoiner c = false := by
  simp only [isJoiner, Bool.or_eq_false_iff, beq_eq_false_iff_ne, ne_eq]
  refine ⟨⟨?_, ?_⟩, ?_⟩ <;> rintro rfl <;> exact absurd digit (by decide)

/-- Identifiers are plain. -/
theorem isJoiner_of_isIdentifierRest {c : Char} (inside : Text.isIdentifierRest c = true) :
    isJoiner c = false := by
  simp only [isJoiner, Bool.or_eq_false_iff, beq_eq_false_iff_ne, ne_eq]
  refine ⟨⟨?_, ?_⟩, ?_⟩ <;> rintro rfl <;> exact absurd inside (by decide)

/-- Generated names are plain. -/
theorem isPlainName_generatedLabel (number : Nat) : IsPlainName (generatedLabel number) := by
  intro c member
  simp only [generatedLabel, String.toList_append, List.mem_append] at member
  have marks : ("<gen:".toList ++ ">".toList).all (!isJoiner ·) = true := by decide
  rw [List.all_append, Bool.and_eq_true, List.all_eq_true, List.all_eq_true] at marks
  rcases member with (opening | digit) | closing
  · simpa using marks.1 c opening
  · exact isJoiner_of_isDigit (isDigit_of_mem_toString digit)
  · simpa using marks.2 c closing

end ObjectQuery

import ObjectQuery.Number.Shortest
import ObjectQuery.Proofs.Sql.Scanning
/-!
# Written numbers

The text of a number without its sign is one piece, in all the forms that decimals are written in:
with zeros after the point, with zeros before it, and with an exponent.
-/
namespace ObjectQuery.Sql

/-- The text is one number, which begins with a digit. -/
structure IsNumeral (chars : List Char) : Prop where
  begins : ∀ c ∈ chars.head?, c.isDigit = true
  piece : ∃ place : NumberPlace, place.isEnd = true ∧ IsPiece chars (.number place chars)

/-- All characters are digits. -/
def AreDigits (chars : List Char) : Prop := ∀ c ∈ chars, c.isDigit = true

variable {chars digits : List Char} {c : Char}

/-- The digits of a number are digits. -/
theorem areDigits_toDigits (n : Nat) : AreDigits (Nat.toDigits 10 n) :=
  fun _ member => Nat.isDigit_of_mem_toDigits (by decide) (by decide) member

/-- Zeros are digits. -/
theorem areDigits_zeros (n : Nat) : AreDigits (List.replicate n '0') := by
  intro c member
  rw [List.eq_of_mem_replicate member]
  rfl

/-- Digits one behind the other are digits. -/
theorem AreDigits.append (first : AreDigits chars) (second : AreDigits digits) :
    AreDigits (chars ++ digits) := by
  intro c member
  exact (List.mem_append.mp member).elim (first c) (second c)

/-- The first of some digits are digits. -/
theorem AreDigits.take (given : AreDigits digits) (n : Nat) : AreDigits (digits.take n) :=
  fun c member => given c (List.mem_of_mem_take member)

/-- The last of some digits are digits. -/
theorem AreDigits.drop (given : AreDigits digits) (n : Nat) : AreDigits (digits.drop n) :=
  fun c member => given c (List.mem_of_mem_drop member)

/-- A digit leaves every place where a number can end as it is. -/
theorem NumberPlace.next?_digit {place : NumberPlace} (ends : place.isEnd = true)
    (digit : c.isDigit = true) : place.next? c = some place := by
  cases place with
  | whole | fraction | exponent => simp [NumberPlace.next?, digit]
  | letter | exponentSign => cases ends

/-- A number takes one character and then the others. -/
theorem takes_cons {place next last : NumberPlace} {rest : List Char}
    (allowed : place.next? c = some next)
    (further : ∀ {front : List Char},
      (Partial.number next front).Takes rest (.number last (front ++ rest))) :
    (Partial.number place chars).Takes (c :: rest) (.number last (chars ++ c :: rest)) := by
  refine ⟨.number next (chars ++ [c]), ?_, ?_⟩
  · simp [Partial.extend?, allowed]
  · have taken := @further (chars ++ [c])
    rwa [List.append_assoc, List.singleton_append] at taken

/-- A number that could end takes any further digits. -/
theorem takes_digits {place : NumberPlace} (ends : place.isEnd = true) (given : AreDigits digits) :
    (Partial.number place chars).Takes digits (.number place (chars ++ digits)) := by
  induction digits generalizing chars with
  | nil =>
    rw [List.append_nil]
    rfl
  | cons c rest ih =>
    obtain ⟨digit, others⟩ := List.forall_mem_cons.mp given
    exact takes_cons (NumberPlace.next?_digit ends digit) (ih others)

/-- A digit starts a number. -/
theorem start?_digit (digit : c.isDigit = true) :
    Partial.start? c = some (.number .whole [c]) := by
  have part : isWordPart c = true := by simp [isWordPart, Char.isAlphanum, digit]
  simp [Partial.start?, isWhitespace_eq_false part, digit]

/-- Digits are the whole part of a number. -/
theorem isPiece_digits (given : AreDigits digits) (some_digit : digits ≠ []) :
    IsPiece digits (.number .whole digits) := by
  cases digits with
  | nil => exact absurd rfl some_digit
  | cons c rest =>
    obtain ⟨digit, others⟩ := List.forall_mem_cons.mp given
    exact ⟨_, start?_digit digit, takes_digits rfl others⟩

/-- A number takes a point and digits after its whole part. -/
theorem takes_fraction (given : AreDigits digits) :
    (Partial.number .whole chars).Takes ('.' :: digits)
      (.number .fraction (chars ++ '.' :: digits)) :=
  takes_cons rfl (takes_digits rfl given)

/-- The digits of an integer, after a minus sign if it is negative. -/
theorem toList_toString (value : Int) : (toString value).toList =
    if 0 ≤ value then Nat.toDigits 10 value.toNat else '-' :: Nat.toDigits 10 (-value).toNat := by
  rw [Int.toString_eq_repr, Int.repr_eq_if]
  split
  · simp [Nat.repr_eq_ofList_toDigits]
  · simp [Nat.repr_eq_ofList_toDigits]

/-- After the letter of the exponent or its sign come digits. -/
theorem takes_exponentDigits {place : NumberPlace} (given : AreDigits digits)
    (some_digit : digits ≠ []) (awaits : place = .letter ∨ place = .exponentSign) :
    (Partial.number place chars).Takes digits (.number .exponent (chars ++ digits)) := by
  cases digits with
  | nil => exact absurd rfl some_digit
  | cons c rest =>
    obtain ⟨digit, others⟩ := List.forall_mem_cons.mp given
    have allowed : place.next? c = some .exponent := by
      rcases awaits with rfl | rfl <;> simp [NumberPlace.next?, digit]
    exact takes_cons allowed (takes_digits rfl others)

/-- A number without an exponent takes one. -/
theorem takes_exponent {place : NumberPlace} (early : place = .whole ∨ place = .fraction)
    (value : Int) :
    (Partial.number place chars).Takes ('e' :: (toString value).toList)
      (.number .exponent (chars ++ 'e' :: (toString value).toList)) := by
  have allowed : place.next? 'e' = some .letter := by rcases early with rfl | rfl <;> rfl
  refine takes_cons allowed ?_
  intro front
  rw [toList_toString]
  split
  · exact takes_exponentDigits (areDigits_toDigits _) Nat.toDigits_ne_nil (Or.inl rfl)
  · exact takes_cons rfl
      (takes_exponentDigits (areDigits_toDigits _) Nat.toDigits_ne_nil (Or.inr rfl))

/-- A text that starts with digits begins with one. -/
theorem AreDigits.begins (given : AreDigits digits) (some_digit : digits ≠ []) :
    ∀ c ∈ (digits ++ chars).head?, c.isDigit = true := by
  intro c first
  rw [List.head?_append_of_ne_nil _ some_digit] at first
  exact given c (List.mem_of_mem_head? first)

/-- The digits of a natural number are a numeral. -/
theorem isNumeral_natural (n : Nat) : IsNumeral (Nat.toDigits 10 n) where
  begins := by
    intro c first
    exact areDigits_toDigits n c (List.mem_of_mem_head? first)
  piece := ⟨.whole, rfl, isPiece_digits (areDigits_toDigits n) Nat.toDigits_ne_nil⟩

/-- Digits, a point and digits. -/
theorem isNumeral_point {whole places : List Char} (wholeDigits : AreDigits whole)
    (some_digit : whole ≠ []) (placeDigits : AreDigits places) :
    IsNumeral (whole ++ '.' :: places) where
  begins := wholeDigits.begins some_digit
  piece :=
    ⟨.fraction, rfl, (isPiece_digits wholeDigits some_digit).append (takes_fraction placeDigits)⟩

/-- Digits, perhaps a point and digits, and an exponent. -/
theorem isNumeral_exponent {whole places : List Char} (wholeDigits : AreDigits whole)
    (some_digit : whole ≠ []) (placeDigits : AreDigits places) (value : Int) :
    IsNumeral (whole ++ (if places.isEmpty then [] else '.' :: places) ++
      'e' :: (toString value).toList) := by
  have first := isPiece_digits wholeDigits some_digit
  constructor
  · rw [List.append_assoc]
    exact wholeDigits.begins some_digit
  · refine ⟨.exponent, rfl, ?_⟩
    split
    · rw [List.append_nil]
      exact first.append (takes_exponent (Or.inl rfl) value)
    · exact (first.append (takes_fraction placeDigits)).append (takes_exponent (Or.inr rfl) value)

/-- Every decimal is written as one number. -/
theorem isNumeral_write (layout : Number.Layout) (decimal : Number.Decimal) :
    IsNumeral (layout.write decimal).toList := by
  have areDigits := areDigits_toDigits decimal.digits
  have some_digit : Nat.toDigits 10 decimal.digits ≠ [] := Nat.toDigits_ne_nil
  unfold Number.Layout.write
  simp only
  generalize Nat.toDigits 10 decimal.digits = digits at areDigits some_digit
  have first_digit (n : Nat) (positive : 0 < n) : digits.take n ≠ [] := by
    simp [List.take_eq_nil_iff, some_digit, Nat.pos_iff_ne_zero.mp positive]
  by_cases fits : layout.least < digits.length + decimal.power ∧
      digits.length + decimal.power ≤ layout.most
  · rw [if_pos fits]
    by_cases below : digits.length + decimal.power ≤ 0
    · rw [if_pos below, String.toList_ofList]
      exact isNumeral_point (areDigits_zeros 1) (by simp) ((areDigits_zeros _).append areDigits)
    · rw [if_neg below, String.toList_ofList]
      refine isNumeral_point ((areDigits.take _).append (areDigits_zeros _)) ?_ ?_
      · exact List.append_ne_nil_of_left_ne_nil (first_digit _ (by omega)) _
      · split
        · exact areDigits_zeros 1
        · exact areDigits.drop _
  · rw [if_neg fits, String.toList_append, String.toList_append, String.toList_ofList,
      List.append_assoc]
    exact isNumeral_exponent (areDigits.take 1) (first_digit 1 Nat.one_pos) (areDigits.drop 1) _

end ObjectQuery.Sql

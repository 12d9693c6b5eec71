import Mathlib.Data.List.TakeWhile
import Mathlib.Tactic.Ring
import ObjectQuery.Number.Rounding
/-!
# Exact decimals

Every double-precision number that is finite and not negative is a decimal with finitely many places,
and that decimal reads back as the number: rounding keeps what it need not change. The infinite
number reads back from a decimal too large for the finite ones.
-/
namespace ObjectQuery.Number

/-! ## Runs of digits -/

/-- The value of digits is the one the library gives them. -/
theorem digitsValue_eq_ofDigitChars (digits : List Char) :
    digitsValue digits = Nat.ofDigitChars 10 digits 0 := by
  rw [digitsValue, Nat.ofDigitChars_eq_foldl]
  congr
  funext value digit
  rw [Nat.mul_comm]
  rfl

/-- The digits of a number have its value. -/
theorem digitsValue_toDigits (n : Nat) : digitsValue (Nat.toDigits 10 n) = n := by
  rw [digitsValue_eq_ofDigitChars, Nat.ofDigitChars_ten_toDigits]

/-- Zeros in front leave the value. -/
theorem digitsValue_zeros (count : Nat) (digits : List Char) :
    digitsValue (List.replicate count '0' ++ digits) = digitsValue digits := by
  simp only [digitsValue_eq_ofDigitChars, Nat.ofDigitChars_append, Nat.ofDigitChars_replicate_zero,
    Nat.mul_zero]

/-- The digits of a number, with zeros before them if there are fewer than `count`. -/
def padded (count n : Nat) : List Char :=
  List.replicate (count - (Nat.toDigits 10 n).length) '0' ++ Nat.toDigits 10 n

/-- Digits padded with zeros keep their value. -/
theorem digitsValue_padded (count n : Nat) : digitsValue (padded count n) = n := by
  rw [padded, digitsValue_zeros, digitsValue_toDigits]

/-- Padded digits are at least as many as asked for. -/
theorem length_padded (count n : Nat) : count ≤ (padded count n).length := by
  rw [padded, List.length_append, List.length_replicate]
  omega

/-- Padded digits are digits. -/
theorem isDigit_padded {count n : Nat} {c : Char} (member : c ∈ padded count n) : c.isDigit = true := by
  rcases List.mem_append.mp member with zero | digit
  · rw [List.eq_of_mem_replicate zero]
    rfl
  · exact Nat.isDigit_of_mem_toDigits (by decide) (by decide) digit

/-- Digits with a point between are read as the decimal they spell. -/
theorem readUnsigned?_point {whole places : List Char} (digits : ∀ c ∈ whole, c.isDigit = true)
    (further : ∀ c ∈ places, c.isDigit = true) (some_digit : whole ≠ []) :
    readUnsigned? false (whole ++ '.' :: places) =
      some (.ofDecimal false (digitsValue (whole ++ places)) (-places.length)) := by
  have taken : (whole ++ '.' :: places).takeWhile Char.isDigit = whole := by
    rw [List.takeWhile_append_of_pos digits, List.takeWhile_cons_of_neg (by decide), List.append_nil]
  have dropped : (whole ++ '.' :: places).dropWhile Char.isDigit = '.' :: places := by
    rw [List.dropWhile_append_of_pos digits, List.dropWhile_cons_of_neg (by decide)]
  have all : places.takeWhile Char.isDigit = places := List.takeWhile_eq_self_iff.mpr further
  have nothing : places.dropWhile Char.isDigit = [] := List.dropWhile_eq_nil_iff.mpr further
  have nonempty : whole.isEmpty = false := List.isEmpty_eq_false_iff.mpr some_digit
  simp [readUnsigned?, taken, dropped, all, nothing, nonempty, readPower?]

/-- The decimal `digits / 10 ^ places`, with at least one digit before the point. -/
def pointed (digits places : Nat) : List Char :=
  let written := padded (places + 1) digits
  written.take (written.length - places) ++ '.' :: written.drop (written.length - places)

/-- A number of digits with its point set is read as that decimal. -/
theorem readUnsigned?_pointed (digits places : Nat) :
    readUnsigned? false (pointed digits places) = some (.ofDecimal false digits (-places)) := by
  have long := length_padded (places + 1) digits
  have counted : ((padded (places + 1) digits).drop
      ((padded (places + 1) digits).length - places)).length = places := by
    rw [List.length_drop]
    omega
  rw [pointed, readUnsigned?_point, List.take_append_drop, digitsValue_padded, counted]
  · exact fun c member => isDigit_padded (List.mem_of_mem_take member)
  · exact fun c member => isDigit_padded (List.mem_of_mem_drop member)
  · rw [← List.length_pos_iff, List.length_take]
    omega

/-! ## Rounding keeps what it need not change -/

/-- A multiple is rounded to itself. -/
theorem roundEven_mul (m den : Nat) (positive : 0 < den) : roundEven (m * den) den = m := by
  have whole : m * den / den = m := Nat.mul_div_cancel m positive
  have rest : m * den % den = 0 := Nat.mul_mod_left m den
  rw [roundEven, rest, whole]
  exact if_pos positive

namespace Binary64

/-- Not negative and not undefined, which is what reading an unsigned decimal gives. -/
def IsMagnitude (x : Binary64) : Prop := x.bits.toNat < 2047 * 2 ^ 52 ∨ x = infinity false

/-- A number is made of its own bits. -/
theorem ofParts_bits (x : Binary64) : ofParts false x.bits.toNat = x := by
  rw [ofParts, if_neg (by decide), Nat.add_zero, UInt64.ofNat_toNat]

variable {x : Binary64}

/-- The field of a finite number is its bits without the fraction. -/
theorem exponentField_lt (finite : x.bits.toNat < 2047 * 2 ^ 52) :
    x.exponentField = x.bits.toNat / 2 ^ 52 ∧ x.exponentField < 2047 := by
  have quotient : x.bits.toNat / 2 ^ 52 < 2047 := Nat.div_lt_of_lt_mul (by omega)
  rw [exponentField, Nat.pow_eq, Nat.mod_eq_of_lt (by omega)]
  exact ⟨rfl, quotient⟩

/-- The significand with the exponent above it is what the bits say. -/
theorem bits_eq (finite : x.bits.toNat < 2047 * 2 ^ 52) :
    x.significand + (x.exponent + 1074).toNat * 2 ^ 52 = x.bits.toNat := by
  obtain ⟨field, small⟩ := exponentField_lt finite
  have parts := Nat.div_add_mod x.bits.toNat (2 ^ 52)
  rw [significand, exponent, fraction, Nat.pow_eq, field]
  split <;> omega

/-- A significand has at most fifty-three bits. -/
theorem significand_lt (x : Binary64) : x.significand < 2 ^ 53 := by
  have small : x.fraction < 2 ^ 52 := Nat.mod_lt _ (by decide)
  rw [significand, Nat.pow_eq]
  split <;> omega

/-- The exponent of a finite number lies in its range, and is least or the significand full. -/
theorem exponent_bounds (finite : x.bits.toNat < 2047 * 2 ^ 52) :
    -1074 ≤ x.exponent ∧ x.exponent ≤ 971 ∧ (x.exponent = -1074 ∨ 2 ^ 52 ≤ x.significand) := by
  obtain ⟨field, small⟩ := exponentField_lt finite
  rw [significand, exponent, Nat.pow_eq]
  split <;> omega

/-- The scale that is guessed from the lengths of the two sides is the exponent or one less. -/
theorem guess_bounds {num den : Nat} (finite : x.bits.toNat < 2047 * 2 ^ 52) (some_num : num ≠ 0)
    (some_den : den ≠ 0)
    (same : num * 2 ^ (-x.exponent).toNat = x.significand * (den * 2 ^ x.exponent.toNat)) :
    max (-1074) ((Nat.log2 num : Int) - Nat.log2 den - 53) = x.exponent ∨
      max (-1074) ((Nat.log2 num : Int) - Nat.log2 den - 53) = x.exponent - 1 ∧
        2 ^ 52 ≤ x.significand := by
  obtain ⟨least, _, normal⟩ := exponent_bounds finite
  have upper : Nat.log2 num + (-x.exponent).toNat < 53 + (Nat.log2 den + 1) + x.exponent.toNat := by
    rw [← Nat.pow_lt_pow_iff_right (by decide : 1 < 2)]
    calc 2 ^ (Nat.log2 num + (-x.exponent).toNat)
        = 2 ^ Nat.log2 num * 2 ^ (-x.exponent).toNat := Nat.pow_add ..
      _ ≤ num * 2 ^ (-x.exponent).toNat := Nat.mul_le_mul_right _ (Nat.log2_self_le some_num)
      _ = x.significand * (den * 2 ^ x.exponent.toNat) := same
      _ < 2 ^ 53 * (2 ^ (Nat.log2 den + 1) * 2 ^ x.exponent.toNat) :=
        Nat.mul_lt_mul'' x.significand_lt
          (Nat.mul_lt_mul_of_pos_right Nat.lt_log2_self (Nat.two_pow_pos _))
      _ = 2 ^ (53 + (Nat.log2 den + 1) + x.exponent.toNat) := by ring
  rcases normal with lowest | large
  · exact .inl (by omega)
  have lower : 52 + Nat.log2 den + x.exponent.toNat < Nat.log2 num + 1 + (-x.exponent).toNat := by
    rw [← Nat.pow_lt_pow_iff_right (by decide : 1 < 2)]
    calc 2 ^ (52 + Nat.log2 den + x.exponent.toNat)
        = 2 ^ 52 * (2 ^ Nat.log2 den * 2 ^ x.exponent.toNat) := by ring
      _ ≤ x.significand * (den * 2 ^ x.exponent.toNat) :=
        Nat.mul_le_mul large (Nat.mul_le_mul_right _ (Nat.log2_self_le some_den))
      _ = num * 2 ^ (-x.exponent).toNat := same.symm
      _ < 2 ^ (Nat.log2 num + 1) * 2 ^ (-x.exponent).toNat :=
        Nat.mul_lt_mul_of_pos_right Nat.lt_log2_self (Nat.two_pow_pos _)
      _ = 2 ^ (Nat.log2 num + 1 + (-x.exponent).toNat) := (Nat.pow_add ..).symm
  omega

/-- A ratio that is a number exactly is rounded to it. -/
theorem ofRatio_exact {num den : Nat} (finite : x.bits.toNat < 2047 * 2 ^ 52) (positive : 0 < den)
    (same : num * 2 ^ (-x.exponent).toNat = x.significand * (den * 2 ^ x.exponent.toNat)) :
    ofRatio false num den = x := by
  have bits := bits_eq finite
  have nonzero : 0 < den * 2 ^ x.exponent.toNat := Nat.mul_pos positive (Nat.two_pow_pos _)
  unfold ofRatio
  by_cases zero : num = 0
  · have nothing : x.significand = 0 := by
      rw [zero, Nat.zero_mul] at same
      exact (Nat.mul_eq_zero.mp same.symm).resolve_right (by omega)
    have lowest : x.exponent = -1074 := by
      rcases (exponent_bounds finite).2.2 with lowest | large <;> omega
    rw [nothing, lowest] at bits
    rw [if_pos zero, ← ofParts_bits x, ← bits]
    rfl
  · have doubled : num * 2 ^ (-(x.exponent - 1)).toNat =
        2 * x.significand * (den * 2 ^ (x.exponent - 1).toNat) := by
      by_cases above : 1 ≤ x.exponent
      · have up : x.exponent.toNat = (x.exponent - 1).toNat + 1 := by omega
        have down : (-(x.exponent - 1)).toNat = (-x.exponent).toNat := by omega
        rw [down, same, up, Nat.pow_succ]
        ring
      · have up : (x.exponent - 1).toNat = x.exponent.toNat := by omega
        have down : (-(x.exponent - 1)).toNat = (-x.exponent).toNat + 1 := by omega
        rw [down, Nat.pow_succ, ← Nat.mul_assoc, same, up]
        ring
    have found : (if num * 2 ^ (-max (-1074) ((Nat.log2 num : Int) - Nat.log2 den - 53)).toNat /
        (den * 2 ^ (max (-1074) ((Nat.log2 num : Int) - Nat.log2 den - 53)).toNat) < 2 ^ 53
          then max (-1074) ((Nat.log2 num : Int) - Nat.log2 den - 53)
          else max (-1074) ((Nat.log2 num : Int) - Nat.log2 den - 53) + 1) = x.exponent := by
      rcases guess_bounds finite zero (by omega) same with guess | ⟨guess, large⟩
      · rw [guess, same, Nat.mul_div_cancel _ nonzero, if_pos x.significand_lt]
      · rw [guess, doubled, Nat.mul_div_cancel _ (Nat.mul_pos positive (Nat.two_pow_pos _)),
          if_neg (by omega)]
        omega
    simp only [if_neg zero, Nat.pow_eq, found, same, roundEven_mul _ _ nonzero, bits]
    rw [if_neg (by omega), ofParts_bits]

/-- The number of places of the exact decimal, of which there is at least one. -/
def places (x : Binary64) : Nat := max 1 (-x.exponent).toNat

/-- The digits of the exact decimal. -/
def digits (x : Binary64) : Nat :=
  x.significand * 2 ^ x.exponent.toNat * 5 ^ x.places * 2 ^ (x.places - (-x.exponent).toNat)

/-- The digits written for a number stand for it exactly. -/
theorem digits_mul (x : Binary64) :
    x.digits * 2 ^ (-x.exponent).toNat = x.significand * (10 ^ x.places * 2 ^ x.exponent.toNat) := by
  have enough : (-x.exponent).toNat ≤ x.places := Nat.le_max_right ..
  have split : 10 ^ x.places =
      5 ^ x.places * 2 ^ (x.places - (-x.exponent).toNat) * 2 ^ (-x.exponent).toNat := by
    rw [Nat.mul_assoc, ← Nat.pow_add, Nat.sub_add_cancel enough, ← Nat.mul_pow]
  rw [digits, split]
  ring

/-- A decimal within range has so many digits that it is not taken for one below the range. -/
theorem log2_digits (some_digit : x.digits ≠ 0) : 2 * x.places ≤ Nat.log2 x.digits := by
  rw [Nat.le_log2 some_digit]
  have positive : 0 < x.significand * 2 ^ x.exponent.toNat * 2 ^ (x.places - (-x.exponent).toNat) := by
    refine Nat.pos_of_ne_zero fun zero => some_digit ?_
    rw [digits, Nat.mul_right_comm, zero, Nat.zero_mul]
  calc 2 ^ (2 * x.places) = 4 ^ x.places := by rw [Nat.pow_mul]
    _ ≤ 5 ^ x.places := Nat.pow_le_pow_left (by decide) _
    _ ≤ x.significand * 2 ^ x.exponent.toNat * 2 ^ (x.places - (-x.exponent).toNat) * 5 ^ x.places :=
      Nat.le_mul_of_pos_left _ positive
    _ = x.digits := by rw [digits, Nat.mul_right_comm]

/-- The digits written for a number are read as that number. -/
theorem ofDecimal_digits (finite : x.bits.toNat < 2047 * 2 ^ 52) :
    ofDecimal false x.digits (-x.places) = x := by
  have exact := ofRatio_exact finite (Nat.pow_pos (by decide)) x.digits_mul
  have some_place : 1 ≤ x.places := Nat.le_max_left ..
  have bound : x.places ≤ 1074 := by
    have := (exponent_bounds finite).1
    rw [places]
    omega
  unfold ofDecimal
  by_cases zero : x.digits = 0
  · rw [if_pos zero, ← exact, ofRatio, if_pos zero]
  · have long := log2_digits zero
    rw [if_neg zero, if_neg (by omega), if_neg (by omega), if_neg (by omega), Int.neg_neg,
      Int.toNat_natCast]
    exact exact

/-- A decimal that reads back as the number. -/
def decimalText (x : Binary64) : List Char :=
  if x.isFinite then pointed x.digits x.places else pointed (2 ^ 1024 * 10) 1

/-- The text of a magnitude is read back as it. -/
theorem readUnsigned?_decimalText (magnitude : x.IsMagnitude) :
    readUnsigned? false x.decimalText = some x := by
  rcases magnitude with finite | rfl
  · have ordinary : x.isFinite = true := by
      simpa [isFinite] using (exponentField_lt finite).2.ne
    rw [decimalText, if_pos ordinary, readUnsigned?_pointed, ofDecimal_digits finite]
  · have large : ofDecimal false (2 ^ 1024 * 10) (-(1 : Nat)) = infinity false := by
      decide +kernel
    rw [decimalText, if_neg (by decide +kernel), readUnsigned?_pointed, large]

/-- Parts below the infinite ones make a magnitude. -/
theorem isMagnitude_ofParts {magnitude : Nat} (small : magnitude < 2047 * 2 ^ 52) :
    (ofParts false magnitude).IsMagnitude := by
  refine .inl ?_
  have fits : magnitude < UInt64.size := Nat.lt_trans small (by decide)
  rwa [ofParts, if_neg (by decide), Nat.add_zero, UInt64.toNat_ofNat_of_lt' fits]

/-- Rounding a ratio gives a magnitude. -/
theorem isMagnitude_ofRatio (num den : Nat) : (ofRatio false num den).IsMagnitude := by
  unfold ofRatio
  split
  · exact isMagnitude_ofParts (by decide)
  · extract_lets guess scaled scale magnitude
    by_cases large : 2047 * Nat.pow 2 52 ≤ magnitude
    · rw [if_pos large]
      exact .inr rfl
    · rw [if_neg large]
      exact isMagnitude_ofParts (Nat.lt_of_not_le large)

/-- Reading a decimal gives a magnitude. -/
theorem isMagnitude_ofDecimal (digits : Nat) (power : Int) :
    (ofDecimal false digits power).IsMagnitude := by
  unfold ofDecimal
  split
  · exact isMagnitude_ofParts (by decide)
  split
  · exact .inr rfl
  split
  · exact isMagnitude_ofParts (by decide)
  split
  · exact isMagnitude_ofRatio ..
  · exact isMagnitude_ofRatio ..

end Binary64

/-- What is read without a sign is a magnitude. -/
theorem isMagnitude_of_readUnsigned? {text : List Char} {x : Binary64}
    (read : readUnsigned? false text = some x) : x.IsMagnitude := by
  unfold readUnsigned? at read
  dsimp only at read
  split at read
  all_goals
    split at read
    · cases read
    · obtain ⟨power, _, rfl⟩ := Option.map_eq_some_iff.mp read
      exact Binary64.isMagnitude_ofDecimal ..

end ObjectQuery.Number

import ObjectQuery.Number.Binary64
/-!
# Rounding decimals to double precision

A decimal is rounded once, from its exact value, to the nearest double-precision number; a tie goes
to the even significand, and a magnitude beyond the largest finite number becomes infinite.
-/
namespace ObjectQuery.Number

/-- The integer nearest to a quotient, a tie going to the even one. -/
def roundEven (num den : Nat) : Nat :=
  let whole := num / den
  let rest := num % den
  if 2 * rest < den then whole
  else if den < 2 * rest then whole + 1
  else whole + whole % 2

namespace Binary64

/-- The number nearest to a quotient. The scale is the power of two at which the quotient has 53
bits, but never below the least one; the bits of the result are the rounded quotient with the scale
added above the fraction, so that a quotient rounded up to 54 bits carries into the exponent. -/
def ofRatio (negative : Bool) (num den : Nat) : Binary64 :=
  if num = 0 then ofParts negative 0
  else
    let guess : Int := max (-1074) ((Nat.log2 num : Int) - Nat.log2 den - 53)
    let scaled (scale : Int) : Nat × Nat :=
      (num * Nat.pow 2 (-scale).toNat, den * Nat.pow 2 scale.toNat)
    let scale := if (scaled guess).1 / (scaled guess).2 < Nat.pow 2 53 then guess else guess + 1
    let magnitude :=
      roundEven (scaled scale).1 (scaled scale).2 + (scale + 1074).toNat * Nat.pow 2 52
    if 2047 * Nat.pow 2 52 ≤ magnitude then infinity negative else ofParts negative magnitude

/-- The number nearest to `digits × 10 ^ power`. Powers far outside the range of double precision
are decided without computing them. -/
def ofDecimal (negative : Bool) (digits : Nat) (power : Int) : Binary64 :=
  if digits = 0 then ofParts negative 0
  else if 400 < power then infinity negative
  else if power + (Nat.log2 digits / 3 + 1 : Nat) < -400 then ofParts negative 0
  else if 0 ≤ power then ofRatio negative (digits * Nat.pow 10 power.toNat) 1
  else ofRatio negative digits (Nat.pow 10 (-power).toNat)

end Binary64

/-- The value of a run of decimal digits. -/
def digitsValue (digits : List Char) : Nat :=
  digits.foldl (fun value digit => value * 10 + (digit.toNat - 48)) 0

/-- The power of ten that an exponent part stands for, `none` when the text is none. -/
def readPower? : List Char → Option Int
  | [] => some 0
  | mark :: rest =>
    if mark == 'e' || mark == 'E' then
      let (negative, digits) := match rest with
        | '-' :: digits => (true, digits)
        | '+' :: digits => (false, digits)
        | digits => (false, digits)
      if digits.isEmpty || !digits.all Char.isDigit then none
      else some (if negative then -(digitsValue digits : Int) else digitsValue digits)
    else none

/-- The number that an unsigned decimal text denotes: digits with at most one point, at least one
digit in all, and an optional exponent part. -/
def readUnsigned? (negative : Bool) (text : List Char) : Option Binary64 :=
  let whole := text.takeWhile Char.isDigit
  let (places, rest) := match text.dropWhile Char.isDigit with
    | '.' :: rest => (rest.takeWhile Char.isDigit, rest.dropWhile Char.isDigit)
    | rest => ([], rest)
  if whole.isEmpty && places.isEmpty then none
  else (readPower? rest).map fun power =>
    Binary64.ofDecimal negative (digitsValue (whole ++ places)) (power - places.length)

/-- The number that a text denotes: a decimal with an optional sign, or one of the words for the
infinite and undefined numbers in any case. -/
def Binary64.ofText? (text : String) : Option Binary64 :=
  let (negative, rest) := match text.toList with
    | '-' :: rest => (true, rest)
    | '+' :: rest => (false, rest)
    | rest => (false, rest)
  let word := String.ofList (rest.map Char.toLower)
  if word == "inf" || word == "infinity" then some (infinity negative)
  else if word == "nan" then some undefinedNumber
  else readUnsigned? negative rest

end ObjectQuery.Number

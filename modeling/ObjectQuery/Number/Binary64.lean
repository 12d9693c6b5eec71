/-!
# Double-precision numbers

A decimal literal denotes the double-precision number nearest to it. The number is kept as its 64
bits, and everything about it is computed from them in exact integer arithmetic: a finite number is
its significand times a power of two.
-/
namespace ObjectQuery.Number

/-- A double-precision number by its bits: one of sign, eleven of exponent, 52 of fraction. -/
structure Binary64 where
  bits : UInt64
  deriving DecidableEq, Repr

namespace Binary64

/-- The sign bit. Zero has two signs. -/
def isNegative (x : Binary64) : Bool := Nat.pow 2 63 ≤ x.bits.toNat

/-- The eleven exponent bits as a number. -/
def exponentField (x : Binary64) : Nat := x.bits.toNat / Nat.pow 2 52 % 2048

/-- The 52 fraction bits as a number. -/
def fraction (x : Binary64) : Nat := x.bits.toNat % Nat.pow 2 52

/-- Neither infinite nor undefined: not all exponent bits are set. -/
def isFinite (x : Binary64) : Bool := x.exponentField != 2047

/-- The integer that a power of two scales to the magnitude of a finite number. -/
def significand (x : Binary64) : Nat :=
  if x.exponentField = 0 then x.fraction else x.fraction + Nat.pow 2 52

/-- The power of two that scales the significand. -/
def exponent (x : Binary64) : Int := (max x.exponentField 1 : Nat) - 1075

/-- The number with the given sign and the remaining 63 bits. -/
def ofParts (negative : Bool) (magnitude : Nat) : Binary64 :=
  ⟨UInt64.ofNat (magnitude + if negative then Nat.pow 2 63 else 0)⟩

/-- The infinity of the given sign. -/
def infinity (negative : Bool) : Binary64 := ofParts negative (2047 * Nat.pow 2 52)

/-- The undefined number that arithmetic gives. -/
def undefinedNumber : Binary64 := ofParts false (2047 * Nat.pow 2 52 + Nat.pow 2 51)

/-- The bits as sixteen lower-case hexadecimal digits. -/
def hex (x : Binary64) : String :=
  let digits := Nat.toDigits 16 x.bits.toNat
  String.ofList (List.replicate (16 - digits.length) '0' ++ digits)

end Binary64
end ObjectQuery.Number

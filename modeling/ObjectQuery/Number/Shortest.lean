import ObjectQuery.Number.Binary64
/-!
# Shortest decimals

A double-precision number is written with the fewest decimal digits that read back as it. The
decimals that read back are those between the midpoints to its two neighbours, midpoints included
when the significand is even. The search goes through decimal grids from the coarsest on; on each
only the two grid points around the number matter, because any other grid point in the interval has
one of them between it and the number.
-/
namespace ObjectQuery.Number

/-- The number `digits × 10 ^ power`. -/
structure Decimal where
  digits : Nat
  power : Int
  deriving DecidableEq, Repr

/-- The decimals that round to a number, measured in quarters of its last place: everything between
`low` and `high`, whose common factor is `up / down`. -/
structure RoundingInterval where
  low : Nat
  value : Nat
  high : Nat
  up : Nat
  down : Nat
  closed : Bool

/-- The interval of a finite number other than zero. Below a power of two the neighbour is only half
as far away. -/
def Binary64.interval (x : Binary64) : RoundingInterval :=
  let significand := x.significand
  let below := if significand = Nat.pow 2 52 ∧ 1 < x.exponentField then 1 else 2
  { low := 4 * significand - below
    value := 4 * significand
    high := 4 * significand + 2
    up := Nat.pow 2 (x.exponent - 2).toNat
    down := Nat.pow 2 (2 - x.exponent).toNat
    closed := significand % 2 = 0 }

/-- The point of the grid of multiples of `10 ^ power` that stands for the number: of its two
neighbours there the one inside the interval, the nearer if both are, the even one of a tie. -/
def RoundingInterval.onGrid? (interval : RoundingInterval) (power : Int) : Option Decimal :=
  let unit := Nat.pow 10 power.toNat * interval.down
  let scale := interval.up * Nat.pow 10 (-power).toNat
  let inside (point : Nat) : Bool :=
    if interval.closed then interval.low * scale ≤ point * unit && point * unit ≤ interval.high * scale
    else interval.low * scale < point * unit && point * unit < interval.high * scale
  let point := interval.value * scale / unit
  let rest := interval.value * scale % unit
  let roundUp := unit < 2 * rest || (unit == 2 * rest && point % 2 == 1)
  if inside point && inside (point + 1) then some ⟨if roundUp then point + 1 else point, power⟩
  else if inside point then some ⟨point, power⟩
  else if inside (point + 1) then some ⟨point + 1, power⟩
  else none

/-- The shortest decimal that reads back as a finite number other than zero, and the nearest to it
of those. Seventeen digits always suffice; the coarsest grid tried is the power of ten above the
number. -/
def Binary64.shortest (x : Binary64) : Decimal :=
  let interval := x.interval
  let top := ((Nat.log2 x.significand : Int) + x.exponent) * 30103 / 100000 + 1
  ((List.range 19).findSome? fun (finer : Nat) => interval.onGrid? (top - finer)).getD ⟨0, 0⟩

/-- The magnitudes that are written without an exponent: those whose first digit stands at a place
above `least` and at most at `most`, counted from the point. -/
structure Layout where
  least : Int
  most : Int

/-- The text of a decimal. Without an exponent it has at least one digit on each side of the point;
otherwise one digit stands before the point, which is left out when it is the only one. -/
def Layout.write (layout : Layout) (decimal : Decimal) : String :=
  let digits := Nat.toDigits 10 decimal.digits
  let place := digits.length + decimal.power
  if layout.least < place ∧ place ≤ layout.most then
    if place ≤ 0 then
      String.ofList ('0' :: '.' :: List.replicate (-place).toNat '0' ++ digits)
    else
      let whole := digits.take place.toNat ++ List.replicate (place.toNat - digits.length) '0'
      let places := digits.drop place.toNat
      String.ofList (whole ++ '.' :: if places.isEmpty then ['0'] else places)
  else
    let places := digits.drop 1
    String.ofList (digits.take 1 ++ if places.isEmpty then [] else '.' :: places) ++
      "e" ++ toString (place - 1)

/-- The text of a finite number: its sign, then `0.0` or its shortest decimal. -/
def Layout.number (layout : Layout) (x : Binary64) : String :=
  (if x.isNegative then "-" else "") ++
    if x.significand = 0 then "0.0" else layout.write x.shortest

end ObjectQuery.Number

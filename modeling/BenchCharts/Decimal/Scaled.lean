import BenchCharts.Decimal.Rounding

/-!
# Scaling a significand by a power of ten

A decimal in a JSON text is read in two roundings. Its digits are collected in a `Significand` of
64 bits, with a power of ten beside it; digits for which there is no room are passed over, and those
before the point still count for the power. Then `Significand.toFloat?` turns the significand into a
float and multiplies or divides it once by the power of ten.

With at most 15 digits and a power of at most 22 both factors are exact, so the result is the float
nearest to the decimal. Beyond that it can be a neighbour of the nearest one: `9007199254740991.0`
has 17 digits and reads as `9007199254740990.0`.
-/

namespace BenchCharts.Decimal

/-- The digits of a decimal that fit into 64 bits, as the number `digits * 10 ^ exponent`. -/
structure Significand where
  /-- The digits, read as one number. -/
  digits : Nat
  /-- The power of ten. -/
  exponent : Int
  /-- Whether there was no room for a digit. -/
  full : Bool
deriving DecidableEq, Repr

namespace Significand

/-- A significand without digits. -/
def empty : Significand := ⟨0, 0, false⟩

/-- Whether there is room for one more digit. -/
def hasRoom (s : Significand) (digit : Nat) : Bool := decide (s.digits * 10 + digit < UInt64.size)

/-- A significand with one more digit before the point. Once one has been passed over, so are all
after it. -/
def pushWhole (s : Significand) (digit : Nat) : Significand :=
  if !s.full && s.hasRoom digit then { s with digits := s.digits * 10 + digit }
  else { s with exponent := s.exponent + 1, full := true }

/-- The state in which the digits after the point begin: if there is room again for one of them, it
is taken. -/
def reopen (s : Significand) : Significand := { s with full := false }

/-- A significand with one more digit after the point. -/
def pushPlace (s : Significand) (digit : Nat) : Significand :=
  if !s.full && s.hasRoom digit then
    { s with digits := s.digits * 10 + digit, exponent := s.exponent - 1 }
  else { s with full := true }

/-- The significand of a decimal with some digits before and after the point. -/
def of (whole places : List Nat) : Significand :=
  places.foldl pushPlace (whole.foldl pushWhole empty).reopen

/-- A power of ten between `1` and `10 ^ 308`. -/
def powerOfTen (exponent : Nat) : Float := Float.ofScientific 1 false exponent

/-- A float divided by `10 ^ exponent`, in steps of at most `10 ^ 308`. Two steps of that size make
zero of every 64-bit number. -/
def divide : Nat → Float → Nat → Float
  | 0, _, _ => 0
  | fuel + 1, x, exponent =>
    if exponent ≤ 308 then x / powerOfTen exponent
    else divide fuel (x / powerOfTen 308) (exponent - 308)

/-- The value of a significand, if it is within the range of floats. -/
def toFloat? (s : Significand) : Option Float :=
  let x := Float.ofNat s.digits
  -- Zero is in range with any exponent.
  if s.digits = 0 then some 0
  else if s.exponent < 0 then some (divide 2 x s.exponent.natAbs)
  else if 308 < s.exponent then none
  else
    let product := x * powerOfTen s.exponent.toNat
    if product.isFinite then some product else none

end Significand

/-- The float that a JSON text means by a decimal, if it is within the range of floats. -/
def scaled? (negative : Bool) (whole places : List Nat) (exponent : Int) : Option Float :=
  let s := Significand.of whole places
  ({ s with exponent := s.exponent + exponent } : Significand).toFloat?.map fun x =>
    if negative then -x else x

end BenchCharts.Decimal

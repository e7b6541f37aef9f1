import BenchCharts.Decimal.Rounding

/-!
# Reading a decimal as a float

`Decimal.nearest` is the float nearest to `digits * 10 ^ exponent`. Numbers far outside the range
of floats are settled by counting digits, so that an exponent of any size costs nothing.
-/

namespace BenchCharts.Decimal

/-- The float nearest to `digits * 10 ^ exponent`: zero when it is too small, and infinite when it
is too large. -/
def nearest (digits : Nat) (exponent : Int) : Float :=
  if digits = 0 then 0.0
  else
    let leading := exponent + digitCount digits
    -- Beyond these bounds the result is known without a power of ten.
    if 310 < leading then Float.ofBits 0x7FF0000000000000
    else if leading < -330 then 0.0
    else if exponent < 0 then Float.ofScientific digits true exponent.natAbs
    else Float.ofScientific digits false exponent.natAbs

/-- The float nearest to `digits * 10 ^ exponent`, with a sign. -/
def nearestSigned (negative : Bool) (digits : Nat) (exponent : Int) : Float :=
  if negative then -(nearest digits exponent) else nearest digits exponent

/-- The float nearest to a decimal with some digits before and after the point, if it is finite. -/
def nearest? (negative : Bool) (whole places : List Nat) (exponent : Int) : Option Float :=
  let digits := (whole ++ places).foldl (fun n digit => 10 * n + digit) 0
  let x := nearestSigned negative digits (exponent - places.length)
  if x.isFinite then some x else none

end BenchCharts.Decimal

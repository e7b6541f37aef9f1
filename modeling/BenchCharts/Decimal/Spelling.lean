import BenchCharts.Decimal.Shortest
import BenchCharts.Text.Numeral

/-!
# Spelling floating point numbers

Two spellings are in use. `Decimal.spell` writes the shortest digits that read back: positionally
from `1e-5` up to but not including `1e16`, and with an exponent outside of that. A positional
number always has a point, and an exponent always has a sign. `Decimal.spellFixed` writes a fixed
number of places, rounding the exact value with a half going to the even neighbour.
-/

namespace BenchCharts.Decimal

/-- The decimal exponents (of the leading digit) that are written without an exponent. -/
def positional (leading : Int) : Bool := -5 ≤ leading && leading < 16

/-- The digits of a decimal written positionally, with at least one digit around the point. -/
def spellPositional (d : Decimal) : List Char :=
  let digits := (toString d.digits).toList
  if 0 ≤ d.exponent then digits ++ List.replicate d.exponent.toNat '0' ++ ['.', '0']
  else
    let places := (-d.exponent).toNat
    let filled := List.replicate (places + 1 - digits.length) '0' ++ digits
    filled.take (filled.length - places) ++ '.' :: filled.drop (filled.length - places)

/-- The digits of a decimal written with one digit before the point and an exponent. -/
def spellScientific (d : Decimal) : List Char :=
  let digits := (toString d.digits).toList
  let leading := d.exponent + (digits.length - 1 : Nat)
  let fraction := if digits.length ≤ 1 then [] else '.' :: digits.drop 1
  let exponent := if leading < 0 then '-' :: (toString leading.natAbs).toList
    else '+' :: (toString leading.natAbs).toList
  digits.take 1 ++ fraction ++ 'e' :: exponent

/-- The text of a finite number: the fewest digits that read back to it. -/
def spellBinary (b : Binary) : List Char :=
  let sign := if b.negative then ['-'] else []
  if b.mantissa = 0 then sign ++ ['0', '.', '0']
  else
    let d := shortest b
    let leading := d.exponent + (digitCount d.digits - 1 : Nat)
    sign ++ (if positional leading then spellPositional d else spellScientific d)

/-- The text of a float, if it is finite. -/
def spell? (x : Float) : Option String := (Binary.ofFloat? x).map fun b => .ofList (spellBinary b)

/-- The text of a finite number with `places` digits after the point. -/
def spellBinaryFixed (places : Nat) (b : Binary) : List Char :=
  let scaled := roundHalfEven (b.numerator * Nat.pow 10 places) b.denominator
  let digits := Text.padded (places + 1) scaled
  let whole := digits.take (digits.length - places)
  let sign := if b.negative then ['-'] else []
  sign ++ whole ++ (if places = 0 then [] else '.' :: digits.drop (digits.length - places))

/-- The text of a float with a fixed number of places. -/
def spellFixed (places : Nat) (x : Float) : String :=
  match Binary.ofFloat? x with
  | some b => .ofList (spellBinaryFixed places b)
  | none => if x.isNaN then "NaN" else if x < 0 then "-inf" else "inf"

end BenchCharts.Decimal

import BenchCharts.Decimal.Binary
import BenchCharts.Decimal.Rounding

/-!
# The shortest decimal that reads back

Every decimal inside the rounding interval of a float reads back to that float. Of these
`Decimal.shortest` takes one with the fewest digits, and of those the nearest to the exact value.

With `n` digits the candidates are the two neighbours of the value on the grid of decimals with
`n` digits: when any point of the grid lies in the interval, so does one of the two. The search
goes through the grids from 1 digit to 17, where a candidate always exists.
-/

namespace BenchCharts

/-- The positive number `digits * 10 ^ exponent`. -/
structure Decimal where
  /-- The digits, read as one number. -/
  digits : Nat
  /-- The power of ten. -/
  exponent : Int
deriving DecidableEq, Repr

namespace Decimal

/-- The decimal without the zeros at the end of its digits, `fuel` of them at most. -/
def dropZeros : Nat → Decimal → Decimal
  | 0, d => d
  | fuel + 1, d =>
    if d.digits ≠ 0 ∧ d.digits % 10 = 0 then dropZeros fuel ⟨d.digits / 10, d.exponent + 1⟩ else d

/-- The decimals that read back to a float, as bounds on four times the value: the interval is
`low / (4 * denominator)` to `high / (4 * denominator)`. -/
structure Interval where
  /-- The exact value's numerator. -/
  numerator : Nat
  /-- The exact value's denominator. -/
  denominator : Nat
  /-- The lower end, times four times the denominator. -/
  low : Nat
  /-- The upper end, times four times the denominator. -/
  high : Nat
  /-- Whether the ends belong to the interval. -/
  closed : Bool

/-- The rounding interval of a positive float. Below a power of two the neighbours are twice as
dense, so there the lower end is half as far away. -/
def Interval.of (b : Binary) : Interval :=
  let unit := 1 <<< b.exponent.toNat
  let narrow := b.mantissa == 1 <<< 52 && decide (-1074 < b.exponent)
  { numerator := b.numerator
    denominator := b.denominator
    low := 4 * b.numerator - (if narrow then unit else 2 * unit)
    high := 4 * b.numerator + 2 * unit
    closed := b.mantissa % 2 == 0 }

/-- Whether `digits * 10 ^ exponent` lies in an interval. -/
def Interval.has (i : Interval) (digits : Nat) (exponent : Int) : Bool :=
  let value := 4 * digits * Nat.pow 10 exponent.toNat * i.denominator
  let scale := Nat.pow 10 (-exponent).toNat
  if i.closed then i.low * scale ≤ value && value ≤ i.high * scale
  else i.low * scale < value && value < i.high * scale

/-- The candidate on the grid of multiples of `10 ^ exponent`. -/
def Interval.candidate? (i : Interval) (exponent : Int) : Option Decimal :=
  let top := i.numerator * Nat.pow 10 (-exponent).toNat
  let bottom := i.denominator * Nat.pow 10 exponent.toNat
  let below := top / bottom
  match i.has below exponent, i.has (below + 1) exponent with
  | true, true => some ⟨roundHalfEven top bottom, exponent⟩
  | true, false => some ⟨below, exponent⟩
  | false, true => some ⟨below + 1, exponent⟩
  | false, false => none

/-- The first candidate on the grids that `fuel` more digits reach, the coarsest grid first. -/
def Interval.search (i : Interval) : Nat → Int → Decimal
  | 0, exponent =>
    ⟨i.numerator * Nat.pow 10 (-exponent).toNat / (i.denominator * Nat.pow 10 exponent.toNat),
      exponent⟩
  | fuel + 1, exponent =>
    match i.candidate? exponent with
    | some d => d
    | none => i.search fuel (exponent - 1)

/-- The shortest decimal that reads back to a positive float. -/
def shortest (b : Binary) : Decimal :=
  let i := Interval.of b
  dropZeros 17 (i.search 17 (floorLog10 i.numerator i.denominator))

end Decimal

end BenchCharts

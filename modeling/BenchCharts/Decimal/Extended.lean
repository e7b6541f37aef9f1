import BenchCharts.Decimal.Rounding

/-!
# Decimals with 64 significant bits

The store turns the text of a decimal into a float by way of numbers with 64 significant bits. As
many digits as have room are collected (`takeWhole`, `takePlace`), and the number that they make is
multiplied by powers of ten, or by their inverses, one after the other. Every product is rounded to
64 bits (`Extended.mul`), and only the last one to a float (`Extended.toFloat`).

An inverse of a power of ten has no exact binary form, so the result can be a neighbour of the
nearest float: `0.463921` is read as `0.46392100000000003`.
-/

namespace BenchCharts.Decimal

/-- The number `mantissa * 2 ^ exponent`. -/
structure Extended where
  /-- The whole-number factor. -/
  mantissa : Nat
  /-- The power of two. -/
  exponent : Int
deriving DecidableEq, Repr

namespace Extended

/-- A number rounded to 64 significant bits, a half going to the even neighbour. -/
def round (x : Extended) : Extended :=
  let excess := x.mantissa.log2 - 63
  ⟨roundHalfEven x.mantissa (1 <<< excess), x.exponent + excess⟩

/-- A product of two numbers, rounded. -/
def mul (x y : Extended) : Extended := round ⟨x.mantissa * y.mantissa, x.exponent + y.exponent⟩

/-- The power `10 ^ n`, rounded. -/
def powerOfTen (n : Nat) : Extended := round ⟨Nat.pow 10 n, 0⟩

/-- The inverse of `10 ^ n`, rounded. -/
def inverseOfTen (n : Nat) : Extended :=
  let bits := (Nat.pow 10 n).log2 + 64
  ⟨roundHalfEven (1 <<< bits) (Nat.pow 10 n), -bits⟩

/-- A number multiplied by a factor some times, with a rounding each time. -/
def mulTimes (factor : Extended) : Nat → Extended → Extended
  | 0, x => x
  | times + 1, x => mulTimes factor times (x.mul factor)

/-- A number multiplied by a power of ten in steps of 100, 10 and 1. -/
def scale (x : Extended) (exponent : Int) : Extended :=
  let factor := if exponent < 0 then inverseOfTen else powerOfTen
  let hundreds := exponent.natAbs / 100
  let tens := exponent.natAbs % 100 / 10
  let ones := exponent.natAbs % 10
  mulTimes (factor 1) ones (mulTimes (factor 10) tens (mulTimes (factor 100) hundreds x))

/-- The exponent of the leading bit. -/
def leading (x : Extended) : Int := x.mantissa.log2 + x.exponent

/-- The exponent of the last bit of the nearest float, which has 53 bits unless it is among the
least. -/
def lastBit (x : Extended) : Int := max (x.leading - 52) (-1074)

/-- A number as a fraction of multiples of its last bit. -/
def fraction (x : Extended) : Nat × Nat :=
  (x.mantissa <<< (x.exponent - x.lastBit).toNat, 1 <<< (x.lastBit - x.exponent).toNat)

/-- Whether a number exceeds the greatest float, which has 53 bits and the greatest exponent. -/
def tooLarge (x : Extended) : Bool :=
  if x.leading = 1023 then decide (((1 <<< 53) - 1) * x.fraction.2 < x.fraction.1)
  else decide (1023 < x.leading)

/-- The float nearest to a number, a half going to the even neighbour. -/
def toFloat (x : Extended) : Float :=
  if x.tooLarge then Float.ofBits 0x7FF0000000000000
  else
    let units := roundHalfEven x.fraction.1 x.fraction.2
    Float.ofBits (((x.lastBit + 1074).toNat <<< 52) + units).toUInt64

end Extended

/-- With this many units no further digit is taken. -/
def roomForDigits : Nat := (UInt64.size - 10) / 10

/-- A number and a power of ten with one more digit before the point. A digit without room still
counts for the power. -/
def takeWhole (s : Nat × Int) (digit : Nat) : Nat × Int :=
  if s.1 < roomForDigits then (s.1 * 10 + digit, s.2) else (s.1, s.2 + 1)

/-- A number and a power of ten with one more digit after the point. -/
def takePlace (s : Nat × Int) (digit : Nat) : Nat × Int :=
  if s.1 < roomForDigits then (s.1 * 10 + digit, s.2 - 1) else s

/-- Moves powers of ten into a number while there is room. -/
def absorb (n : Nat) : Nat → Nat × Int
  | 0 => (n, 0)
  | exponent + 1 =>
    if n < (UInt64.size - 1) / 10 then absorb (n * 10) exponent else (n, exponent + 1)

/-- Moves inverses of ten into a number while it ends in a zero. -/
def reduce (n : Nat) : Nat → Nat × Int
  | 0 => (n, 0)
  | exponent + 1 => if n % 10 = 0 then reduce (n / 10) exponent else (n, -((exponent : Int) + 1))

/-- The float that the store reads where `n * 10 ^ exponent` is written. -/
def extended (n : Nat) (exponent : Int) : Float :=
  if n = 0 then 0.0
  else
    let (n, exponent) :=
      if exponent < 0 then reduce n exponent.natAbs else absorb n exponent.natAbs
    (Extended.scale ⟨n, 0⟩ exponent).toFloat

/-- A written exponent as it counts: one of six digits or more is as good as `10000`. -/
def boundedExponent (exponent : Int) : Int :=
  if exponent.natAbs < 100000 then exponent else if exponent < 0 then -10000 else 10000

/-- The float that the store reads where a decimal is written with some digits before and after the
point. -/
def stored (negative : Bool) (whole places : List Nat) (exponent : Int) : Float :=
  let (n, shift) := places.foldl takePlace (whole.foldl takeWhole (0, 0))
  let x := extended n (boundedExponent exponent + shift)
  if negative then -x else x

end BenchCharts.Decimal

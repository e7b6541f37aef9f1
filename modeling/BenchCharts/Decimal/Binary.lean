/-!
# 64-bit floating point numbers as exact fractions

A finite `Float` is a whole number times a power of two. `Binary.ofFloat?` takes the bit pattern
apart into that form, after which questions about the value (is it whole, which decimal is
nearest, how does it compare with an integer) are questions about natural numbers.
-/

namespace BenchCharts

/-- The number `mantissa * 2 ^ exponent`, or its opposite if `negative`. -/
structure Binary where
  /-- Whether the sign bit is set; zero has a sign too. -/
  negative : Bool
  /-- The whole-number factor. -/
  mantissa : Nat
  /-- The power of two. -/
  exponent : Int
deriving DecidableEq, Repr

namespace Binary

/-- The exact value of a float, unless it is infinite or not a number. -/
def ofFloat? (x : Float) : Option Binary :=
  let bits : Nat := x.toBits.toNat
  let negative := bits >>> 63 == 1
  let biased : Nat := (bits >>> 52) % 2048
  let fraction : Nat := bits % (1 <<< 52)
  if biased = 2047 then none
  else if biased = 0 then some ⟨negative, fraction, -1074⟩
  else some ⟨negative, (1 <<< 52) + fraction, (biased : Int) - 1075⟩

/-- The numerator of the absolute value over `denominator`. -/
def numerator (b : Binary) : Nat := b.mantissa <<< b.exponent.toNat

/-- A power of two that makes the absolute value a fraction of whole numbers. -/
def denominator (b : Binary) : Nat := 1 <<< (-b.exponent).toNat

/-- A fraction never has the denominator zero. -/
theorem denominator_pos (b : Binary) : 0 < b.denominator := by
  rw [denominator, Nat.one_shiftLeft]
  exact Nat.two_pow_pos _

/-- The numerator with the sign of the value. -/
def signedNumerator (b : Binary) : Int :=
  if b.negative then -(b.numerator : Int) else b.numerator

/-- The value, if it is a whole number. -/
def integer? (b : Binary) : Option Int :=
  if b.numerator % b.denominator = 0 then some (b.signedNumerator / b.denominator) else none

/-- How an integer compares with the value. -/
def compareInt (n : Int) (b : Binary) : Ordering :=
  compare (n * b.denominator) b.signedNumerator

end Binary

end BenchCharts

/-!
# Rounding quotients

`roundHalfEven n d` is the whole number nearest to `n / d`; of two equally near ones it is the
even one. `digitCount` and `floorLog10` measure numbers in decimal digits.
-/

namespace BenchCharts.Decimal

/-- The whole number nearest to `numerator / denominator`, a half going to the even neighbour. -/
def roundHalfEven (numerator denominator : Nat) : Nat :=
  let quotient := numerator / denominator
  let rest := numerator % denominator
  if 2 * rest < denominator then quotient
  else if denominator < 2 * rest then quotient + 1
  else quotient + quotient % 2

/-- The number of decimal digits of a number; zero has one. -/
def digitCount (n : Nat) : Nat := (toString n).length

/-- The greatest `e` with `10 ^ e ≤ numerator / denominator`, for a positive quotient. -/
def floorLog10 (numerator denominator : Nat) : Int :=
  if denominator ≤ numerator then digitCount (numerator / denominator) - 1
  else
    let digits := digitCount (denominator / numerator)
    if denominator ≤ numerator * Nat.pow 10 (digits - 1) then 1 - (digits : Int)
    else -(digits : Int)

/-- Rounding leaves at most half a unit between the quotient and the result. -/
theorem roundHalfEven_near (n d : Nat) (hd : 0 < d) :
    2 * (roundHalfEven n d * d) ≤ 2 * n + d ∧ 2 * n ≤ 2 * (roundHalfEven n d * d) + d := by
  have hdiv := Nat.div_add_mod n d
  have hlt := Nat.mod_lt n hd
  have hcomm : n / d * d = d * (n / d) := Nat.mul_comm _ _
  simp only [roundHalfEven]
  split
  · omega
  · split
    · rw [Nat.add_mul]; omega
    · rw [Nat.add_mul]
      rcases Nat.mod_two_eq_zero_or_one (n / d) with h | h <;> rw [h] <;> omega

end BenchCharts.Decimal

import Mathlib
import BenchCharts.Decimal.Shortest

/-!
# The shortest decimal reads back

A decimal reads back to a float if it lies in the rounding interval of the float. What is found for
a positive float does (`contains_shortest`), and this is why the search ends at 17 digits: an
interval is wider than `2⁻⁵³` times the value in it, and the steps of the last grid are at most
`10⁻¹⁶` times the value. So one of the two neighbours of the value on that grid lies in the interval
(`exists_candidate?`). Dropping zeros does not change the value.

The comparisons of `Interval.has` are those of rational numbers, freed of their denominators
(`has_iff`).
-/

namespace BenchCharts.Decimal

/-- The value of a decimal. -/
def toRat (d : Decimal) : ℚ := d.digits * 10 ^ d.exponent

/-- The decimal with some digits before and after the point, and a power of ten. -/
def ofDigits (whole places : List Nat) (power : Int) : Decimal :=
  ⟨(whole ++ places).foldl (fun n digit => 10 * n + digit) 0, power - places.length⟩

/-- The numbers in a rounding interval. -/
def Interval.Contains (i : Interval) (x : ℚ) : Prop :=
  if i.closed then (i.low : ℚ) ≤ 4 * i.denominator * x ∧ 4 * i.denominator * x ≤ i.high
  else (i.low : ℚ) < 4 * i.denominator * x ∧ 4 * i.denominator * x < i.high

/-- A number is rounded to the absolute value of a float. Nothing but zero counts as zero. -/
def RoundsTo (x : ℚ) (b : Binary) : Prop :=
  if b.mantissa = 0 then x = 0 else (Interval.of b).Contains x

/-! ### Intervals -/

theorem zpow_ten (e : Int) : (10 : ℚ) ^ e = 10 ^ e.toNat / 10 ^ (-e).toNat := by
  rw [← zpow_natCast, ← zpow_natCast, ← zpow_sub₀ (by norm_num)]
  congr 1
  omega

theorem Interval.has_iff {i : Interval} {digits : Nat} {exponent : Int} :
    i.has digits exponent = true ↔ i.Contains (toRat ⟨digits, exponent⟩) := by
  have hscale : (0 : ℚ) < 10 ^ (-exponent).toNat := by positivity
  have hvalue : 4 * i.denominator * toRat ⟨digits, exponent⟩ =
      (4 * digits * 10 ^ exponent.toNat * i.denominator : ℚ) / 10 ^ (-exponent).toNat := by
    rw [toRat, zpow_ten]
    ring
  -- The power of ten is moved to the side on which it is a natural number.
  rw [Interval.has, Interval.Contains, hvalue, le_div_iff₀ hscale, div_le_iff₀ hscale,
    lt_div_iff₀ hscale, div_lt_iff₀ hscale]
  -- Both sides compare the same natural numbers.
  split <;> simp only [Bool.and_eq_true, decide_eq_true_eq] <;> norm_cast

section Bounds

variable {b : Binary}

/-- A float has 53 bits. -/
theorem mantissa_lt {x : Float} (h : Binary.ofFloat? x = some b) : b.mantissa < 2 ^ 53 := by
  have hfraction : x.toBits.toNat % 1 <<< 52 < 2 ^ 52 := by
    rw [Nat.one_shiftLeft]
    exact Nat.mod_lt _ (by decide)
  simp only [Binary.ofFloat?] at h
  split at h
  · cases h
  · split at h
    all_goals
      cases h
      simp only [Nat.one_shiftLeft] at hfraction ⊢
      omega

theorem unit_pos (b : Binary) : 0 < 1 <<< b.exponent.toNat := by
  rw [Nat.one_shiftLeft]
  exact Nat.two_pow_pos _

theorem numerator_eq (b : Binary) : b.numerator = b.mantissa * 1 <<< b.exponent.toNat := by
  rw [Binary.numerator, Nat.one_shiftLeft, Nat.shiftLeft_eq]

/-- The rounding interval of a positive float does not reach down to zero. -/
theorem low_pos (hb : b.mantissa ≠ 0) : 0 < (Interval.of b).low := by
  have hunit := unit_pos b
  have hnumerator : 1 <<< b.exponent.toNat ≤ b.numerator := by
    rw [numerator_eq]
    exact Nat.le_mul_of_pos_left _ (Nat.pos_of_ne_zero hb)
  simp only [Interval.of]
  split <;> omega

/-- The value lies between the ends, and these are not closer to each other than the value times
`2⁻⁵³`. -/
theorem bounds_of (hb : b.mantissa ≠ 0) (hbits : b.mantissa < 2 ^ 53) :
    (Interval.of b).low ≤ 4 * b.numerator ∧ 4 * b.numerator < (Interval.of b).high ∧
      4 * b.numerator < 2 ^ 53 * ((Interval.of b).high - (Interval.of b).low) := by
  have hunit := unit_pos b
  have hnumerator := numerator_eq b
  have hpositive := Nat.le_mul_of_pos_left (1 <<< b.exponent.toNat) (Nat.pos_of_ne_zero hb)
  simp only [Interval.of]
  generalize 1 <<< b.exponent.toNat = unit at *
  rw [hnumerator]
  refine ⟨Nat.sub_le _ _, by omega, ?_⟩
  split
  · next hnarrow =>
    -- The interval of a power of two is narrower, but so is the mantissa smaller.
    obtain ⟨hmantissa, -⟩ := Bool.and_eq_true_iff.1 hnarrow
    rw [beq_iff_eq.1 hmantissa] at hpositive ⊢
    omega
  · have hless := Nat.mul_lt_mul_of_pos_right hbits hunit
    omega

end Bounds

/-! ### Candidates -/

theorem roundHalfEven_eq_or (n d : Nat) :
    roundHalfEven n d = n / d ∨ roundHalfEven n d = n / d + 1 := by
  simp only [roundHalfEven]
  split
  · exact .inl rfl
  · split
    · exact .inr rfl
    · rcases Nat.mod_two_eq_zero_or_one (n / d) with h | h <;> simp [h]

section Candidates

variable {i : Interval} {exponent : Int}

/-- Every candidate lies in the interval. -/
theorem contains_of_candidate? {d : Decimal} (h : i.candidate? exponent = some d) :
    i.Contains d.toRat := by
  simp only [Interval.candidate?] at h
  split at h
  · next hbelow habove =>
    cases h
    refine Interval.has_iff.1 ?_
    -- Rounding picks one of the two neighbours, and both lie in the interval.
    rcases roundHalfEven_eq_or (i.numerator * Nat.pow 10 (-exponent).toNat)
      (i.denominator * Nat.pow 10 exponent.toNat) with heq | heq
    · rwa [heq]
    · rwa [heq]
  · next hbelow habove =>
    cases h
    exact Interval.has_iff.1 hbelow
  · next hbelow habove =>
    cases h
    exact Interval.has_iff.1 habove
  · cases h

theorem contains_of_between {x : ℚ} (hlow : i.low < 4 * i.denominator * x)
    (hhigh : 4 * i.denominator * x < i.high) : i.Contains x := by
  rw [Interval.Contains]
  split
  · exact ⟨hlow.le, hhigh.le⟩
  · exact ⟨hlow, hhigh⟩

theorem exists_candidate?_of_contains (below : Nat)
    (hbelow : below = i.numerator * Nat.pow 10 (-exponent).toNat /
      (i.denominator * Nat.pow 10 exponent.toNat))
    (h : i.Contains (toRat ⟨below, exponent⟩) ∨ i.Contains (toRat ⟨below + 1, exponent⟩)) :
    ∃ d, i.candidate? exponent = some d := by
  rw [← Interval.has_iff, ← Interval.has_iff] at h
  simp only [Interval.candidate?, ← hbelow]
  split
  · exact ⟨_, rfl⟩
  · exact ⟨_, rfl⟩
  · exact ⟨_, rfl⟩
  · next hnot hnot' =>
    rw [hnot, hnot'] at h
    simp at h

/-- **A grid whose steps are smaller than the interval has a candidate**: one of the two points next
to the value. -/
theorem exists_candidate? (hdenominator : 0 < i.denominator) (hlow : i.low ≤ 4 * i.numerator)
    (hhigh : 4 * i.numerator < i.high)
    (hwide : 4 * i.denominator * (10 : ℚ) ^ exponent < i.high - i.low) :
    ∃ d, i.candidate? exponent = some d := by
  let bottom := i.denominator * Nat.pow 10 exponent.toNat
  let top := i.numerator * Nat.pow 10 (-exponent).toNat
  let below := top / bottom
  have hscale : (0 : ℚ) < 10 ^ (-exponent).toNat := by positivity
  have hstep : (i.denominator : ℚ) * 10 ^ exponent * 10 ^ (-exponent).toNat = bottom := by
    rw [zpow_ten, mul_assoc, div_mul_cancel₀ _ hscale.ne']
    simp [bottom]
  have htop : (i.numerator : ℚ) * 10 ^ (-exponent).toNat = top := by simp [top]
  -- The two points on the grid next to the value.
  have hbelow : (i.denominator : ℚ) * toRat ⟨below, exponent⟩ ≤ i.numerator := by
    rw [← mul_le_mul_iff_left₀ hscale, htop]
    calc (i.denominator : ℚ) * toRat ⟨below, exponent⟩ * 10 ^ (-exponent).toNat
        = below * bottom := by rw [toRat, ← hstep]; ring
      _ ≤ top := by exact_mod_cast Nat.div_mul_le_self top bottom
  have habove : (i.numerator : ℚ) < i.denominator * toRat ⟨below + 1, exponent⟩ := by
    have hbottom : 0 < bottom := Nat.mul_pos hdenominator (Nat.pow_pos (by decide))
    rw [← mul_lt_mul_iff_left₀ hscale, htop]
    calc (top : ℚ)
        < bottom * (below + 1 : Nat) := by exact_mod_cast Nat.lt_mul_div_succ top hbottom
      _ = i.denominator * toRat ⟨below + 1, exponent⟩ * 10 ^ (-exponent).toNat := by
        rw [toRat, ← hstep]
        ring
  have hnext : toRat ⟨below + 1, exponent⟩ = toRat ⟨below, exponent⟩ + 10 ^ exponent := by
    rw [toRat, toRat]
    push_cast
    ring
  have hlow' : (i.low : ℚ) ≤ 4 * i.numerator := by exact_mod_cast hlow
  have hhigh' : (4 * i.numerator : ℚ) < i.high := by exact_mod_cast hhigh
  refine exists_candidate?_of_contains below rfl ?_
  -- If neither were in the interval, the step between them would be at least as wide.
  by_cases hlower : (i.low : ℚ) < 4 * i.denominator * toRat ⟨below, exponent⟩
  · exact .inl (contains_of_between hlower (by linarith))
  · -- The point above the value is one step above a point that is too low.
    refine .inr (contains_of_between (by linarith) ?_)
    rw [hnext]
    linarith

end Candidates

/-! ### The search -/

/-- The search ends at a candidate if there is one on its grids. -/
theorem contains_search {i : Interval} {fuel : Nat} {exponent : Int}
    (h : ∃ k < fuel, ∃ d, i.candidate? (exponent - k) = some d) :
    i.Contains (i.search fuel exponent).toRat := by
  induction fuel generalizing exponent with
  | zero =>
    obtain ⟨k, hk, -⟩ := h
    exact absurd hk (Nat.not_lt_zero k)
  | succ fuel ih =>
    rw [Interval.search]
    split
    · next d hd => exact contains_of_candidate? hd
    · next hnone =>
      obtain ⟨k, hk, d, hd⟩ := h
      -- The grid at hand has none, so the one that has a candidate comes later.
      cases k with
      | zero =>
        rw [Nat.cast_zero, sub_zero, hnone] at hd
        cases hd
      | succ k =>
        have hexponent : exponent - (k + 1 : Nat) = exponent - 1 - k := by omega
        exact ih ⟨k, Nat.lt_of_succ_lt_succ hk, d, hexponent ▸ hd⟩

theorem toRat_dropZeros (fuel : Nat) (d : Decimal) : (dropZeros fuel d).toRat = d.toRat := by
  induction fuel generalizing d with
  | zero => rfl
  | succ fuel ih =>
    rw [dropZeros]
    split
    · next h =>
      have hdigits : (d.digits : ℚ) = 10 * (d.digits / 10 : Nat) := by
        exact_mod_cast (Nat.mul_div_cancel' (Nat.dvd_of_mod_eq_zero h.2)).symm
      rw [ih, toRat, toRat, zpow_add_one₀ (by norm_num), hdigits]
      ring
    · rfl

theorem digitCount_eq (n : Nat) : digitCount n = (Nat.toDigits 10 n).length := by
  rw [digitCount, Nat.toString_eq_ofList_toDigits, String.length_ofList]

theorem digitCount_pos (n : Nat) : 0 < digitCount n := by
  rw [digitCount_eq]
  exact Nat.length_toDigits_pos

theorem lt_pow_digitCount (n : Nat) : n < 10 ^ digitCount n :=
  (Nat.length_toDigits_le_iff (by decide) (digitCount_pos n)).1 (digitCount_eq n).ge

theorem pow_digitCount_le {n : Nat} (hn : n ≠ 0) : 10 ^ (digitCount n - 1) ≤ n := by
  rcases Nat.eq_zero_or_pos (digitCount n - 1) with h | h
  · rw [h]
    exact Nat.pos_of_ne_zero hn
  · by_contra hlt
    have hle := (Nat.length_toDigits_le_iff (by decide) h).2 (Nat.lt_of_not_le hlt)
    rw [← digitCount_eq] at hle
    omega

/-- The power of ten at which the search starts is not above the value. -/
theorem zpow_floorLog10_le {n d : Nat} (hn : n ≠ 0) (hd : 0 < d) :
    (10 : ℚ) ^ floorLog10 n d * d ≤ n := by
  have hnegative : ∀ {k : Nat}, d ≤ n * 10 ^ k → (10 : ℚ) ^ (-(k : Int)) * d ≤ n := by
    intro k hk
    have hscale : (0 : ℚ) < 10 ^ k := by positivity
    rw [zpow_neg, zpow_natCast, inv_mul_le_iff₀ hscale, mul_comm]
    exact_mod_cast hk
  rw [floorLog10]
  split
  · next hle =>
    -- From one on, the power of ten is the one below the whole part.
    have hquotient := Nat.div_pos hle hd
    have hpower := pow_digitCount_le hquotient.ne'
    have hcast : (digitCount (n / d) : Int) - 1 = (digitCount (n / d) - 1 : Nat) := by
      have hpos := digitCount_pos (n / d)
      omega
    rw [hcast, zpow_natCast]
    exact_mod_cast (Nat.mul_le_mul_right d hpower).trans (Nat.div_mul_le_self n d)
  -- Below one, it is the first one that makes up for the inverse.
  · extract_lets digits
    split
    · next hle =>
      have hpos : 0 < digits := digitCount_pos _
      have hcast : 1 - (digits : Int) = -(digits - 1 : Nat) := by omega
      rw [hcast]
      exact hnegative hle
    · refine hnegative ?_
      have hlt := (Nat.div_lt_iff_lt_mul (Nat.pos_of_ne_zero hn)).1 (lt_pow_digitCount (d / n))
      rw [Nat.mul_comm]
      exact hlt.le

/-- **The shortest decimal of a positive float lies in its rounding interval**. -/
theorem contains_shortest {b : Binary} (hb : b.mantissa ≠ 0) (hbits : b.mantissa < 2 ^ 53) :
    (Interval.of b).Contains (shortest b).toRat := by
  obtain ⟨hlow, hhigh, hwide⟩ := bounds_of hb hbits
  have hnumerator : b.numerator ≠ 0 := by
    rw [numerator_eq]
    exact Nat.mul_ne_zero hb (unit_pos b).ne'
  have hpower := zpow_floorLog10_le hnumerator b.denominator_pos
  have hwide' : (4 * b.numerator : ℚ) <
      2 ^ 53 * (((Interval.of b).high : ℚ) - (Interval.of b).low) := by
    rw [← Nat.cast_sub (hlow.trans hhigh.le)]
    exact_mod_cast hwide
  rw [shortest, toRat_dropZeros]
  refine contains_search ⟨16, by decide, exists_candidate? b.denominator_pos hlow hhigh ?_⟩
  -- The last grid is sixteen powers of ten below the value, and `10¹⁶` is more than `2⁵³`.
  change 4 * (b.denominator : ℚ) * 10 ^ (floorLog10 b.numerator b.denominator - 16) < _
  rw [zpow_sub₀ (by norm_num)]
  norm_num at hwide' ⊢
  linarith

/-- What reads back to a positive float does not start with a zero. -/
theorem digits_ne_zero_of_contains {b : Binary} (hb : b.mantissa ≠ 0) {d : Decimal}
    (h : (Interval.of b).Contains d.toRat) : d.digits ≠ 0 := by
  intro hzero
  have hlow : (0 : ℚ) < (Interval.of b).low := by exact_mod_cast low_pos hb
  rw [toRat, hzero, Nat.cast_zero, zero_mul, Interval.Contains, mul_zero] at h
  split at h
  · exact absurd h.1 hlow.not_ge
  · exact absurd h.1 hlow.not_gt

end BenchCharts.Decimal

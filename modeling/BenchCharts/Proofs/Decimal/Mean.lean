import Mathlib
import BenchCharts.Proofs.Text.Numeral

/-!
# Means are numbers

The mean of integers is the quotient of two floats, the sum and the number of summands. A quotient
of floats need not be a number, since zero or infinity divided by itself is none. But the number of
summands is not zero, also once it is a float, and a sum of 64 bits is far from infinite, so that
this quotient is one (`isNaN_ofInt_div_ofNat`).

To see this, integers are followed on their way to floats. They are rounded with a mantissa of at
least 53 bits, and that leaves exactly 53 of them (`exists_roundWithAccuracy_eq`). Floats with a
full mantissa are what they were before once they have been packed into 64 bits and unpacked, except
for those that are too large (`unpack_pack_finite`). Nothing on the way is lost by that, neither for
an integer that is a float as it stands nor for a larger one (`isFull_unpack_ofNat`).
-/

namespace BenchCharts

open Float.Model Float.Model.UnpackedFloat

/-! ### Rounding -/

/-- To shift a mantissa to the right is to divide it. -/
theorem mantissa_shiftRight (em : ExtendedMantissa) (n : Nat) :
    (em >>> n).mantissa = em.mantissa / 2 ^ n := by
  induction n with
  | zero => exact (Nat.div_one _).symm
  | succ n ih =>
    have hstep : (em >>> (n + 1)).mantissa = (em >>> n).mantissa / 2 := rfl
    rw [hstep, ih, Nat.div_div_eq_div_mul, ← Nat.pow_succ]

theorem mantissa_ofMantissaAndAccuracy (m : Nat) (accuracy : Accuracy) :
    (ExtendedMantissa.ofMantissaAndAccuracy m accuracy).mantissa = m := by
  unfold ExtendedMantissa.ofMantissaAndAccuracy
  split <;> rfl

/-- Rounding adds one or nothing. -/
theorem roundedMantissa_bounds (em : ExtendedMantissa) :
    em.mantissa ≤ em.roundedMantissa ∧ em.roundedMantissa ≤ em.mantissa + 1 := by
  have hparity := Nat.mod_lt em.mantissa (Nat.zero_lt_two)
  rw [ExtendedMantissa.roundedMantissa]
  cases em.accuracy with
  | exact => simp [Accuracy.roundToNearestEven]
  | inexact o =>
    cases o with
    | lt => simp [Accuracy.roundToNearestEven]
    | eq =>
      rw [Accuracy.roundToNearestEven]
      omega
    | gt => simp [Accuracy.roundToNearestEven]

/-- The first 53 bits of a number that has as many. -/
theorem bounds_div_two_pow {m : Nat} (hm : 2 ^ 52 ≤ m) :
    2 ^ 52 ≤ m / 2 ^ (m.log2 - 52) ∧ m / 2 ^ (m.log2 - 52) < 2 ^ 53 := by
  have hlog : 52 ≤ m.log2 := (Nat.le_log2 (by omega)).2 hm
  have hlow : 2 ^ m.log2 ≤ m := Nat.log2_self_le (by omega)
  have hhigh : m < 2 ^ (m.log2 + 1) := Nat.lt_log2_self
  constructor
  · rw [Nat.le_div_iff_mul_le (Nat.two_pow_pos _), ← Nat.pow_add, Nat.add_sub_cancel' hlog]
    exact hlow
  · rw [Nat.div_lt_iff_lt_mul (Nat.two_pow_pos _), ← Nat.pow_add]
    have hbits : 53 + (m.log2 - 52) = m.log2 + 1 := by omega
    rw [hbits]
    exact hhigh

/-- All bits but the first 53 are shifted out. -/
theorem shiftToTargetExponent_eq {m : Nat} (hm : 2 ^ 52 ≤ m) {e : Int} (he : -1074 ≤ e)
    (accuracy : Accuracy) :
    shiftToTargetExponent .binary64 m e accuracy =
      (ExtendedMantissa.ofMantissaAndAccuracy m accuracy >>> (m.log2 - 52),
        e + ((m.log2 - 52 : Nat) : Int)) := by
  have hlog : 52 ≤ m.log2 := (Nat.le_log2 (by omega)).2 hm
  have hleast : Format.minExponent .binary64 = -1074 := by decide
  have hbits : (Format.mantissaBits .binary64 : Int) = 53 := by decide
  have hshift : (Format.targetExponent .binary64 (totalExponent m e) - e).toNat = m.log2 - 52 := by
    rw [Format.targetExponent, hleast, hbits, totalExponent]
    omega
  rw [shiftToTargetExponent, shiftToExponent, hshift]

/-- **Rounding a mantissa of at least 53 bits leaves 53 bits.** -/
theorem exists_roundWithAccuracy_eq (sign : Sign) {m : Nat} (hm : 2 ^ 52 ≤ m) {e : Int}
    (he : -1074 ≤ e) (accuracy : Accuracy) :
    ∃ m' e' h, roundWithAccuracy .binary64 sign m e accuracy = .finite sign m' e' h ∧
      m'.log2 = 52 ∧ e ≤ e' ∧ e' ≤ e + m.log2 - 51 := by
  have hlog : 52 ≤ m.log2 := (Nat.le_log2 (by omega)).2 hm
  let em := ExtendedMantissa.ofMantissaAndAccuracy m accuracy >>> (m.log2 - 52)
  have hem : em.mantissa = m / 2 ^ (m.log2 - 52) := by
    rw [mantissa_shiftRight, mantissa_ofMantissaAndAccuracy]
  obtain ⟨hlow, hhigh⟩ := bounds_div_two_pow hm
  obtain ⟨hle, hlt⟩ := roundedMantissa_bounds em
  -- Rounding may have carried into a bit of its own, which is shifted out again.
  have hrounded : 2 ^ 52 ≤ em.roundedMantissa := by omega
  have hcarry : em.roundedMantissa.log2 < 54 := (Nat.log2_lt (by omega)).2 (by omega)
  have hfull : 52 ≤ em.roundedMantissa.log2 := (Nat.le_log2 (by omega)).2 hrounded
  obtain ⟨hlow', hhigh'⟩ := bounds_div_two_pow hrounded
  refine ⟨em.roundedMantissa / 2 ^ (em.roundedMantissa.log2 - 52),
    e + ((m.log2 - 52 : Nat) : Int) + ((em.roundedMantissa.log2 - 52 : Nat) : Int), by omega, ?_,
    ?_, by omega, by omega⟩
  · rw [roundWithAccuracy, shiftToTargetExponent_eq hm he]
    simp only
    rw [shiftToTargetExponent_eq hrounded (by omega)]
    simp only [mantissa_shiftRight, mantissa_ofMantissaAndAccuracy]
    rw [dif_neg (by omega)]
  · rw [Nat.log2_eq_iff (by omega)]
    omega

/-! ### Packing -/

theorem unpack_packedInfinity (sign : Sign) :
    UnpackedFloat.unpack .binary64 (packedInfinity .binary64 sign) = .infinity sign := by
  rw [UnpackedFloat.unpack, packedInfinity]
  simp

/-- **What is packed with a full mantissa is unpacked as it was**, or as infinity if it is too
large. -/
theorem unpack_pack_finite {sign : Sign} {m : Nat} {e : Int} {h : 0 < m} (hm : m.log2 = 52)
    (he : -1074 ≤ e) :
    UnpackedFloat.unpack .binary64 (UnpackedFloat.pack .binary64 (.finite sign m e h)) =
      if 971 < e then .infinity sign else .finite sign m e h := by
  have hbias : (Format.exponentBias .binary64 : Int) = 1023 := by decide
  have hplaces : (Format.mantissaBitsWithoutImplicit .binary64 : Int) = 52 := rfl
  have hbiased : e + (Format.exponentBias .binary64 : Int) +
      (Format.mantissaBitsWithoutImplicit .binary64 : Int) = e + 1075 := by
    rw [hbias, hplaces]
    omega
  have hlow : 2 ^ 52 ≤ m := (Nat.le_log2 (by omega)).1 (by omega)
  have hhigh : m < 2 ^ 53 := (Nat.log2_lt (by omega)).1 (by omega)
  rw [UnpackedFloat.pack]
  simp only [hbiased, hm]
  by_cases hlarge : 971 < e
  · rw [if_pos (by omega), if_pos hlarge, unpack_packedInfinity]
  · rw [if_neg (by omega), if_pos (by decide), if_neg hlarge, UnpackedFloat.unpack]
    simp only [unpackExponent_packComponents, unpackMantissa_packComponents,
      unpackSign_packComponents, Sign.ofBitVec_toBitVec]
    -- The exponent is neither the one of infinity nor the one of zero.
    have hexponent : (BitVec.ofNat 11 (e + 1075).toNat).toNat = (e + 1075).toNat := by
      rw [BitVec.toNat_ofNat, Nat.mod_eq_of_lt (by omega)]
    have hbits : ∀ n < 2 ^ 11, (e + 1075).toNat ≠ n →
        BitVec.ofNat 11 (e + 1075).toNat ≠ BitVec.ofNat 11 n := by
      intro n hn hne heq
      have hnat := congrArg BitVec.toNat heq
      rw [hexponent, BitVec.toNat_ofNat, Nat.mod_eq_of_lt hn] at hnat
      exact hne hnat
    have hinfinity : BitVec.ofNat 11 (e + 1075).toNat ≠ -1#11 := hbits 2047 (by decide) (by omega)
    have hzero : BitVec.ofNat 11 (e + 1075).toNat ≠ 0#11 := hbits 0 (by decide) (by omega)
    rw [if_neg hinfinity, if_neg hzero, UnpackedFloat.finite.injEq]
    refine ⟨rfl, ?_, ?_⟩
    -- The first bit of the mantissa is not stored, and comes back.
    · have hor := Nat.two_pow_add_eq_or_of_lt (Nat.mod_lt m (Nat.two_pow_pos 52)) 1
      rw [BitVec.toNat_append, BitVec.toNat_ofNat, Nat.shiftLeft_eq, Nat.mul_comm]
      change 2 ^ 52 * 1 ||| m % 2 ^ 52 = m
      rw [← hor]
      omega
    · rw [hexponent, hbias, hplaces]
      omega

/-- Without the exponent that stands for them there are no infinities and nothing that is no
number. -/
theorem isNaN_unpack_packComponents (sign : Sign) {exponent : BitVec 11} (h : exponent ≠ -1#11)
    (mantissa : BitVec 52) :
    (UnpackedFloat.unpack .binary64 (packComponents .binary64 sign exponent mantissa)).isNaN =
      false := by
  rw [UnpackedFloat.unpack]
  simp only [unpackExponent_packComponents, unpackMantissa_packComponents]
  rw [if_neg h]
  split
  · split <;> rfl
  · rfl

/-- Only what is no number is none after it has been packed. -/
theorem isNaN_unpack_pack {f : UnpackedFloat} (hf : f.isNaN = false) :
    (UnpackedFloat.unpack .binary64 (UnpackedFloat.pack .binary64 f)).isNaN = false := by
  cases f with
  | notANumber => cases hf
  | infinity sign =>
    rw [UnpackedFloat.pack, unpack_packedInfinity]
    rfl
  | zero sign =>
    rw [UnpackedFloat.pack, unpack_packedZero]
    rfl
  | finite sign m e h =>
    rw [UnpackedFloat.pack]
    split
    · rw [unpack_packedInfinity]
      rfl
    · next hsmall =>
      split
      -- An exponent of ones only would have been too great for the format.
      · refine isNaN_unpack_packComponents sign (fun heq => hsmall ?_) _
        have hnat := congrArg BitVec.toNat heq
        change _ % 2 ^ 11 = 2047 at hnat
        change 2 ^ 11 ≤ _ + 1
        omega
      · exact isNaN_unpack_packComponents sign (by decide) _

/-! ### Integers -/

/-- An integer that is too short is given 53 bits before it is rounded. -/
theorem exists_round_eq (sign : Sign) {n : Nat} (hn : n ≠ 0) :
    ∃ (m : Nat) (e : Int) (h : 0 < m),
      UnpackedFloat.round .binary64 sign n 0 = .finite sign m e h ∧ m.log2 = 52 ∧ -52 ≤ e ∧
        e ≤ n.log2 := by
  have hleast : Format.minExponent .binary64 = -1074 := by decide
  have hbits : (Format.mantissaBits .binary64 : Int) = 53 := by decide
  have hlow : 2 ^ n.log2 ≤ n := Nat.log2_self_le hn
  have hhigh : n < 2 ^ (n.log2 + 1) := Nat.lt_log2_self
  -- As many zeros as the number lacks; none if it is long enough.
  let shift := 52 - n.log2
  have hshift : (0 - Format.targetExponent .binary64 (totalExponent n 0)).toNat = shift := by
    rw [Format.targetExponent, hleast, hbits, totalExponent]
    omega
  have hlong : 2 ^ 52 ≤ n <<< shift := by
    rw [Nat.shiftLeft_eq]
    calc 2 ^ 52 ≤ 2 ^ (n.log2 + shift) := Nat.pow_le_pow_right (by decide) (by omega)
      _ = 2 ^ n.log2 * 2 ^ shift := Nat.pow_add ..
      _ ≤ n * 2 ^ shift := Nat.mul_le_mul_right _ hlow
  have hlog : (n <<< shift).log2 < n.log2 + 1 + shift := by
    rw [Nat.log2_lt (by omega), Nat.shiftLeft_eq, Nat.pow_add]
    exact Nat.mul_lt_mul_of_pos_right hhigh (Nat.two_pow_pos _)
  obtain ⟨m, e, h, heq, hm, hle, hlt⟩ :=
    exists_roundWithAccuracy_eq sign hlong (e := 0 - (shift : Int)) (by omega) .exact
  refine ⟨m, e, h, ?_, hm, by omega, by omega⟩
  rw [UnpackedFloat.round, decreaseExponent, hshift]
  exact heq

/-- A float with a full mantissa, unless it is infinite, and an exponent within bounds. -/
def IsFull (highest : Int) (x : UnpackedFloat) : Prop :=
  ∃ (m : Nat) (e : Int) (h : 0 < m), m.log2 = 52 ∧ -1074 ≤ e ∧ e ≤ highest ∧
    x = if 971 < e then .infinity .positive else .finite .positive m e h

/-- A number that is a float as it stands is converted, and then multiplied by one. -/
theorem isFull_unpack_ofNat_of_lt {n : Nat} (hn : n ≠ 0) (hsmall : n < 2 ^ 53) :
    IsFull (n.log2 + 2) (Float.ofNat n).toModel.unpack := by
  have hmodel : (Float.ofNat n).toModel =
      (Float.Model.ofUInt64 n.toUInt64).mul (Float.Model.ofBits 0x3FF0000000000000) := by
    change (Float.ofScientific n false 0).toModel = _
    rw [Float.ofScientific, dif_pos ⟨hsmall, by decide⟩]
    rfl
  have hone : (Float.Model.ofBits 0x3FF0000000000000).unpack =
      .finite .positive (2 ^ 52) (-52) (by decide) := rfl
  have hconverted : UnpackedFloat.ofUInt64 .binary64 n.toUInt64 =
      UnpackedFloat.round .binary64 .positive n 0 := by
    change UnpackedFloat.normalize .binary64 (n.toUInt64.toNat : Int) 0 .positive = _
    have hnat : n.toUInt64.toNat = n := Nat.mod_eq_of_lt (by omega)
    have hpos : compare (n : Int) 0 = .gt := Int.compare_eq_gt.2 (by omega)
    rw [hnat, UnpackedFloat.normalize, hpos]
    rfl
  have hlog : n.log2 < 53 := (Nat.log2_lt hn).2 hsmall
  obtain ⟨m, e, h, hround, hm, hle, hlt⟩ := exists_round_eq .positive hn
  have hunpack : (Float.Model.ofUInt64 n.toUInt64).unpack = .finite .positive m e h := by
    change UnpackedFloat.unpack .binary64 (UnpackedFloat.pack .binary64 _) = _
    rw [hconverted, hround, unpack_pack_finite hm (by omega), if_neg (by omega)]
  -- The product with one is rounded again.
  have hlow : 2 ^ 52 ≤ m := (Nat.le_log2 (by omega)).1 (by omega)
  have hhigh : m < 2 ^ 53 := (Nat.log2_lt (by omega)).1 (by omega)
  have hlong : (m * 2 ^ 52).log2 < 105 := (Nat.log2_lt (by omega)).2 (by omega)
  obtain ⟨m', e', h', hproduct, hm', hle', hlt'⟩ :=
    exists_roundWithAccuracy_eq .positive (m := m * 2 ^ 52) (by omega) (e := e + -52) (by omega)
      .exact
  refine ⟨m', e', h', hm', by omega, by omega, ?_⟩
  rw [hmodel]
  change UnpackedFloat.unpack .binary64 (UnpackedFloat.pack .binary64
    (UnpackedFloat.mul .binary64 (Float.Model.ofUInt64 n.toUInt64).unpack _)) = _
  rw [hunpack, hone]
  change UnpackedFloat.unpack .binary64 (UnpackedFloat.pack .binary64
    (roundWithAccuracy .binary64 .positive (m * 2 ^ 52) (e + -52) .exact)) = _
  rw [hproduct, unpack_pack_finite hm' (by omega)]

/-- A larger number has more bits than are needed. -/
theorem isFull_unpack_ofNat_of_ge {n : Nat} (hn : n ≠ 0) (hlarge : 2 ^ 53 ≤ n) :
    IsFull (n.log2 + 2) (Float.ofNat n).toModel.unpack := by
  have hmodel : (Float.ofNat n).toModel = Float.Model.ofScientific n 0 := by
    change (Float.ofScientific n false 0).toModel = _
    rw [Float.ofScientific, dif_neg (by omega)]
    rfl
  have hleast : (0 : Int) < 2 ^ Format.exponentBits .binary64 := by decide
  have hproduct : UnpackedFloat.ofScientific .binary64 n 0 =
      roundWithAccuracy .binary64 .positive (n <<< 53 * 10 ^ 0) (-53 + 0) .exact := by
    rw [UnpackedFloat.ofScientific, dif_neg hn, if_neg (by decide), if_neg (by omega),
      if_pos (by decide)]
    rfl
  have hlow : 2 ^ 52 ≤ n <<< 53 * 10 ^ 0 := by
    rw [Nat.shiftLeft_eq]
    omega
  have hlog : (n <<< 53 * 10 ^ 0).log2 < n.log2 + 1 + 53 := by
    rw [Nat.log2_lt (by omega), Nat.pow_zero, Nat.mul_one, Nat.shiftLeft_eq, Nat.pow_add]
    exact Nat.mul_lt_mul_of_pos_right Nat.lt_log2_self (Nat.two_pow_pos _)
  obtain ⟨m, e, h, hround, hm, hle, hlt⟩ :=
    exists_roundWithAccuracy_eq .positive hlow (e := -53 + 0) (by decide) .exact
  refine ⟨m, e, h, hm, by omega, by omega, ?_⟩
  rw [hmodel]
  change UnpackedFloat.unpack .binary64 (UnpackedFloat.pack .binary64
    (UnpackedFloat.ofScientific .binary64 n 0)) = _
  rw [hproduct, hround, unpack_pack_finite hm (by omega)]

/-- The float of a positive number has a full mantissa, unless it is infinite. -/
theorem isFull_unpack_ofNat {n : Nat} (hn : n ≠ 0) :
    IsFull (n.log2 + 2) (Float.ofNat n).toModel.unpack := by
  rcases Nat.lt_or_ge n (2 ^ 53) with hsmall | hlarge
  · exact isFull_unpack_ofNat_of_lt hn hsmall
  · exact isFull_unpack_ofNat_of_ge hn hlarge

/-- The float of an integer that fits into 64 bits is finite. -/
theorem isFinite_ofInt {t : Int} (ht : Text.fitsSigned64 t = true) :
    (Float.ofInt t).toModel.unpack.isFinite = true := by
  rw [Text.fitsSigned64_iff] at ht
  -- Up to `2 ^ 63` in either direction, the exponent is far from the greatest.
  have hfinite : ∀ n : Nat, n ≠ 0 → n ≤ 2 ^ 63 → ∃ (m : Nat) (e : Int) (h : 0 < m),
      m.log2 = 52 ∧ -1074 ≤ e ∧ e ≤ 971 ∧
        (Float.ofNat n).toModel.unpack = .finite .positive m e h := by
    intro n hn hle
    obtain ⟨m, e, h, hm, hlow, hhigh, hunpack⟩ := isFull_unpack_ofNat hn
    have hlog : n.log2 < 64 := (Nat.log2_lt hn).2 (by omega)
    rw [if_neg (by omega)] at hunpack
    exact ⟨m, e, h, hm, hlow, by omega, hunpack⟩
  cases t with
  | ofNat n =>
    rw [Int.ofNat_eq_natCast] at ht
    change (Float.ofNat n).toModel.unpack.isFinite = true
    cases n with
    | zero => rfl
    | succ n =>
      obtain ⟨m, e, h, -, -, -, hunpack⟩ := hfinite (n + 1) (Nat.succ_ne_zero n) (by omega)
      rw [hunpack]
      rfl
  | negSucc n =>
    obtain ⟨m, e, h, hm, hlow, hhigh, hunpack⟩ := hfinite (n + 1) (Nat.succ_ne_zero n) (by omega)
    change (UnpackedFloat.unpack .binary64 (UnpackedFloat.pack .binary64
      (Float.ofNat (n + 1)).toModel.unpack.neg)).isFinite = true
    rw [hunpack]
    change (UnpackedFloat.unpack .binary64 (UnpackedFloat.pack .binary64
      (.finite (-.positive) m e h))).isFinite = true
    rw [unpack_pack_finite hm hlow, if_neg (by omega)]
    rfl

/-- **The mean of integers is a number**, if their sum fits into 64 bits. -/
theorem isNaN_ofInt_div_ofNat {t : Int} (ht : Text.fitsSigned64 t = true) {n : Nat} (hn : n ≠ 0) :
    (Float.ofInt t / Float.ofNat n).isNaN = false := by
  have hsum := isFinite_ofInt ht
  obtain ⟨m, e, h, -, -, -, hcount⟩ := isFull_unpack_ofNat hn
  change (UnpackedFloat.unpack .binary64 (UnpackedFloat.pack .binary64 (UnpackedFloat.div .binary64
    (Float.ofInt t).toModel.unpack (Float.ofNat n).toModel.unpack))).isNaN = false
  refine isNaN_unpack_pack ?_
  have hround : ∀ sign m e accuracy,
      (roundWithAccuracy .binary64 sign m e accuracy).isNaN = false := by
    intro sign m e accuracy
    simp only [roundWithAccuracy]
    split <;> rfl
  -- A finite dividend, and a divisor that is neither zero nor without a number.
  cases hdividend : (Float.ofInt t).toModel.unpack with
  | notANumber => simp [hdividend, UnpackedFloat.isFinite] at hsum
  | infinity sign => simp [hdividend, UnpackedFloat.isFinite] at hsum
  | zero sign =>
    rw [hcount]
    split <;> rfl
  | finite sign m' e' h' =>
    rw [hcount]
    split
    · rfl
    · exact hround _ _ _ _

end BenchCharts

import Mathlib.Data.String.Basic
import Mathlib.Order.Compare
import BenchCharts.Proofs.Text.Numeral

/-!
# Texts that order like numbers

Texts are compared character by character, so texts whose beginnings have one length are compared by
these first (`compare_append`). This is how numbers are compared in a mixed radix
(`compare_mul_add`): what comes later counts only if everything before it is the same. Digits of one
length therefore compare like the numbers that they make (`compare_digits`), and numbers below
`10 ^ width` like their texts of that width (`compare_padded_append`).

The digits after a point are written in groups of three, without the groups of zeros at the end
(`groups`). A text can then be shorter than another one. It sorts before it, as it has to, if what
follows the digits sorts before all of them (`compare_groups`).
-/

namespace BenchCharts

/-! ### Comparing part by part -/

theorem compare_of_strictMono {α β : Type} [LinearOrder α] [LinearOrder β] {f : α → β}
    (hf : StrictMono f) (a b : α) : compare (f a) (f b) = compare a b :=
  (compare_iff _ _).2 (hf.compares.2 ((compare_iff a b).1 rfl))

theorem compare_add_left (k a b : Nat) : compare (k + a) (k + b) = compare a b :=
  compare_of_strictMono (fun _ _ h => Nat.add_lt_add_left h k) a b

/-- Values whose order is that of a part of them, unless this part is the same, are compared by that
part first. -/
theorem compare_eq_then {α β : Type} [LinearOrder α] [LinearOrder β] {a a' : α} {b b' : β}
    {rest : Ordering} (hlt : b < b' → a < a') (hgt : b' < b → a' < a)
    (heq : b = b' → compare a a' = rest) : compare a a' = (compare b b').then rest := by
  rcases lt_trichotomy b b' with h | h | h
  · rw [compare_lt_iff_lt.2 h, compare_lt_iff_lt.2 (hlt h)]
    rfl
  · rw [compare_eq_iff_eq.2 h, heq h]
    rfl
  · rw [compare_gt_iff_gt.2 h, compare_gt_iff_gt.2 (hgt h)]
    rfl

/-- In a mixed radix the lower place counts only if the higher places are the same. -/
theorem compare_mul_add {k a a' b b' : Nat} (hb : b < k) (hb' : b' < k) :
    compare (k * a + b) (k * a' + b') = (compare a a').then (compare b b') := by
  -- A higher digit outweighs the lower place, which is less than the radix.
  have hlt : ∀ {a a' b b' : Nat}, b < k → a < a' → k * a + b < k * a' + b' := by
    intro a a' b b' hb h
    calc k * a + b < a' * k := Nat.mul_add_lt_mul_of_lt_of_lt h hb
      _ = k * a' := Nat.mul_comm a' k
      _ ≤ k * a' + b' := Nat.le_add_right ..
  refine compare_eq_then (hlt hb) (hlt hb') ?_
  rintro rfl
  exact compare_add_left (k * a) b b'

namespace Text

/-- **Texts are compared by their beginnings first** if these have one length. -/
theorem compare_append {front front' : List Char} (h : front.length = front'.length)
    (rest rest' : List Char) :
    compare (front ++ rest) (front' ++ rest') =
      (compare front front').then (compare rest rest') := by
  induction front generalizing front' with
  | nil =>
    obtain rfl : front' = [] := List.eq_nil_of_length_eq_zero h.symm
    rfl
  | cons c front ih =>
    cases front' with
    | nil => cases h
    | cons c' front' =>
      -- The first characters decide unless they are the same, in the beginnings as in the whole.
      rw [List.cons_append, List.cons_append, List.compare_cons_cons, List.compare_cons_cons,
        ih (Nat.succ.inj h), Ordering.then_assoc]

theorem compare_cons_self (c : Char) (rest rest' : List Char) :
    compare (c :: rest) (c :: rest') = compare rest rest' := by
  rw [List.compare_cons_cons, Std.ReflOrd.compare_self]
  rfl

theorem compare_char_eq_lt {c c' : Char} : compare c c' = .lt ↔ c < c' :=
  compareOfLessAndEq_eq_lt

/-- A text sorts before all texts with a later first character. -/
theorem compare_cons_of_lt {c c' : Char} (h : c < c') (rest rest' : List Char) :
    compare (c :: rest) (c' :: rest') = .lt := by
  rw [List.compare_cons_cons, compare_char_eq_lt.2 h]
  rfl

theorem compare_eq_lt {cs cs' : List Char} : compare cs cs' = .lt ↔ cs < cs' := by
  induction cs generalizing cs' with
  | nil => cases cs' <;> simp
  | cons c cs ih =>
    cases cs' with
    | nil => simp
    | cons c' cs' =>
      rw [List.compare_cons_cons, Ordering.then_eq_lt, compare_char_eq_lt, ih,
        List.cons_lt_cons_iff, Std.LawfulEqOrd.compare_eq_iff_eq]

theorem isLE_compare {s t : String} : (compare s t).isLE = true ↔ s ≤ t :=
  isLE_compareOfLessAndEq String.le_antisymm String.not_le String.le_total

/-- Strings are compared like the lists of their characters. -/
theorem compare_ofList (cs cs' : List Char) :
    compare (String.ofList cs) (String.ofList cs') = compare cs cs' := by
  -- One direction of the order is enough, since the other ones follow from it.
  have hlt : ∀ {cs cs' : List Char}, compare cs cs' = .lt →
      compare (String.ofList cs) (String.ofList cs') = .lt := by
    intro cs cs' h
    have hless : String.ofList cs < String.ofList cs' := by
      rw [String.lt_iff_toList_lt, String.toList_ofList, String.toList_ofList]
      exact compare_eq_lt.1 h
    exact compareOfLessAndEq_eq_lt.2 hless
  cases h : compare cs cs' with
  | lt => exact hlt h
  | eq => rw [Std.LawfulEqOrd.eq_of_compare h, Std.ReflOrd.compare_self]
  | gt => exact Std.OrientedCmp.gt_of_lt (hlt (Std.OrientedCmp.lt_of_gt h))

/-! ### Digits -/

theorem zero_le_and_le_nine {c : Char} (h : isDigit c = true) :
    '0'.toNat ≤ c.toNat ∧ c.toNat ≤ '9'.toNat := isDigit_iff.1 h

theorem digit_lt_ten {c : Char} (h : isDigit c = true) : c.toNat - '0'.toNat < 10 := by
  obtain ⟨-, hle⟩ := zero_le_and_le_nine h
  have hnine : '9'.toNat = '0'.toNat + 9 := rfl
  omega

/-- A digit is compared like its value. -/
theorem compare_digit {c c' : Char} (h : isDigit c = true) (h' : isDigit c' = true) :
    compare c c' = compare (c.toNat - '0'.toNat) (c'.toNat - '0'.toNat) := by
  obtain ⟨hzero, -⟩ := zero_le_and_le_nine h
  obtain ⟨hzero', -⟩ := zero_le_and_le_nine h'
  rcases Nat.lt_trichotomy c.toNat c'.toNat with hlt | heq | hgt
  · rw [compare_char_eq_lt.2 hlt, Nat.compare_eq_lt.2 (by omega)]
  · obtain rfl : c = c' := Char.toNat_inj.1 heq
    rw [Std.ReflOrd.compare_self, Std.ReflOrd.compare_self]
  · rw [Std.OrientedCmp.gt_of_lt (compare_char_eq_lt.2 hgt), Nat.compare_eq_gt.2 (by omega)]

section Digits

variable {cs cs' : List Char} (hdigits : ∀ c ∈ cs, isDigit c = true)
  (hdigits' : ∀ c ∈ cs', isDigit c = true) (hlength : cs.length = cs'.length)

include hdigits hdigits' hlength

/-- Appended to two values, digits count only if the values are the same. -/
theorem compare_ofDigitChars (value value' : Nat) :
    compare (Nat.ofDigitChars 10 cs value) (Nat.ofDigitChars 10 cs' value') =
      (compare value value').then (compare cs cs') := by
  induction cs generalizing cs' value value' with
  | nil =>
    obtain rfl : cs' = [] := List.eq_nil_of_length_eq_zero hlength.symm
    exact Ordering.then_eq.symm
  | cons c cs ih =>
    cases cs' with
    | nil => cases hlength
    | cons c' cs' =>
      obtain ⟨hc, hcs⟩ := List.forall_mem_cons.1 hdigits
      obtain ⟨hc', hcs'⟩ := List.forall_mem_cons.1 hdigits'
      -- The value so far counts most, then the next digit, and then those after it.
      rw [Nat.ofDigitChars_cons, Nat.ofDigitChars_cons, ih hcs hcs' (Nat.succ.inj hlength),
        compare_mul_add (digit_lt_ten hc) (digit_lt_ten hc'), List.compare_cons_cons,
        compare_digit hc hc', Ordering.then_assoc]

/-- **Digits of one length compare like the numbers that they make.** -/
theorem compare_digits :
    compare cs cs' = compare (Nat.ofDigitChars 10 cs 0) (Nat.ofDigitChars 10 cs' 0) :=
  (compare_ofDigitChars hdigits hdigits' hlength 0 0).symm

end Digits

theorem ofDigitChars_padded (width n : Nat) : Nat.ofDigitChars 10 (padded width n) 0 = n := by
  have hread := natural?_padded width n
  rw [natural?_eq (padded_ne_nil width n) fun c => isDigit_of_mem_padded] at hread
  exact Option.some.inj hread

section Padded

variable {width n m : Nat} (hwidth : 0 < width) (hn : n < 10 ^ width)

include hwidth hn

/-- **Texts that start with numbers of one width compare like these numbers first.** -/
theorem compare_padded_append (hm : m < 10 ^ width) (rest rest' : List Char) :
    compare (padded width n ++ rest) (padded width m ++ rest') =
      (compare n m).then (compare rest rest') := by
  have hlength : (padded width n).length = (padded width m).length := by
    rw [length_padded hwidth hn, length_padded hwidth hm]
  rw [compare_append hlength,
    compare_digits (fun c => isDigit_of_mem_padded) (fun c => isDigit_of_mem_padded) hlength,
    ofDigitChars_padded, ofDigitChars_padded]

/-- The digits of a number, cut in two. -/
theorem padded_append {width' : Nat} (hwidth' : 0 < width') (hm : m < 10 ^ width') :
    padded (width + width') (10 ^ width' * n + m) = padded width n ++ padded width' m := by
  -- Both sides are as many digits.
  have hbound : 10 ^ width' * n + m < 10 ^ (width + width') := by
    rw [Nat.pow_add]
    exact Nat.mul_add_lt_mul_of_lt_of_lt hn hm
  have hlength : (padded (width + width') (10 ^ width' * n + m)).length =
      (padded width n ++ padded width' m).length := by
    rw [length_padded (by omega) hbound, List.length_append, length_padded hwidth hn,
      length_padded hwidth' hm]
  have hdigits : ∀ c ∈ padded width n ++ padded width' m, isDigit c = true := fun c hc =>
    (List.mem_append.1 hc).elim isDigit_of_mem_padded isDigit_of_mem_padded
  -- Digits of one length that make one number are the same.
  refine Std.LawfulEqOrd.eq_of_compare ?_
  rw [compare_digits (fun c => isDigit_of_mem_padded) hdigits hlength, ofDigitChars_padded,
    Nat.ofDigitChars_append, ofDigitChars_padded, Nat.ofDigitChars_eq_ofDigitChars_zero,
    length_padded hwidth' hm, ofDigitChars_padded, Std.ReflOrd.compare_self]

end Padded

/-! ### Groups of digits -/

/-- The digits of a number below `1000 ^ k` in groups of three, followed by a text. Groups of zeros
at the end are left out. -/
def groups (rest : List Char) : Nat → Nat → List Char
  | 0, _ => rest
  | k + 1, n => if n = 0 then rest else padded 3 (n / 1000 ^ k) ++ groups rest k (n % 1000 ^ k)

theorem groups_zero (rest : List Char) (k : Nat) : groups rest k 0 = rest := by
  cases k with
  | zero => rfl
  | succ k => exact if_pos rfl

theorem groups_of_pos (rest : List Char) (k : Nat) {n : Nat} (hn : 0 < n) :
    groups rest (k + 1) n = padded 3 (n / 1000 ^ k) ++ groups rest k (n % 1000 ^ k) :=
  if_neg (by omega)

/-- A group of zeros at the end is left out. -/
theorem groups_mul (rest : List Char) {k n : Nat} (hn : n < 1000 ^ k) :
    groups rest (k + 1) (1000 * n) = groups rest k n := by
  induction k generalizing n with
  | zero =>
    obtain rfl : n = 0 := by omega
    rfl
  | succ k ih =>
    -- Zero has no groups at all. Other numbers have the same first group on both sides.
    rcases Nat.eq_zero_or_pos n with rfl | hpos
    · rw [Nat.mul_zero, groups_zero, groups_zero]
    · have hpow : 1000 ^ (k + 1) = 1000 * 1000 ^ k := Nat.pow_succ'
      rw [groups_of_pos rest (k + 1) (Nat.mul_pos (by decide) hpos), groups_of_pos rest k hpos,
        hpow, Nat.mul_div_mul_left _ _ (by decide), Nat.mul_mod_mul_left,
        ih (Nat.mod_lt n (Nat.pow_pos (by decide)))]

/-- If the last group is not one of zeros, no group is left out. -/
theorem groups_eq_padded (rest : List Char) {k n : Nat} (hn : n < 1000 ^ (k + 1))
    (hlast : n % 1000 ≠ 0) : groups rest (k + 1) n = padded (3 * (k + 1)) n ++ rest := by
  induction k generalizing n with
  | zero => rw [groups_of_pos rest 0 (by omega), Nat.pow_zero, Nat.div_one, groups]
  | succ k ih =>
    have hpow : 0 < 1000 ^ (k + 1) := Nat.pow_pos (by decide)
    have hwidth : 10 ^ (3 * (k + 1)) = 1000 ^ (k + 1) := Nat.pow_mul 10 3 (k + 1)
    -- The last group is in the lower part, so no group is left out there.
    have hlast' : n % 1000 ^ (k + 1) % 1000 ≠ 0 := by
      rwa [Nat.pow_succ, Nat.mod_mod_of_dvd n (Nat.dvd_mul_left 1000 (1000 ^ k))]
    have hlow := Nat.mod_lt n hpow
    have hhigh : n / 1000 ^ (k + 1) < 10 ^ 3 := Nat.div_lt_of_lt_mul hn
    -- The first group and the digits of the lower part are the digits of the number.
    have hdigits := padded_append (by decide) hhigh (by omega : 0 < 3 * (k + 1)) (hwidth ▸ hlow)
    rw [hwidth, Nat.div_add_mod] at hdigits
    rw [groups_of_pos rest _ (by omega), ih hlow hlast', ← List.append_assoc, ← hdigits,
      show 3 + 3 * (k + 1) = 3 * (k + 1 + 1) by omega]

section Groups

variable {c : Char} (hc : ∀ d, isDigit d = true → c < d) (rest : List Char)

include hc

/-- Before a text that sorts before every digit, nothing sorts before digits. -/
theorem compare_groups_zero {k n : Nat} (hn : 0 < n) (hlt : n < 1000 ^ k) :
    compare (c :: rest) (groups (c :: rest) k n) = .lt := by
  cases k with
  | zero => omega
  | succ k =>
    rw [groups_of_pos _ _ hn]
    cases hdigits : padded 3 (n / 1000 ^ k) with
    | nil => exact absurd hdigits (padded_ne_nil _ _)
    | cons d more =>
      have hd : isDigit d = true := isDigit_of_mem_padded (hdigits ▸ List.mem_cons_self ..)
      exact compare_cons_of_lt (hc d hd) ..

/-- **Groups of digits compare like the numbers that they make**, whichever are left out. -/
theorem compare_groups {k n m : Nat} (hn : n < 1000 ^ k) (hm : m < 1000 ^ k) :
    compare (groups (c :: rest) k n) (groups (c :: rest) k m) = compare n m := by
  induction k generalizing n m with
  | zero =>
    obtain rfl : n = m := by omega
    rw [Std.ReflOrd.compare_self, Std.ReflOrd.compare_self]
  | succ k ih =>
    -- Zero has no groups, so what follows the digits is compared with a digit.
    rcases Nat.eq_zero_or_pos n with rfl | hpos <;> rcases Nat.eq_zero_or_pos m with rfl | hpos'
    · rw [Std.ReflOrd.compare_self, Std.ReflOrd.compare_self]
    · rw [groups_zero, compare_groups_zero hc rest hpos' hm, Nat.compare_eq_lt.2 hpos']
    · rw [groups_zero, Nat.compare_eq_gt.2 hpos]
      exact Std.OrientedCmp.gt_of_lt (compare_groups_zero hc rest hpos hn)
    -- Neither is zero, so both start with a group, and more groups follow.
    · have hpow : 0 < 1000 ^ k := Nat.pow_pos (by decide)
      have hgroup : ∀ {n : Nat}, n < 1000 ^ (k + 1) → n / 1000 ^ k < 10 ^ 3 := fun h =>
        Nat.div_lt_of_lt_mul h
      -- The first group is the higher place.
      have hsplit : compare n m = (compare (n / 1000 ^ k) (m / 1000 ^ k)).then
          (compare (n % 1000 ^ k) (m % 1000 ^ k)) := by
        rw [← compare_mul_add (Nat.mod_lt n hpow) (Nat.mod_lt m hpow), Nat.div_add_mod,
          Nat.div_add_mod]
      rw [groups_of_pos _ _ hpos, groups_of_pos _ _ hpos',
        compare_padded_append (by decide) (hgroup hn) (hgroup hm),
        ih (Nat.mod_lt n hpow) (Nat.mod_lt m hpow), hsplit]

end Groups

end Text

end BenchCharts

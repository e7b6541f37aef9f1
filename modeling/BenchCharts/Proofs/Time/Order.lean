import Mathlib.Data.Int.Order.Basic
import BenchCharts.Proofs.Text.Order
import BenchCharts.Time.Spelling

/-!
# The order of time

`Instant.compareTime` is the order of time itself: by the number of the day, the second of the day,
and the nanosecond, with those of a leap second after all others of the second that it follows.

The store keeps times as texts and orders them as texts. From the year 0 to the year 9999 this is
the order of time (`Instant.compareStored_eq_compareTime`). The parts of a date and of a clock have
fixed widths and go from the largest unit to the smallest, and a fraction is followed by a `+`,
which sorts before the point and before digits, so a shorter fraction comes before all that
continue it. Other years have a sign and more digits, and there the orders differ.
-/

namespace BenchCharts

open Text

/-! ### Dates -/

namespace Date

/-- The days of a year. -/
def daysInYear (year : Int) : Nat := if isLeapYear year then 366 else 365

theorem daysBeforeMonth_succ {year : Int} {month : Nat} (h : 0 < month) :
    daysBeforeMonth year (month + 1) = daysBeforeMonth year month + daysInMonth year month :=
  if_neg (by omega)

/-- A month ends before any later one starts. -/
theorem daysBeforeMonth_add_le (year : Int) {month month' : Nat} (h : 0 < month)
    (hlt : month < month') :
    daysBeforeMonth year month + daysInMonth year month ≤ daysBeforeMonth year month' := by
  induction month', hlt using Nat.le_induction with
  | base => exact (daysBeforeMonth_succ h).ge
  -- A month further on there are more days before, never fewer.
  | succ month' hle ih =>
    rw [daysBeforeMonth_succ (by omega)]
    exact Nat.le_add_right_of_le ih

theorem daysBeforeMonth_thirteen (year : Int) : daysBeforeMonth year 13 = daysInYear year := by
  simp only [daysBeforeMonth, daysInMonth, daysInYear]
  cases isLeapYear year <;> rfl

/-- The next year starts after the days of a year. -/
theorem daysBeforeYear_succ (year : Int) :
    daysBeforeYear (year + 1) = daysBeforeYear year + daysInYear year := by
  have hleap : isLeapYear year = true ↔ year % 4 = 0 ∧ (year % 100 ≠ 0 ∨ year % 400 = 0) := by
    simp [isLeapYear]
  simp only [daysBeforeYear, daysInYear]
  split
  -- The leap years before the next one are one more after a leap year.
  · next h =>
    have hdivides := hleap.1 h
    omega
  · next h =>
    have hdivides := mt hleap.2 h
    omega

theorem daysBeforeYear_add_le {year year' : Int} (hlt : year < year') :
    daysBeforeYear year + daysInYear year ≤ daysBeforeYear year' := by
  induction year', hlt using Int.leInduction with
  | base => exact (daysBeforeYear_succ year).ge
  | succ year' hle ih =>
    rw [daysBeforeYear_succ]
    omega

/-- The day of the year, from 1. -/
def dayOfYear (d : Date) : Nat := daysBeforeMonth d.year d.month + d.day

theorem number_eq (d : Date) : d.number = daysBeforeYear d.year + d.dayOfYear := by
  rw [number, dayOfYear, Int.natCast_add, Int.add_assoc]

theorem dayOfYear_mem (d : Date) : 1 ≤ d.dayOfYear ∧ d.dayOfYear ≤ daysInYear d.year := by
  obtain ⟨-, -, hmonth, hmonth', hday, hday'⟩ := d.valid
  -- The last month ends with the year.
  have hle := daysBeforeMonth_add_le d.year hmonth (Nat.lt_succ_of_le hmonth')
  rw [daysBeforeMonth_thirteen] at hle
  unfold dayOfYear
  omega

theorem number_lt_of_year_lt {d e : Date} (h : d.year < e.year) : d.number < e.number := by
  have hle := daysBeforeYear_add_le h
  obtain ⟨-, hlast⟩ := d.dayOfYear_mem
  obtain ⟨hfirst, -⟩ := e.dayOfYear_mem
  rw [number_eq, number_eq]
  omega

theorem dayOfYear_lt_of_month_lt {d e : Date} (hyear : d.year = e.year) (h : d.month < e.month) :
    d.dayOfYear < e.dayOfYear := by
  obtain ⟨-, -, hstart, -, -, hday⟩ := d.valid
  obtain ⟨-, -, -, -, hday', -⟩ := e.valid
  have hle := daysBeforeMonth_add_le d.year hstart h
  rw [dayOfYear, dayOfYear, ← hyear]
  omega

/-- **Days are numbered in the order of their years, months and days.** -/
theorem compare_number (d e : Date) :
    compare d.number e.number =
      (compare d.year e.year).then ((compare d.month e.month).then (compare d.day e.day)) := by
  -- Days of different years are in the order of these, and then of different months.
  refine compare_eq_then number_lt_of_year_lt number_lt_of_year_lt fun hyear => ?_
  have hmono : StrictMono fun day : Nat => daysBeforeYear e.year + day := fun _ _ hlt =>
    Int.add_lt_add_left (Int.ofNat_lt.2 hlt) _
  calc compare d.number e.number
      = compare d.dayOfYear e.dayOfYear := by
        rw [number_eq, number_eq, hyear]
        exact compare_of_strictMono hmono d.dayOfYear e.dayOfYear
    _ = (compare d.month e.month).then (compare d.day e.day) := by
        refine compare_eq_then (dayOfYear_lt_of_month_lt hyear)
          (dayOfYear_lt_of_month_lt hyear.symm) fun hmonth => ?_
        rw [dayOfYear, dayOfYear, hyear, hmonth]
        exact compare_add_left _ d.day e.day

/-- The year has four digits and no sign. -/
def FourDigitYear (d : Date) : Prop := 0 ≤ d.year ∧ d.year ≤ 9999

instance (d : Date) : Decidable d.FourDigitYear := inferInstanceAs (Decidable (_ ∧ _))

section Spelling

variable {d e : Date} (hd : d.FourDigitYear) (he : e.FourDigitYear)

include hd

theorem FourDigitYear.toNat_lt : d.year.toNat < 10 ^ 4 := by
  obtain ⟨-, hyear⟩ := hd
  omega

include he

/-- **Texts that start with dates compare like the numbers of the days first.** -/
theorem compare_spellChars_append (c : Char) (rest rest' : List Char) :
    compare (d.spellChars ++ c :: rest) (e.spellChars ++ c :: rest') =
      (compare d.number e.number).then (compare rest rest') := by
  have hchars : ∀ {d : Date}, d.FourDigitYear → ∀ rest, d.spellChars ++ c :: rest =
      padded 4 d.year.toNat ++
        '-' :: (padded 2 d.month ++ '-' :: (padded 2 d.day ++ c :: rest)) := by
    intro d hd rest
    have hyear : spellYear d.year = padded 4 d.year.toNat := if_pos hd
    rw [spellChars, hyear]
    simp only [List.append_assoc, List.cons_append]
  -- Years without a sign compare like natural numbers.
  have hyear : compare d.year.toNat e.year.toNat = compare d.year e.year := by
    have hmono : StrictMono fun n : Nat => (n : Int) := fun _ _ hlt => Int.ofNat_lt.2 hlt
    rw [← compare_of_strictMono hmono, Int.toNat_of_nonneg hd.1, Int.toNat_of_nonneg he.1]
  rw [hchars hd, hchars he, compare_padded_append (by decide) hd.toNat_lt he.toNat_lt,
    compare_cons_self, compare_padded_append (by decide) d.month_lt e.month_lt,
    compare_cons_self, compare_padded_append (by decide) d.day_lt e.day_lt, compare_cons_self,
    hyear, compare_number, Ordering.then_assoc, Ordering.then_assoc]

end Spelling

end Date

namespace Instant

/-- The order of time. -/
def compareTime (a b : Instant) : Ordering :=
  (compare a.date.number b.date.number).then
    ((compare a.second b.second).then (compare a.nano b.nano))

/-! ### Clocks -/

/-- The second of the day counts hours, minutes and seconds. -/
theorem compare_second (a b : Instant) :
    compare a.second b.second = (compare a.hour b.hour).then
      ((compare a.minute b.minute).then (compare (a.second % 60) (b.second % 60))) := by
  -- The second of the day is a number in a mixed radix.
  have hparts : ∀ t : Instant, t.second = 3600 * t.hour + (60 * t.minute + t.second % 60) := by
    intro t
    unfold hour minute
    omega
  have hminutes : ∀ t : Instant, 60 * t.minute + t.second % 60 < 3600 := by
    intro t
    unfold minute
    omega
  have hseconds : ∀ t : Instant, t.second % 60 < 60 := fun t => Nat.mod_lt _ (by decide)
  rw [hparts a, hparts b, compare_mul_add (hminutes a) (hminutes b), ← hparts a, ← hparts b,
    compare_mul_add (hseconds a) (hseconds b)]

/-- A leap second follows the second before it, whose number it shares. -/
theorem compare_secondOfMinute (a b : Instant) :
    (compare (a.second % 60) (b.second % 60)).then (compare a.nano b.nano) =
      (compare a.secondOfMinute b.secondOfMinute).then (compare a.fraction b.fraction) := by
  -- Both sides count the nanoseconds from the start of the minute.
  have hshown : ∀ t : Instant, nanosPerSecond * t.secondOfMinute + t.fraction =
      nanosPerSecond * (t.second % 60) + t.nano := by
    intro t
    unfold secondOfMinute fraction nanosPerSecond
    omega
  have hlt : ∀ {a b : Instant}, a.second % 60 < b.second % 60 →
      nanosPerSecond * (a.second % 60) + a.nano < nanosPerSecond * (b.second % 60) + b.nano := by
    intro a b h
    -- Only the last second of a minute can be long, and that is not the earlier one.
    obtain ⟨-, -, hleap⟩ := a.valid
    unfold nanosPerSecond
    omega
  -- In one second of the day, a longer count of nanoseconds is later.
  rw [← compare_mul_add a.fraction_lt b.fraction_lt, hshown a, hshown b]
  refine (compare_eq_then hlt hlt fun hsame => ?_).symm
  rw [hsame]
  exact compare_add_left _ a.nano b.nano

/-- **Texts that start with clocks compare like the hours, minutes and seconds first.** -/
theorem compare_clockChars_append (a b : Instant) (rest rest' : List Char) :
    compare (a.clockChars ++ rest) (b.clockChars ++ rest') =
      (compare a.hour b.hour).then ((compare a.minute b.minute).then
        ((compare a.secondOfMinute b.secondOfMinute).then (compare rest rest'))) := by
  have hbounds : ∀ t : Instant,
      t.hour < 10 ^ 2 ∧ t.minute < 10 ^ 2 ∧ t.secondOfMinute < 10 ^ 2 := by
    intro t
    have hhour := t.hour_lt
    have hminute := t.minute_lt
    have hsecond := t.secondOfMinute_le
    omega
  have hchars : ∀ (t : Instant) rest, t.clockChars ++ rest = padded 2 t.hour ++
      ':' :: (padded 2 t.minute ++ ':' :: (padded 2 t.secondOfMinute ++ rest)) := by
    intro t rest
    simp only [clockChars, List.append_assoc, List.cons_append]
  obtain ⟨hhour, hminute, hsecond⟩ := hbounds a
  obtain ⟨hhour', hminute', hsecond'⟩ := hbounds b
  rw [hchars, hchars, compare_padded_append (by decide) hhour hhour', compare_cons_self,
    compare_padded_append (by decide) hminute hminute', compare_cons_self,
    compare_padded_append (by decide) hsecond hsecond']

/-! ### Fractions -/

/-- The digits of a fraction are groups of three. -/
theorem fractionChars_append (t : Instant) (rest : List Char) :
    t.fractionChars ++ rest =
      if t.fraction = 0 then rest else '.' :: groups rest 3 t.fraction := by
  have hbound : t.fraction < 1000 ^ 3 := t.fraction_lt
  unfold fractionChars
  generalize t.fraction = n at hbound ⊢
  split
  · rfl
  · next hpos =>
    split
    -- Groups of zeros at the end are left out: two of them, one or none.
    · next hsix =>
      have hn : n = 1000 * (1000 * (n / 1000000)) := by omega
      have hgroups : groups rest 3 n = padded 3 (n / 1000000) ++ rest := by
        calc groups rest 3 n = groups rest 3 (1000 * (1000 * (n / 1000000))) := congrArg _ hn
          _ = groups rest 1 (n / 1000000) := by
            rw [groups_mul rest (by omega), groups_mul rest (by omega)]
          _ = padded 3 (n / 1000000) ++ rest := groups_eq_padded rest (by omega) (by omega)
      rw [hgroups, List.cons_append]
    · split
      · next hthree =>
        have hn : n = 1000 * (n / 1000) := by omega
        have hgroups : groups rest 3 n = padded 6 (n / 1000) ++ rest := by
          calc groups rest 3 n = groups rest 3 (1000 * (n / 1000)) := congrArg _ hn
            _ = groups rest 2 (n / 1000) := groups_mul rest (by omega)
            _ = padded 6 (n / 1000) ++ rest := groups_eq_padded rest (by omega) (by omega)
        rw [hgroups, List.cons_append]
      -- The last group has a digit other than zero, so all are written.
      · next hnone => rw [groups_eq_padded rest hbound hnone, List.cons_append]

/-- **Fractions of any length compare like the nanoseconds that they stand for.** -/
theorem compare_fractionChars_append (a b : Instant) (rest : List Char) :
    compare (a.fractionChars ++ '+' :: rest) (b.fractionChars ++ '+' :: rest) =
      compare a.fraction b.fraction := by
  have hbound : ∀ t : Instant, t.fraction < 1000 ^ 3 := fraction_lt
  have hplus : ∀ d, isDigit d = true → '+' < d := fun d hd =>
    lt_of_lt_of_le (by decide) (isDigit_iff.1 hd).1
  have hpoint : '+' < '.' := by decide
  rw [fractionChars_append, fractionChars_append]
  split
  -- A time without a fraction goes on with the sign, which is before a point.
  · next hzero =>
    split
    · next hzero' => rw [hzero, hzero', Std.ReflOrd.compare_self, Std.ReflOrd.compare_self]
    · next hpos' =>
      rw [compare_cons_of_lt hpoint, hzero, Nat.compare_eq_lt.2 (Nat.pos_of_ne_zero hpos')]
  · next hpos =>
    split
    · next hzero' =>
      rw [Std.OrientedCmp.gt_of_lt (compare_cons_of_lt hpoint ..), hzero',
        Nat.compare_eq_gt.2 (Nat.pos_of_ne_zero hpos)]
    · rw [compare_cons_self, compare_groups hplus rest (hbound a) (hbound b)]

/-! ### Instants -/

/-- **From the year 0 to the year 9999 the store keeps times in their order.** -/
theorem compareStored_eq_compareTime {a b : Instant} (ha : a.date.FourDigitYear)
    (hb : b.date.FourDigitYear) : a.compareStored b = a.compareTime b := by
  have hchars : ∀ t : Instant, t.stored = String.ofList (t.date.spellChars ++
      ' ' :: (t.clockChars ++ (t.fractionChars ++ "+00:00".toList))) := by
    intro t
    rw [stored, List.append_assoc, List.append_assoc, List.cons_append]
  calc a.compareStored b
      = (compare a.date.number b.date.number).then ((compare a.hour b.hour).then
          ((compare a.minute b.minute).then
            ((compare a.secondOfMinute b.secondOfMinute).then
              (compare a.fraction b.fraction)))) := by
        rw [compareStored, hchars, hchars, compare_ofList, Date.compare_spellChars_append ha hb,
          compare_clockChars_append]
        exact congrArg _ (congrArg _ (congrArg _ (congrArg _ (compare_fractionChars_append a b _))))
    _ = a.compareTime b := by
        rw [compareTime, compare_second, ← compare_secondOfMinute, Ordering.then_assoc,
          Ordering.then_assoc]

/-- Beyond the year 9999 a sign comes first, and with it a later time before an earlier one. -/
example : (⟨⟨10000, 1, 1, by decide⟩, 0, 0, by decide⟩ : Instant).compareStored
    ⟨⟨9999, 12, 31, by decide⟩, 0, 0, by decide⟩ = .lt := by decide +kernel

/-- The order of time is that of the seconds between instants: none of them is negative from an
instant to one that does not precede it. -/
theorem secondsSince_nonneg {earlier later : Instant} (h : earlier.compareTime later ≠ .gt) :
    0 ≤ later.secondsSince earlier := by
  obtain ⟨hsecond, hnano, hleap⟩ := earlier.valid
  obtain ⟨hsecond', hnano', hleap'⟩ := later.valid
  -- Not to be later is a matter of day, second and nanosecond, in this order.
  rw [compareTime, Ne, Ordering.then_eq_gt, Ordering.then_eq_gt, Int.compare_eq_gt,
    Nat.compare_eq_gt, Int.compare_eq_eq, Nat.compare_eq_eq, Nat.compare_eq_gt] at h
  unfold secondsSince nanosPerSecond secondsPerDay
  -- The leap second that may lie between the two, or the one that the later clock is in.
  by_cases hbetween : later.second > earlier.second ∧ earlier.nano ≥ 1000000000
  · simp only [if_pos hbetween]
    split_ifs <;> omega
  · by_cases hwithin : later.second < earlier.second ∧ later.nano ≥ 1000000000
    · simp only [if_neg hbetween, if_pos hwithin]
      split_ifs <;> omega
    · simp only [if_neg hbetween, if_neg hwithin]
      split_ifs <;> omega

end Instant

end BenchCharts

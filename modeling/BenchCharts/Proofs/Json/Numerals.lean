import BenchCharts.Json.Printer
import BenchCharts.Json.Reader
import BenchCharts.Proofs.Decimal.Shortest
import BenchCharts.Proofs.Text.Numeral

/-!
# Numbers where they are written

A numeral is what the reader takes for a number: digits without zeros in front, a fraction and an
exponent. `IsNumeral` takes it apart. A numeral is taken as a whole wherever it stands, as long as
what follows does not go on with it, and what it is read as depends on nothing but its parts
(`IsNumeral.unsignedNumber?_append`).

Every number that can be spelled is spelled as a numeral, maybe with a minus in front. An integer is
read as itself (`number?_spell_int`). The numeral of a float has the value of its shortest decimal,
so what the reader makes a float of is a decimal that reads back to it
(`exists_isNumber_spell_float`). This holds for both ways to write a decimal; the zeros that one of
them puts behind the digits are moved to the power of ten.
-/

namespace BenchCharts.Json.Reader

open Text (isDigit)

/-! ### Numerals -/

/-- Digits, at least one. -/
def IsDigits (cs : List Char) : Prop := cs ≠ [] ∧ ∀ c ∈ cs, isDigit c = true

/-- Nothing, or a point with digits after it. -/
inductive IsFraction : List Char → List Char → Prop where
  /-- Nothing. -/
  | none : IsFraction [] []
  /-- A point with digits after it. -/
  | point {places : List Char} (h : IsDigits places) : IsFraction ('.' :: places) places

/-- Nothing, or a power of ten with a sign. -/
inductive IsExponent : List Char → Option Int → Prop where
  /-- Nothing. -/
  | none : IsExponent [] none
  /-- A power of ten below one. -/
  | negative {digits : List Char} (h : IsDigits digits) :
      IsExponent ('e' :: '-' :: digits) (some (-(Nat.ofDigitChars 10 digits 0 : Int)))
  /-- Another power of ten. -/
  | positive {digits : List Char} (h : IsDigits digits) :
      IsExponent ('e' :: '+' :: digits) (some (Nat.ofDigitChars 10 digits 0))

/-- The parts of a number without a sign in front. -/
structure Numeral where
  /-- The digits before the point. -/
  whole : List Char
  /-- The digits after the point, if there is one. -/
  places : List Char
  /-- The power of ten, if there is one. -/
  power : Option Int

namespace Numeral

/-- Digits alone make an integer. -/
def IsInteger (p : Numeral) : Prop := p.places = [] ∧ p.power = none

instance (p : Numeral) : Decidable p.IsInteger := inferInstanceAs (Decidable (_ ∧ _))

/-- What is made of the parts of a number. -/
def read? (p : Numeral) (rule : DecimalRule) (negative : Bool) : Option Number :=
  if p.IsInteger then
    integer? rule negative (p.whole.filterMap Text.digit?) (Nat.ofDigitChars 10 p.whole 0)
  else
    (rule negative (p.whole.filterMap Text.digit?) (p.places.filterMap Text.digit?)
      (p.power.getD 0)).map .float

end Numeral

/-- A text that consists of the parts of a number. A zero that it starts with is the only digit
before the point. -/
inductive IsNumeral : List Char → Numeral → Prop where
  /-- The parts one after the other. -/
  | mk {whole fraction places exponent : List Char} {power : Option Int} (hwhole : IsDigits whole)
      (hzero : whole.head? = some '0' → whole.length = 1) (hfraction : IsFraction fraction places)
      (hexponent : IsExponent exponent power) :
      IsNumeral (whole ++ (fraction ++ exponent)) ⟨whole, places, power⟩

/-- A text that does not go on with a number in front of it. -/
def Stops (rest : List Char) : Prop :=
  ∀ c, rest.head? = some c → isDigit c = false ∧ c ≠ '.' ∧ c ≠ 'e' ∧ c ≠ 'E'

/-- A character that does not go on with a number. -/
theorem stops_cons {c : Char} (rest : List Char)
    (h : isDigit c = false ∧ c ≠ '.' ∧ c ≠ 'e' ∧ c ≠ 'E') : Stops (c :: rest) := by
  rintro c' hc'
  cases hc'
  exact h

theorem stops_nil : Stops [] := by
  intro c hc
  cases hc

/-! ### Reading -/

section Reading

variable {rest : List Char}

/-- Digits are taken up to the first character that is none. -/
theorem digits_append {ds : List Char} (hds : ∀ c ∈ ds, isDigit c = true)
    (hrest : ∀ c, rest.head? = some c → isDigit c = false) : digits (ds ++ rest) = (ds, rest) := by
  obtain ⟨htake, hdrop⟩ := Text.takeWhile_isDigit_append hds hrest
  rw [digits, htake, hdrop]

theorem IsFraction.fraction?_append {cs places : List Char} (h : IsFraction cs places)
    (hrest : ∀ c, rest.head? = some c → isDigit c = false ∧ c ≠ '.') :
    fraction? (cs ++ rest) = some (places, rest) := by
  cases h with
  | none =>
    cases rest with
    | nil => rfl
    | cons c rest =>
      rw [List.nil_append, fraction?]
      -- What follows does not begin with a point.
      rintro rest' heq
      cases heq
      exact (hrest '.' rfl).2 rfl
  | point hplaces =>
    have hdigits : digits (places ++ rest) = (places, rest) :=
      digits_append hplaces.2 fun c hc => (hrest c hc).1
    rw [List.cons_append, fraction?, hdigits]
    simp [hplaces.1]

theorem IsExponent.exponent?_append {cs : List Char} {power : Option Int} (h : IsExponent cs power)
    (hrest : Stops rest) : exponent? (cs ++ rest) = some (power, rest) := by
  have hdigits : ∀ {ds : List Char}, IsDigits ds → digits (ds ++ rest) = (ds, rest) := fun hds =>
    digits_append hds.2 fun c hc => (hrest c hc).1
  cases h with
  | none =>
    rw [List.nil_append, exponent?.eq_def]
    cases rest with
    | nil => rfl
    | cons c rest =>
      obtain ⟨-, -, he, hE⟩ := hrest c rfl
      simp only [he, hE, or_self, if_false]
  | negative hds =>
    rw [List.cons_append, List.cons_append, exponent?.eq_def]
    simp [hdigits hds, Text.natural?_eq hds.1 hds.2]
  | positive hds =>
    rw [List.cons_append, List.cons_append, exponent?.eq_def]
    simp [hdigits hds, Text.natural?_eq hds.1 hds.2]

/-- What stands in front of the point ends where the fraction or the exponent begins. -/
theorem isDigit_head?_append {fraction places exponent : List Char} {power : Option Int}
    (hfraction : IsFraction fraction places) (hexponent : IsExponent exponent power)
    (hrest : Stops rest) {c : Char}
    (hc : (fraction ++ (exponent ++ rest)).head? = some c) : isDigit c = false := by
  cases hfraction with
  | point => cases hc; rfl
  | none =>
    cases hexponent with
    | negative => cases hc; rfl
    | positive => cases hc; rfl
    | none => exact (hrest c hc).1

/-- So does the fraction, where the exponent begins. -/
theorem head?_exponent_append {exponent : List Char} {power : Option Int}
    (hexponent : IsExponent exponent power) (hrest : Stops rest) {c : Char}
    (hc : (exponent ++ rest).head? = some c) : isDigit c = false ∧ c ≠ '.' := by
  cases hexponent with
  | negative =>
    cases hc
    exact ⟨rfl, by decide⟩
  | positive =>
    cases hc
    exact ⟨rfl, by decide⟩
  | none => exact ⟨(hrest c hc).1, (hrest c hc).2.1⟩

/-- Digits have values. -/
theorem isEmpty_filterMap_digit? {cs : List Char} (h : ∀ c ∈ cs, isDigit c = true) :
    (cs.filterMap Text.digit?).isEmpty = true ↔ cs = [] := by
  rw [List.isEmpty_iff, List.filterMap_eq_nil_iff]
  constructor
  · intro hnone
    refine List.eq_nil_iff_forall_not_mem.2 fun c hc => ?_
    have hdigit := h c hc
    rw [isDigit, hnone c hc] at hdigit
    cases hdigit
  · rintro rfl c hc
    cases hc

/-- **A numeral is read as what its parts say, whatever follows it.** -/
theorem IsNumeral.unsignedNumber?_append {cs : List Char} {p : Numeral} (h : IsNumeral cs p)
    (rule : DecimalRule) (negative : Bool) (hrest : Stops rest) :
    unsignedNumber? rule negative (cs ++ rest) =
      (p.read? rule negative).map fun n => (n, rest) := by
  obtain ⟨hwhole, hzero, hfraction, hexponent⟩ := h
  rename_i whole fraction places exponent power
  have hvalue := Text.natural?_eq hwhole.1 hwhole.2
  -- The zero at the front is alone if there is one.
  have hleading : (whole.head? == some '0' && whole.length != 1) = false := by
    by_cases h : whole.head? = some '0'
    · simp [h, hzero h]
    · simp [h]
  have hplaces : ∀ c ∈ places, isDigit c = true := by
    cases hfraction with
    | none => exact fun c hc => absurd hc List.not_mem_nil
    | point hplaces => exact hplaces.2
  have hinteger : ((places.filterMap Text.digit?).isEmpty && power.isNone) = true ↔
      Numeral.IsInteger ⟨whole, places, power⟩ := by
    rw [Bool.and_eq_true, isEmpty_filterMap_digit? hplaces, Option.isNone_iff_eq_none]
    rfl
  -- Each part is taken up to where the next one begins.
  have hdigits : digits (whole ++ (fraction ++ (exponent ++ rest))) =
      (whole, fraction ++ (exponent ++ rest)) :=
    digits_append hwhole.2 fun c hc => isDigit_head?_append hfraction hexponent hrest hc
  have hfractionEnds : fraction? (fraction ++ (exponent ++ rest)) =
      some (places, exponent ++ rest) :=
    hfraction.fraction?_append fun c hc => head?_exponent_append hexponent hrest hc
  rw [List.append_assoc, List.append_assoc, unsignedNumber?, hdigits]
  simp only [hleading, hvalue, hfractionEnds, hexponent.exponent?_append hrest, hinteger,
    Bool.false_eq_true, if_false, Option.bind_eq_bind, Option.bind_some, Numeral.read?]
  split
  · cases integer? rule negative _ _ <;> rfl
  · cases rule negative _ _ _ <;> rfl

end Reading

/-! ### Numbers -/

/-- A numeral, maybe with a minus in front. -/
inductive IsNumber : List Char → Bool → Numeral → Prop where
  /-- A numeral as it is. -/
  | plain {cs : List Char} {p : Numeral} (h : IsNumeral cs p) : IsNumber cs false p
  /-- A numeral with a minus. -/
  | negative {cs : List Char} {p : Numeral} (h : IsNumeral cs p) : IsNumber ('-' :: cs) true p

variable {cs : List Char} {negative : Bool} {p : Numeral}

/-- A numeral starts with a digit. -/
theorem IsNumeral.exists_cons (h : IsNumeral cs p) :
    ∃ c rest, cs = c :: rest ∧ isDigit c = true := by
  obtain ⟨⟨hne, hdigits⟩, -, -, -⟩ := h
  rename_i whole fraction places exponent power
  cases whole with
  | nil => exact absurd rfl hne
  | cons c more =>
    exact ⟨c, more ++ (fraction ++ exponent), rfl, hdigits c (List.mem_cons_self ..)⟩

/-- A number starts with a digit or with a minus. -/
theorem IsNumber.exists_cons (h : IsNumber cs negative p) :
    ∃ c rest, cs = c :: rest ∧ (isDigit c = true ∨ c = '-') := by
  cases h with
  | negative h => exact ⟨_, _, rfl, .inr rfl⟩
  | plain h =>
    obtain ⟨c, rest, heq, hc⟩ := h.exists_cons
    exact ⟨c, rest, heq, .inl hc⟩

theorem IsNumber.number?_append (h : IsNumber cs negative p) (rule : DecimalRule)
    {rest : List Char} (hrest : Stops rest) :
    number? rule (cs ++ rest) = (p.read? rule negative).map fun n => (n, rest) := by
  cases h with
  | negative h => exact h.unsignedNumber?_append rule true hrest
  | plain h =>
    have hread := h.unsignedNumber?_append rule false hrest
    obtain ⟨c, more, rfl, hc⟩ := h.exists_cons
    rw [List.cons_append, number?, ← List.cons_append, hread]
    rintro rest' heq
    cases heq
    cases hc

/-- A value that starts with a digit or a minus is a number. -/
theorem value?_cons {c : Char} (hc : isDigit c = true ∨ c = '-') (rules : Rules) (fuel depth : Nat)
    (rest : List Char) :
    value? rules (fuel + 1) depth (c :: rest) =
      (number? rules.decimal (c :: rest)).map fun (n, rest) => (.num n, rest) := by
  have hother : ∀ other, isDigit other = false → other ≠ '-' → c ≠ other := by
    rintro other hdigit hminus rfl
    rcases hc with hc | hc
    · rw [hdigit] at hc
      cases hc
    · exact hminus hc
  have hspace : dropSpace (c :: rest) = c :: rest := by
    refine List.dropWhile_cons_of_neg ?_
    simp [hother ' ' rfl (by decide), hother '\n' rfl (by decide), hother '\t' rfl (by decide),
      hother '\r' rfl (by decide)]
  rw [value?, hspace]
  split
  · next heq => exact absurd (List.cons.inj heq).1 (hother '{' rfl (by decide))
  · next heq => exact absurd (List.cons.inj heq).1 (hother '[' rfl (by decide))
  · next heq => exact absurd (List.cons.inj heq).1 (hother '"' rfl (by decide))
  · next heq => exact absurd (List.cons.inj heq).1 (hother 'n' rfl (by decide))
  · next heq => exact absurd (List.cons.inj heq).1 (hother 't' rfl (by decide))
  · next heq => exact absurd (List.cons.inj heq).1 (hother 'f' rfl (by decide))
  · rfl

/-- **A number is read as the same value whatever follows it.** -/
theorem IsNumber.value?_append (h : IsNumber cs negative p) (rules : Rules) (fuel depth : Nat)
    {rest : List Char} (hrest : Stops rest) :
    value? rules (fuel + 1) depth (cs ++ rest) =
      (p.read? rules.decimal negative).map fun n => (.num n, rest) := by
  have hnumber := h.number?_append rules.decimal hrest
  obtain ⟨c, more, rfl, hc⟩ := h.exists_cons
  rw [List.cons_append] at hnumber ⊢
  rw [value?_cons hc, hnumber, Option.map_map]
  rfl

/-! ### Spelling -/

theorem isDigits_toDigits (n : Nat) : IsDigits (Nat.toDigits 10 n) :=
  ⟨Nat.toDigits_ne_nil, fun _ => Text.isDigit_of_mem_toDigits⟩

/-- Only the digits of zero start with a zero. -/
theorem head?_toDigits {n : Nat} (h : (Nat.toDigits 10 n).head? = some '0') : n = 0 := by
  induction n using Nat.strongRecOn with
  | ind n ih =>
    rcases Nat.lt_or_ge n 10 with hlt | hge
    · rw [Nat.toDigits_of_lt_base hlt] at h
      exact Nat.digitChar_eq_zero.1 (Option.some.inj h)
    -- The first digit is that of a tenth of the number.
    · rw [Nat.toDigits_of_base_le (by decide) hge,
        List.head?_append_of_ne_nil _ Nat.toDigits_ne_nil] at h
      have hzero := ih (n / 10) (by omega) h
      omega

theorem isNumeral_toDigits (n : Nat) :
    IsNumeral (Nat.toDigits 10 n) ⟨Nat.toDigits 10 n, [], none⟩ := by
  have hzero : (Nat.toDigits 10 n).head? = some '0' → (Nat.toDigits 10 n).length = 1 := by
    intro h
    rw [head?_toDigits h]
    rfl
  have hnumeral := IsNumeral.mk (isDigits_toDigits n) hzero .none .none
  rwa [List.append_nil, List.append_nil] at hnumeral

theorem toList_toString (n : Nat) : (toString n).toList = Nat.toDigits 10 n := by
  rw [Nat.toString_eq_ofList_toDigits, String.toList_ofList]

/-- Zeros can stand on either side of digits. -/
theorem IsDigits.zeros {cs : List Char} (h : IsDigits cs) (before after : Nat) :
    IsDigits (List.replicate before '0' ++ cs ++ List.replicate after '0') := by
  refine ⟨by simp [h.1], fun c hc => ?_⟩
  rw [List.mem_append, List.mem_append] at hc
  rcases hc with (hc | hc) | hc
  · rw [List.eq_of_mem_replicate hc]
    rfl
  · exact h.2 c hc
  · rw [List.eq_of_mem_replicate hc]
    rfl

theorem IsDigits.take {cs : List Char} (h : IsDigits cs) {n : Nat} (hn : 0 < n) :
    IsDigits (cs.take n) := by
  refine ⟨fun hnil => ?_, fun c hc => h.2 c (List.mem_of_mem_take hc)⟩
  rcases List.take_eq_nil_iff.1 hnil with hzero | hempty
  · omega
  · exact h.1 hempty

theorem IsDigits.drop {cs : List Char} (h : IsDigits cs) {n : Nat} (hn : n < cs.length) :
    IsDigits (cs.drop n) := by
  refine ⟨fun hnil => ?_, fun c hc => h.2 c (List.mem_of_mem_drop hc)⟩
  have hlength := List.drop_eq_nil_iff.1 hnil
  omega

theorem isDigits_zero : IsDigits ['0'] :=
  ⟨List.cons_ne_nil _ _, fun _ hc => List.mem_singleton.1 hc ▸ rfl⟩

/-- One zero after the point. -/
theorem isFraction_zero : IsFraction ['.', '0'] ['0'] := .point isDigits_zero

/-- The value of a number that is not an integer. -/
def Numeral.toRat (p : Numeral) : ℚ :=
  (Decimal.ofDigits (p.whole.filterMap Text.digit?) (p.places.filterMap Text.digit?)
    (p.power.getD 0)).toRat

theorem foldl_filterMap_digit? {cs : List Char} (h : ∀ c ∈ cs, isDigit c = true) (n : Nat) :
    (cs.filterMap Text.digit?).foldl (fun n digit => 10 * n + digit) n =
      Nat.ofDigitChars 10 cs n := by
  induction cs generalizing n with
  | nil => rfl
  | cons c rest ih =>
    obtain ⟨hc, hrest⟩ := List.forall_mem_cons.1 h
    have hvalue : Text.digit? c = some (c.toNat - '0'.toNat) := if_pos (Text.isDigit_iff.1 hc)
    rw [List.filterMap_cons_some hvalue, List.foldl_cons, Nat.ofDigitChars_cons]
    exact ih hrest _

theorem length_filterMap_digit? {cs : List Char} (h : ∀ c ∈ cs, isDigit c = true) :
    (cs.filterMap Text.digit?).length = cs.length := by
  induction cs with
  | nil => rfl
  | cons c rest ih =>
    obtain ⟨hc, hrest⟩ := List.forall_mem_cons.1 h
    have hvalue : Text.digit? c = some (c.toNat - '0'.toNat) := if_pos (Text.isDigit_iff.1 hc)
    rw [List.filterMap_cons_some hvalue, List.length_cons, ih hrest, List.length_cons]

/-- The digits make one number, wherever the point stands. -/
theorem toRat_eq {whole places : List Char} {power : Option Int}
    (hdigits : ∀ c ∈ whole ++ places, isDigit c = true) :
    Numeral.toRat ⟨whole, places, power⟩ =
      Nat.ofDigitChars 10 (whole ++ places) 0 * 10 ^ (power.getD 0 - places.length) := by
  have hplaces : ∀ c ∈ places, isDigit c = true := fun c hc =>
    hdigits c (List.mem_append_right _ hc)
  rw [Numeral.toRat, Decimal.ofDigits, Decimal.toRat, ← List.filterMap_append,
    foldl_filterMap_digit? hdigits, length_filterMap_digit? hplaces]

/-- A text that is a number with some value, but not an integer. -/
def Spells (cs : List Char) (x : ℚ) : Prop :=
  ∃ p, IsNumeral cs p ∧ ¬ p.IsInteger ∧ p.toRat = x

section Digits

variable {digits : List Char} (hdigits : IsDigits digits) (hhead : digits.head? ≠ some '0')

include hdigits hhead

/-- Without places, zeros follow the digits up to the point, and one follows the point. -/
theorem spells_zeros (zeros : Nat) :
    Spells (digits ++ List.replicate zeros '0' ++ ['.', '0'])
      (Nat.ofDigitChars 10 digits 0 * 10 ^ zeros) := by
  have hwhole := hdigits.zeros 0 zeros
  rw [List.replicate_zero, List.nil_append] at hwhole
  have hfirst : (digits ++ List.replicate zeros '0').head? = some '0' →
      (digits ++ List.replicate zeros '0').length = 1 := by
    intro hzero
    rw [List.head?_append_of_ne_nil _ hdigits.1] at hzero
    exact absurd hzero hhead
  have hnumeral := IsNumeral.mk hwhole hfirst isFraction_zero .none
  rw [List.append_nil] at hnumeral
  refine ⟨_, hnumeral, fun hinteger => List.cons_ne_nil _ _ hinteger.1, ?_⟩
  -- The zeros are moved to the power of ten, and the one after the point is taken back by it.
  have hlast : ∀ n, Nat.ofDigitChars 10 ['0'] n = 10 * n := fun _ => rfl
  have hback : (10 : ℚ) ^ ((none : Option Int).getD 0 - (['0'].length : Int)) = 10⁻¹ :=
    zpow_neg_one 10
  rw [toRat_eq (List.forall_mem_append.2 ⟨hwhole.2, isDigits_zero.2⟩), Nat.ofDigitChars_append,
    Nat.ofDigitChars_append, Nat.ofDigitChars_replicate_zero, hlast, hback]
  push_cast
  ring

/-- With places, zeros stand in front of the digits if there are too few of them. -/
theorem spells_places {places : Nat} (hplaces : 0 < places) :
    let filled := List.replicate (places + 1 - digits.length) '0' ++ digits
    Spells (filled.take (filled.length - places) ++ '.' :: filled.drop (filled.length - places))
      (Nat.ofDigitChars 10 digits 0 * 10 ^ (-(places : Int))) := by
  intro filled
  have hfilled : IsDigits filled := by
    have hzeros := hdigits.zeros (places + 1 - digits.length) 0
    rwa [List.replicate_zero, List.append_nil] at hzeros
  have hlength : filled.length = max (places + 1) digits.length := by
    simp only [filled, List.length_append, List.length_replicate]
    omega
  have hwhole : IsDigits (filled.take (filled.length - places)) := hfilled.take (by omega)
  have hfraction : IsDigits (filled.drop (filled.length - places)) := hfilled.drop (by omega)
  have hfirst : (filled.take (filled.length - places)).head? = some '0' →
      (filled.take (filled.length - places)).length = 1 := by
    intro hzero
    rw [List.head?_take, if_neg (by omega)] at hzero
    rw [List.length_take]
    by_cases hshort : digits.length ≤ places
    · omega
    -- Digits that need no zero in front start with another digit.
    · have hnone : filled = digits := by
        have hsub : places + 1 - digits.length = 0 := by omega
        simp only [filled, hsub, List.replicate_zero, List.nil_append]
      rw [hnone] at hzero
      exact absurd hzero hhead
  have hnumeral := IsNumeral.mk hwhole hfirst (.point hfraction) .none
  rw [List.append_nil] at hnumeral
  refine ⟨_, hnumeral, fun hinteger => hfraction.1 hinteger.1, ?_⟩
  -- Taken together again, the digits are those that the point was put into.
  have hdropped : (filled.drop (filled.length - places)).length = places := by
    rw [List.length_drop]
    omega
  have hjoined := List.take_append_drop (filled.length - places) filled
  rw [toRat_eq (by rw [hjoined]; exact hfilled.2), hjoined, hdropped, Nat.ofDigitChars_append,
    Nat.ofDigitChars_replicate_zero, Nat.mul_zero, Option.getD_none, zero_sub]

end Digits

theorem isDigits_toString (n : Nat) : IsDigits (toString n).toList := by
  rw [toList_toString]
  exact isDigits_toDigits n

theorem ofDigitChars_toString (n : Nat) : Nat.ofDigitChars 10 (toString n).toList 0 = n := by
  rw [toList_toString, Nat.ofDigitChars_ten_toDigits]

theorem spells_spellPositional {d : Decimal} (h : d.digits ≠ 0) :
    Spells (Decimal.spellPositional d) d.toRat := by
  have hdigits := isDigits_toString d.digits
  have hhead : (toString d.digits).toList.head? ≠ some '0' := by
    rw [toList_toString]
    exact fun hzero => h (head?_toDigits hzero)
  rw [Decimal.spellPositional, Decimal.toRat]
  split
  · next hexponent =>
    have hspells := spells_zeros hdigits hhead d.exponent.toNat
    rwa [ofDigitChars_toString, ← zpow_natCast, Int.toNat_of_nonneg hexponent] at hspells
  · next hexponent =>
    have hplaces : 0 < (-d.exponent).toNat := by omega
    have hspells := spells_places hdigits hhead hplaces
    have hback : -((-d.exponent).toNat : Int) = d.exponent := by omega
    rwa [ofDigitChars_toString, hback] at hspells

/-- The sign of a power is written in any case. -/
theorem isExponent_signed (n : Int) :
    IsExponent ('e' :: (if n < 0 then '-' :: (toString n.natAbs).toList
      else '+' :: (toString n.natAbs).toList)) (some n) := by
  split
  · next hnegative =>
    have h := IsExponent.negative (isDigits_toString n.natAbs)
    have hback : -(n.natAbs : Int) = n := by omega
    rwa [ofDigitChars_toString, hback] at h
  · next hpositive =>
    have h := IsExponent.positive (isDigits_toString n.natAbs)
    have hback : (n.natAbs : Int) = n := by omega
    rwa [ofDigitChars_toString, hback] at h

theorem spells_spellScientific (d : Decimal) : Spells (Decimal.spellScientific d) d.toRat := by
  unfold Decimal.spellScientific
  extract_lets digits leading fraction exponent
  have hdigits : IsDigits digits := isDigits_toString d.digits
  -- One digit stands in front of the point, and all others after it.
  have hfraction : IsFraction fraction (digits.drop 1) := by
    simp only [fraction]
    split
    · next hshort =>
      rw [List.drop_eq_nil_of_le hshort]
      exact .none
    · exact .point (hdigits.drop (by omega))
  have hnumeral := IsNumeral.mk (hdigits.take Nat.one_pos) ?_ hfraction (isExponent_signed leading)
  · rw [← List.append_assoc] at hnumeral
    have hlength := List.length_pos_iff.2 hdigits.1
    have hback : (some leading).getD 0 - ((digits.drop 1).length : Int) = d.exponent := by
      rw [Option.getD_some, List.length_drop]
      omega
    refine ⟨_, hnumeral, fun hinteger => Option.some_ne_none _ hinteger.2, ?_⟩
    have hjoined := List.take_append_drop 1 digits
    rw [toRat_eq (by rw [hjoined]; exact hdigits.2), hjoined, ofDigitChars_toString, hback,
      Decimal.toRat]
  · intro hzero
    have hlength := List.length_pos_iff.2 hdigits.1
    rw [List.length_take]
    omega

/-- **The text of a finite float is a decimal that reads back to it.** -/
theorem exists_isNumber_spellBinary {b : Binary} (hbits : b.mantissa < 2 ^ 53) :
    ∃ p, IsNumber (Decimal.spellBinary b) b.negative p ∧ ¬ p.IsInteger ∧
      Decimal.RoundsTo p.toRat b := by
  have hsign : ∀ {cs : List Char} {p : Numeral}, IsNumeral cs p →
      IsNumber ((if b.negative then ['-'] else []) ++ cs) b.negative p := by
    intro cs p hcs
    cases b.negative with
    | true => exact .negative hcs
    | false => exact .plain hcs
  unfold Decimal.spellBinary
  extract_lets sign d leading
  split
  · next hzero =>
    -- Zero has digits of its own.
    have hnumeral := IsNumeral.mk isDigits_zero (fun _ => rfl) isFraction_zero .none
    refine ⟨_, hsign hnumeral, fun hinteger => List.cons_ne_nil _ _ hinteger.1, ?_⟩
    have hdigits := List.forall_mem_append.2 ⟨isDigits_zero.2, isDigits_zero.2⟩
    rw [toRat_eq hdigits, Decimal.RoundsTo, if_pos hzero]
    exact mul_eq_zero_of_left Nat.cast_zero _
  · next hmantissa =>
    -- Any other float has those of its shortest decimal.
    have hcontains := Decimal.contains_shortest hmantissa hbits
    have hspells : Spells (if Decimal.positional leading then Decimal.spellPositional d
        else Decimal.spellScientific d) d.toRat := by
      split
      · exact spells_spellPositional (Decimal.digits_ne_zero_of_contains hmantissa hcontains)
      · exact spells_spellScientific d
    obtain ⟨p, hnumeral, hinteger, hvalue⟩ := hspells
    refine ⟨p, hsign hnumeral, hinteger, ?_⟩
    rw [hvalue, Decimal.RoundsTo, if_neg hmantissa]
    exact hcontains

/-- The sign of an integer and its digits. -/
theorem toList_spell_int (n : Int) :
    (Number.int n).spell.toList =
      (if n < 0 then ['-'] else []) ++ Nat.toDigits 10 n.natAbs := by
  cases n with
  | ofNat n =>
    have hspell : (Number.int (.ofNat n)).spell.toList = Nat.toDigits 10 n := toList_toString n
    rw [hspell]
    rfl
  | negSucc n =>
    have hspell : (Number.int (.negSucc n)).spell.toList = '-' :: Nat.toDigits 10 (n + 1) := by
      change ("-" ++ toString (n + 1)).toList = _
      rw [String.toList_append, toList_toString]
      rfl
    rw [hspell, if_pos (Int.negSucc_lt_zero n), Int.natAbs_negSucc]
    rfl

theorem isNumber_spell_int (n : Int) :
    IsNumber (Number.int n).spell.toList (n < 0) ⟨Nat.toDigits 10 n.natAbs, [], none⟩ := by
  rw [toList_spell_int]
  split
  · next hnegative =>
    rw [decide_eq_true hnegative]
    exact .negative (isNumeral_toDigits n.natAbs)
  · next hnegative =>
    rw [decide_eq_false hnegative]
    exact .plain (isNumeral_toDigits n.natAbs)

theorem exists_isNumber_spell_float {x : Float} {b : Binary} (h : Binary.ofFloat? x = some b) :
    ∃ p, IsNumber (Number.float x).spell.toList b.negative p ∧ ¬ p.IsInteger ∧
      Decimal.RoundsTo p.toRat b := by
  rw [Number.spell, Decimal.spell?, h, Option.map_some, Option.getD_some, String.toList_ofList]
  exact exists_isNumber_spellBinary (Decimal.mantissa_lt h)

/-- **A number is spelled as one**, unless it is a float that is not finite. -/
theorem isNumber_spell (n : Number) :
    (∃ negative p, IsNumber n.spell.toList negative p) ∨ n.spell = "null" := by
  cases n with
  | int n => exact .inl ⟨_, _, isNumber_spell_int n⟩
  | float x =>
    cases h : Binary.ofFloat? x with
    | none =>
      refine .inr ?_
      rw [Number.spell, Decimal.spell?, h, Option.map_none, Option.getD_none]
    | some b =>
      obtain ⟨p, hnumber, -⟩ := exists_isNumber_spell_float h
      exact .inl ⟨_, p, hnumber⟩

/-- An integer of 64 bits, with or without a sign, is read as itself. -/
theorem read?_toDigits (rule : DecimalRule) {n : Int} (hlow : -9223372036854775808 ≤ n)
    (hhigh : n < 18446744073709551616) :
    Numeral.read? ⟨Nat.toDigits 10 n.natAbs, [], none⟩ rule (n < 0) = some (.int n) := by
  rw [Numeral.read?, if_pos ⟨rfl, rfl⟩, Nat.ofDigitChars_ten_toDigits, integer?]
  by_cases hnegative : n < 0
  · have hbound : n.natAbs ≠ 0 ∧ n.natAbs ≤ 1 <<< 63 := by
      rw [Nat.one_shiftLeft]
      omega
    have hback : -(n.natAbs : Int) = n := by omega
    rw [if_pos (decide_eq_true hnegative), if_pos hbound, hback]
  · have hbound : n.natAbs < UInt64.size := by
      rw [UInt64.size]
      omega
    have hback : (n.natAbs : Int) = n := by omega
    rw [if_neg (by simpa using hnegative), if_pos hbound, hback]

end BenchCharts.Json.Reader

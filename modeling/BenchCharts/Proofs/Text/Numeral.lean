import Mathlib.Data.Nat.Digits.Defs
import BenchCharts.Text.Numeral

/-!
# Numerals that are read back

A number is written in the digits of `Nat.toDigits`, with zeros in front up to a width. These digits
are digits to the reader too, and it makes the same number of them (`natural?_padded`). Below
`10 ^ width` there are exactly `width` of them (`length_padded`), so that a reader who takes a fixed
number of characters takes all of them and nothing else.
-/

namespace BenchCharts.Text

theorem isDigit_iff {c : Char} : isDigit c = true ↔ '0' ≤ c ∧ c ≤ '9' := by
  rw [isDigit, digit?]
  split <;> simp_all

theorem isDigit_of_mem_toDigits {n : Nat} {c : Char} (h : c ∈ Nat.toDigits 10 n) :
    isDigit c = true := by
  have hdigit := Nat.isDigit_of_mem_toDigits (by decide) (by decide) h
  rw [Char.isDigit, Bool.and_eq_true, decide_eq_true_eq, decide_eq_true_eq] at hdigit
  exact isDigit_iff.2 hdigit

/-- Digits are appended one by one to a value. -/
theorem appendDigits?_eq {cs : List Char} (hdigits : ∀ c ∈ cs, isDigit c = true) (value : Nat) :
    appendDigits? value cs = some (Nat.ofDigitChars 10 cs value) := by
  induction cs generalizing value with
  | nil => rw [appendDigits?, Nat.ofDigitChars_nil]
  | cons c rest ih =>
    obtain ⟨hc, hrest⟩ := List.forall_mem_cons.1 hdigits
    have hvalue : digit? c = some (c.toNat - '0'.toNat) := if_pos (isDigit_iff.1 hc)
    rw [appendDigits?, hvalue, Nat.ofDigitChars_cons]
    exact ih hrest _

theorem natural?_eq {cs : List Char} (hne : cs ≠ []) (hdigits : ∀ c ∈ cs, isDigit c = true) :
    natural? cs = some (Nat.ofDigitChars 10 cs 0) := by
  cases cs with
  | nil => exact absurd rfl hne
  | cons c rest => exact appendDigits?_eq hdigits 0

theorem isDigit_of_appendDigits? {cs : List Char} {value n : Nat}
    (h : appendDigits? value cs = some n) : ∀ c ∈ cs, isDigit c = true := by
  induction cs generalizing value with
  | nil => simp
  | cons c rest ih =>
    rw [appendDigits?] at h
    split at h
    · next d hd => exact List.forall_mem_cons.2 ⟨by rw [isDigit, hd]; rfl, ih h⟩
    · cases h

/-- What is read as a number are digits, at least one. -/
theorem natural?_eq_some_iff {cs : List Char} {n : Nat} :
    natural? cs = some n ↔
      cs ≠ [] ∧ (∀ c ∈ cs, isDigit c = true) ∧ Nat.ofDigitChars 10 cs 0 = n := by
  constructor
  · intro h
    have hne : cs ≠ [] := by
      rintro rfl
      cases h
    have hdigits : ∀ c ∈ cs, isDigit c = true := by
      cases cs with
      | nil => exact absurd rfl hne
      | cons c rest => exact isDigit_of_appendDigits? h
    rw [natural?_eq hne hdigits] at h
    exact ⟨hne, hdigits, Option.some.inj h⟩
  · rintro ⟨hne, hdigits, rfl⟩
    exact natural?_eq hne hdigits

/-! ### Numbers with zeros in front -/

theorem padded_eq (width n : Nat) :
    padded width n =
      List.replicate (width - (Nat.toDigits 10 n).length) '0' ++ Nat.toDigits 10 n := by
  have hdigits : (toString n).toList = Nat.toDigits 10 n := by
    rw [Nat.toString_eq_repr, Nat.repr_eq_ofList_toDigits, String.toList_ofList]
  rw [padded, hdigits]

theorem isDigit_of_mem_padded {width n : Nat} {c : Char} (h : c ∈ padded width n) :
    isDigit c = true := by
  rw [padded_eq] at h
  rcases List.mem_append.1 h with h | h
  · rw [List.eq_of_mem_replicate h]
    rfl
  · exact isDigit_of_mem_toDigits h

theorem padded_ne_nil (width n : Nat) : padded width n ≠ [] := by
  rw [padded_eq]
  exact List.append_ne_nil_of_right_ne_nil _ Nat.toDigits_ne_nil

theorem length_padded {width n : Nat} (hwidth : 0 < width) (hn : n < 10 ^ width) :
    (padded width n).length = width := by
  have hle := Nat.toDigits_length 10 n width hwidth hn
  rw [padded_eq, List.length_append, List.length_replicate]
  omega

/-- **A number is read back from its digits**, however many zeros are in front. -/
theorem natural?_padded (width n : Nat) : natural? (padded width n) = some n := by
  rw [natural?_eq (padded_ne_nil width n) fun c => isDigit_of_mem_padded, padded_eq,
    Nat.ofDigitChars_append, Nat.ofDigitChars_replicate_zero, Nat.mul_zero,
    Nat.ofDigitChars_ten_toDigits]

/-- Digits at the front are taken as a whole if what follows starts with something else. -/
theorem takeWhile_isDigit_append {digits rest : List Char}
    (hdigits : ∀ c ∈ digits, isDigit c = true)
    (hrest : ∀ c, rest.head? = some c → isDigit c = false) :
    (digits ++ rest).takeWhile isDigit = digits ∧ (digits ++ rest).dropWhile isDigit = rest := by
  have hnone : rest.takeWhile isDigit = [] ∧ rest.dropWhile isDigit = rest := by
    cases rest with
    | nil => exact ⟨rfl, rfl⟩
    | cons c more => simp [hrest c rfl]
  rw [List.takeWhile_append_of_pos hdigits, List.dropWhile_append_of_pos hdigits, hnone.1, hnone.2,
    List.append_nil]
  exact ⟨rfl, rfl⟩

/-- Digits at the end are told apart from what is in front of them if that ends with something
else. -/
theorem append_digits_inj {front front' digits digits' : List Char}
    (hfront : ∀ c, front.getLast? = some c → isDigit c = false)
    (hfront' : ∀ c, front'.getLast? = some c → isDigit c = false)
    (hdigits : ∀ c ∈ digits, isDigit c = true) (hdigits' : ∀ c ∈ digits', isDigit c = true) :
    front ++ digits = front' ++ digits' ↔ front = front' ∧ digits = digits' := by
  refine ⟨fun h => ?_, fun ⟨hfronts, hends⟩ => by rw [hfronts, hends]⟩
  -- Read from the end, the digits are what is taken as a whole.
  have hsplit : ∀ {front digits : List Char},
      (∀ c, front.getLast? = some c → isDigit c = false) → (∀ c ∈ digits, isDigit c = true) →
        (front ++ digits).reverse.takeWhile isDigit = digits.reverse ∧
          (front ++ digits).reverse.dropWhile isDigit = front.reverse := by
    intro front digits hfront hdigits
    rw [List.reverse_append]
    refine takeWhile_isDigit_append (fun c hc => hdigits c (List.mem_reverse.1 hc)) fun c hc => ?_
    exact hfront c (List.head?_reverse ▸ hc)
  obtain ⟨htake, hdrop⟩ := hsplit hfront hdigits
  obtain ⟨htake', hdrop'⟩ := hsplit hfront' hdigits'
  rw [h] at htake hdrop
  exact ⟨List.reverse_inj.1 (hdrop.symm.trans hdrop'),
    List.reverse_inj.1 (htake.symm.trans htake')⟩

/-! ### 64 bits -/

theorem fitsSigned64_iff {n : Int} :
    fitsSigned64 n = true ↔ -9223372036854775808 ≤ n ∧ n < 9223372036854775808 := by
  simp [fitsSigned64]

/-- Characters spell an integer: ASCII digits, at least one, with or without a sign in front. -/
inductive SpellsInteger : List Char → Int → Prop
  /-- There is no sign. -/
  | unsigned {digits : List Char} (hne : digits ≠ []) (hdigits : ∀ c ∈ digits, '0' ≤ c ∧ c ≤ '9') :
      SpellsInteger digits (Nat.ofDigitChars 10 digits 0)
  /-- There is a plus sign. -/
  | plus {digits : List Char} (hne : digits ≠ []) (hdigits : ∀ c ∈ digits, '0' ≤ c ∧ c ≤ '9') :
      SpellsInteger ('+' :: digits) (Nat.ofDigitChars 10 digits 0)
  /-- There is a minus sign. -/
  | minus {digits : List Char} (hne : digits ≠ []) (hdigits : ∀ c ∈ digits, '0' ≤ c ∧ c ≤ '9') :
      SpellsInteger ('-' :: digits) (-(Nat.ofDigitChars 10 digits 0))

/-- No sign is a digit, so the first character tells which rule a spelling is by. -/
theorem spellsInteger_iff {cs : List Char} {n : Int} :
    SpellsInteger cs n ↔
      (∃ digits, cs = '-' :: digits ∧ ∃ k : Nat, natural? digits = some k ∧ -(k : Int) = n) ∨
        (∀ digits, cs ≠ '-' :: digits) ∧
          ∃ k : Nat, natural? (dropPlus cs) = some k ∧ (k : Int) = n := by
  have hread : ∀ {digits : List Char}, digits ≠ [] → (∀ c ∈ digits, '0' ≤ c ∧ c ≤ '9') →
      natural? digits = some (Nat.ofDigitChars 10 digits 0) := fun hne hdigits =>
    natural?_eq hne fun c hc => isDigit_iff.2 (hdigits c hc)
  constructor
  · intro h
    cases h with
    | unsigned hne hdigits =>
      -- It begins with a digit, so there is no sign to be taken for one.
      have hsign : ∀ sign digits, cs = sign :: digits → '0' ≤ sign := by
        rintro sign digits rfl
        exact (hdigits sign (List.mem_cons_self ..)).1
      have hplus : dropPlus cs = cs := by
        unfold dropPlus
        split
        · exact absurd (hsign '+' _ rfl) (by decide)
        · rfl
      refine .inr ⟨fun digits hcs => absurd (hsign '-' digits hcs) (by decide), _, ?_, rfl⟩
      rw [hplus]
      exact hread hne hdigits
    | plus hne hdigits => exact .inr ⟨by simp, _, hread hne hdigits, rfl⟩
    | minus hne hdigits => exact .inl ⟨_, rfl, _, hread hne hdigits, rfl⟩
  · rintro (⟨digits, rfl, k, hk, rfl⟩ | ⟨-, k, hk, rfl⟩)
    -- Digits that are read are a spelling, with the sign that was in front of them.
    · obtain ⟨hne, hdigits, rfl⟩ := natural?_eq_some_iff.1 hk
      exact .minus hne fun c hc => isDigit_iff.1 (hdigits c hc)
    · obtain ⟨hne, hdigits, rfl⟩ := natural?_eq_some_iff.1 hk
      revert hne hdigits
      unfold dropPlus
      split
      · exact fun hne hdigits => .plus hne fun c hc => isDigit_iff.1 (hdigits c hc)
      · exact fun hne hdigits => .unsigned hne fun c hc => isDigit_iff.1 (hdigits c hc)

/-- **What is read as a number of 64 bits** spells it, and has no more bits. -/
theorem signed64?_eq_some_iff {s : String} {n : Int} :
    signed64? s = some n ↔
      SpellsInteger s.toList n ∧ -9223372036854775808 ≤ n ∧ n < 9223372036854775808 := by
  rw [spellsInteger_iff, ← fitsSigned64_iff]
  unfold signed64?
  split
  -- Behind a minus sign the digits are read and negated.
  · next digits hminus =>
    rw [Option.filter_eq_some_iff, hminus]
    cases hdigits : natural? digits <;> simp [hdigits, and_comm]
  · next hother =>
    have hnone : ∀ digits, s.toList ≠ '-' :: digits := hother
    rw [Option.filter_eq_some_iff]
    cases natural? (dropPlus s.toList) <;> simp [hnone]

end BenchCharts.Text

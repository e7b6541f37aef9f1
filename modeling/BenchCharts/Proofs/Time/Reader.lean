import Mathlib.Data.List.TakeWhile
import BenchCharts.Proofs.Text.Blank
import BenchCharts.Time.Reader
import BenchCharts.Time.Spelling

/-!
# Instants that are read back

Every instant is read back from its spelling (`Instant.read?_spell`): from any year in use, with any
fraction of a second, and in a leap second. The same holds of the text that the store keeps, so that
different instants have different texts (`Instant.stored_inj`).

The reader is lenient, but in what is written there is nothing to be lenient about: no part of it
starts with a blank, so none is dropped, and no number is followed by a digit, so each ends where it
was written to end. One lemma for each part says that the reader takes that part and leaves what
follows it.
-/

namespace BenchCharts

namespace Text

/-- In front of a padded number there is nothing to drop. -/
theorem dropBlank_padded (width n : Nat) (rest : List Char) :
    dropBlank (padded width n ++ rest) = padded width n ++ rest := by
  cases hcs : padded width n with
  | nil => exact absurd hcs (padded_ne_nil width n)
  | cons c more =>
    have hmem : c ∈ padded width n := hcs ▸ List.mem_cons_self ..
    have hdigit : isDigit c = true := isDigit_of_mem_padded hmem
    exact dropBlank_cons (not_isBlank_of_isDigit hdigit) _

end Text

namespace Instant.Reader

open Text

/-! ### Numbers and separators -/

theorem number?_padded {width n : Nat} (hwidth : 0 < width) (hn : n < 10 ^ width)
    (rest : List Char) : number? width (padded width n ++ rest) = some (n, rest) := by
  have hlength := length_padded hwidth hn
  -- The characters that are taken are the digits, and all of them.
  have htake : ((padded width n ++ rest).take width).takeWhile isDigit = padded width n := by
    rw [List.take_left' hlength]
    have hdigits : ∀ c ∈ padded width n, isDigit c = true := fun c => isDigit_of_mem_padded
    exact List.takeWhile_eq_self_iff.2 hdigits
  rw [number?, htake, natural?_padded, Option.map_some, List.drop_left]

theorem short?_padded {n : Nat} (hn : n < 100) (rest : List Char) :
    short? (padded 2 n ++ rest) = some (n, rest) := by
  rw [short?, dropBlank_padded, number?_padded (by decide) hn]

theorem longNumber?_padded {width n : Nat} {rest : List Char}
    (hrest : ∀ c, rest.head? = some c → isDigit c = false) :
    longNumber? (padded width n ++ rest) = some (n, rest) := by
  have hdigits : ∀ c ∈ padded width n, isDigit c = true := fun c => isDigit_of_mem_padded
  obtain ⟨htake, hdrop⟩ := takeWhile_isDigit_append hdigits hrest
  rw [longNumber?, htake, hdrop, natural?_padded, Option.map_some]

theorem separator?_cons {c : Char} (hc : isBlank c = false) (rest : List Char) :
    separator? c (c :: rest) = some rest := by
  rw [separator?, dropBlank_cons hc]
  exact if_pos rfl

/-! ### Dates -/

/-- A year is read up to the separator after it. -/
theorem year?_spellYear (year : Int) (rest : List Char) :
    year? (spellYear year ++ '-' :: rest) = some (year, '-' :: rest) := by
  have hdash : ∀ c, ('-' :: rest).head? = some c → isDigit c = false := by
    rintro c ⟨⟩
    decide
  unfold spellYear
  split
  · next hshort =>
    -- Four digits and no sign. What the reader sees first is the first of them.
    have hnumber : number? 4 (padded 4 year.toNat ++ '-' :: rest) =
        some (year.toNat, '-' :: rest) := number?_padded (by decide) (by omega) _
    have hyear : (year.toNat : Int) = year := Int.toNat_of_nonneg hshort.1
    rw [year?, dropBlank_padded]
    split
    · next heq => exact absurd (heq ▸ hnumber) (by simp [number?, isDigit, digit?, natural?])
    · next heq => exact absurd (heq ▸ hnumber) (by simp [number?, isDigit, digit?, natural?])
    · rw [hnumber]
      exact congrArg (fun year => some (year, _)) hyear
  -- Any other year has a sign, after which all digits are taken.
  · next hlong =>
    split
    · next hneg =>
      have hyear : -(year.natAbs : Int) = year := by omega
      rw [List.cons_append, year?, dropBlank_cons (by decide)]
      simp only [longNumber?_padded hdash, Option.map_some, hyear]
    · next hpos =>
      have hyear : (year.natAbs : Int) = year := by omega
      rw [List.cons_append, year?, dropBlank_cons (by decide)]
      simp only [longNumber?_padded hdash, Option.map_some, hyear]

theorem date?_spellChars (d : Date) (rest : List Char) :
    date? (d.spellChars ++ rest) = some (d, rest) := by
  simp only [date?, Date.spellChars, List.append_assoc, List.cons_append, year?_spellYear,
    separator?_cons (show isBlank '-' = false by decide), short?_padded d.month_lt,
    short?_padded d.day_lt, Date.of?_self, Option.bind_eq_bind, Option.bind_some, Option.pure_def]

/-! ### Times of day -/

/-- Some digits after a point are the nanoseconds that they are the first digits of. -/
theorem nanos?_padded {places n : Nat} (hplaces : 0 < places) (hle : places ≤ 9)
    (hn : n < 10 ^ places) {rest : List Char}
    (hrest : ∀ c, rest.head? = some c → isDigit c = false) :
    nanos? ('.' :: (padded places n ++ rest)) = some (n * 10 ^ (9 - places), rest) := by
  have hdigits : ∀ c ∈ padded places n, isDigit c = true := fun c => isDigit_of_mem_padded
  obtain ⟨htake, hdrop⟩ := takeWhile_isDigit_append hdigits hrest
  have hlength := length_padded hplaces hn
  -- Zeros fill the digits up to nine.
  have hfilled : (padded places n ++ List.replicate 9 '0').take 9 =
      padded places n ++ List.replicate (9 - places) '0' := by
    rw [List.take_append, hlength, List.take_of_length_le (by omega), List.take_replicate,
      Nat.min_eq_left (by omega)]
  -- Zeros after the digits multiply what these make.
  have hnumber : natural? (padded places n ++ List.replicate (9 - places) '0') =
      some (n * 10 ^ (9 - places)) := by
    rw [natural?_eq (List.append_ne_nil_of_left_ne_nil (padded_ne_nil places n) _),
      Nat.ofDigitChars_append, Nat.ofDigitChars_replicate_zero, Nat.mul_comm]
    · have hvalue := natural?_padded places n
      rw [natural?_eq (padded_ne_nil places n) hdigits] at hvalue
      rw [Option.some.inj hvalue]
    · intro c hc
      rcases List.mem_append.1 hc with hc | hc
      · exact hdigits c hc
      · rw [List.eq_of_mem_replicate hc]
        rfl
  have hsome : (padded places n).isEmpty = false :=
    List.isEmpty_eq_false_iff.2 (padded_ne_nil places n)
  simp only [nanos?, htake, hdrop, hfilled, hnumber, hsome, Option.bind_some, Bool.false_eq_true,
    if_false]

/-- A fraction is read up to what can be no part of it. -/
theorem nanos?_fractionChars (t : Instant) {rest : List Char}
    (hrest : ∀ c, rest.head? = some c → isDigit c = false ∧ c ≠ '.') :
    nanos? (t.fractionChars ++ rest) = some (t.fraction, rest) := by
  have hend : ∀ c, rest.head? = some c → isDigit c = false := fun c hc => (hrest c hc).1
  have hbound : t.fraction < 1000000000 := t.fraction_lt
  unfold fractionChars
  split
  -- Without a fraction the rest must not begin with a point, or it would be read as one.
  · next hzero =>
    rw [hzero, List.nil_append, nanos?]
    rintro more rfl
    exact (hrest '.' rfl).2 rfl
  -- A fraction is written with three, six or nine digits.
  · split
    · rw [List.cons_append, nanos?_padded (by decide) (by decide) (by omega) hend]
      have hvalue : t.fraction / 1000000 * 10 ^ (9 - 3) = t.fraction := by omega
      rw [hvalue]
    · split
      · rw [List.cons_append, nanos?_padded (by decide) (by decide) (by omega) hend]
        have hvalue : t.fraction / 1000 * 10 ^ (9 - 6) = t.fraction := by omega
        rw [hvalue]
      · rw [List.cons_append, nanos?_padded (by decide) (by decide) (by omega) hend]
        have hvalue : t.fraction * 10 ^ (9 - 9) = t.fraction := by omega
        rw [hvalue]

theorem clock?_clockChars (t : Instant) {rest : List Char}
    (hrest : ∀ c, rest.head? = some c → isDigit c = false ∧ c ≠ '.') :
    clock? (t.clockChars ++ t.fractionChars ++ rest) = some ((t.second, t.nano), rest) := by
  obtain ⟨hsecond, hnano, hleap⟩ := t.valid
  have hhour := t.hour_lt
  have hminute := t.minute_lt
  have hshown := t.secondOfMinute_le
  have hcolon : isBlank ':' = false := by decide
  simp only [clock?, clockChars, List.append_assoc, List.cons_append,
    short?_padded (show t.hour < 100 by omega), short?_padded (show t.minute < 100 by omega),
    short?_padded (show t.secondOfMinute < 100 by omega), separator?_cons hcolon,
    nanos?_fractionChars t hrest, Option.bind_eq_bind, Option.bind_some]
  -- All parts are in their ranges.
  rw [if_neg (by omega)]
  -- A leap second is shown as 60 and has its nanoseconds from `10 ^ 9` on.
  split
  · next hsixty =>
    unfold secondOfMinute nanosPerSecond at hsixty
    have hclock : t.hour * 3600 + t.minute * 60 + 59 = t.second := by
      unfold hour minute
      omega
    have hwhole : nanosPerSecond + t.fraction = t.nano := by
      unfold fraction nanosPerSecond
      omega
    rw [hclock, hwhole]
  · next hless =>
    unfold secondOfMinute nanosPerSecond at hless
    have hclock : t.hour * 3600 + t.minute * 60 + t.secondOfMinute = t.second := by
      unfold hour minute secondOfMinute nanosPerSecond
      omega
    have hwhole : t.fraction = t.nano := by
      unfold fraction nanosPerSecond
      omega
    rw [hclock, hwhole]

end Reader

/-- The instant whose clock shows its own time is the one without an offset. -/
theorem ofLocal?_zero (t : Instant) : ofLocal? t.date t.second t.nano 0 = some t := by
  have hsecond := t.valid.1
  unfold ofLocal? secondsPerDay
  simp only [Int.sub_zero, Int.toNat_natCast, of?_self]
  -- The time is on the same day.
  rw [if_neg (by omega), if_pos (by omega)]

/-- A text that consists of a date, a time of day and an offset names the instant of these. -/
theorem read?_of_parts {s : String} {date : Date} {second nano : Nat} {offset : Int}
    {separator : Char} {clock zone : List Char}
    (hseparator : separator = 'T' ∨ separator = 't' ∨ separator = ' ')
    (hdate : Reader.date? s.toList = some (date, separator :: clock))
    (hclock : Reader.clock? clock = some ((second, nano), zone))
    (hzone : Reader.offset? (Text.dropBlank zone) = some (offset, [])) :
    read? s = ofLocal? date second nano offset := by
  have hend : (Text.dropBlank []).isEmpty = true := rfl
  simp only [read?, hdate, hclock, hzone, hend, hseparator, Option.bind_eq_bind, Option.bind_some,
    if_true]

/-- An instant is read back from its date and its time of day if what follows them stands for no
offset. -/
theorem read?_ofList (t : Instant) {separator : Char} {zone : List Char}
    (hseparator : separator = 'T' ∨ separator = 't' ∨ separator = ' ')
    (hend : ∀ c, zone.head? = some c → Text.isDigit c = false ∧ c ≠ '.')
    (hzone : Reader.offset? (Text.dropBlank zone) = some (0, [])) :
    read? (.ofList (t.date.spellChars ++ separator :: t.clockChars ++ t.fractionChars ++ zone)) =
      some t := by
  let clock := t.clockChars ++ t.fractionChars ++ zone
  have hdate : Reader.date? (String.ofList (t.date.spellChars ++ separator :: t.clockChars ++
      t.fractionChars ++ zone)).toList = some (t.date, separator :: clock) := by
    rw [String.toList_ofList, List.append_assoc, List.append_assoc, List.cons_append,
      Reader.date?_spellChars, ← List.append_assoc]
  rw [read?_of_parts hseparator hdate (Reader.clock?_clockChars t hend) hzone]
  exact ofLocal?_zero t

/-- **Every instant is read back from its spelling.** -/
theorem read?_spell (t : Instant) : read? t.spell = some t :=
  read?_ofList t (.inl rfl) (by simp [Text.isDigit, Text.digit?]) (by decide)

/-- Every instant is also read back from what the store keeps of it. -/
theorem read?_stored (t : Instant) : read? t.stored = some t :=
  read?_ofList t (.inr (.inr rfl)) (by simp [Text.isDigit, Text.digit?]) (by decide)

theorem stored_inj {a b : Instant} : a.stored = b.stored ↔ a = b := by
  refine ⟨fun h => ?_, fun h => h ▸ rfl⟩
  exact Option.some.inj ((read?_stored a).symm.trans (h ▸ read?_stored b))

end Instant

end BenchCharts

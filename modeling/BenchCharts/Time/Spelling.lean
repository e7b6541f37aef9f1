import BenchCharts.Text.Numeral
import BenchCharts.Time.Instant

/-!
# Writing instants

Three spellings share their digits. `Instant.spell` is the one of answers, as in
`2024-03-01T12:00:00.500Z`; `Instant.stored` is the one that the store keeps and orders by, as in
`2024-03-01 12:00:00.500+00:00`; and `Instant.listed` is the one of listings, without a fraction.

A year from 0 to 9999 has four digits. Other years have a sign and at least four digits. The
fraction has the fewest of 0, 3, 6 and 9 digits that hold the value.
-/

namespace BenchCharts

/-- The digits of a year, with a sign if it lies outside of 0 to 9999. -/
def spellYear (year : Int) : List Char :=
  if 0 ≤ year ∧ year ≤ 9999 then Text.padded 4 year.toNat
  else (if year < 0 then '-' else '+') :: Text.padded 4 year.natAbs

/-- The date, as in `2024-03-01`. -/
def Date.spellChars (d : Date) : List Char :=
  spellYear d.year ++ '-' :: Text.padded 2 d.month ++ '-' :: Text.padded 2 d.day

namespace Instant

/-- The time of day up to the second, as in `12:00:00`. -/
def clockChars (t : Instant) : List Char :=
  Text.padded 2 t.hour ++ ':' :: Text.padded 2 t.minute ++ ':' :: Text.padded 2 t.secondOfMinute

/-- The fraction of the second after a point, or nothing for a whole second. -/
def fractionChars (t : Instant) : List Char :=
  if t.fraction = 0 then []
  else if t.fraction % 1000000 = 0 then '.' :: Text.padded 3 (t.fraction / 1000000)
  else if t.fraction % 1000 = 0 then '.' :: Text.padded 6 (t.fraction / 1000)
  else '.' :: Text.padded 9 t.fraction

/-- The spelling of answers. -/
def spell (t : Instant) : String :=
  .ofList (t.date.spellChars ++ 'T' :: t.clockChars ++ t.fractionChars ++ ['Z'])

/-- The spelling that the store keeps and orders by. -/
def stored (t : Instant) : String :=
  .ofList (t.date.spellChars ++ ' ' :: t.clockChars ++ t.fractionChars ++ "+00:00".toList)

/-- The spelling of listings. -/
def listed (t : Instant) : String :=
  .ofList (t.date.spellChars ++ ' ' :: t.clockChars ++ " UTC".toList)

/-- The order in which the store keeps times: that of their texts. -/
def compareStored (a b : Instant) : Ordering := compare a.stored b.stored

end Instant

end BenchCharts

import BenchCharts.Time.Date

/-!
# Instants

A point in time, in UTC, to the nanosecond: a date, the second of the day, and nanoseconds. Any
minute may end in a leap second; it shares the number of the second before it, and has nanoseconds
from `10 ^ 9` on.

`Instant.secondsSince` counts whole seconds between instants, dropping a fraction. A leap second
counts only if it lies between the two.
-/

namespace BenchCharts

/-- The nanoseconds of a second. -/
def nanosPerSecond : Nat := 1000000000

/-- The seconds of a day without leap seconds. -/
def secondsPerDay : Nat := 86400

/-- A time of day exists. A leap second can only follow the last second of a minute. -/
def Instant.Valid (second nano : Nat) : Prop :=
  second < 86400 ∧ nano < 2000000000 ∧ (1000000000 ≤ nano → second % 60 = 59)

instance (second nano : Nat) : Decidable (Instant.Valid second nano) :=
  inferInstanceAs (Decidable (_ ∧ _))

/-- A point in time, in UTC. -/
structure Instant where
  /-- The day. -/
  date : Date
  /-- The second of the day. -/
  second : Nat
  /-- The nanosecond of the second, from `10 ^ 9` on in a leap second. -/
  nano : Nat
  /-- The time of day exists. -/
  valid : Instant.Valid second nano
deriving DecidableEq

namespace Instant

/-- The instant with a date and a time of day, if that exists. -/
def of? (date : Date) (second nano : Nat) : Option Instant :=
  if h : Valid second nano then some ⟨date, second, nano, h⟩ else none

/-- The instant whose clock shows a time where clocks are `offset` seconds ahead. -/
def ofLocal? (date : Date) (second nano : Nat) (offset : Int) : Option Instant := do
  let shifted := (second : Int) - offset
  if shifted < 0 then of? (← date.previous?) (shifted + secondsPerDay).toNat nano
  else if shifted < secondsPerDay then of? date shifted.toNat nano
  else of? (← date.next?) (shifted - secondsPerDay).toNat nano

/-- The hour, from 0 to 23. -/
def hour (t : Instant) : Nat := t.second / 3600

/-- The minute of the hour. -/
def minute (t : Instant) : Nat := t.second / 60 % 60

/-- The second of the minute, 60 in a leap second. -/
def secondOfMinute (t : Instant) : Nat := t.second % 60 + t.nano / nanosPerSecond

/-- The nanosecond of the second that the clock shows. -/
def fraction (t : Instant) : Nat := t.nano % nanosPerSecond

/-- The whole seconds from one instant to another, with the fraction dropped. -/
def secondsSince (later earlier : Instant) : Int :=
  let days := later.date.number - earlier.date.number
  -- The clocks of both days, with a leap second between them counted.
  let clock := (later.second : Int) - earlier.second
  let leap : Int :=
    if later.second > earlier.second ∧ earlier.nano ≥ nanosPerSecond then 1
    else if later.second < earlier.second ∧ later.nano ≥ nanosPerSecond then -1
    else 0
  -- `/` and `%` round down, so a negative span with a fraction is one second too long.
  let nanos := (later.nano : Int) - earlier.nano
  let seconds := days * secondsPerDay + clock + leap + nanos / nanosPerSecond
  if seconds < 0 ∧ nanos % nanosPerSecond > 0 then seconds + 1 else seconds

theorem hour_lt (t : Instant) : t.hour < 24 := by
  obtain ⟨hsecond, -, -⟩ := t.valid
  unfold hour
  omega

theorem minute_lt (t : Instant) : t.minute < 60 := Nat.mod_lt _ (by decide)

/-- A leap second is the sixtieth of its minute. -/
theorem secondOfMinute_le (t : Instant) : t.secondOfMinute ≤ 60 := by
  obtain ⟨-, hnano, -⟩ := t.valid
  unfold secondOfMinute nanosPerSecond
  omega

theorem fraction_lt (t : Instant) : t.fraction < nanosPerSecond := Nat.mod_lt _ (by decide)

/-- An instant is the one with its date and its time of day. -/
@[simp] theorem of?_self (t : Instant) : of? t.date t.second t.nano = some t := by
  simp [of?, t.valid]

end Instant

end BenchCharts

import BenchCharts.Text.Blank
import BenchCharts.Text.Numeral
import BenchCharts.Time.Instant

/-!
# Reading instants

`Instant.read?` reads a date, a time of day and an offset from UTC, as in
`2024-03-01T12:00:00.5+01:00`, and gives the instant in UTC. It is lenient in several ways:

* numbers may have fewer digits than usual, and blanks may stand before each of them and around the
  separators;
* a year may have a sign, and then any number of digits;
* between date and time there is a `T`, a `t` or one space;
* the seconds may be 60, for a leap second; digits of the fraction after the ninth are dropped;
* the offset is `Z`, `z`, `UTC` in any case, or a sign and four digits with any colons and blanks
  between hours and minutes; the sign may be a real minus sign;
* blanks may follow.

An offset of 24 hours or more, a date that does not exist, and a time beyond either end of the
calendar are refused.
-/

namespace BenchCharts.Instant.Reader

/-- At least one and at most `width` digits, as a number, and what follows them. -/
def number? (width : Nat) (cs : List Char) : Option (Nat × List Char) :=
  let digits := (cs.take width).takeWhile Text.isDigit
  (Text.natural? digits).map fun n => (n, cs.drop digits.length)

/-- Any positive number of digits, as a number, and what follows them. -/
def longNumber? (cs : List Char) : Option (Nat × List Char) :=
  (Text.natural? (cs.takeWhile Text.isDigit)).map fun n => (n, cs.dropWhile Text.isDigit)

/-- A year: four digits at most, or a sign and any number of digits. -/
def year? (cs : List Char) : Option (Int × List Char) :=
  match Text.dropBlank cs with
  | '-' :: rest => (longNumber? rest).map fun (n, rest) => (-(n : Int), rest)
  | '+' :: rest => (longNumber? rest).map fun (n, rest) => ((n : Int), rest)
  | rest => (number? 4 rest).map fun (n, rest) => ((n : Int), rest)

/-- A number of one or two digits after blanks. -/
def short? (cs : List Char) : Option (Nat × List Char) := number? 2 (Text.dropBlank cs)

/-- What follows a separator, with blanks before it. -/
def separator? (separator : Char) (cs : List Char) : Option (List Char) :=
  match Text.dropBlank cs with
  | c :: rest => if c = separator then some rest else none
  | [] => none

/-- A date. -/
def date? (cs : List Char) : Option (Date × List Char) := do
  let (year, rest) ← year? cs
  let (month, rest) ← short? (← separator? '-' rest)
  let (day, rest) ← short? (← separator? '-' rest)
  let date ← Date.of? year month day
  return (date, rest)

/-- The nanoseconds after a point, if there is one. -/
def nanos? : List Char → Option (Nat × List Char)
  | '.' :: rest =>
    let digits := rest.takeWhile Text.isDigit
    (Text.natural? ((digits ++ List.replicate 9 '0').take 9)).bind fun n =>
      if digits.isEmpty then none else some (n, rest.dropWhile Text.isDigit)
  | cs => some (0, cs)

/-- A time of day, as the second of the day and nanoseconds. -/
def clock? (cs : List Char) : Option ((Nat × Nat) × List Char) := do
  let (hour, rest) ← short? cs
  let (minute, rest) ← short? (← separator? ':' rest)
  let (second, rest) ← short? (← separator? ':' rest)
  let (nano, rest) ← nanos? rest
  if 24 ≤ hour ∨ 60 ≤ minute ∨ 60 < second then none
  else
    let start := hour * 3600 + minute * 60
    if second = 60 then some ((start + 59, nanosPerSecond + nano), rest)
    else some ((start + second, nano), rest)

/-- Two digits, as a number. -/
def twoDigits? : List Char → Option (Nat × List Char)
  | a :: b :: rest => do
    let a ← Text.digit? a
    let b ← Text.digit? b
    return (10 * a + b, rest)
  | _ => none

/-- Hours and minutes of an offset, in seconds. -/
def offsetAfterSign? (cs : List Char) : Option (Nat × List Char) := do
  let (hours, rest) ← twoDigits? cs
  let (minutes, rest) ← twoDigits? (rest.dropWhile fun c => c == ':' || Text.isBlank c)
  if 60 ≤ minutes ∨ 24 ≤ hours then none else some (hours * 3600 + minutes * 60, rest)

/-- Whether two characters are the same ASCII letter in any case. -/
def sameLetter (upper c : Char) : Bool := c.toUpper == upper

/-- An offset from UTC, in seconds. -/
def offset? (cs : List Char) : Option (Int × List Char) :=
  match cs with
  | u :: t :: c :: rest =>
    if sameLetter 'U' u && sameLetter 'T' t && sameLetter 'C' c then some (0, rest) else signed? cs
  | _ => signed? cs
where
  /-- An offset other than the word. -/
  signed? : List Char → Option (Int × List Char)
    | [] => none
    | c :: rest =>
      if c = 'Z' ∨ c = 'z' then some (0, rest)
      else if c = '+' then (offsetAfterSign? rest).map fun (n, rest) => ((n : Int), rest)
      else if c = '-' ∨ c = '\u2212' then
        (offsetAfterSign? rest).map fun (n, rest) => (-(n : Int), rest)
      else none

end Reader

/-- The instant that a text names. -/
def read? (s : String) : Option Instant := do
  let (date, rest) ← Reader.date? s.toList
  let rest ← match rest with
    | c :: rest => if c = 'T' ∨ c = 't' ∨ c = ' ' then some rest else none
    | [] => none
  let ((second, nano), rest) ← Reader.clock? rest
  let (offset, rest) ← Reader.offset? (Text.dropBlank rest)
  if (Text.dropBlank rest).isEmpty then ofLocal? date second nano offset else none

end BenchCharts.Instant

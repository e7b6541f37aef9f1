import BenchCharts.Decimal.Extended
import BenchCharts.Json.Reader

/-!
# Numbers in texts

The store reads a number from a text as far as the text spells one. A text spells a number if it
holds digits, with an optional sign, point and exponent, and ASCII blanks around; a point needs
digits on one side only. What the beginning of a text spells is read in any case, and is zero if
that is nothing. Digits alone spell an integer if it fits into 64 bits, and everything else spells a
float, which is read as in `Decimal/Extended`.
-/

namespace BenchCharts.NumericText

/-- Whether a character is an ASCII blank. -/
def isSpace (c : Char) : Bool := c == ' ' || (9 ≤ c.toNat && c.toNat ≤ 13)

/-- What was read at the beginning of a text. -/
structure Scan where
  /-- Whether there is a minus sign. -/
  negative : Bool
  /-- The digits before the point. -/
  whole : List Char
  /-- Whether there is a point. -/
  point : Bool
  /-- The digits after the point. -/
  places : List Char
  /-- The digits of the exponent, with its sign, if an exponent mark is there. -/
  exponent : Option (Bool × List Char)
  /-- What follows. -/
  rest : List Char

/-- The sign in front, and what follows it. -/
def sign : List Char → Bool × List Char
  | '-' :: rest => (true, rest)
  | '+' :: rest => (false, rest)
  | cs => (false, cs)

/-- Reads as much of a number as there is. -/
def scan (cs : List Char) : Scan :=
  let (negative, cs) := sign (cs.dropWhile isSpace)
  let (whole, cs) := Json.Reader.digits cs
  let (point, places, cs) := match cs with
    | '.' :: rest => (true, Json.Reader.digits rest)
    | _ => (false, [], cs)
  match cs with
  | c :: rest =>
    -- The mark of an exponent counts even where no digits follow; then the text is not complete.
    if c = 'e' ∨ c = 'E' then
      let (below, rest) := sign rest
      let (exponent, rest) := Json.Reader.digits rest
      { negative, whole, point, places, exponent := some (below, exponent), rest }
    else { negative, whole, point, places, exponent := none, rest := c :: rest }
  | [] => { negative, whole, point, places, exponent := none, rest := [] }

namespace Scan

/-- The digits before and after the point, as one number. -/
def mantissa (s : Scan) : Nat := (Text.natural? (s.whole ++ s.places)).getD 0

/-- The power of ten that is written. -/
def power (s : Scan) : Int :=
  match s.exponent with
  | some (below, digits) =>
    let n : Int := (Text.natural? digits).getD 0
    if below then -n else n
  | none => 0

/-- The float that was read. -/
def value (s : Scan) : Float :=
  Decimal.stored s.negative (s.whole.filterMap Text.digit?) (s.places.filterMap Text.digit?) s.power

/-- Whether all of the text spells a number. -/
def complete (s : Scan) : Bool :=
  (s.rest.dropWhile isSpace).isEmpty && !(s.whole.isEmpty && s.places.isEmpty)
    && s.exponent.all fun (_, digits) => !digits.isEmpty

/-- The integer that was read, if there are only digits and it fits into 64 bits. -/
def integer? (s : Scan) : Option Int :=
  if s.point || s.exponent.isSome then none
  else
    let n : Int := if s.negative then -(s.mantissa : Int) else s.mantissa
    if Text.fitsSigned64 n then some n else none

end Scan

/-- The float that the beginning of a text spells. -/
def float (s : String) : Float := (scan s.toList).value

/-- The integer that a text spells, if it spells one. -/
def integer? (s : String) : Option Int :=
  let scan := scan s.toList
  if scan.complete then scan.integer? else none

end BenchCharts.NumericText

/-!
# Decimal numerals

Reading whole numbers written in ASCII digits, with the bounds of 64-bit integers. A numeral has
at least one digit; leading zeros are fine. `Text.unsigned64?` also takes one leading `+`, and
`Text.signed64?` one leading `+` or `-`.
-/

namespace BenchCharts.Text

/-- The value of an ASCII digit. -/
def digit? (c : Char) : Option Nat :=
  if '0' ≤ c ∧ c ≤ '9' then some (c.toNat - '0'.toNat) else none

/-- Whether a character is an ASCII digit. -/
def isDigit (c : Char) : Bool := (digit? c).isSome

/-- The number that is written by appending digits to the digits of `value`. -/
def appendDigits? (value : Nat) : List Char → Option Nat
  | [] => some value
  | c :: rest =>
    match digit? c with
    | some d => appendDigits? (10 * value + d) rest
    | none => none

/-- The number written by a nonempty list of ASCII digits. -/
def natural? : List Char → Option Nat
  | [] => none
  | c :: rest => appendDigits? 0 (c :: rest)

/-- The digits after one optional `+`. -/
def dropPlus : List Char → List Char
  | '+' :: rest => rest
  | cs => cs

/-- A number below `2 ^ 64`: digits, with or without a `+` in front. -/
def unsigned64? (s : String) : Option Nat :=
  (natural? (dropPlus s.toList)).filter (· < UInt64.size)

/-- Whether an integer fits into 64 bits with a sign. -/
def fitsSigned64 (n : Int) : Bool := -9223372036854775808 ≤ n && n < 9223372036854775808

/-- A number from `-2 ^ 63` to `2 ^ 63 - 1`: digits, with or without a sign in front. -/
def signed64? (s : String) : Option Int :=
  match s.toList with
  | '-' :: digits => ((natural? digits).map fun n => -(n : Int)).filter fitsSigned64
  | cs => ((natural? (dropPlus cs)).map fun n => (n : Int)).filter fitsSigned64

/-- A natural number written with at least `width` digits, zeros in front. -/
def padded (width n : Nat) : List Char :=
  let digits := (toString n).toList
  List.replicate (width - digits.length) '0' ++ digits

end BenchCharts.Text

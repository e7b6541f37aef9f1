import BenchCharts.Json.Basic
import BenchCharts.Decimal.Spelling

/-!
# Writing JSON

`Json.compact` writes a value without any blanks, `Json.pretty` over several lines with two spaces
for each level. Both keep the order of the members. In texts only the quote, the backslash and the
control characters are escaped. A float that is infinite or not a number has no spelling in JSON
and is written as `null`.
-/

namespace BenchCharts

/-- The text of a number. -/
def Number.spell : Number → String
  | .int n => toString n
  | .float x => (Decimal.spell? x).getD "null"

namespace Json

/-- A hexadecimal digit in lower case. -/
def hexDigit (n : Nat) : Char := if n < 10 then Char.ofNat (48 + n) else Char.ofNat (87 + n)

/-- A character as it stands inside quotes. -/
def escapeChar (c : Char) : List Char :=
  if c = '"' then ['\\', '"']
  else if c = '\\' then ['\\', '\\']
  else if c = '\u0008' then ['\\', 'b']
  else if c = '\u000c' then ['\\', 'f']
  else if c = '\n' then ['\\', 'n']
  else if c = '\r' then ['\\', 'r']
  else if c = '\t' then ['\\', 't']
  else if c.toNat < 32 then ['\\', 'u', '0', '0', hexDigit (c.toNat / 16), hexDigit (c.toNat % 16)]
  else [c]

/-- A text in quotes. -/
def quote (s : String) : List Char := '"' :: s.toList.flatMap escapeChar ++ ['"']

/-- The blanks between the parts of a value. -/
structure Spacing where
  /-- What stands in front of each item and member, and of the closing bracket or brace, inside some
  number of containers. -/
  gap : Nat → List Char
  /-- What stands between a colon and the value after it. -/
  afterColon : List Char

namespace Spacing

/-- No blanks at all. -/
def none : Spacing := ⟨fun _ => [], []⟩

/-- Items and members on lines of their own, indented by two spaces for each level. -/
def lines : Spacing := ⟨fun level => '\n' :: List.replicate (2 * level) ' ', [' ']⟩

end Spacing

mutual

/-- The characters of a value inside `level` containers. Empty containers are closed at once. -/
def chars (spacing : Spacing) (level : Nat) : Json → List Char
  | .null => "null".toList
  | .bool b => if b then "true".toList else "false".toList
  | .num n => n.spell.toList
  | .str s => quote s
  | .arr [] => ['[', ']']
  | .arr (item :: rest) => '[' :: itemsChars spacing level (item :: rest)
  | .obj [] => ['{', '}']
  | .obj (member :: rest) => '{' :: membersChars spacing level (member :: rest)

/-- The items of an array and the closing bracket. -/
def itemsChars (spacing : Spacing) (level : Nat) : List Json → List Char
  | [] => spacing.gap level ++ [']']
  | item :: rest =>
    spacing.gap (level + 1) ++ chars spacing (level + 1) item
      ++ (if rest.isEmpty then [] else [',']) ++ itemsChars spacing level rest

/-- The members of an object and the closing brace. -/
def membersChars (spacing : Spacing) (level : Nat) : Fields → List Char
  | [] => spacing.gap level ++ ['}']
  | (key, value) :: rest =>
    spacing.gap (level + 1) ++ quote key ++ ':' :: spacing.afterColon
      ++ chars spacing (level + 1) value ++ (if rest.isEmpty then [] else [','])
      ++ membersChars spacing level rest

end

/-- A value without blanks. -/
def compact (j : Json) : String := .ofList (j.chars .none 0)

/-- A value over several lines, two spaces to a level. -/
def pretty (j : Json) : String := .ofList (j.chars .lines 0)

end Json

end BenchCharts

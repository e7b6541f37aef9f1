import BenchCharts.Text.Blank

/-!
# Texts in quotes, for messages

`Text.quoted` shows a text so that its ends can be seen and nothing in it breaks the line: quotes,
apostrophes and backslashes have a backslash before them, and control characters and all blanks but
the space are shown by their code. Everything else stands for itself.
-/

namespace BenchCharts.Text

/-- Whether a character is shown by its code. -/
def isHidden (c : Char) : Bool :=
  c.toNat < 32 || (127 ≤ c.toNat && c.toNat < 160) || (isBlank c && c != ' ')

/-- The code of a character in lower-case hexadecimal digits, between braces. -/
def codeEscape (c : Char) : List Char :=
  '\\' :: 'u' :: '{' :: Nat.toDigits 16 c.toNat ++ ['}']

/-- A character as it stands inside quotes. -/
def quotedChar (c : Char) : List Char :=
  if c = '"' ∨ c = '\'' ∨ c = '\\' then ['\\', c]
  else if c = '\n' then ['\\', 'n']
  else if c = '\r' then ['\\', 'r']
  else if c = '\t' then ['\\', 't']
  else if c.toNat = 0 then ['\\', '0']
  else if isHidden c then codeEscape c
  else [c]

/-- A text in quotes. -/
def quoted (s : String) : String := .ofList ('"' :: s.toList.flatMap quotedChar ++ ['"'])

end BenchCharts.Text

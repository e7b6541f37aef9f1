import BenchCharts.Text.Ranges

/-!
# Blank characters and trimming

`Text.isBlank` is the Unicode property White_Space: besides the ASCII blanks it holds the no-break
space, the typographic spaces and the two Unicode line separators, and it does not hold the
zero-width space. `Text.trim` drops blanks at both ends of a text.
-/

namespace BenchCharts.Text

/-- The code points with the property White_Space. -/
def blankRanges : Ranges :=
  [(0x09, 0x0D), (0x20, 0x20), (0x85, 0x85), (0xA0, 0xA0), (0x1680, 0x1680), (0x2000, 0x200A),
   (0x2028, 0x2029), (0x202F, 0x202F), (0x205F, 0x205F), (0x3000, 0x3000)]

/-- Whether a character is white space in the sense of Unicode. -/
def isBlank (c : Char) : Bool := blankRanges.has c

/-- The characters without the blanks in front. -/
def dropBlank (cs : List Char) : List Char := cs.dropWhile isBlank

/-- The characters without the blanks at either end. -/
def trimChars (cs : List Char) : List Char := (dropBlank (dropBlank cs).reverse).reverse

/-- The text without the blanks at either end. -/
def trim (s : String) : String := String.ofList (trimChars s.toList)

/-- What is left after dropping blanks does not start with one. -/
theorem head?_dropBlank {cs : List Char} {c : Char} (h : (dropBlank cs).head? = some c) :
    isBlank c = false := by
  induction cs with
  | nil => simp [dropBlank] at h
  | cons d ds ih =>
    by_cases hd : isBlank d
    · exact ih (by simpa [dropBlank, hd] using h)
    · simp only [dropBlank, List.dropWhile_cons, hd, Bool.false_eq_true, ↓reduceIte,
        List.head?_cons, Option.some.injEq] at h
      subst h
      simpa using hd

end BenchCharts.Text

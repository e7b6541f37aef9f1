import BenchCharts.Text.Casing

/-!
# Lowercase text

`Text.lowercase` is the full Unicode lowercase of a text, independent of any language. It goes
character by character with two exceptions: the dotted capital I becomes two code points, and a
capital sigma at the end of a word becomes the final form of the letter.

A sigma ends a word when a cased letter stands before it and none stands after it, where
case-ignorable characters in between (apostrophes, combining marks) are passed over.
-/

namespace BenchCharts.Text

/-- Whether a run maps a code point. -/
def CaseRun.covers (run : CaseRun) (code : Nat) : Bool :=
  run.first ≤ code && code ≤ run.last && (code - run.first) % run.step == 0

/-- The lowercase of a character on its own. -/
def lowercaseChar (c : Char) : List Char :=
  if c = '\u0130' then ['i', '\u0307']
  else
    match lowercaseRuns.find? (·.covers c.toNat) with
    | some run => [Char.ofNat ((c.toNat : Int) + run.shift).toNat]
    | none => [c]

/-- Whether the first character that is not case-ignorable exists and is cased. -/
def casedFollows (cs : List Char) : Bool :=
  match cs.dropWhile caseIgnorableRanges.has with
  | c :: _ => casedRanges.has c
  | [] => false

/-- The lowercase of the characters after `before`, which is held in reverse. -/
def lowercaseFrom (before : List Char) : List Char → List Char
  | [] => []
  | c :: rest =>
    let lower :=
      if c = 'Σ' then
        if casedFollows before && !casedFollows rest then ['ς'] else ['σ']
      else lowercaseChar c
    lower ++ lowercaseFrom (c :: before) rest

/-- The lowercase of a text. -/
def lowercase (s : String) : String := String.ofList (lowercaseFrom [] s.toList)

end BenchCharts.Text

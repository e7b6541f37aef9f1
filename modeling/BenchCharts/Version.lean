import BenchCharts.Text.Blank
import BenchCharts.Text.Digit
import BenchCharts.Text.Numeral
import BenchCharts.Text.Split

/-!
# Version strings and their order

A version is a core of numbers between points, with an optional `v` in front, and whatever follows
the core as its suffix. One `-`, `+` or `.` between core and suffix belongs to neither. Digits of
any script count towards the shape of the core, but a group is only a number if it is written in
ASCII digits and lies below `2 ^ 64`; otherwise the string is no version. A line feed after the
core makes it no version either.

`Version.compare` orders all strings. Versions come before other strings. They are ordered by their
cores, where missing numbers count as zero; with equal cores, a release comes before everything
with a suffix; suffixes are cut at points and hyphens, and their identifiers are compared one by
one, numbers before words; and what is still tied is decided by the strings themselves, so that
only identical strings compare equal. Strings that are no versions are ordered by code points.
-/

namespace BenchCharts

/-- A version string taken apart. -/
structure Version where
  /-- The numbers at the front. -/
  core : List Nat
  /-- What follows them, if anything does. -/
  suffix : Option String
deriving DecidableEq, Repr

namespace Version

/-! ### Reading -/

/-- The groups of digits at the front, cut at points that stand between digits, and what follows
the last group. The first group may be empty. -/
def groups : List Char → List (List Char) × List Char
  | [] => ([[]], [])
  | c :: rest =>
    if Text.isDecimalDigit c then
      match groups rest with
      | (group :: more, tail) => ((c :: group) :: more, tail)
      | ([], tail) => ([[c]], tail)
    -- A point that no digit follows ends the core.
    else if c = '.' ∧ (rest.head?.any Text.isDecimalDigit) = true then
      let (more, tail) := groups rest
      ([] :: more, tail)
    else ([[]], c :: rest)

/-- The number that a group of digits spells. -/
def number? (group : List Char) : Option Nat := (Text.natural? group).filter (· < UInt64.size)

/-- The characters after one separator between core and suffix. -/
def dropSeparator : List Char → List Char
  | [] => []
  | c :: rest => if c = '-' ∨ c = '+' ∨ c = '.' then rest else c :: rest

/-- The characters after an optional `v`. -/
def dropMark : List Char → List Char
  | [] => []
  | c :: rest => if c = 'v' then rest else c :: rest

/-- The version that a string spells, blanks around it aside. -/
def parse? (s : String) : Option Version := do
  let (digits, tail) := groups (dropMark (Text.trimChars s.toList))
  -- The core needs a first group.
  if digits.head?.all List.isEmpty then none
  let rest := dropSeparator tail
  if rest.contains '\n' then none
  let core ← digits.mapM number?
  return { core, suffix := if rest.isEmpty then none else some (.ofList rest) }

/-- A string with a hyphen anywhere in it names a snapshot. -/
def isSnapshot (s : String) : Bool := s.toList.contains '-'

theorem isSnapshot_iff {s : String} : isSnapshot s = true ↔ '-' ∈ s.toList := by
  rw [isSnapshot, List.contains_iff_mem]

/-! ### Order -/

/-- Compares cores number by number; a missing number counts as zero. -/
def compareCores : List Nat → List Nat → Ordering
  | [], bs => if bs.all (· == 0) then .eq else .lt
  | a :: as, [] => (compare a 0).then (compareCores as [])
  | a :: as, b :: bs => (compare a b).then (compareCores as bs)

/-- One identifier of a suffix. -/
inductive Identifier where
  /-- An identifier that spells a number below `2 ^ 64`. -/
  | number (value : Nat)
  /-- Any other identifier. -/
  | word (text : String)
deriving DecidableEq, Repr

/-- The identifier with a given spelling. -/
def Identifier.of (s : String) : Identifier :=
  match Text.unsigned64? s with
  | some n => .number n
  | none => .word s

/-- Numbers come before words. -/
def Identifier.compare : Identifier → Identifier → Ordering
  | .number a, .number b => Ord.compare a b
  | .number _, .word _ => .lt
  | .word _, .number _ => .gt
  | .word a, .word b => Ord.compare a b

/-- The identifiers of a suffix, between points and hyphens. -/
def identifiers (suffix : String) : List Identifier :=
  (Text.split (fun c => c == '.' || c == '-') suffix).map Identifier.of

/-- No suffix comes before any suffix; of two suffixes, one that the other continues comes
first. -/
def compareSuffixes : Option String → Option String → Ordering
  | none, none => .eq
  | none, some _ => .lt
  | some _, none => .gt
  | some a, some b => List.compareLex Identifier.compare (identifiers a) (identifiers b)

/-- The order on versions that have been taken apart. -/
def compareParsed (a b : Version) : Ordering :=
  (compareCores a.core b.core).then (compareSuffixes a.suffix b.suffix)

/-- The order on all strings: versions first, in version order. -/
protected def compare (a b : String) : Ordering :=
  match parse? a, parse? b with
  -- Different spellings of one version are told apart by their texts.
  | some left, some right => (compareParsed left right).then (Ord.compare a b)
  | some _, none => .lt
  | none, some _ => .gt
  | none, none => Ord.compare a b

end Version

end BenchCharts

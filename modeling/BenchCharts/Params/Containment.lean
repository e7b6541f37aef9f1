import BenchCharts.Params.Path

/-!
# Containment

A pattern is contained in a value when it is a sub-structure of it. An object contains another one
when it has every key of it, with a value that contains the value there. An array contains another
one when each item of that is contained in one of its own items. Other values contain only
themselves, where numbers are compared by value; and an array also contains the scalars that are
among its items.
-/

namespace BenchCharts.Json

/-- Whether two values are the same scalar. -/
def sameScalar : Json → Json → Bool
  | .null, .null => true
  | .bool a, .bool b => a == b
  | .num a, .num b => a.sameValue b
  | .str a, .str b => a == b
  | _, _ => false

mutual

/-- Whether the value contains the pattern. -/
def contains (whole : Json) : Json → Bool
  | .obj pattern =>
    match whole with
    | .obj fields => containsFields fields pattern
    | _ => false
  | .arr pattern =>
    match whole with
    | .arr items => containsItems items pattern
    | _ => false
  | .null => containsScalar whole .null
  | .bool b => containsScalar whole (.bool b)
  | .num n => containsScalar whole (.num n)
  | .str s => containsScalar whole (.str s)

/-- Whether the value is the scalar, or an array with the scalar among its items. -/
def containsScalar (whole scalar : Json) : Bool :=
  match whole with
  | .arr items => items.any (sameScalar · scalar)
  | _ => sameScalar whole scalar

/-- Whether the object has every key of the pattern, with a value that contains the one there. -/
def containsFields (whole : Fields) : Fields → Bool
  | [] => true
  | (key, pattern) :: rest =>
    (match whole.get? key with
      | some value => contains value pattern
      | none => false) && containsFields whole rest

/-- Whether every pattern is contained in one of the items. -/
def containsItems (whole : List Json) : List Json → Bool
  | [] => true
  | pattern :: rest => whole.any (fun item => contains item pattern) && containsItems whole rest

end

end BenchCharts.Json

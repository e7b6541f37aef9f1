import BenchCharts.Json.Printer
import BenchCharts.Params.Path

/-!
# Labels

The label of a value is the text under which runs with that value are grouped. A number and the
text that spells it share a label, and a whole float drops its fraction, so that `4`, `4.0` and
`"4"` all have the label `4`. Above `2 ^ 53`, where not every whole number is a float any more, a
float keeps its own spelling.
-/

namespace BenchCharts.Json

/-- Below this, every whole number is a float. -/
def wholeLimit : Nat := 1 <<< 53

/-- The label of a number. -/
def numberLabel : Number → String
  | .int n => toString n
  | .float x =>
    match (Binary.ofFloat? x).bind Binary.integer? with
    | some n => if n.natAbs < wholeLimit then toString n else (Number.float x).spell
    | none => (Number.float x).spell

/-- The text under which a value is grouped. -/
def label : Json → String
  | .str s => s
  | .null => "null"
  | .num n => numberLabel n
  | .bool b => (Json.bool b).compact
  | .arr items => (Json.arr items).compact
  | .obj fields => (Json.obj fields).compact

/-- The label of the value at a path; a missing or `null` value has none. -/
def Fields.labelAt? (fields : Fields) (path : String) : Option String :=
  ((fields.at? path).filter fun value => !value.isNull).map label

end BenchCharts.Json

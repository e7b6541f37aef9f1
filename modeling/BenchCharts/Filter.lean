import BenchCharts.Json.Printer
import BenchCharts.Params.Containment
import BenchCharts.Params.Leaves
import BenchCharts.Run.Basic

/-!
# Comparison filters

A comparison filter is an object that says what the parameters of a run have to look like. What is
not `null` in it has to be contained in the parameters; what is `null` must not be there at all,
not even as `null`.

Compiling a filter separates the two: the pattern is the filter without its `null` leaves, and the
exclusions are the paths of those leaves. The scalar leaves of the pattern become clauses too. A
store may check clauses to narrow down the runs that it has to look at; whether a run matches is
decided by containment.
-/

namespace BenchCharts

/-- A scalar that a run has to have at a path, or among the items of an array there. -/
structure LeafClause where
  /-- The dotted path. -/
  path : String
  /-- The keys that the path goes through. -/
  keys : List String
  /-- The scalar. -/
  value : Json

namespace LeafClause

/-- The path as the store writes it. -/
def rendered (c : LeafClause) : String := FieldPath.render c.keys

/-- The scalar as JSON text. -/
def valueText (c : LeafClause) : String := c.value.compact

end LeafClause

/-- A comparison filter taken apart. -/
structure CompiledFilter where
  /-- What has to be contained in the parameters of a run. -/
  pattern : Json.Fields
  /-- The scalar leaves of the pattern. -/
  clauses : List LeafClause
  /-- The paths at which a run must not have anything. -/
  exclusions : List String

namespace CompiledFilter

/-- Whether a leaf is a text, a number or a truth value. -/
def isScalar : Json → Bool
  | .str _ => true
  | .num _ => true
  | .bool _ => true
  | _ => false

/-- The clauses of leaves, in their order; other leaves than scalars have none. -/
def clausesOf : List (String × Json) → Except RequestError (List LeafClause)
  | [] => .ok []
  | (path, value) :: rest =>
    if isScalar value then do
      let keys ← FieldPath.check path
      return ⟨path, keys, value⟩ :: (← clausesOf rest)
    else clausesOf rest

/-- A comparison filter taken apart, unless one of its keys cannot be addressed. -/
def compile (filter : Json.Fields) : Except RequestError CompiledFilter := do
  filter.checkKeys
  let pattern := filter.dropNulls
  let clauses ← clausesOf pattern.leaves
  return { pattern, clauses, exclusions := filter.nullPaths }

/-- Whether the parameters of a run contain the pattern. -/
def contains (f : CompiledFilter) (run : Run) : Bool := Json.containsFields run.params f.pattern

/-- Whether a run has something where it must not. -/
def isExcluded (f : CompiledFilter) (run : Run) : Bool := f.exclusions.any run.params.has

/-- The runs that have nothing where they must not. -/
def applyExclusions (f : CompiledFilter) (runs : List Run) : List Run :=
  runs.filter fun run => !f.isExcluded run

end CompiledFilter

end BenchCharts

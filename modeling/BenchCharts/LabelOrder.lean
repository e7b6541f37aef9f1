import BenchCharts.Chart.Request
import BenchCharts.Sorting
import BenchCharts.Text.Blank
import BenchCharts.Text.Lowercase
import BenchCharts.Text.Numeral
import BenchCharts.Version

/-!
# The order of labels

Labels are ordered according to what they are. Whole numbers are ordered by value, and every label
has to be one. Texts are ordered by their lowercase forms, and by code points where these agree.
Versions have the order of versions.

Sorting is stable, and for whole numbers every label is looked at before anything is moved, so that
a label that is no number is always an error.
-/

namespace BenchCharts

/-- The number that a label spells, blanks around it aside. -/
def integerLabel (label : String) : Except RequestError Int :=
  match Text.signed64? (Text.trim label) with
  | some n => .ok n
  | none => .error (.notAnInteger label)

/-- The order of two labels. -/
def compareLabels (resultType : ResultType) (a b : String) : Except RequestError Ordering :=
  match resultType with
  | .integer => do
    let x ← integerLabel a
    let y ← integerLabel b
    return compare x y
  | .string => .ok ((compare (Text.lowercase a) (Text.lowercase b)).then (compare a b))
  | .version => .ok (Version.compare a b)

/-- The first error among the labels of a list. -/
def checkIntegers : List String → Except RequestError Unit
  | [] => .ok ()
  | label :: rest =>
    match integerLabel label with
    | .ok _ => checkIntegers rest
    | .error cause => .error cause

/-- The order of two labels that are known to have one. -/
def labelOrdering (resultType : ResultType) (a b : String) : Ordering :=
  match compareLabels resultType a b with
  | .ok o => o
  | .error _ => .eq

/-- Whether there is an order on labels, or the first error among them. -/
def checkLabels (resultType : ResultType) (labels : List String) : Except RequestError Unit :=
  if resultType = .integer then checkIntegers labels else .ok ()

/-- A list put in the order of its labels where it stands, with equal ones as they came, and whether
that was possible. If it was not, nothing has been moved. -/
def sortInPlace {α : Type} (resultType : ResultType) (label : α → String) (items : List α) :
    List α × Except RequestError Unit :=
  match checkLabels resultType (items.map label) with
  | .ok () => (stableSort (fun a b => labelOrdering resultType (label a) (label b)) items, .ok ())
  | .error cause => (items, .error cause)

/-- The items in the order of their labels, equal ones as they came. -/
def sortByLabel {α : Type} (resultType : ResultType) (label : α → String) (items : List α) :
    Except RequestError (List α) :=
  let after := sortInPlace resultType label items
  after.2.map fun _ => after.1

end BenchCharts

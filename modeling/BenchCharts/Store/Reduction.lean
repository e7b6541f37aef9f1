import BenchCharts.Chart.Request
import BenchCharts.Store.Cell

/-!
# Reducing cells

How many cells become one. Cells that are nothing are passed over, and no cells at all reduce to
nothing.

Integers are added exactly as long as the total fits into 64 bits. With the first float, or when
the total gets too large, the sum goes on in floats and keeps the rounding errors in a second
float, which is added at the end: when `s + x` is rounded to `t`, the error is what `t` lacks of
the smaller of the two. An integer beyond `2 ^ 52` is added in two parts so that each is exact.

A sum fails if it left 64 bits and no float came after that. The mean never fails.

The least and the greatest cell are the first of those that are equal.
-/

namespace BenchCharts

/-- A sum of numbers so far. -/
inductive RunningSum where
  /-- Integers only, and the total fits into 64 bits. -/
  | exact (total : Int)
  /-- A float, the errors left out of it, and whether the total of integers got too large. -/
  | rounded (total lost : Float) (overflowed : Bool)
deriving DecidableEq

namespace RunningSum

/-- From here on integers are added in two parts. -/
def splitLimit : Int := 4503599627370496

/-- What is taken off a large integer is less than this. -/
def splitUnit : Int := 16384

/-- Adds a float to a total and the error of that to the errors. -/
def addFloat (total lost x : Float) : Float × Float :=
  let sum := total + x
  -- The error is what the sum lacks of the smaller of the two.
  if x.abs < total.abs then (sum, lost + ((total - sum) + x))
  else (sum, lost + ((x - sum) + total))

/-- Adds an integer to a total and the error of that to the errors. -/
def addInt (total lost : Float) (n : Int) : Float × Float :=
  if n ≤ -splitLimit ∨ splitLimit ≤ n then
    let small := Int.tmod n splitUnit
    let (total, lost) := addFloat total lost (Float.ofInt (n - small))
    addFloat total lost (Float.ofInt small)
  else addFloat total lost (Float.ofInt n)

/-- An integer as a total and its error. -/
def start (n : Int) : Float × Float :=
  if n ≤ -splitLimit ∨ splitLimit ≤ n then
    let small := Int.tmod n splitUnit
    (Float.ofInt (n - small), Float.ofInt small)
  else (Float.ofInt n, 0.0)

/-- The sum with a cell added; only numbers count. -/
def add : RunningSum → Cell → RunningSum
  | .exact total, .int n =>
    if Text.fitsSigned64 (total + n) then .exact (total + n)
    else
      -- The total leaves 64 bits, which is an overflow until a float comes.
      let (sum, lost) := start total
      let (sum, lost) := addInt sum lost n
      .rounded sum lost true
  | .exact total, .real x =>
    let (sum, lost) := start total
    let (sum, lost) := addFloat sum lost x
    .rounded sum lost false
  | .rounded sum lost overflowed, .int n =>
    let (sum, lost) := addInt sum lost n
    .rounded sum lost overflowed
  | .rounded sum lost _, .real x =>
    -- A float makes an earlier overflow acceptable.
    let (sum, lost) := addFloat sum lost x
    .rounded sum lost false
  | sum, _ => sum

/-- The sum of some cells. -/
def of (cells : List Cell) : RunningSum := cells.foldl add (.exact 0)

/-- A total with the errors added, unless these are no number because the total is infinite. -/
def settle (total lost : Float) : Float := if lost.isNaN then total else total + lost

/-- The sum as a cell, unless it is an overflow. -/
def total? : RunningSum → Option Cell
  | .exact total => some (.int total)
  | .rounded _ _ true => none
  | .rounded total lost false => some (.ofFloat (settle total lost))

/-- The sum as a float. -/
def toFloat : RunningSum → Float
  | .exact total => Float.ofInt total
  | .rounded total lost _ => settle total lost

end RunningSum

namespace Aggregation

/-- Whether a cell takes the place of the best one so far. -/
def better (a : Aggregation) (best cell : Cell) : Bool :=
  match a with
  | .minimum => Cell.compareNumbers? cell best == some .lt
  | .maximum => Cell.compareNumbers? cell best == some .gt
  | _ => false

/-- The first of the least or greatest among items with cells, after a best one so far. -/
def bestFrom {α : Type} (a : Aggregation) (cell : α → Cell) (best : α) : List α → α
  | [] => best
  | item :: rest => bestFrom a cell (if a.better (cell best) (cell item) then item else best) rest

/-- The cells as one cell, or `none` if their sum leaves 64 bits. -/
def reduce? (a : Aggregation) (cells : List Cell) : Option Cell :=
  match cells.filter fun cell => !cell.isNull with
  | [] => some .null
  | first :: rest =>
    match a with
    | .sum => (RunningSum.of (first :: rest)).total?
    | .average =>
      some (.ofFloat ((RunningSum.of (first :: rest)).toFloat / Float.ofNat (rest.length + 1)))
    | .minimum => some (bestFrom .minimum id first rest)
    | .maximum => some (bestFrom .maximum id first rest)

/-- No cells reduce to nothing. -/
@[simp] theorem reduce?_nil (a : Aggregation) : a.reduce? [] = some .null := rfl

end Aggregation

end BenchCharts

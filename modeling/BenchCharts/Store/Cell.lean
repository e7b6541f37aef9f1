import BenchCharts.Json.Printer
import BenchCharts.Store.NumericText

/-!
# Cells

A cell is what the store computes with: nothing, a 64-bit integer, a float or a text. A float that
is not a number is nothing (`Cell.ofFloat`).

Integers and floats are compared exactly, without rounding the integer. Texts and numbers are never
equal, and nothing equals nothing.

`Json.cell` is how a JSON value is seen by a query. Truth values are the integers 1 and 0, integers
beyond 64 bits are floats, and containers are their own JSON text. Values are kept as text, so a
float is what the store reads from its digits, which can be a neighbour of it.

When a text is added to numbers it counts as the integer that it spells, or else as the float that
its beginning spells (`Cell.numeric`).
-/

namespace BenchCharts

/-- A value that the store computes with. -/
inductive Cell where
  /-- Nothing. -/
  | null
  /-- A 64-bit integer. -/
  | int (value : Int)
  /-- A float. -/
  | real (value : Float)
  /-- A text. -/
  | text (value : String)
deriving DecidableEq

namespace Cell

/-- A computed float; what is not a number is nothing. -/
def ofFloat (x : Float) : Cell := if x.isNaN then .null else .real x

/-- How two floats compare that are numbers. -/
def compareFloats (x y : Float) : Ordering := if x < y then .lt else if y < x then .gt else .eq

/-- How an integer compares with a float that is a number. -/
def compareIntFloat (n : Int) (x : Float) : Ordering :=
  match Binary.ofFloat? x with
  | some b => b.compareInt n
  | none => if x < 0 then .gt else .lt

/-- How two numbers compare; cells of other kinds do not. -/
def compareNumbers? : Cell → Cell → Option Ordering
  | .int a, .int b => some (compare a b)
  | .int a, .real y => some (compareIntFloat a y)
  | .real x, .int b => some (compareIntFloat b x).swap
  | .real x, .real y => some (compareFloats x y)
  | _, _ => none

/-- Whether two cells are equal. -/
def equal : Cell → Cell → Bool
  | .text a, .text b => a == b
  | a, b => compareNumbers? a b == some .eq

/-- Whether a cell is nothing. -/
def isNull : Cell → Bool
  | .null => true
  | _ => false

/-- The float of a number. -/
def float? : Cell → Option Float
  | .int n => some (Float.ofInt n)
  | .real x => some x
  | _ => none

/-- A cell as an item of a sum, where texts count as numbers. -/
def numeric : Cell → Cell
  | .text s =>
    match NumericText.integer? s with
    | some n => .int n
    | none => .real (NumericText.float s)
  | cell => cell

end Cell

namespace Json

/-- A number as a query sees it. -/
def numberCell : Number → Cell
  | .int n => if Text.fitsSigned64 n then .int n else .real (NumericText.float (Number.int n).spell)
  | .float x => .real (NumericText.float (Number.float x).spell)

/-- A JSON value as a query sees it. -/
def cell : Json → Cell
  | .null => .null
  | .bool b => .int (if b then 1 else 0)
  | .num n => numberCell n
  | .str s => .text s
  | .arr items => .text (Json.arr items).compact
  | .obj fields => .text (Json.obj fields).compact

/-- Whether a JSON value is a number. -/
def isNumber : Json → Bool
  | .num _ => true
  | _ => false

end Json

end BenchCharts

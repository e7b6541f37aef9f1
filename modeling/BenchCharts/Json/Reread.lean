import BenchCharts.Json.Printer
import BenchCharts.Json.Reader

/-!
# Values kept as text

A value that is kept as a JSON text is written once and read each time it is needed. All of it comes
back as it was but for some floats: `Number.spell` writes digits to which the float is the nearest,
and reading them rounds twice, which can lead to a neighbour of it (see `Decimal/Scaled`).
`Json.reread` is a value after one such round.

Writing has no bounds, but reading has. A value is only read again if it is `Json.readable`: no
deeper than the reader goes, and without a number whose digits lead beyond the floats.
-/

namespace BenchCharts

namespace Number

/-- The number that is read where a number was written, if one is. -/
def reread? : Number → Option Number
  | .int n => some (.int n)
  | .float x =>
    (Json.Reader.number? Decimal.scaled? (Number.float x).spell.toList).map Prod.fst

/-- The number that is read where a number was written, or else the number itself. -/
def reread (n : Number) : Number := n.reread?.getD n

end Number

namespace Json

mutual

/-- How many containers are inside each other in a value. -/
def depth : Json → Nat
  | .arr items => depthOfItems items + 1
  | .obj fields => depthOfFields fields + 1
  | .null => 0
  | .bool _ => 0
  | .num _ => 0
  | .str _ => 0

/-- The greatest depth of an item. -/
def depthOfItems : List Json → Nat
  | [] => 0
  | item :: rest => max (depth item) (depthOfItems rest)

/-- The greatest depth of a member's value. -/
def depthOfFields : Fields → Nat
  | [] => 0
  | (_, value) :: rest => max (depth value) (depthOfFields rest)

end

mutual

/-- The numbers in a value. -/
def numbers : Json → List Number
  | .num n => [n]
  | .arr items => numbersOfItems items
  | .obj fields => numbersOfFields fields
  | .null => []
  | .bool _ => []
  | .str _ => []

/-- The numbers in some items. -/
def numbersOfItems : List Json → List Number
  | [] => []
  | item :: rest => numbers item ++ numbersOfItems rest

/-- The numbers in the values of some members. -/
def numbersOfFields : Fields → List Number
  | [] => []
  | (_, value) :: rest => numbers value ++ numbersOfFields rest

end

/-- Whether a value can be read where it was written. -/
def readable (j : Json) : Bool :=
  decide (j.depth ≤ depthLimit) && j.numbers.all fun n => n.reread?.isSome

mutual

/-- The value that is read where a value was written. -/
def reread : Json → Json
  | .null => .null
  | .bool b => .bool b
  | .num n => .num n.reread
  | .str s => .str s
  | .arr items => .arr (rereadItems items)
  | .obj fields => .obj (rereadFields fields)

/-- Every item read where it was written. -/
def rereadItems : List Json → List Json
  | [] => []
  | item :: rest => reread item :: rereadItems rest

/-- Every member's value read where it was written. -/
def rereadFields : Fields → Fields
  | [] => []
  | (key, value) :: rest => (key, reread value) :: rereadFields rest

end

end Json

end BenchCharts

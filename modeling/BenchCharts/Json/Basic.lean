import BenchCharts.Decimal.Binary

/-!
# JSON values

A number is an integer or a float, as it was written: `4` and `4.0` are different numbers with the
same value. `Number.sameValue` compares values, by the float nearest to each number.

An object is a list of members in the order in which they were written. A text may give a key
twice; `Json.normalize` keeps the last member of each key and sorts the keys, at every depth. A
value is `Normal` when there is nothing left to do, and then its keys ascend in code point order,
which is the order of their UTF-8 bytes too.
-/

namespace BenchCharts

/-- A JSON number, with the distinction between `4` and `4.0`. -/
inductive Number where
  /-- A number written without a point and without an exponent. -/
  | int (value : Int)
  /-- Any other number. -/
  | float (value : Float)
deriving DecidableEq

namespace Number

/-- The nearest float. -/
def toFloat : Number → Float
  | .int n => Float.ofInt n
  | .float x => x

/-- The bits of a float, with one pattern for both zeros. -/
def valueBits (x : Float) : UInt64 := if x.toBits = 0x8000000000000000 then 0 else x.toBits

/-- Whether two numbers have the same value as floats, so that `3` and `3.0` have, and `0.0` and
`-0.0`. -/
def sameValue (a b : Number) : Bool := valueBits a.toFloat == valueBits b.toFloat

/-- A number has its own value. -/
@[simp] theorem sameValue_refl (a : Number) : sameValue a a = true := by simp [sameValue]

/-- Having the same value is symmetric. -/
theorem sameValue_comm (a b : Number) : sameValue a b = sameValue b a := by
  simp only [sameValue, Bool.beq_comm]

/-- Having the same value is transitive. -/
theorem sameValue_trans {a b c : Number} (hab : sameValue a b = true)
    (hbc : sameValue b c = true) : sameValue a c = true := by
  simp only [sameValue, beq_iff_eq] at *
  exact hab.trans hbc

end Number

/-- A JSON value. -/
inductive Json where
  /-- The value `null`. -/
  | null
  /-- A truth value. -/
  | bool (value : Bool)
  /-- A number. -/
  | num (value : Number)
  /-- A text. -/
  | str (value : String)
  /-- An array. -/
  | arr (items : List Json)
  /-- An object, as the list of its members. -/
  | obj (fields : List (String × Json))

namespace Json

/-- The members of an object. -/
abbrev Fields := List (String × Json)

namespace Fields

/-- The value of a key. -/
def get? (fields : Fields) (key : String) : Option Json := fields.lookup key

/-- The members with the value of one key set, when keys ascend. -/
def insert (fields : Fields) (key : String) (value : Json) : Fields :=
  match fields with
  | [] => [(key, value)]
  | (key', value') :: rest =>
    match compare key key' with
    | .lt => (key, value) :: (key', value') :: rest
    | .eq => (key, value) :: rest
    | .gt => (key', value') :: insert rest key value

/-- The members in ascending order of their keys, the last one winning where a key is given
twice. -/
def sort (fields : Fields) : Fields :=
  fields.foldl (fun acc (key, value) => acc.insert key value) []

/-- The keys ascend, so that none occurs twice. -/
def Ascending (fields : Fields) : Prop := (fields.map Prod.fst).Pairwise (compare · · = .lt)

end Fields

/-- Whether a value is an object. -/
def isObject : Json → Bool
  | .obj _ => true
  | _ => false

/-- Whether a value is an array. -/
def isArray : Json → Bool
  | .arr _ => true
  | _ => false

/-- Whether a value is `null`. -/
def isNull : Json → Bool
  | .null => true
  | _ => false

/-- The text of a text value; nothing else is turned into text. -/
def text? : Json → Option String
  | .str s => some s
  | _ => none

/-- The members of an object. -/
def fields? : Json → Option Fields
  | .obj fields => some fields
  | _ => none

mutual

/-- The value with the keys of every object in order and without repetition. -/
def normalize : Json → Json
  | .arr items => .arr (normalizeItems items)
  | .obj fields => .obj (normalizeFields fields).sort
  | .null => .null
  | .bool b => .bool b
  | .num n => .num n
  | .str s => .str s

/-- Every item normalized. -/
def normalizeItems : List Json → List Json
  | [] => []
  | item :: rest => normalize item :: normalizeItems rest

/-- Every member's value normalized. -/
def normalizeFields : Fields → Fields
  | [] => []
  | (key, value) :: rest => (key, normalize value) :: normalizeFields rest

end

mutual

/-- The keys of every object in the value ascend. -/
def Normal : Json → Prop
  | .arr items => NormalItems items
  | .obj fields => NormalFields fields ∧ Fields.Ascending fields
  | .null => True
  | .bool _ => True
  | .num _ => True
  | .str _ => True

/-- Every item is normal. -/
def NormalItems : List Json → Prop
  | [] => True
  | item :: rest => Normal item ∧ NormalItems rest

/-- Every member's value is normal. -/
def NormalFields : Fields → Prop
  | [] => True
  | (_, value) :: rest => Normal value ∧ NormalFields rest

end

end Json

end BenchCharts

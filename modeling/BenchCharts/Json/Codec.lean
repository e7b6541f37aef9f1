import BenchCharts.Json.Basic
import BenchCharts.Text.Numeral
import BenchCharts.Time.Reader
import BenchCharts.Time.Spelling

/-!
# Decoding and encoding records

The building blocks with which each record of this library is read from JSON and written to it.

A record is read from an object by the names of its fields, where fields of other names are passed
over and a field given twice is an error; or from an array by position, where fields may be missing
at the end. `Json.record?` brings both to the same form: for each field in order its value, or
`none` where it is missing. Whether a missing field has a default is for each record to say.
`null` counts as missing only for fields that may be empty.

A choice between names is read from the name, or from an object whose only member has that name and
the value `null`.
-/

namespace BenchCharts.Json

/-! ### Reading -/

/-- The value of a field that is not given twice. -/
def field? (fields : Fields) (name : String) : Option (Option Json) :=
  match fields.filter (·.1 == name) with
  | [] => some none
  | [(_, value)] => some (some value)
  | _ => none

/-- The values of the fields with some names, in their order. -/
def record? (names : List String) : Json → Option (List (Option Json))
  | .obj fields => names.mapM (field? fields)
  | .arr items =>
    if items.length ≤ names.length then
      some (items.map some ++ List.replicate (names.length - items.length) none)
    else none
  | _ => none

/-- A field that has to be there. -/
def required {α : Type} (decode : Json → Option α) : Option Json → Option α
  | some j => decode j
  | none => none

/-- A field with a default. -/
def optional {α : Type} (default : α) (decode : Json → Option α) : Option Json → Option α
  | some j => decode j
  | none => some default

/-- A value that may be `null`. -/
def nullable? {α : Type} (decode : Json → Option α) : Json → Option (Option α)
  | .null => some none
  | j => (decode j).map some

/-- A truth value. -/
def bool? : Json → Option Bool
  | .bool b => some b
  | _ => none

/-- A 64-bit integer. -/
def int64? : Json → Option Int
  | .num (.int n) => if Text.fitsSigned64 n then some n else none
  | _ => none

/-- A 32-bit integer. -/
def int32? : Json → Option Int
  | .num (.int n) => if -2147483648 ≤ n ∧ n < 2147483648 then some n else none
  | _ => none

/-- A float; integers count. -/
def float? : Json → Option Float
  | .num n => some n.toFloat
  | _ => none

/-- An instant. -/
def instant? : Json → Option Instant
  | .str s => Instant.read? s
  | _ => none

/-- A list of values of one kind. -/
def list? {α : Type} (decode : Json → Option α) : Json → Option (List α)
  | .arr items => items.mapM decode
  | _ => none

/-- An object of any members. -/
def map? : Json → Option Fields
  | .obj fields => some (normalizeFields fields).sort
  | _ => none

/-- The name of a choice. -/
def choice? : Json → Option String
  | .str name => some name
  | .obj [(name, .null)] => some name
  | _ => none

/-- A record with a field that says which kind of record it is, taken apart into that field's text
and the record without it. In an array, that field comes first. -/
def tagged? (tag : String) : Json → Option (String × Json)
  | .obj fields =>
    match field? fields tag with
    | some (some (.str kind)) => some (kind, .obj (fields.filter (·.1 != tag)))
    | _ => none
  | .arr (.str kind :: rest) => some (kind, .arr rest)
  | _ => none

/-! ### Writing -/

/-- An integer. -/
def ofInt (n : Int) : Json := .num (.int n)

/-- A float. -/
def ofFloat (x : Float) : Json := .num (.float x)

/-- An instant, as a text. -/
def ofInstant (t : Instant) : Json := .str t.spell

/-- A list of values of one kind. -/
def ofList {α : Type} (encode : α → Json) (items : List α) : Json := .arr (items.map encode)

/-- A value that may be `null`. -/
def ofOption {α : Type} (encode : α → Json) : Option α → Json
  | some a => encode a
  | none => .null

end BenchCharts.Json

import BenchCharts.Error
import BenchCharts.Json.Basic
import BenchCharts.Text.Blank
import BenchCharts.Text.Split

/-!
# Fields at dotted paths

A dotted path such as `cluster.nodes.memory` addresses a member of a member of an object; it never
looks into arrays. `FieldPath.keys` cuts a path at its points. Looking up and removing take any
path at all, so that one with an empty segment addresses an empty key.

The three ways to get at a field read the path differently. `Json.get?` cuts it at all points first
and then goes down key by key; `Fields.at?` cuts off the first key and leaves the rest to that; and
`Fields.remove` cuts off one key at each level, and puts what is left of the members back on its way
up.

`FieldPath.check` is stricter and accepts the paths that a user may give: no empty segments and no
quotes, since a path is also rendered with every segment in quotes (`FieldPath.rendered`).
-/

namespace BenchCharts

namespace FieldPath

/-- The keys that a path goes through. -/
def keys (path : String) : List String := Text.split (· == '.') path

/-- The path that goes on from another one to a key. -/
def join (outer key : String) : String := if outer = "" then key else outer ++ "." ++ key

/-- Whether a segment of a path can be addressed. -/
def addressable (segment : String) : Bool := segment ≠ "" && !segment.toList.contains '"'

/-- The segments of a path, all of them addressable. -/
def check (path : String) : Except RequestError (List String) :=
  if (Text.trimChars path.toList).isEmpty then .error .emptyPath
  else
    match (keys path).find? (fun segment => !addressable segment) with
    | some segment => .error (.unaddressableSegment path segment)
    | none => .ok (keys path)

/-- Segments as the store writes them: `$."impl"."version"`. -/
def render (segments : List String) : String :=
  segments.foldl (fun text segment => text ++ ".\"" ++ segment ++ "\"") "$"

/-- A path as the store writes it. -/
def rendered (path : String) : Except RequestError String := (check path).map render

end FieldPath

namespace Json

/-- The value at the end of a list of keys, when every level above it is an object. -/
def getKeys? : Json → List String → Option Json
  | j, [] => some j
  | j, key :: keys =>
    match j with
    | .obj fields =>
      match fields.lookup key with
      | some value => getKeys? value keys
      | none => none
    | _ => none

/-- The value at a path. -/
def get? (j : Json) (path : String) : Option Json := j.getKeys? (FieldPath.keys path)

namespace Fields

/-- The value at the end of a list of keys. -/
def getKeys? (fields : Fields) : List String → Option Json
  | [] => none
  | key :: keys => (fields.get? key).bind (·.getKeys? keys)

/-- The value at a path. -/
def at? (fields : Fields) (path : String) : Option Json :=
  match Text.splitOnce? (· == '.') path with
  | none => fields.get? path
  | some (first, rest) => (fields.get? first).bind (·.get? rest)

/-- The text at a path; other values are not turned into text. -/
def textAt? (fields : Fields) (path : String) : Option String := (fields.at? path).bind Json.text?

/-- Whether there is a value at a path; `null` is one. -/
def has (fields : Fields) (path : String) : Bool := (fields.at? path).isSome

/-- The members without a key. -/
def erase (fields : Fields) (key : String) : Fields := fields.filter fun field => field.1 != key

/-- The members with the value of a key that they have replaced. -/
def replace (fields : Fields) (key : String) (value : Json) : Fields :=
  fields.map fun field => if field.1 = key then (key, value) else field

/-- The value at a path taken out, and the members that are left. -/
def remove (fields : Fields) (path : String) : Option Json × Fields :=
  match _ : Text.splitOnce? (· == '.') path with
  | none => (fields.get? path, fields.erase path)
  | some (first, rest) =>
    match fields.get? first with
    | some (.obj inner) =>
      -- The members on the way down stay, even if nothing is left in them.
      let (value, left) := remove inner rest
      (value, fields.replace first (.obj left))
    | _ => (none, fields)
termination_by path.length
decreasing_by exact Text.length_lt_of_splitOnce? ‹_›

/-- The value at a path and the members without it, if there is such a value. -/
def remove? (fields : Fields) (path : String) : Option (Json × Fields) :=
  let (value, left) := fields.remove path
  value.map (·, left)

end Fields

/-- Both ways to look up a list of keys agree on an object, unless the list is empty. -/
theorem getKeys?_obj (fields : Fields) (key : String) (keys : List String) :
    (Json.obj fields).getKeys? (key :: keys) = fields.getKeys? (key :: keys) := by
  simp only [Json.getKeys?, Fields.getKeys?, Fields.get?]
  cases fields.lookup key <;> rfl

/-- The value at a path is the one at the end of its keys. -/
theorem Fields.at?_eq_getKeys? (fields : Fields) (path : String) :
    fields.at? path = fields.getKeys? (FieldPath.keys path) := by
  rw [at?, FieldPath.keys, Text.split_eq]
  cases Text.splitOnce? (· == '.') path with
  | none => simp [getKeys?, Json.getKeys?]
  | some parts => rfl

end Json

end BenchCharts

import BenchCharts.Params.Path

/-!
# The leaves of an object

The leaves of an object are its values that are no objects, each with its dotted path; arrays are
leaves. Three passes go over them: `leaves` lists them, `nullPaths` lists the paths of those that
are `null`, and `dropNulls` takes these away. An object that loses its last leaf in this way
disappears, while one that was empty to begin with stays.

`checkKeys` refuses objects with keys that a dotted path could not address.
-/

namespace BenchCharts.Json.Fields

/-- The leaves below a path, in the order of the members. -/
def leavesBelow (outer : String) : Fields → List (String × Json)
  | [] => []
  | (key, value) :: rest =>
    match value with
    | .obj inner => leavesBelow (FieldPath.join outer key) inner ++ leavesBelow outer rest
    | leaf => (FieldPath.join outer key, leaf) :: leavesBelow outer rest

/-- The values that are no objects, with their paths. -/
def leaves (fields : Fields) : List (String × Json) := fields.leavesBelow ""

/-- The paths of the `null` leaves below a path. -/
def nullPathsBelow (outer : String) : Fields → List String
  | [] => []
  | (key, value) :: rest =>
    match value with
    | .null => FieldPath.join outer key :: nullPathsBelow outer rest
    | .obj inner => nullPathsBelow (FieldPath.join outer key) inner ++ nullPathsBelow outer rest
    | _ => nullPathsBelow outer rest

/-- The paths of the `null` leaves. -/
def nullPaths (fields : Fields) : List String := fields.nullPathsBelow ""

/-- The members without the `null` leaves, and without the objects that these leave empty. -/
def dropNulls : Fields → Fields
  | [] => []
  | (key, value) :: rest =>
    match value with
    | .null => dropNulls rest
    | .obj inner =>
      -- Only an object that was not empty before can disappear.
      let kept := dropNulls inner
      if kept.isEmpty && !inner.isEmpty then dropNulls rest
      else (key, .obj kept) :: dropNulls rest
    | other => (key, other) :: dropNulls rest
decreasing_by all_goals
  simp only [List.cons.sizeOf_spec, Prod.mk.sizeOf_spec, Json.obj.sizeOf_spec]
  omega

/-- Whether a dotted path can address a key. -/
def addressableKey (key : String) : Bool :=
  key ≠ "" && !key.toList.contains '.' && !key.toList.contains '"'

/-- Refuses the first key, from the top down, that a dotted path cannot address. -/
def checkKeys : Fields → Except RequestError Unit
  | [] => .ok ()
  | (key, value) :: rest =>
    if addressableKey key then
      match value with
      | .obj inner =>
        match checkKeys inner with
        | .ok () => checkKeys rest
        | .error cause => .error cause
      | _ => checkKeys rest
    else .error (.unaddressableKey key)

end BenchCharts.Json.Fields

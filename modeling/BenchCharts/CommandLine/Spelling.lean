import BenchCharts.Chart.RequestCodec
import BenchCharts.Chart.Request

/-!
# Axes and modes as arguments

How vertical axes and run filter modes are written as arguments: `buckets:<column>`,
`metric:<name>`, `errors`, `metrics-all`; `all`, `latest`, `latest-non-snapshot`.
-/

namespace BenchCharts

/-- A part of an argument up to the first colon, and what follows the colon. -/
def cutAtColon : List Char → List Char × Option (List Char)
  | [] => ([], none)
  | c :: rest =>
    if c = ':' then ([], some rest)
    else
      let (front, back) := cutAtColon rest
      (c :: front, back)

/-- The vertical axis that an argument names, or what is wrong with it. -/
def VerticalAxis.ofArgument (arg : String) : Except String VerticalAxis :=
  let (kind, value) := cutAtColon arg.toList
  match String.ofList kind, value.map String.ofList with
  | "buckets", some column => if column = "" then invalid else .ok (.buckets column defaultId)
  | "metric", some path => if path = "" then invalid else .ok (.metric path defaultId)
  | "errors", none => .ok (.errors defaultId)
  | "metrics-all", none => .ok (.metricsAll defaultId)
  | "metricsAll", none => .ok (.metricsAll defaultId)
  | _, _ => invalid
where
  /-- The error for an argument that names no axis. -/
  invalid : Except String VerticalAxis :=
    .error ("invalid axis '" ++ arg
      ++ "', expected buckets:<column>, metric:<name>, errors or metrics-all")

/-- The mode that an argument names, or what is wrong with it. -/
def RunFilterMode.ofArgument (arg : String) : Except String RunFilterMode :=
  match ofName? arg with
  | some mode => .ok mode
  | none =>
    .error ("invalid mode '" ++ arg ++ "', expected all, latest or latest-non-snapshot")

end BenchCharts

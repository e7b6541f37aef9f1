import BenchCharts.Chart.Request
import BenchCharts.Json.Codec
import BenchCharts.Json.Reader

/-!
# Requests in JSON

The JSON form of requests and of their parts. Aggregations have short names too (`avg`, `min`,
`max`), which are read and never written. Of a chart request only the axes and the mode are
required.
-/

namespace BenchCharts

open Json

namespace ResultType

/-- The name of a result type. -/
def name : ResultType → String
  | .integer => "integer"
  | .string => "string"
  | .version => "version-semver"

/-- A result type, from JSON. -/
def decode? (j : Json) : Option ResultType := do
  match ← choice? j with
  | "integer" => some .integer
  | "string" => some .string
  | "version-semver" => some .version
  | _ => none

/-- A result type in JSON. -/
def encode (t : ResultType) : Json := .str t.name

end ResultType

namespace HorizontalAxis

/-- The fields of a horizontal axis. -/
def shape : Shape := .record [("databaseField", .any), ("resultType", .any)]

/-- A horizontal axis, from JSON. -/
def decode? (j : Json) : Option HorizontalAxis :=
  match j.record? ["databaseField", "resultType"] with
  | some [field, resultType] => do
    return {
      field := ← required text? field
      resultType := ← optional .string ResultType.decode? resultType }
  | _ => none

/-- A horizontal axis in JSON. -/
def encode (a : HorizontalAxis) : Json :=
  .obj [("databaseField", .str a.field), ("resultType", a.resultType.encode)]

end HorizontalAxis

namespace VerticalAxis

/-- A vertical axis, from JSON. -/
def decode? (j : Json) : Option VerticalAxis := do
  match ← j.tagged? "type" with
  | ("buckets", rest) =>
    match rest.record? ["column", "axisId"] with
    | some [column, axisId] =>
      return .buckets (← required text? column) (← optional defaultId text? axisId)
    | _ => none
  | ("metric", rest) =>
    match rest.record? ["metric", "axisId"] with
    | some [path, axisId] =>
      return .metric (← required text? path) (← optional defaultId text? axisId)
    | _ => none
  | ("errors", rest) =>
    match rest.record? ["axisId"] with
    | some [axisId] => return .errors (← optional defaultId text? axisId)
    | _ => none
  | ("metricsAll", rest) =>
    match rest.record? ["axisId"] with
    | some [axisId] => return .metricsAll (← optional defaultId text? axisId)
    | _ => none
  | _ => none

/-- A vertical axis in JSON. -/
def encode (a : VerticalAxis) : Json :=
  .obj <| ("type", .str a.kind) ::
    match a with
    | .buckets column axisId => [("column", .str column), ("axisId", .str axisId)]
    | .metric path axisId => [("metric", .str path), ("axisId", .str axisId)]
    | .errors axisId => [("axisId", .str axisId)]
    | .metricsAll axisId => [("axisId", .str axisId)]

end VerticalAxis

namespace Aggregation

/-- The name of an aggregation. -/
def name : Aggregation → String
  | .average => "average"
  | .sum => "sum"
  | .minimum => "minimum"
  | .maximum => "maximum"

/-- An aggregation, from JSON. -/
def decode? (j : Json) : Option Aggregation := do
  match ← choice? j with
  | "average" => some .average
  | "avg" => some .average
  | "sum" => some .sum
  | "minimum" => some .minimum
  | "min" => some .minimum
  | "maximum" => some .maximum
  | "max" => some .maximum
  | _ => none

/-- An aggregation in JSON. -/
def encode (a : Aggregation) : Json := .str a.name

end Aggregation

namespace ChartMode

/-- The name of a mode. -/
def name : ChartMode → String
  | .simplified => "simplified"
  | .full => "full"

/-- A mode, from JSON. -/
def decode? (j : Json) : Option ChartMode := do
  match ← choice? j with
  | "simplified" => some .simplified
  | "full" => some .full
  | _ => none

/-- A mode in JSON. -/
def encode (m : ChartMode) : Json := .str m.name

end ChartMode

namespace RunFilterMode

/-- The name of a mode. -/
def name : RunFilterMode → String
  | .all => "all"
  | .latest => "latest"
  | .latestNonSnapshot => "latest-non-snapshot"

/-- The mode with a name. -/
def ofName? (name : String) : Option RunFilterMode :=
  match name with
  | "all" => some .all
  | "latest" => some .latest
  | "latest-non-snapshot" => some .latestNonSnapshot
  | _ => none

/-- A mode, from JSON. -/
def decode? (j : Json) : Option RunFilterMode := (choice? j).bind ofName?

/-- A mode in JSON. -/
def encode (m : RunFilterMode) : Json := .str m.name

end RunFilterMode

namespace AnnotationRequest

/-- A request for annotations, from JSON. -/
def decode? (j : Json) : Option AnnotationRequest := do
  match ← j.tagged? "type" with
  | ("runEvents", rest) =>
    match rest.record? ["eventTypes"] with
    | some [eventTypes] => return .runEvents (← optional [] (list? text?) eventTypes)
    | _ => none
  | _ => none

/-- A request for annotations in JSON. -/
def encode : AnnotationRequest → Json
  | .runEvents eventTypes =>
    .obj [("type", .str "runEvents"), ("eventTypes", ofList .str eventTypes)]

end AnnotationRequest

namespace ChartRequest

/-- The names of the fields of a chart request. -/
def fieldNames : List String :=
  ["horizontalAxis", "verticalAxes", "comparisonFilter", "chartMode", "mergePolicy",
   "mergeAlgorithm", "trimmingSeconds", "bucketiseSeconds", "excludeSnapshots", "excludeGerrit",
   "runFilterMode", "annotations"]

/-- The fields of a chart request. Of these only the horizontal axis is a record whose fields are
known before it is read. -/
def shape : Shape :=
  .record (fieldNames.map fun name =>
    (name, if name = "horizontalAxis" then HorizontalAxis.shape else .any))

/-- A chart request, from JSON. -/
def decode? (j : Json) : Option ChartRequest :=
  match j.record? fieldNames with
  | some [horizontalAxis, verticalAxes, filter, mode, policy, algorithm, trimming, width, snapshots,
      gerrit, runs, annotations] => do
    return {
      horizontalAxis := ← required HorizontalAxis.decode? horizontalAxis
      verticalAxes := ← required (list? VerticalAxis.decode?) verticalAxes
      comparisonFilter := ← optional [] map? filter
      chartMode := ← required ChartMode.decode? mode
      mergePolicy := ← optional .average Aggregation.decode? policy
      mergeAlgorithm := ← optional .average Aggregation.decode? algorithm
      trimmingSeconds := ← optional 0 int64? trimming
      bucketiseSeconds := ← optional none (nullable? int64?) width
      excludeSnapshots := ← optional false bool? snapshots
      excludeGerrit := ← optional false bool? gerrit
      runFilterMode := ← optional .all RunFilterMode.decode? runs
      annotations := ← optional [] (list? AnnotationRequest.decode?) annotations }
  | _ => none

/-- A chart request in JSON. -/
def encode (r : ChartRequest) : Json :=
  .obj
    [("horizontalAxis", r.horizontalAxis.encode),
     ("verticalAxes", ofList VerticalAxis.encode r.verticalAxes),
     ("comparisonFilter", .obj r.comparisonFilter),
     ("chartMode", r.chartMode.encode),
     ("mergePolicy", r.mergePolicy.encode),
     ("mergeAlgorithm", r.mergeAlgorithm.encode),
     ("trimmingSeconds", ofInt r.trimmingSeconds),
     ("bucketiseSeconds", ofOption ofInt r.bucketiseSeconds),
     ("excludeSnapshots", .bool r.excludeSnapshots),
     ("excludeGerrit", .bool r.excludeGerrit),
     ("runFilterMode", r.runFilterMode.encode),
     ("annotations", ofList AnnotationRequest.encode r.annotations)]

end ChartRequest

namespace RunChartRequest

/-- The names of the fields of a request for one run. -/
def fieldNames : List String :=
  ["runId", "verticalAxes", "mergeAlgorithm", "trimmingSeconds", "bucketiseSeconds", "annotations"]

/-- A request for one run, from JSON. -/
def decode? (j : Json) : Option RunChartRequest :=
  match j.record? fieldNames with
  | some [runId, verticalAxes, algorithm, trimming, width, annotations] => do
    return {
      runId := ← required text? runId
      verticalAxes := ← required (list? VerticalAxis.decode?) verticalAxes
      mergeAlgorithm := ← optional .average Aggregation.decode? algorithm
      trimmingSeconds := ← optional 0 int64? trimming
      bucketiseSeconds := ← optional none (nullable? int64?) width
      annotations := ← optional [] (list? AnnotationRequest.decode?) annotations }
  | _ => none

/-- A request for one run in JSON. -/
def encode (r : RunChartRequest) : Json :=
  .obj
    [("runId", .str r.runId),
     ("verticalAxes", ofList VerticalAxis.encode r.verticalAxes),
     ("mergeAlgorithm", r.mergeAlgorithm.encode),
     ("trimmingSeconds", ofInt r.trimmingSeconds),
     ("bucketiseSeconds", ofOption ofInt r.bucketiseSeconds),
     ("annotations", ofList AnnotationRequest.encode r.annotations)]

end RunChartRequest

end BenchCharts

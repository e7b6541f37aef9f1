import BenchCharts.Run.Basic

/-!
# Chart requests

A request says which runs to compare, what to group them by, and what to draw. Runs are chosen by a
filter on their parameters and by version (`RunSelection`); they are grouped by the field at a path,
the horizontal axis; and a vertical axis is a column of the time buckets, a metric, the errors, or
all metrics.

A simplified chart has one bar for each group, a full chart one line for each run. `RunChartRequest`
asks for the full chart of one run.
-/

namespace BenchCharts

/-- What the labels of a horizontal axis are, which decides their order. -/
inductive ResultType where
  /-- Whole numbers. -/
  | integer
  /-- Texts. -/
  | string
  /-- Versions. -/
  | version
deriving DecidableEq, Repr

/-- The field by which runs are grouped. -/
structure HorizontalAxis where
  /-- The path of the field in the parameters of a run. -/
  field : String
  /-- What its labels are. -/
  resultType : ResultType
deriving DecidableEq, Repr

/-- The horizontal axis of SDK versions. -/
def HorizontalAxis.sdkVersion : HorizontalAxis := ⟨versionPath, .version⟩

/-- What is drawn upwards. Every axis has an id, which its series carry. -/
inductive VerticalAxis where
  /-- A column of the time buckets, by its name. -/
  | buckets (column axisId : String)
  /-- A metric, by its path in the samples. -/
  | metric (metric axisId : String)
  /-- The errors of each bucket, of all categories together. -/
  | errors (axisId : String)
  /-- Every metric of a run, each as a series of its own. -/
  | metricsAll (axisId : String)
deriving DecidableEq, Repr

namespace VerticalAxis

/-- The id of an axis whose request gives none. -/
def defaultId : String := "y"

/-- The id of an axis. -/
def axisId : VerticalAxis → String
  | .buckets _ id => id
  | .metric _ id => id
  | .errors id => id
  | .metricsAll id => id

/-- The name of the kind of an axis. -/
def kind : VerticalAxis → String
  | .buckets _ _ => "buckets"
  | .metric _ _ => "metric"
  | .errors _ => "errors"
  | .metricsAll _ => "metricsAll"

end VerticalAxis

/-- How several values become one. -/
inductive Aggregation where
  /-- Their mean. -/
  | average
  /-- Their sum. -/
  | sum
  /-- The least of them. -/
  | minimum
  /-- The greatest of them. -/
  | maximum
deriving DecidableEq, Repr

/-- The name of the store's function for an aggregation. -/
def Aggregation.function : Aggregation → String
  | .average => "avg"
  | .sum => "sum"
  | .minimum => "min"
  | .maximum => "max"

/-- What kind of chart is drawn. -/
inductive ChartMode where
  /-- One bar for each group. -/
  | simplified
  /-- One line for each run and vertical axis. -/
  | full
deriving DecidableEq, Repr

/-- Which versions of each SDK are taken. -/
inductive RunFilterMode where
  /-- All of them. -/
  | all
  /-- The highest one. -/
  | latest
  /-- The highest one that is no snapshot. -/
  | latestNonSnapshot
deriving DecidableEq, Repr

/-- Whether one version of each SDK is singled out. -/
def RunFilterMode.selectsLatest : RunFilterMode → Bool
  | .all => false
  | .latest => true
  | .latestNonSnapshot => true

/-- Something drawn on top of the lines: the events of the given types, or all events if none is
given. -/
inductive AnnotationRequest where
  /-- The events recorded during each run. -/
  | runEvents (eventTypes : List String)
deriving DecidableEq, Repr

/-- A request for a chart over many runs. -/
structure ChartRequest where
  /-- What runs are grouped by. -/
  horizontalAxis : HorizontalAxis
  /-- What is drawn. -/
  verticalAxes : List VerticalAxis
  /-- What the parameters of a run have to contain, and, by `null`, what they must not have. -/
  comparisonFilter : Json.Fields
  /-- The kind of chart. -/
  chartMode : ChartMode
  /-- How the values of the runs of a group become one, on bar charts. -/
  mergePolicy : Aggregation
  /-- How the samples of a run become one, or those of a bucket on line charts. -/
  mergeAlgorithm : Aggregation
  /-- The seconds at the start of every run that are left out. -/
  trimmingSeconds : Int
  /-- The width of the buckets of a line chart; one second if it is not given. -/
  bucketiseSeconds : Option Int
  /-- Whether snapshots are left out. -/
  excludeSnapshots : Bool
  /-- Whether builds of changes under review are left out. -/
  excludeGerrit : Bool
  /-- Which versions of each SDK are taken. -/
  runFilterMode : RunFilterMode
  /-- What is drawn on top of the lines. -/
  annotations : List AnnotationRequest

/-- A request for a line chart of one run. -/
structure RunChartRequest where
  /-- The id of the run. -/
  runId : String
  /-- What is drawn. -/
  verticalAxes : List VerticalAxis
  /-- How the samples of a bucket become one. -/
  mergeAlgorithm : Aggregation
  /-- The seconds at the start of the run that are left out. -/
  trimmingSeconds : Int
  /-- The width of the buckets. -/
  bucketiseSeconds : Option Int
  /-- What is drawn on top of the lines. -/
  annotations : List AnnotationRequest

/-- The request for a full chart with the same axes and window: no filter, grouped by SDK
version. -/
def RunChartRequest.toChartRequest (r : RunChartRequest) : ChartRequest where
  horizontalAxis := .sdkVersion
  verticalAxes := r.verticalAxes
  comparisonFilter := []
  chartMode := .full
  mergePolicy := .average
  mergeAlgorithm := r.mergeAlgorithm
  trimmingSeconds := r.trimmingSeconds
  bucketiseSeconds := r.bucketiseSeconds
  excludeSnapshots := false
  excludeGerrit := false
  runFilterMode := .all
  annotations := r.annotations

/-- What a bar measures. -/
inductive BarMeasure where
  /-- A column of the time buckets. -/
  | column (column : BucketColumn)
  /-- A metric, by its path. -/
  | metric (metric : String)
deriving DecidableEq, Repr

namespace ChartRequest

/-- Refuses requests that no store could answer: no vertical axis, a window that makes no sense, or
a horizontal field that cannot be addressed. -/
def validate (r : ChartRequest) : Except RequestError Unit :=
  if r.verticalAxes.isEmpty then .error .noVerticalAxis
  else if r.trimmingSeconds < 0 then .error .negativeTrimming
  else if r.bucketiseSeconds.any (· ≤ 0) then .error .nonPositiveWidth
  else (FieldPath.check r.horizontalAxis.field).map fun _ => ()

/-- What the bars of a chart measure: the only vertical axis has to be a column or a metric. -/
def measure (r : ChartRequest) : Except RequestError BarMeasure :=
  match r.verticalAxes with
  | [.buckets column _] => (BucketColumn.ofName column).map .column
  | [.metric metric _] => (FieldPath.check metric).map fun _ => .metric metric
  | [axis] => .error (.unsupportedBarAxis axis.kind)
  | axes => .error (.barAxisCount axes.length)

end ChartRequest

/-- Refuses vertical axes with unknown columns and metrics that cannot be addressed. -/
def checkLineAxes : List VerticalAxis → Except RequestError Unit
  | [] => .ok ()
  | .buckets column _ :: rest => do
    let _ ← BucketColumn.ofName column
    checkLineAxes rest
  | .metric metric _ :: rest => do
    let _ ← FieldPath.check metric
    checkLineAxes rest
  | .errors _ :: rest => checkLineAxes rest
  | .metricsAll _ :: rest => checkLineAxes rest

end BenchCharts

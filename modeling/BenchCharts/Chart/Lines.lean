import BenchCharts.LabelOrder
import BenchCharts.Params.Label
import BenchCharts.Store.Series

/-!
# Line charts

A line chart orders its runs by the label of the horizontal field, with the runs that have no label
last, and gives each a color by its place. Each vertical axis then adds series, axis by axis and
run by run: one for every run on an axis of buckets or errors, and only those with points on an
axis of metrics. Where all metrics are drawn, each metric of a run is a series of its own, and its
name is part of the label.

Events become annotations, with their time counted from the first bucket of the run, or from the
time of the run if it has no buckets. The annotations of a run are numbered, and moved up by turns.
-/

namespace BenchCharts

/-- The colors, in the order in which they are given out; then they start again. -/
def palette : List String :=
  ["#3fb950", "#58a6ff", "#f78166", "#a371f7", "#f9c513", "#39d353", "#79c0ff", "#ff7b72",
   "#d2a8ff", "#ffa657"]

/-- The color of the run at a place. -/
def colorAt (index : Nat) : String := palette.getD (index % 10) ""

/-- The label of runs that have none. -/
def unknownLabel : String := "unknown"

/-- A run as it is drawn. -/
structure StyledRun where
  /-- The run. -/
  run : Run
  /-- Its label. -/
  label : String
  /-- Its color. -/
  color : String

/-- The runs with a label, with it. -/
def runsWithLabel (field : String) (runs : List Run) : List (String × Run) :=
  runs.filterMap fun run => (run.params.labelAt? field).map fun label => (label, run)

/-- The runs without a label. -/
def runsWithoutLabel (field : String) (runs : List Run) : List Run :=
  runs.filter fun run => (run.params.labelAt? field).isNone

/-- Colors for runs with labels, from a place on. -/
def colorRuns (index : Nat) : List (String × Run) → List StyledRun
  | [] => []
  | (label, run) :: rest => ⟨run, label, colorAt index⟩ :: colorRuns (index + 1) rest

/-- The runs in the order in which they are drawn. -/
def styleRuns (axis : HorizontalAxis) (runs : List Run) :
    Except RequestError (List StyledRun) := do
  let labelled ← sortByLabel axis.resultType Prod.fst (runsWithLabel axis.field runs)
  let others := (runsWithoutLabel axis.field runs).map fun run => (unknownLabel, run)
  return colorRuns 0 (labelled ++ others)

namespace StyledRun

/-- A series of a run. -/
def series (s : StyledRun) (axisId label : String) (points : List SeriesPoint) : Series :=
  ⟨axisId, label, s.color, s.run.id, points⟩

/-- The series of some metrics of a run, with the names of the metrics in the labels. -/
def metricsSeries (s : StyledRun) (store : Store) (window : SeriesWindow) (axisId : String) :
    List String → Except ChartError (List Series)
  | [] => .ok []
  | metric :: rest => do
    let points ← store.metricSeries s.run.id metric window
    let others ← metricsSeries s store window axisId rest
    return if points.isEmpty then others
      else s.series axisId (s.label ++ " " ++ metric) points :: others

/-- The series of a run on a vertical axis. -/
def axisSeries (s : StyledRun) (store : Store) (window : SeriesWindow) :
    VerticalAxis → Except ChartError (List Series)
  | .buckets name axisId => do
    let column ← (BucketColumn.ofName name).mapError .invalid
    let points ← store.bucketSeries s.run.id column window
    return [s.series axisId s.label points]
  | .metric metric axisId => do
    let points ← store.metricSeries s.run.id metric window
    return if points.isEmpty then [] else [s.series axisId s.label points]
  | .errors axisId => do
    let points ← store.errorSeries s.run.id window
    return [s.series axisId s.label points]
  | .metricsAll axisId => do
    s.metricsSeries store window axisId (← store.metricKeys s.run.id)

end StyledRun

/-- The series of all runs on a vertical axis. -/
def axisSeries (store : Store) (window : SeriesWindow) (axis : VerticalAxis) :
    List StyledRun → Except ChartError (List Series)
  | [] => .ok []
  | s :: rest => do
    let series ← s.axisSeries store window axis
    return series ++ (← axisSeries store window axis rest)

/-- The series of all runs on all vertical axes. -/
def allSeries (store : Store) (window : SeriesWindow) (runs : List StyledRun) :
    List VerticalAxis → Except ChartError (List Series)
  | [] => .ok []
  | axis :: rest => do
    let series ← axisSeries store window axis runs
    return series ++ (← allSeries store window runs rest)

/-! ### Annotations -/

/-- The types of events that are asked for: `none` if no events are, and no types if all are. -/
def requestedEventTypes (requests : List AnnotationRequest) : Option (List String) :=
  if requests.isEmpty then none
  -- A request without types is one for all types, whatever the others ask for.
  else if requests.any fun | .runEvents types => types.isEmpty then some []
  else some (distinct (requests.flatMap fun | .runEvents types => types))

/-- How many places annotations are moved up by turns. -/
def annotationLevels : Nat := 4

/-- How far one place is. -/
def annotationStep : Nat := 20

/-- The annotations of events of a run, numbered from a number on. -/
def annotate (runId : String) (anchor : Instant) (index : Nat) : List RunEvent → List Annotation
  | [] => []
  | e :: rest =>
    { id := runId ++ "-event-" ++ toString index
      runId
      offset := e.datetime.secondsSince anchor
      wallClockTime := e.datetime
      label := e.description.getD e.eventType
      eventType := e.eventType
      yOffset := ((index % annotationLevels * annotationStep : Nat) : Int) }
      :: annotate runId anchor (index + 1) rest

/-- The annotations of a run. -/
def runAnnotations (store : Store) (eventTypes : List String) (s : StyledRun) :
    Except ChartError (List Annotation) := do
  let events ← store.runEvents s.run.id eventTypes
  if events.isEmpty then return []
  -- Offsets count from the first bucket, or from the time of the run if it has no buckets.
  let first ← store.firstBucketTime s.run.id
  return annotate s.run.id (first.getD s.run.datetime) 0 events

/-- The annotations of all runs. -/
def allAnnotations (store : Store) (eventTypes : List String) :
    List StyledRun → Except ChartError (List Annotation)
  | [] => .ok []
  | s :: rest => do
    let annotations ← runAnnotations store eventTypes s
    return annotations ++ (← allAnnotations store eventTypes rest)

/-! ### The chart -/

/-- The window of a request. -/
def ChartRequest.window (r : ChartRequest) : SeriesWindow where
  trimmingSeconds := r.trimmingSeconds
  bucketiseSeconds := r.bucketiseSeconds
  merge := r.mergeAlgorithm

namespace LineChart

/-- The line chart of some runs. -/
def build (store : Store) (request : ChartRequest) (runs : List Run) :
    Except ChartError LineChart := do
  (checkLineAxes request.verticalAxes).mapError .invalid
  let styled ← (styleRuns request.horizontalAxis runs).mapError .invalid
  let series ← allSeries store request.window styled request.verticalAxes
  let annotations ← match requestedEventTypes request.annotations with
    | some types => allAnnotations store types styled
    | none => .ok []
  return { runs := styled.map StyledRun.run, series, annotations }

end LineChart

end BenchCharts

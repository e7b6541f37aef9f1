import BenchCharts.Run.Basic

/-!
# Charts

A bar chart has parallel lists of labels, values and contributing runs. A line chart has series of
points, one for each run and vertical axis, and annotations. Both list the runs they were made
from. `Chart` is either of the two.
-/

namespace BenchCharts

/-- A group of runs with its merged value. -/
structure Bar where
  /-- The label that the runs of the group share. -/
  label : String
  /-- The merged value. -/
  value : Float
  /-- The ids of the runs that contributed. -/
  runIds : List String
deriving DecidableEq

/-- A point of a series. -/
structure SeriesPoint where
  /-- The seconds from the start of the run to the start of the bucket. -/
  offset : Int
  /-- The merged value of the bucket. -/
  value : Float
  /-- The id of the run. -/
  runId : String
  /-- The time of the first sample in the bucket. -/
  wallClockTime : Instant
deriving DecidableEq

/-- One run on one vertical axis. -/
structure Series where
  /-- The id of the vertical axis. -/
  axisId : String
  /-- The name of the series. -/
  label : String
  /-- The color of the run. -/
  color : String
  /-- The id of the run. -/
  runId : String
  /-- The points, in order of time. -/
  points : List SeriesPoint
deriving DecidableEq

/-- An event on a line chart. -/
structure Annotation where
  /-- The id of the annotation. -/
  id : String
  /-- The id of the run. -/
  runId : String
  /-- The seconds from the start of the run. -/
  offset : Int
  /-- The time of the event. -/
  wallClockTime : Instant
  /-- What happened. -/
  label : String
  /-- The kind of event. -/
  eventType : String
  /-- How far the label is moved up, so that labels at one time stay readable. -/
  yOffset : Int
deriving DecidableEq

/-- A bar chart. -/
structure BarChart where
  /-- The runs that were compared. -/
  runs : List Run
  /-- The label of each bar. -/
  labels : List String
  /-- The value of each bar. -/
  values : List Float
  /-- The runs behind each bar. -/
  runIdsPerLabel : List (List String)

/-- A line chart. -/
structure LineChart where
  /-- The runs that are drawn. -/
  runs : List Run
  /-- The lines. -/
  series : List Series
  /-- The events on top of them. -/
  annotations : List Annotation

/-- A chart of either kind. -/
inductive Chart where
  /-- A bar chart. -/
  | bar (chart : BarChart)
  /-- A line chart. -/
  | line (chart : LineChart)

/-- An SDK with its versions. -/
structure SdkInfo where
  /-- The language of the SDK. -/
  language : String
  /-- The versions. -/
  versions : List String
deriving DecidableEq

end BenchCharts

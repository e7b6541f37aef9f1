import BenchCharts.Params.Path
import BenchCharts.Time.Instant

/-!
# Benchmark runs and what is recorded for them

A run is one execution of a benchmark: an id, the time at which it was recorded, and parameters
that describe the cluster, the SDK, the workload and the settings. The parameters are any JSON
object; fields in it are addressed by dotted paths, three of which have a meaning of their own.

For a run there are time buckets with counts, durations and errors; samples of metrics; and events.
A `RunRecord` is a run with all of these, which is what is imported into a store.
-/

namespace BenchCharts

/-- The path of the SDK language in the parameters of a run. -/
def languagePath : String := "impl.language"

/-- The path of the SDK version in the parameters of a run. -/
def versionPath : String := "impl.version"

/-- The path of the cluster version in the parameters of a run. -/
def clusterVersionPath : String := "cluster.version"

/-- One execution of a benchmark. -/
structure Run where
  /-- The id, unique in a store. -/
  id : String
  /-- The time at which the run was recorded. -/
  datetime : Instant
  /-- The parameters of the cluster, the SDK, the workload and the settings. -/
  params : Json.Fields

namespace Run

/-- The SDK language, if it is a text. -/
def language? (run : Run) : Option String := run.params.textAt? languagePath

/-- The SDK version, if it is a text. -/
def version? (run : Run) : Option String := run.params.textAt? versionPath

end Run

/-- The counts, durations and errors of a span of time in a run. -/
structure Bucket where
  /-- The seconds from the start of the run. -/
  offset : Int
  /-- The time of the bucket. -/
  datetime : Instant
  /-- The number of operations. -/
  operationsTotal : Int
  /-- The number of operations that succeeded. -/
  operationsSuccess : Int
  /-- The number of operations that failed. -/
  operationsFailed : Int
  /-- The least duration in microseconds. -/
  durationMin : Option Float
  /-- The greatest duration in microseconds. -/
  durationMax : Option Float
  /-- The average duration in microseconds. -/
  durationAverage : Option Float
  /-- The median duration in microseconds. -/
  durationP50 : Option Float
  /-- The 95th percentile of the durations in microseconds. -/
  durationP95 : Option Float
  /-- The 99th percentile of the durations in microseconds. -/
  durationP99 : Option Float
  /-- The number of errors of each category. -/
  errors : Json.Fields

/-- The metrics that were measured at one time of a run. -/
structure MetricSample where
  /-- The seconds from the start of the run. -/
  offset : Int
  /-- The time of the measurement. -/
  initiated : Instant
  /-- The value of each metric. -/
  metrics : Json.Fields

/-- Something that happened during a run. -/
structure RunEvent where
  /-- The time at which it happened. -/
  datetime : Instant
  /-- The kind of event. -/
  eventType : String
  /-- What happened, in words. -/
  description : Option String
  /-- Details of any form. -/
  params : Json.Fields

/-- A run with everything recorded for it. -/
structure RunRecord where
  /-- The run. -/
  run : Run
  /-- Its time buckets. -/
  buckets : List Bucket
  /-- Its samples of metrics. -/
  metrics : List MetricSample
  /-- Its events. -/
  events : List RunEvent

/-- A column of the time buckets that can be drawn. -/
inductive BucketColumn where
  /-- The number of operations. -/
  | operationsTotal
  /-- The number of operations that succeeded. -/
  | operationsSuccess
  /-- The number of operations that failed. -/
  | operationsFailed
  /-- The least duration. -/
  | durationMin
  /-- The greatest duration. -/
  | durationMax
  /-- The average duration. -/
  | durationAverage
  /-- The median duration. -/
  | durationP50
  /-- The 95th percentile of the durations. -/
  | durationP95
  /-- The 99th percentile of the durations. -/
  | durationP99
deriving DecidableEq, Repr

namespace BucketColumn

/-- The name by which requests call a column. -/
def name : BucketColumn → String
  | .operationsTotal => "operations_total"
  | .operationsSuccess => "operations_success"
  | .operationsFailed => "operations_failed"
  | .durationMin => "duration_min_us"
  | .durationMax => "duration_max_us"
  | .durationAverage => "duration_average_us"
  | .durationP50 => "duration_p50_us"
  | .durationP95 => "duration_p95_us"
  | .durationP99 => "duration_p99_us"

/-- Every column. -/
def all : List BucketColumn :=
  [.operationsTotal, .operationsSuccess, .operationsFailed, .durationMin, .durationMax,
   .durationAverage, .durationP50, .durationP95, .durationP99]

/-- The column with a name. -/
def ofName (name : String) : Except RequestError BucketColumn :=
  match all.find? (·.name == name) with
  | some column => .ok column
  | none => .error (.unknownColumn name)

/-- A column is found by its name. -/
@[simp] theorem ofName_name (column : BucketColumn) : ofName column.name = .ok column := by
  cases column <;> rfl

end BucketColumn

end BenchCharts

/-!
# What can go wrong

A request can be refused for what it says (`RequestError`), it can name a run that does not exist,
or a query of the store can fail (`StoreQuery` says which one). The wording of each is in the two
`message` functions and `StoreQuery.context`; everything else works with the causes.
-/

namespace BenchCharts

/-- Why a request is refused, before or while it is answered. -/
inductive RequestError where
  /-- A field path is empty or blank. -/
  | emptyPath
  /-- A segment of a field path is empty or holds a quote. -/
  | unaddressableSegment (path segment : String)
  /-- A key of a filter is empty or holds a point or a quote. -/
  | unaddressableKey (key : String)
  /-- No vertical axis is given. -/
  | noVerticalAxis
  /-- The warm-up to be trimmed is negative. -/
  | negativeTrimming
  /-- The width of the buckets is zero or negative. -/
  | nonPositiveWidth
  /-- A bar chart has another number of vertical axes than one. -/
  | barAxisCount (count : Nat)
  /-- The kind of a vertical axis cannot be drawn as bars. -/
  | unsupportedBarAxis (kind : String)
  /-- No column of the time buckets has the name. -/
  | unknownColumn (name : String)
  /-- A label is to be ordered as an integer and is none. -/
  | notAnInteger (label : String)
deriving DecidableEq, Repr

/-- The reason in words. -/
def RequestError.message : RequestError → String
  | .emptyPath => "Field path cannot be empty"
  | .unaddressableSegment path segment =>
    "Invalid field path '" ++ path ++ "': segment '" ++ segment ++ "' is not addressable"
  | .unaddressableKey key => "Key '" ++ key ++ "' cannot be addressed by a dotted field path"
  | .noVerticalAxis => "At least one vertical axis is required"
  | .negativeTrimming => "trimmingSeconds cannot be negative"
  | .nonPositiveWidth => "bucketiseSeconds must be greater than 0"
  | .barAxisCount count => "A bar chart takes exactly one vertical axis, got " ++ toString count
  | .unsupportedBarAxis kind => "Vertical axis '" ++ kind ++ "' is not supported on bar charts"
  | .unknownColumn name => "Unknown bucket column '" ++ name ++ "'"
  | .notAnInteger label =>
    "Label '" ++ label ++ "' is not an integer but the axis result type is 'integer'"

/-- A query or a change of the store. -/
inductive StoreQuery where
  /-- Creating the tables. -/
  | applySchema
  /-- Inserting a run with everything recorded for it. -/
  | insertRun (id : String)
  /-- Looking up a run. -/
  | loadRun (id : String)
  /-- The time of a run's first bucket. -/
  | firstBucket (id : String)
  /-- The runs that match a filter. -/
  | findRuns
  /-- Bars over a column of the time buckets. -/
  | aggregateBuckets
  /-- Bars over a metric. -/
  | aggregateMetric
  /-- The series of a column of the time buckets. -/
  | bucketSeries
  /-- The series of a metric. -/
  | metricSeries
  /-- The metrics of a run. -/
  | metricKeys
  /-- The series of error counts. -/
  | errorSeries
  /-- The events of a run. -/
  | runEvents
  /-- The list of cluster versions. -/
  | clusterVersions
  /-- The list of SDK versions. -/
  | sdkVersions
deriving DecidableEq, Repr

/-- What the query was doing, in words. -/
def StoreQuery.context : StoreQuery → String
  | .applySchema => "apply schema"
  | .insertRun id => "insert run " ++ id
  | .loadRun id => "load run " ++ id
  | .firstBucket id => "first bucket of run " ++ id
  | .findRuns => "find runs"
  | .aggregateBuckets => "aggregate buckets"
  | .aggregateMetric => "aggregate metric"
  | .bucketSeries => "bucket series"
  | .metricSeries => "metric series"
  | .metricKeys => "metric keys"
  | .errorSeries => "error series"
  | .runEvents => "run events"
  | .clusterVersions => "cluster versions"
  | .sdkVersions => "sdk versions"

/-- Why a chart, a list of runs or a reference list cannot be given. -/
inductive ChartError where
  /-- The request is refused. -/
  | invalid (cause : RequestError)
  /-- No run has the id. -/
  | runNotFound (id : String)
  /-- The store failed. -/
  | store (query : StoreQuery)
deriving DecidableEq, Repr

/-- The error in words. -/
def ChartError.message : ChartError → String
  | .invalid cause => "Invalid configuration: " ++ cause.message
  | .runNotFound id => "Run not found: " ++ id
  | .store query => "Store query failed: " ++ query.context

end BenchCharts

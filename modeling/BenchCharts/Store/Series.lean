import BenchCharts.Chart.Response
import BenchCharts.Json.Reread
import BenchCharts.Sorting
import BenchCharts.Store.Basic
import BenchCharts.Store.Cell
import BenchCharts.Store.Lookup
import BenchCharts.Store.Reduction
import BenchCharts.Time.Spelling

/-!
# Samples and series

A sample is a cell with an offset and a time. The buckets of a run give samples of a column, and of
their errors; its metric samples give samples of a metric. Offsets before the end of the warm-up do
not count, nor does a cell that is nothing.

A series cuts the offsets into buckets of equal width. Every bucket with samples is a point: its
value is the reduction of the cells in order of their offsets, and its time the least of the times
of its samples, by their texts.
-/

namespace BenchCharts

/-- A value measured in a run. -/
structure Sample where
  /-- The seconds from the start of the run. -/
  offset : Int
  /-- The time. -/
  time : Instant
  /-- The value. -/
  cell : Cell

/-- The part of a run that is drawn, and how finely. -/
structure SeriesWindow where
  /-- The seconds at the start that are left out. -/
  trimmingSeconds : Int
  /-- The width of the buckets, if one is given. -/
  bucketiseSeconds : Option Int
  /-- How the samples of a bucket become one. -/
  merge : Aggregation
deriving DecidableEq, Repr

namespace SeriesWindow

/-- The width of the buckets, at least one second. -/
def width (w : SeriesWindow) : Int := max (w.bucketiseSeconds.getD 1) 1

/-- The start of the bucket with an offset in it. -/
def bucketStart (w : SeriesWindow) (offset : Int) : Int := Int.tdiv offset w.width * w.width

/-- There is always a width to divide by. -/
theorem width_pos (w : SeriesWindow) : 0 < w.width := by unfold width; omega

end SeriesWindow

namespace Bucket

/-- A duration as it is stored: a zero has no sign, and what is no number is nothing. -/
def durationCell : Option Float → Cell
  | some x => .ofFloat (if x == 0 then 0 else x)
  | none => .null

/-- The cell of a column. -/
def cell (b : Bucket) : BucketColumn → Cell
  | .operationsTotal => .int b.operationsTotal
  | .operationsSuccess => .int b.operationsSuccess
  | .operationsFailed => .int b.operationsFailed
  | .durationMin => durationCell b.durationMin
  | .durationMax => durationCell b.durationMax
  | .durationAverage => durationCell b.durationAverage
  | .durationP50 => durationCell b.durationP50
  | .durationP95 => durationCell b.durationP95
  | .durationP99 => durationCell b.durationP99

/-- The errors of all categories together; none if there are none. -/
def errorCell? (b : Bucket) : Option Cell :=
  if (Json.obj b.errors).searchable then
    (Aggregation.sum.reduce? (b.errors.map fun field => field.2.cell.numeric)).map fun total =>
      if total.isNull then .int 0 else total
  else none

/-- The sample of a column. -/
def sample (column : BucketColumn) (b : Bucket) : Sample := ⟨b.offset, b.datetime, b.cell column⟩

/-- The sample of the errors, unless they cannot be searched or added. -/
def errorSample? (b : Bucket) : Option Sample :=
  b.errorCell?.map fun cell => ⟨b.offset, b.datetime, cell⟩

end Bucket

/-- The sample of the metric at the end of a list of keys, with nothing in its place if that is no
number, or `none` if the store cannot search the metrics for the keys. -/
def MetricSample.sample? (keys : List String) (m : MetricSample) : Option Sample :=
  (m.metrics.search? keys).map fun found =>
    ⟨m.offset, m.initiated, ((found.filter Json.isNumber).map Json.cell).getD .null⟩

/-- Items with an offset at or after the end of the warm-up, in order of their offsets. -/
def afterWarmUp {α : Type} (offset : α → Int) (trimming : Int) (items : List α) : List α :=
  stableSort (fun a b => compare (offset a) (offset b))
    (items.filter fun item => trimming ≤ offset item)

/-- The samples that count. -/
def usable (samples : List Sample) : List Sample := samples.filter fun s => !s.cell.isNull

namespace Tables

/-- The samples of a column that count, in order of their offsets. -/
def columnSamples (t : Tables) (column : BucketColumn) (trimming : Int) (runId : String) :
    List Sample :=
  usable ((afterWarmUp Bucket.offset trimming (ownedBy t.buckets runId)).map (·.sample column))

/-- The samples of a metric that count, in order of their offsets. -/
def metricSamples? (t : Tables) (keys : List String) (trimming : Int) (runId : String) :
    Option (List Sample) :=
  ((afterWarmUp MetricSample.offset trimming (ownedBy t.metrics runId)).mapM
    (MetricSample.sample? keys)).map usable

/-- The samples of the errors, in order of their offsets. -/
def errorSamples? (t : Tables) (trimming : Int) (runId : String) : Option (List Sample) :=
  (afterWarmUp Bucket.offset trimming (ownedBy t.buckets runId)).mapM Bucket.errorSample?

end Tables

/-- The first of the times with the least text, after a least one so far. -/
def earliestFrom (best : Instant) : List Instant → Instant
  | [] => best
  | time :: rest => earliestFrom (if time.compareStored best = .lt then time else best) rest

/-- The time with the least text. -/
def earliest? : List Instant → Option Instant
  | [] => none
  | time :: rest => some (earliestFrom time rest)

/-- The point of the samples of one bucket, unless they reduce to nothing. -/
def SeriesPoint.of? (merge : Aggregation) (runId : String) (start : Int) (samples : List Sample) :
    Option SeriesPoint := do
  let cell ← merge.reduce? (samples.map Sample.cell)
  let value ← cell.float?
  let time ← earliest? (samples.map Sample.time)
  return ⟨start, value, runId, time⟩

/-- The points of samples, one for each bucket, in order of time. -/
def seriesPoints? (w : SeriesWindow) (runId : String) (samples : List Sample) :
    Option (List SeriesPoint) :=
  (groupBy compare (fun s => w.bucketStart s.offset) samples).mapM fun (start, group) =>
    SeriesPoint.of? w.merge runId start group

/-- A stored event with its details as they are read. -/
def RunEvent.loaded (e : RunEvent) : RunEvent := { e with params := Json.rereadFields e.params }

/-- A stored event as it is found, if its details can be read. -/
def RunEvent.loaded? (e : RunEvent) : Option RunEvent :=
  if (Json.obj e.params).readable then some e.loaded else none

namespace Store

/-- The series of a column. -/
def bucketSeries (s : Store) (runId : String) (column : BucketColumn) (w : SeriesWindow) :
    Except ChartError (List SeriesPoint) :=
  s.query .bucketSeries fun t =>
    answer .bucketSeries (seriesPoints? w runId (t.columnSamples column w.trimmingSeconds runId))

/-- The series of a metric. -/
def metricSeries (s : Store) (runId metric : String) (w : SeriesWindow) :
    Except ChartError (List SeriesPoint) :=
  match FieldPath.check metric with
  | .error cause => .error (.invalid cause)
  | .ok keys =>
    s.query .metricSeries fun t =>
      answer .metricSeries
        ((t.metricSamples? keys w.trimmingSeconds runId).bind (seriesPoints? w runId))

/-- The series of the errors. -/
def errorSeries (s : Store) (runId : String) (w : SeriesWindow) :
    Except ChartError (List SeriesPoint) :=
  s.query .errorSeries fun t =>
    answer .errorSeries
      ((t.errorSamples? w.trimmingSeconds runId).bind (seriesPoints? w runId))

/-- The metrics that are a number in some sample of a run, in order. -/
def metricKeys (s : Store) (runId : String) : Except ChartError (List String) :=
  s.query .metricKeys fun t =>
    let samples := Tables.ownedBy t.metrics runId
    if samples.all fun m => (Json.obj m.metrics).searchable then
      .ok (stableSort compare (distinct ((samples.flatMap numbers).map Prod.fst)))
    else .error (.store .metricKeys)
where
  /-- The metrics of a sample that are numbers. -/
  numbers (m : MetricSample) : Json.Fields := m.metrics.filter (·.2.isNumber)

/-- The time of the first bucket of a run. -/
def firstBucketTime (s : Store) (runId : String) : Except ChartError (Option Instant) :=
  s.query (.firstBucket runId) fun t =>
    .ok (earliest? ((Tables.ownedBy t.buckets runId).map Bucket.datetime))

/-- The events of a run that have one of some types, or all of them if no type is given, in order
of time. -/
def runEvents (s : Store) (runId : String) (eventTypes : List String) :
    Except ChartError (List RunEvent) :=
  s.query .runEvents fun t =>
    let events := stableSort (fun a b : RunEvent => a.datetime.compareStored b.datetime)
      (Tables.ownedBy t.events runId)
    -- Every event is read, also one of another type.
    answer .runEvents ((events.mapM RunEvent.loaded?).map fun found =>
      found.filter fun e => eventTypes.isEmpty || eventTypes.contains e.eventType)

end Store

end BenchCharts

import BenchCharts.Json.Codec
import BenchCharts.Run.Basic

/-!
# Runs and records in JSON

The JSON form of a run and of what is recorded for it. Counts default to zero, durations to
`null`, and errors, descriptions and details to nothing; empty errors of a bucket and empty details
of an event are not written. A record has the fields of its run beside its own, and is the one
that cannot be written as an array.
-/

namespace BenchCharts

open Json

namespace Run

/-- A run, from JSON. -/
def decode? (j : Json) : Option Run :=
  match j.record? ["id", "datetime", "params"] with
  | some [id, datetime, params] => do
    return {
      id := ← required text? id
      datetime := ← required instant? datetime
      params := ← required map? params }
  | _ => none

/-- The fields of a run. -/
def encodeFields (run : Run) : Fields :=
  [("id", .str run.id), ("datetime", ofInstant run.datetime), ("params", .obj run.params)]

/-- A run in JSON. -/
def encode (run : Run) : Json := .obj run.encodeFields

end Run

namespace Bucket

/-- The names of the fields of a bucket. -/
def fieldNames : List String :=
  ["timeOffsetSecs", "datetime", "operationsTotal", "operationsSuccess", "operationsFailed",
   "durationMinUs", "durationMaxUs", "durationAverageUs", "durationP50Us", "durationP95Us",
   "durationP99Us", "errors"]

/-- A bucket, from JSON. -/
def decode? (j : Json) : Option Bucket :=
  match j.record? fieldNames with
  | some [offset, datetime, total, success, failed, least, greatest, average, p50, p95, p99,
      errors] => do
    return {
      offset := ← required int64? offset
      datetime := ← required instant? datetime
      operationsTotal := ← optional 0 int64? total
      operationsSuccess := ← optional 0 int64? success
      operationsFailed := ← optional 0 int64? failed
      durationMin := ← optional none (nullable? float?) least
      durationMax := ← optional none (nullable? float?) greatest
      durationAverage := ← optional none (nullable? float?) average
      durationP50 := ← optional none (nullable? float?) p50
      durationP95 := ← optional none (nullable? float?) p95
      durationP99 := ← optional none (nullable? float?) p99
      errors := ← optional [] map? errors }
  | _ => none

/-- A bucket in JSON. -/
def encode (b : Bucket) : Json :=
  .obj <|
    [("timeOffsetSecs", ofInt b.offset),
     ("datetime", ofInstant b.datetime),
     ("operationsTotal", ofInt b.operationsTotal),
     ("operationsSuccess", ofInt b.operationsSuccess),
     ("operationsFailed", ofInt b.operationsFailed),
     ("durationMinUs", ofOption ofFloat b.durationMin),
     ("durationMaxUs", ofOption ofFloat b.durationMax),
     ("durationAverageUs", ofOption ofFloat b.durationAverage),
     ("durationP50Us", ofOption ofFloat b.durationP50),
     ("durationP95Us", ofOption ofFloat b.durationP95),
     ("durationP99Us", ofOption ofFloat b.durationP99)]
    ++ if b.errors.isEmpty then [] else [("errors", .obj b.errors)]

end Bucket

namespace MetricSample

/-- A sample of metrics, from JSON. -/
def decode? (j : Json) : Option MetricSample :=
  match j.record? ["timeOffsetSecs", "initiated", "metrics"] with
  | some [offset, initiated, metrics] => do
    return {
      offset := ← required int64? offset
      initiated := ← required instant? initiated
      metrics := ← required map? metrics }
  | _ => none

/-- A sample of metrics in JSON. -/
def encode (s : MetricSample) : Json :=
  .obj [("timeOffsetSecs", ofInt s.offset), ("initiated", ofInstant s.initiated),
    ("metrics", .obj s.metrics)]

end MetricSample

namespace RunEvent

/-- An event, from JSON. -/
def decode? (j : Json) : Option RunEvent :=
  match j.record? ["datetime", "eventType", "description", "params"] with
  | some [datetime, eventType, description, params] => do
    return {
      datetime := ← required instant? datetime
      eventType := ← required text? eventType
      description := ← optional none (nullable? text?) description
      params := ← optional [] map? params }
  | _ => none

/-- An event in JSON. -/
def encode (e : RunEvent) : Json :=
  .obj <|
    [("datetime", ofInstant e.datetime), ("eventType", .str e.eventType),
     ("description", ofOption .str e.description)]
    ++ if e.params.isEmpty then [] else [("params", .obj e.params)]

end RunEvent

namespace RunRecord

/-- A record, from JSON. -/
def decode? (j : Json) : Option RunRecord :=
  if j.isObject then
    match j.record? ["buckets", "metrics", "events"] with
    | some [buckets, metrics, events] => do
      return {
        run := ← Run.decode? j
        buckets := ← optional [] (list? Bucket.decode?) buckets
        metrics := ← optional [] (list? MetricSample.decode?) metrics
        events := ← optional [] (list? RunEvent.decode?) events }
    | _ => none
  else none

/-- A record in JSON. -/
def encode (r : RunRecord) : Json :=
  .obj <| r.run.encodeFields ++
    [("buckets", ofList Bucket.encode r.buckets),
     ("metrics", ofList MetricSample.encode r.metrics),
     ("events", ofList RunEvent.encode r.events)]

end RunRecord

end BenchCharts

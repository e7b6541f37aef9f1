import BenchCharts.Chart.Response
import BenchCharts.Run.Codec

/-!
# Charts in JSON

The JSON form of charts and their parts. A chart has the field `mode`, which is `bar` or `line`,
beside the fields of its kind; a line chart on its own is written without it.
-/

namespace BenchCharts

open Json

namespace SeriesPoint

/-- A point, from JSON. -/
def decode? (j : Json) : Option SeriesPoint :=
  match j.record? ["offsetSeconds", "value", "runId", "wallClockTime"] with
  | some [offset, value, runId, time] => do
    return {
      offset := ← required int64? offset
      value := ← required float? value
      runId := ← required text? runId
      wallClockTime := ← required instant? time }
  | _ => none

/-- A point in JSON. -/
def encode (p : SeriesPoint) : Json :=
  .obj [("offsetSeconds", ofInt p.offset), ("value", ofFloat p.value), ("runId", .str p.runId),
    ("wallClockTime", ofInstant p.wallClockTime)]

end SeriesPoint

namespace Series

/-- A series, from JSON. -/
def decode? (j : Json) : Option Series :=
  match j.record? ["axisId", "label", "color", "runId", "points"] with
  | some [axisId, label, color, runId, points] => do
    return {
      axisId := ← required text? axisId
      label := ← required text? label
      color := ← required text? color
      runId := ← required text? runId
      points := ← required (list? SeriesPoint.decode?) points }
  | _ => none

/-- A series in JSON. -/
def encode (s : Series) : Json :=
  .obj [("axisId", .str s.axisId), ("label", .str s.label), ("color", .str s.color),
    ("runId", .str s.runId), ("points", ofList SeriesPoint.encode s.points)]

end Series

namespace Annotation

/-- An annotation, from JSON. -/
def decode? (j : Json) : Option Annotation :=
  match j.record? ["id", "runId", "offsetSeconds", "wallClockTime", "label", "eventType",
      "yOffset"] with
  | some [id, runId, offset, time, label, eventType, yOffset] => do
    return {
      id := ← required text? id
      runId := ← required text? runId
      offset := ← required int64? offset
      wallClockTime := ← required instant? time
      label := ← required text? label
      eventType := ← required text? eventType
      yOffset := ← required int32? yOffset }
  | _ => none

/-- An annotation in JSON. -/
def encode (a : Annotation) : Json :=
  .obj [("id", .str a.id), ("runId", .str a.runId), ("offsetSeconds", ofInt a.offset),
    ("wallClockTime", ofInstant a.wallClockTime), ("label", .str a.label),
    ("eventType", .str a.eventType), ("yOffset", ofInt a.yOffset)]

end Annotation

namespace BarChart

/-- A bar chart, from JSON. -/
def decode? (j : Json) : Option BarChart :=
  match j.record? ["runs", "labels", "values", "runIdsPerLabel"] with
  | some [runs, labels, values, runIds] => do
    return {
      runs := ← required (list? Run.decode?) runs
      labels := ← required (list? text?) labels
      values := ← required (list? float?) values
      runIdsPerLabel := ← required (list? (list? text?)) runIds }
  | _ => none

/-- The fields of a bar chart. -/
def encodeFields (c : BarChart) : Fields :=
  [("runs", ofList Run.encode c.runs), ("labels", ofList .str c.labels),
   ("values", ofList ofFloat c.values), ("runIdsPerLabel", ofList (ofList .str) c.runIdsPerLabel)]

end BarChart

namespace LineChart

/-- A line chart, from JSON. -/
def decode? (j : Json) : Option LineChart :=
  match j.record? ["runs", "series", "annotations"] with
  | some [runs, series, annotations] => do
    return {
      runs := ← required (list? Run.decode?) runs
      series := ← required (list? Series.decode?) series
      annotations := ← optional [] (list? Annotation.decode?) annotations }
  | _ => none

/-- The fields of a line chart. -/
def encodeFields (c : LineChart) : Fields :=
  [("runs", ofList Run.encode c.runs), ("series", ofList Series.encode c.series),
   ("annotations", ofList Annotation.encode c.annotations)]

/-- A line chart in JSON. -/
def encode (c : LineChart) : Json := .obj c.encodeFields

end LineChart

namespace Chart

/-- A chart, from JSON. -/
def decode? (j : Json) : Option Chart := do
  match ← j.tagged? "mode" with
  | ("bar", rest) => (BarChart.decode? rest).map .bar
  | ("line", rest) => (LineChart.decode? rest).map .line
  | _ => none

/-- A chart in JSON. -/
def encode : Chart → Json
  | .bar c => .obj (("mode", .str "bar") :: c.encodeFields)
  | .line c => .obj (("mode", .str "line") :: c.encodeFields)

end Chart

namespace SdkInfo

/-- An SDK, from JSON. -/
def decode? (j : Json) : Option SdkInfo :=
  match j.record? ["language", "versions"] with
  | some [language, versions] => do
    return {
      language := ← required text? language
      versions := ← required (list? text?) versions }
  | _ => none

/-- An SDK in JSON. -/
def encode (s : SdkInfo) : Json :=
  .obj [("language", .str s.language), ("versions", ofList .str s.versions)]

end SdkInfo

end BenchCharts

import BenchCharts.Chart.Response
import BenchCharts.Decimal.Spelling
import BenchCharts.Text.Split
import BenchCharts.Time.Spelling

/-!
# Reports

Charts, runs and reference lists as plain text, a line for each bar, series, annotation or run.
Values have two places. Labels of bars are filled up with blanks to the length of the longest,
which is measured in UTF-8 bytes, while filling up counts characters.
-/

namespace BenchCharts.Report

/-- A text with blanks after it, up to a number of characters. -/
def padEnd (width : Nat) (s : String) : String :=
  s ++ .ofList (List.replicate (width - s.toList.length) ' ')

/-- A text with blanks before it, up to a number of characters. -/
def padStart (width : Nat) (s : String) : String :=
  .ofList (List.replicate (width - s.toList.length) ' ') ++ s

/-- Texts as lines, each with a line feed at its end. -/
def lines (texts : List String) : String := texts.foldl (fun out line => out ++ line ++ "\n") ""

/-- A value with two places. -/
def amount (x : Float) : String := Decimal.spellFixed 2 x

/-- The line of a bar. -/
def barLine (width : Nat) (label : String) (value : Float) (runIds : List String) : String :=
  padEnd width label ++ "  " ++ padStart 12 (amount value) ++ "  (" ++ toString runIds.length
    ++ " run" ++ (if runIds.length = 1 then "" else "s") ++ ")"

/-- The lines of bars, as long as there are labels, values and runs. -/
def barLines (width : Nat) : List String → List Float → List (List String) → List String
  | label :: labels, value :: values, runIds :: rest =>
    barLine width label value runIds :: barLines width labels values rest
  | _, _, _ => []

/-- A bar chart as text. -/
def barChart (c : BarChart) : String :=
  let width := c.labels.foldl (fun width label => max width label.utf8ByteSize) 0
  lines (barLines width c.labels c.values c.runIdsPerLabel
    ++ if c.labels.isEmpty then ["No matching runs"] else [])

/-- The least of some values, after a least one so far. -/
def leastFrom (best : Float) : List Float → Float
  | [] => best
  | x :: rest => leastFrom (if x < best then x else best) rest

/-- The greatest of some values, after a greatest one so far. -/
def greatestFrom (best : Float) : List Float → Float
  | [] => best
  | x :: rest => greatestFrom (if best < x then x else best) rest

/-- The range of the points of a series, if there are any. -/
def range : List SeriesPoint → String
  | [] => ""
  | p :: rest =>
    let values := rest.map SeriesPoint.value
    ", min " ++ amount (leastFrom p.value values) ++ ", max "
      ++ amount (greatestFrom p.value values)

/-- The line of a series. -/
def seriesLine (s : Series) : String :=
  "[" ++ s.axisId ++ "] " ++ s.label ++ " (" ++ s.runId ++ ") " ++ s.color ++ ": "
    ++ toString s.points.length ++ " points" ++ range s.points

/-- The line of an annotation. -/
def annotationLine (a : Annotation) : String :=
  "  @" ++ padStart 6 (toString a.offset) ++ "s " ++ a.runId ++ " (" ++ a.eventType ++ "): "
    ++ a.label

/-- A line chart as text. -/
def lineChart (c : LineChart) : String :=
  lines (c.series.map seriesLine ++ c.annotations.map annotationLine
    ++ if c.series.isEmpty then ["No series"] else [])

/-- A chart as text. -/
def chart : Chart → String
  | .bar c => barChart c
  | .line c => lineChart c

/-- The line of a run. -/
def runLine (run : Run) : String :=
  run.id ++ "  " ++ run.datetime.listed ++ "  " ++ run.language?.getD "-" ++ " "
    ++ run.version?.getD "-"

/-- Runs as text. -/
def runs (runs : List Run) : String := lines (runs.map runLine)

/-- The line of an SDK. -/
def sdkLine (s : SdkInfo) : String := "  " ++ s.language ++ ": " ++ Text.join ", " s.versions

/-- The reference lists as text. -/
def reference (clusterVersions : List String) (sdks : List SdkInfo) : String :=
  lines ("Cluster versions:" :: clusterVersions.map ("  " ++ ·) ++ "SDKs:" :: sdks.map sdkLine)

end BenchCharts.Report

import BenchCharts.Chart.Bars
import BenchCharts.Chart.Lines
import BenchCharts.Selection
import BenchCharts.Store.Search

/-!
# Answering requests

What a dashboard asks of a store: the runs that match a filter, a chart over such runs, and the
chart of one run. A request is checked before the store is asked anything, so that a request that
makes no sense is refused whatever the store holds.

A run chart is the full chart of a single run, and its runs are never filtered.
-/

namespace BenchCharts

namespace Store

/-- The runs that match a filter and are selected. -/
def runs (store : Store) (filter : Json.Fields) (selection : RunSelection) :
    Except ChartError (List Run) := do
  let compiled ← (CompiledFilter.compile filter).mapError .invalid
  let found ← store.findRuns compiled
  return selection.apply (compiled.applyExclusions found)

end Store

/-- Which runs a request takes. -/
def ChartRequest.selection (r : ChartRequest) (gerritPrefix : String) : RunSelection where
  mode := r.runFilterMode
  excludeSnapshots := r.excludeSnapshots
  excludeGerrit := r.excludeGerrit
  gerritPrefix := gerritPrefix

namespace Store

/-- The runs of a request. -/
def resolve (store : Store) (gerritPrefix : String) (r : ChartRequest) :
    Except ChartError (List Run) :=
  store.runs r.comparisonFilter (r.selection gerritPrefix)

/-- The chart of a request. -/
def chart (store : Store) (gerritPrefix : String) (r : ChartRequest) :
    Except ChartError Chart := do
  r.validate.mapError .invalid
  match r.chartMode with
  | .simplified => do
    -- A measure that cannot be drawn is refused before the store is asked.
    let _ ← r.measure.mapError .invalid
    let runs ← store.resolve gerritPrefix r
    return .bar (← BarChart.build store r runs)
  | .full => do
    (checkLineAxes r.verticalAxes).mapError .invalid
    let runs ← store.resolve gerritPrefix r
    return .line (← LineChart.build store r runs)

/-- The chart of one run. -/
def runChart (store : Store) (request : RunChartRequest) : Except ChartError LineChart := do
  let r := request.toChartRequest
  r.validate.mapError .invalid
  (checkLineAxes r.verticalAxes).mapError .invalid
  match ← store.run? request.runId with
  | some run => LineChart.build store r [run]
  | none => .error (.runNotFound request.runId)

end Store

end BenchCharts

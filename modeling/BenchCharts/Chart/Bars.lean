import BenchCharts.LabelOrder
import BenchCharts.Params.Label
import BenchCharts.Store.Bars

/-!
# Bar charts

A bar chart groups runs by the label of their horizontal field, asks the store for the bars of the
groups, and puts these in the order of their labels. Runs without the field are listed with the
chart but belong to no bar.
-/

namespace BenchCharts

/-- The runs that have a field, by id, with the label of the field. -/
def labelledRuns (field : String) (runs : List Run) : List (String × String) :=
  runs.filterMap fun run => (run.params.labelAt? field).map fun label => (run.id, label)

namespace ChartRequest

/-- What the bars of a chart over some runs are asked of the store. -/
def aggregateQuery (request : ChartRequest) (runs : List Run) : AggregateQuery where
  runLabels := labelledRuns request.horizontalAxis.field runs
  mergePolicy := request.mergePolicy
  mergeAlgorithm := request.mergeAlgorithm
  trimmingSeconds := request.trimmingSeconds

end ChartRequest

namespace BarMeasure

/-- The bars of a measure. -/
def bars (store : Store) (query : AggregateQuery) : BarMeasure → Except ChartError (List Bar)
  | .column c => store.aggregateBuckets query c
  | .metric path => store.aggregateMetric query path

end BarMeasure

namespace BarChart

/-- The chart with some bars. -/
def ofBars (runs : List Run) (bars : List Bar) : BarChart where
  runs := runs
  labels := bars.map Bar.label
  values := bars.map Bar.value
  runIdsPerLabel := bars.map Bar.runIds

/-- The bar chart of some runs. -/
def build (store : Store) (request : ChartRequest) (runs : List Run) :
    Except ChartError BarChart := do
  let measure ← request.measure.mapError .invalid
  let bars ← measure.bars store (request.aggregateQuery runs)
  let sorted ← (sortByLabel request.horizontalAxis.resultType Bar.label bars).mapError .invalid
  return ofBars runs sorted

end BarChart

end BenchCharts

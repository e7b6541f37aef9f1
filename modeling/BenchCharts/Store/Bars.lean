import BenchCharts.Store.Series
import BenchCharts.Text.Split

/-!
# Bars

A bar merges the runs that share a label. Each run that may contribute is given with its label;
its samples are reduced to one cell, and the cells of the runs of a group, in the order of the run
ids, are reduced to the value of the bar. A run without samples does not contribute, and a group
whose value is nothing has no bar.

The ids of the runs of a group are collected as one text with a separator between them and then cut
at separators again.

A run may be given more than once, with several labels. Then its samples count as many times, and
the run has the label of the first of them, or, if the least or the greatest sample is taken, the
label that came with that one.
-/

namespace BenchCharts

/-- What a bar query is about. -/
structure AggregateQuery where
  /-- The runs that may contribute, with their labels. -/
  runLabels : List (String × String)
  /-- How the cells of the runs of a group become one. -/
  mergePolicy : Aggregation
  /-- How the samples of a run become one. -/
  mergeAlgorithm : Aggregation
  /-- The seconds at the start of every run that are left out. -/
  trimmingSeconds : Int

/-- A sample of a run that is given with a label. -/
structure LabelledCell where
  /-- The id of the run. -/
  runId : String
  /-- The label of the run. -/
  label : String
  /-- The value of the sample. -/
  cell : Cell

/-- A run with its label and the reduction of its samples. -/
structure RunValue where
  /-- The id of the run. -/
  runId : String
  /-- The label of the run. -/
  label : String
  /-- The reduction of its samples. -/
  cell : Cell

/-- The separator between run ids. -/
def idSeparator : Char := '\x1f'

/-- The reduction of the samples of one run, or `none` if their sum leaves 64 bits. -/
def RunValue.of? (a : Aggregation) (runId : String) : List LabelledCell → Option RunValue
  | [] => none
  | first :: rest =>
    -- A least or greatest cell brings the label of its row; otherwise the first row does.
    let row := a.bestFrom LabelledCell.cell first rest
    (a.reduce? ((first :: rest).map LabelledCell.cell)).map fun cell => ⟨runId, row.label, cell⟩

/-- The ids of a group, in order. -/
def groupIds (runs : List RunValue) : List String :=
  stableSort compare
    (Text.split (· == idSeparator) (Text.join (.singleton idSeparator) (runs.map RunValue.runId)))

/-- The bar of a group, if its value is something; `none` outside if a sum leaves 64 bits. -/
def Bar.of? (policy : Aggregation) (label : String) (runs : List RunValue) : Option (Option Bar) :=
  (policy.reduce? (runs.map RunValue.cell)).map fun cell =>
    cell.float?.map fun value => ⟨label, value, groupIds runs⟩

namespace AggregateQuery

/-- The samples of a run with the label that the run is given with. -/
def labelCells (runId label : String) (samples : List Sample) : List LabelledCell :=
  samples.map fun s => ⟨runId, label, s.cell⟩

/-- The samples of all runs, each with the label that its run is given with. -/
def labelledCells (q : AggregateQuery) (samples? : String → Option (List Sample)) :
    Option (List LabelledCell) :=
  (q.runLabels.mapM fun (runId, label) => (samples? runId).map (labelCells runId label)).map
    List.flatten

/-- The runs that contribute, in the order of their ids. -/
def runValues? (q : AggregateQuery) (cells : List LabelledCell) : Option (List RunValue) :=
  (groupBy compare LabelledCell.runId cells).mapM fun (runId, group) =>
    RunValue.of? q.mergeAlgorithm runId group

/-- The bars of runs, in the order of their labels. -/
def bars? (q : AggregateQuery) (runs : List RunValue) : Option (List Bar) :=
  ((groupBy compare RunValue.label runs).mapM fun (label, group) =>
    Bar.of? q.mergePolicy label group).map (List.filterMap id)

/-- The bars of some samples. -/
def evaluate? (q : AggregateQuery) (samples? : String → Option (List Sample)) :
    Option (List Bar) := do
  q.bars? (← q.runValues? (← q.labelledCells samples?))

end AggregateQuery

namespace Store

/-- The bars over a column. -/
def aggregateBuckets (s : Store) (q : AggregateQuery) (column : BucketColumn) :
    Except ChartError (List Bar) :=
  if q.runLabels.isEmpty then .ok []
  else
    s.query .aggregateBuckets fun t =>
      answer .aggregateBuckets
        (q.evaluate? fun runId => some (t.columnSamples column q.trimmingSeconds runId))

/-- The bars over a metric. -/
def aggregateMetric (s : Store) (q : AggregateQuery) (metric : String) :
    Except ChartError (List Bar) :=
  if q.runLabels.isEmpty then .ok []
  else
    match FieldPath.check metric with
    | .error cause => .error (.invalid cause)
    | .ok keys =>
      s.query .aggregateMetric fun t =>
        answer .aggregateMetric (q.evaluate? (t.metricSamples? keys q.trimmingSeconds))

end Store

end BenchCharts

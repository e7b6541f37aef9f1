import BenchCharts.Proofs.Chart.Lines
import BenchCharts.Proofs.Dashboard
import BenchCharts.Proofs.Store.Alike

/-!
# The order of imports

No answer of a dashboard tells in which order runs were imported. Records with different ids make
stores that are `Alike` in whatever order they are inserted (`Store.alike_of_perm`), and stores that
are alike give the same answer to every request, be it a result or an error.

A request first asks for runs, which alike stores find in the same order. From there on a chart goes
run by run, and of each run the stores have the same rows.
-/

namespace BenchCharts.Store

/-- Two stores answer all requests alike. -/
structure AnswersAlike (s s' : Store) : Prop where
  /-- A chart of either kind. -/
  chart : ∀ gerritPrefix r, s.chart gerritPrefix r = s'.chart gerritPrefix r
  /-- The chart of a run. -/
  runChart : ∀ request, s.runChart request = s'.runChart request
  /-- The runs of a filter. -/
  runs : ∀ filter selection, s.runs filter selection = s'.runs filter selection
  /-- The cluster versions. -/
  clusterVersions : s.clusterVersions = s'.clusterVersions
  /-- The SDKs. -/
  sdks : s.sdks = s'.sdks

namespace Alike

variable {s s' : Store} (h : s.Alike s')

include h

theorem runs (filter : Json.Fields) (selection : RunSelection) :
    s.runs filter selection = s'.runs filter selection := by
  rw [Store.runs, Store.runs]
  -- A filter is compiled without the store.
  cases (CompiledFilter.compile filter).mapError ChartError.invalid with
  | error cause => rfl
  | ok compiled =>
    have hfound : s.findRuns compiled = s'.findRuns compiled := h.findRuns compiled
    simp only [bind, Except.bind, hfound]

theorem lineChart (r : ChartRequest) (runs : List Run) :
    LineChart.build s r runs = LineChart.build s' r runs :=
  LineChart.build_congr fun run _ => h.agreeOn run.id

theorem barChart (r : ChartRequest) (runs : List Run) :
    BarChart.build s r runs = BarChart.build s' r runs := by
  rw [BarChart.build, BarChart.build]
  -- So is it found out what is to be measured.
  cases r.measure.mapError ChartError.invalid with
  | error cause => rfl
  | ok measure =>
    have hbars : measure.bars s (r.aggregateQuery runs) = measure.bars s' (r.aggregateQuery runs) :=
      h.bars (r.aggregateQuery runs) measure
    simp only [bind, Except.bind, hbars]

/-- **Stores that hold the same answer alike.** -/
theorem answersAlike : s.AnswersAlike s' where
  chart gerritPrefix r := by
    have hresolve : s.resolve gerritPrefix r = s'.resolve gerritPrefix r := h.runs _ _
    rw [Store.chart, Store.chart]
    -- What is checked before the store is asked is the same anyway.
    cases r.validate.mapError ChartError.invalid with
    | error cause => rfl
    | ok valid =>
      cases r.chartMode with
      | simplified => simp only [bind, Except.bind, hresolve, h.barChart]
      | full => simp only [bind, Except.bind, hresolve, h.lineChart]
  runChart request := by
    have hfound : s.run? request.runId = s'.run? request.runId := h.run? request.runId
    rw [Store.runChart, Store.runChart, hfound]
    simp only [h.lineChart]
  runs := h.runs
  clusterVersions := h.clusterVersions
  sdks := h.sdks

end Alike

/-- **The order of imports does not show.** Records with different ids can be imported in any order,
and the stores that this makes answer every request alike. -/
theorem answersAlike_of_perm {records records' : List RunRecord}
    (hids : (Tables.recordIds records).Nodup) (hperm : records'.Perm records) :
    ∃ s s', fresh.initSchema.insertRuns records = (s, .ok ()) ∧
      fresh.initSchema.insertRuns records' = (s', .ok ()) ∧ s.AnswersAlike s' := by
  have hids' : (Tables.recordIds records').Nodup := (hperm.map _).nodup_iff.2 hids
  refine ⟨_, _, insertRuns_ofRecords hids, insertRuns_ofRecords hids', ?_⟩
  exact (alike_of_perm hids hperm).answersAlike

/-- Two records that are imported in either order, although the runs have the same time. -/
theorem answersAlike_of_swap :
    ∃ s s',
      fresh.initSchema.insertRuns [.ofVersion "a" "1.0.0" 5, .ofVersion "b" "2.0.0" 7] =
        (s, .ok ()) ∧
      fresh.initSchema.insertRuns [.ofVersion "b" "2.0.0" 7, .ofVersion "a" "1.0.0" 5] =
        (s', .ok ()) ∧ s.AnswersAlike s' := by
  have hids : (Tables.recordIds
      [.ofVersion "a" "1.0.0" 5, .ofVersion "b" "2.0.0" 7]).Nodup := by
    simp [Tables.recordIds, RunRecord.ofVersion]
  exact answersAlike_of_perm hids (.swap ..)

end BenchCharts.Store

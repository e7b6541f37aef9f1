import BenchCharts.Proofs.Dashboard.Refusals
import BenchCharts.Proofs.Store.WarmUp

/-!
# Trimming the warm-up

To trim the warm-up of all runs from a chart is to ask for the chart without trimming where nothing
was ever recorded before the end of the warm-up (`Store.chart_withoutWarmUp`). It does not matter
whether the bound falls between two bucket starts, which aggregation follows, or whether offsets are
negative: the bound is applied to the rows alone, and everything after it is the same.

Two things of a line chart do look at early rows, and are left aside here. Events are counted from
the first bucket of a run even if that is trimmed, and an axis of all metrics goes over the names of
metrics that were only measured during the warm-up.
-/

namespace BenchCharts

variable {s : Store} {r : ChartRequest}

/-! ### Charts of some runs -/

/-- What is drawn for a run on an axis of a column, a metric or the errors. -/
theorem StyledRun.axisSeries_withoutWarmUp (x : StyledRun) {w : SeriesWindow}
    (hseconds : 0 ≤ w.trimmingSeconds) {axis : VerticalAxis} (haxis : ∀ id, axis ≠ .metricsAll id) :
    x.axisSeries (s.withoutWarmUp w.trimmingSeconds) { w with trimmingSeconds := 0 } axis =
      x.axisSeries s w axis := by
  cases axis with
  | buckets name axisId => simp only [axisSeries, s.bucketSeries_withoutWarmUp hseconds]
  | metric metric axisId => simp only [axisSeries, s.metricSeries_withoutWarmUp hseconds]
  | errors axisId => simp only [axisSeries, s.errorSeries_withoutWarmUp hseconds]
  -- This is the axis that would list names from the warm-up.
  | metricsAll axisId => exact absurd rfl (haxis axisId)

theorem LineChart.build_withoutWarmUp (hseconds : 0 ≤ r.trimmingSeconds)
    (haxes : ∀ axis ∈ r.verticalAxes, ∀ id, axis ≠ .metricsAll id)
    (hannotations : r.annotations = []) (runs : List Run) :
    build (s.withoutWarmUp r.trimmingSeconds) { r with trimmingSeconds := 0 } runs =
      build s r runs := by
  -- Run by run and axis by axis the same series are asked for.
  have hseries : ∀ styled, allSeries (s.withoutWarmUp r.trimmingSeconds)
      { r.window with trimmingSeconds := 0 } styled r.verticalAxes =
        allSeries s r.window styled r.verticalAxes := by
    intro styled
    rw [allSeries_eq_collect, allSeries_eq_collect]
    refine collect_congr fun axis haxis => collect_congr fun x _ => ?_
    exact x.axisSeries_withoutWarmUp (w := r.window) hseconds (haxes axis haxis)
  -- No run is asked for events.
  have hmarks : StyledRun.marks (s.withoutWarmUp r.trimmingSeconds) r.annotations =
      StyledRun.marks s r.annotations := by
    rw [hannotations]
    rfl
  rw [build_eq_collect, build_eq_collect]
  change (do
    (checkLineAxes r.verticalAxes).mapError ChartError.invalid
    let styled ← (styleRuns r.horizontalAxis runs).mapError ChartError.invalid
    let series ← allSeries (s.withoutWarmUp r.trimmingSeconds)
      { r.window with trimmingSeconds := 0 } styled r.verticalAxes
    let annotations ← collect
      (StyledRun.marks (s.withoutWarmUp r.trimmingSeconds) r.annotations) styled
    return LineChart.mk (styled.map StyledRun.run) series annotations) = _
  simp only [hseries, hmarks]

theorem BarChart.build_withoutWarmUp (hseconds : 0 ≤ r.trimmingSeconds) (runs : List Run) :
    build (s.withoutWarmUp r.trimmingSeconds) { r with trimmingSeconds := 0 } runs =
      build s r runs := by
  have hbars : ∀ measure : BarMeasure, measure.bars (s.withoutWarmUp r.trimmingSeconds)
      { r.aggregateQuery runs with trimmingSeconds := 0 } =
        measure.bars s (r.aggregateQuery runs) :=
    s.bars_withoutWarmUp (q := r.aggregateQuery runs) hseconds
  rw [build, build]
  change (do
    let measure ← r.measure.mapError ChartError.invalid
    let bars ← measure.bars (s.withoutWarmUp r.trimmingSeconds)
      { r.aggregateQuery runs with trimmingSeconds := 0 }
    let sorted ← (sortByLabel r.horizontalAxis.resultType Bar.label bars).mapError
      ChartError.invalid
    return ofBars runs sorted) = _
  simp only [hbars]

/-! ### Charts of requests -/

namespace ChartRequest

theorem trimmingSeconds_nonneg (h : r.validate = .ok ()) : 0 ≤ r.trimmingSeconds := by
  unfold validate at h
  split at h
  · cases h
  -- A negative bound is refused.
  · split at h
    · cases h
    · next hnonneg => exact not_lt.1 hnonneg

/-- A request that is valid stays valid without trimming. -/
theorem validate_untrimmed (h : r.validate = .ok ()) :
    validate { r with trimmingSeconds := 0 } = .ok () := by
  have hnonneg := trimmingSeconds_nonneg h
  rw [← h, validate, validate, if_neg (not_lt.2 hnonneg)]
  rfl

end ChartRequest

namespace Store

theorem draw_withoutWarmUp (hseconds : 0 ≤ r.trimmingSeconds)
    (haxes : ∀ axis ∈ r.verticalAxes, ∀ id, axis ≠ .metricsAll id)
    (hannotations : r.annotations = []) (runs : List Run) :
    (s.withoutWarmUp r.trimmingSeconds).draw { r with trimmingSeconds := 0 } runs =
      s.draw r runs := by
  rw [draw, draw, LineChart.build_withoutWarmUp hseconds haxes hannotations,
    BarChart.build_withoutWarmUp hseconds]

/-- Runs are looked for without regard to their rows. -/
theorem resolve_withoutWarmUp (seconds : Int) (gerritPrefix : String) :
    (s.withoutWarmUp seconds).resolve gerritPrefix { r with trimmingSeconds := 0 } =
      s.resolve gerritPrefix r := by
  rw [resolve, resolve, runs, runs]
  simp only [findRuns_withoutWarmUp]
  rfl

/-- **Trimming is leaving out.** Take any calls on a fresh store, among them the insertion of any
list of records, and the same calls with records that have nothing before some second. They insert
the same records, less what comes before that second, and the second store answers every valid
request without trimming as the first one does with that second as the end of the warm-up: with the
same chart or the same error. -/
theorem chart_withoutWarmUp (calls : List StoreCall) (gerritPrefix : String) {r : ChartRequest}
    (hvalid : r.validate = .ok ()) (haxes : ∀ axis ∈ r.verticalAxes, ∀ id, axis ≠ .metricsAll id)
    (hannotations : r.annotations = []) :
    fresh.accepted (calls.map (·.withoutWarmUp r.trimmingSeconds)) =
        (fresh.accepted calls).map (·.withoutWarmUp r.trimmingSeconds) ∧
      (fresh.afterAll (calls.map (·.withoutWarmUp r.trimmingSeconds))).chart gerritPrefix
          { r with trimmingSeconds := 0 } =
        (fresh.afterAll calls).chart gerritPrefix r := by
  have hfresh : fresh.withoutWarmUp r.trimmingSeconds = fresh := rfl
  have haccepted := accepted_withoutWarmUp r.trimmingSeconds fresh calls
  have hafter := afterAll_withoutWarmUp r.trimmingSeconds fresh calls
  rw [hfresh] at haccepted hafter
  refine ⟨haccepted, ?_⟩
  -- The checks and the runs are the same, so it is left to draw.
  have hnonneg := ChartRequest.trimmingSeconds_nonneg hvalid
  have haxesChecked : ChartRequest.checkAxes { r with trimmingSeconds := 0 } = r.checkAxes := rfl
  rw [hafter, chart_eq, chart_eq, ChartRequest.validate_untrimmed hvalid, hvalid, haxesChecked,
    resolve_withoutWarmUp]
  simp only [draw_withoutWarmUp hnonneg haxes hannotations]

/-- A record with samples of a metric before, just before and at the tenth second. -/
def samplesAroundBound : RunRecord :=
  let record := RunRecord.ofMetric "cpu" 5
  { record with
    metrics := [(-5, 9), (9, 8), (10, 5)].map fun (offset, value) =>
      ⟨offset, record.run.datetime, [("cpu", .num (.float value))]⟩ }

/-- The last of them is the only one to count from the tenth second on. -/
theorem metricSamples?_samplesAroundBound :
    (Tables.empty.append samplesAroundBound).metricSamples? ["cpu"] 10 "run" =
      some [⟨10, samplesAroundBound.run.datetime, .real 5⟩] := by
  have hfound : Json.Fields.search? [("cpu", .num (.float 5))] ["cpu"] =
      some (some (.num (.float 5))) := by cbv
  -- The other two are before the bound.
  have hcounted : afterWarmUp MetricSample.offset 10
      (Tables.ownedBy (Tables.empty.append samplesAroundBound).metrics "run") =
        [⟨10, samplesAroundBound.run.datetime, [("cpu", .num (.float 5))]⟩] := by rfl
  rw [Tables.metricSamples?, hcounted, List.mapM_cons, MetricSample.sample?, hfound,
    ← numberCell_five]
  rfl

/-- The greatest sample from the tenth second on is the one at the bound. -/
theorem chart_withoutWarmUp_samplesAroundBound :
    let calls := [StoreCall.initSchema, .insertRuns [samplesAroundBound]]
    let r := { ChartRequest.greatest "cpu" with trimmingSeconds := 10 }
    r.validate = .ok () ∧
      (fresh.afterAll calls).chart "" r =
        .ok (.bar ⟨[samplesAroundBound.run], ["x"], [5], [["run"]]⟩) ∧
      (fresh.afterAll (calls.map (·.withoutWarmUp 10))).chart "" { r with trimmingSeconds := 0 } =
        (fresh.afterAll calls).chart "" r := by
  intro calls r
  have hvalid : r.validate = .ok () := by cbv
  have hlabels : (r.aggregateQuery [samplesAroundBound.run]).runLabels = [("run", "x")] := by cbv
  -- The bar is that of the one sample that counts.
  have hbars : (BarMeasure.metric "cpu").bars (fresh.afterAll calls)
      (r.aggregateQuery [samplesAroundBound.run]) = .ok [⟨"x", 5, ["run"]⟩] :=
    (bars_of_metricSamples? rfl hlabels metricSamples?_samplesAroundBound).trans (by cbv)
  have hruns : (fresh.afterAll calls).resolve "" r = .ok [samplesAroundBound.run] := by cbv
  refine ⟨hvalid, chart_of_bars hvalid rfl (by decide) hruns hbars rfl, ?_⟩
  refine (chart_withoutWarmUp calls "" hvalid ?_ rfl).2
  intro axis haxis id
  obtain rfl := List.mem_singleton.1 haxis
  exact VerticalAxis.noConfusion

end Store

end BenchCharts

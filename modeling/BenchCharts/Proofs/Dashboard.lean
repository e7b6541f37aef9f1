import BenchCharts.Dashboard
import BenchCharts.Proofs.Chart.Bars
import BenchCharts.Proofs.Store.Search

/-!
# What a dashboard shows

A request goes through several steps, each of which may refuse it. Here they are put together
again: `nodup_ids_resolve` says that no two runs of a request share an id, `chart_eq_ok_of_full` how
a full chart comes about, and `chart_shows` what a bar chart shows of these runs.
-/

namespace BenchCharts

namespace Store

/-! ### The runs of a request -/

/-- Once a filter has been taken apart, runs are searched and then selected from. -/
theorem runs_of_compile (s : Store) {filter : Json.Fields} {compiled : CompiledFilter}
    (hcompile : CompiledFilter.compile filter = .ok compiled) (selection : RunSelection) :
    s.runs filter selection =
      (s.findRuns compiled).map fun found =>
        selection.apply (compiled.applyExclusions found) := by
  rw [Store.runs, hcompile]
  change (s.findRuns compiled >>= fun found =>
    pure (selection.apply (compiled.applyExclusions found))) = _
  cases s.findRuns compiled <;> rfl

/-- The runs of a request are some of those that are found, in their order. -/
theorem resolve_eq_ok {s : Store} {gerritPrefix : String} {r : ChartRequest} {runs : List Run}
    (h : s.resolve gerritPrefix r = .ok runs) :
    ∃ compiled found, CompiledFilter.compile r.comparisonFilter = .ok compiled ∧
      s.findRuns compiled = .ok found ∧ runs.Sublist found := by
  unfold resolve Store.runs at h
  obtain ⟨compiled, hcompiled, hrest⟩ := bind_eq_ok_iff.1 h
  obtain ⟨found, hfound, hpure⟩ := bind_eq_ok_iff.1 hrest
  obtain rfl := pure_eq_ok_iff.1 hpure
  refine ⟨compiled, found, mapError_eq_ok_iff.1 hcompiled, hfound, ?_⟩
  unfold RunSelection.apply CompiledFilter.applyExclusions
  exact List.filter_sublist.trans List.filter_sublist

/-- A request that has runs was asked of a store with tables, and no two of the runs share an id. -/
theorem nodup_ids_resolve {s : Store} (hs : s.Reachable) {gerritPrefix : String} {r : ChartRequest}
    {runs : List Run} (h : s.resolve gerritPrefix r = .ok runs) :
    ∃ t, s.tables = some t ∧ (runs.map Run.id).Nodup := by
  obtain ⟨compiled, found, -, hfound, hsub⟩ := resolve_eq_ok h
  obtain ⟨t, ht, -⟩ := query_eq_ok_iff.1 hfound
  have hids := nodup_ids_findRuns (hs.wellFormed t ht).ids ht hfound
  exact ⟨t, ht, hids.sublist (hsub.map Run.id)⟩

/-! ### Full charts -/

/-- The steps to a full chart, which is always a line chart. -/
theorem chart_eq_ok_of_full {s : Store} {gerritPrefix : String} {r : ChartRequest}
    (hfull : r.chartMode = .full) {chart : Chart} :
    s.chart gerritPrefix r = .ok chart ↔
      r.validate = .ok () ∧ checkLineAxes r.verticalAxes = .ok () ∧
        ∃ runs line, s.resolve gerritPrefix r = .ok runs ∧ LineChart.build s r runs = .ok line ∧
          chart = .line line := by
  rw [Store.chart, bind_eq_ok_iff]
  simp only [hfull, bind_eq_ok_iff, mapError_eq_ok_iff, pure_eq_ok_iff]
  constructor
  · rintro ⟨⟨⟩, hvalid, ⟨⟩, hcheck, runs, hruns, line, hline, rfl⟩
    exact ⟨hvalid, hcheck, runs, line, hruns, hline, rfl⟩
  · rintro ⟨hvalid, hcheck, runs, line, hruns, hline, rfl⟩
    exact ⟨(), hvalid, (), hcheck, runs, hruns, line, hline, rfl⟩

/-! ### Bar charts -/

theorem exists_bars_of_chart {s : Store} {gerritPrefix : String} {r : ChartRequest}
    (hmode : r.chartMode = .simplified) {chart : Chart}
    (h : s.chart gerritPrefix r = .ok chart) : ∃ bars, chart = .bar bars := by
  rw [Store.chart, bind_eq_ok_iff] at h
  simp only [hmode, bind_eq_ok_iff, pure_eq_ok_iff] at h
  obtain ⟨_, _, _, _, _, _, bars, _, hbars⟩ := h
  exact ⟨bars, hbars.symm⟩

/-- If every step to a bar chart succeeds, so does the chart. -/
theorem chart_of_bars {s : Store} {gerritPrefix : String} {r : ChartRequest}
    (hvalid : r.validate = .ok ()) (hmode : r.chartMode = .simplified) {measure : BarMeasure}
    (hmeasure : r.measure = .ok measure) {runs : List Run}
    (hruns : s.resolve gerritPrefix r = .ok runs) {bars sorted : List Bar}
    (hbars : measure.bars s (r.aggregateQuery runs) = .ok bars)
    (hsorted : sortByLabel r.horizontalAxis.resultType Bar.label bars = .ok sorted) :
    s.chart gerritPrefix r = .ok (.bar (BarChart.ofBars runs sorted)) := by
  have hbuild : BarChart.build s r runs = .ok (BarChart.ofBars runs sorted) := by
    unfold BarChart.build
    refine bind_eq_ok_iff.2 ⟨measure, mapError_eq_ok_iff.2 hmeasure, ?_⟩
    refine bind_eq_ok_iff.2 ⟨bars, hbars, ?_⟩
    exact bind_eq_ok_iff.2 ⟨sorted, mapError_eq_ok_iff.2 hsorted, rfl⟩
  rw [Store.chart, hvalid, hmode, hmeasure, hruns]
  exact bind_eq_ok_iff.2 ⟨_, rfl, bind_eq_ok_iff.2 ⟨_, rfl, bind_eq_ok_iff.2
    ⟨_, rfl, bind_eq_ok_iff.2 ⟨_, hbuild, rfl⟩⟩⟩⟩

/-- The steps to a bar chart. -/
theorem chart_eq_ok_bar {s : Store} {gerritPrefix : String} {r : ChartRequest} {chart : BarChart}
    (h : s.chart gerritPrefix r = .ok (.bar chart)) :
    ∃ measure runs bars sorted, r.measure = .ok measure ∧ s.resolve gerritPrefix r = .ok runs ∧
      measure.bars s (r.aggregateQuery runs) = .ok bars ∧
        sortByLabel r.horizontalAxis.resultType Bar.label bars = .ok sorted ∧
          chart = BarChart.ofBars runs sorted := by
  unfold Store.chart at h
  obtain ⟨-, -, hrest⟩ := bind_eq_ok_iff.1 h
  split at hrest
  · -- The measure is checked before the store is asked, and looked at again by the chart.
    obtain ⟨-, -, hrest⟩ := bind_eq_ok_iff.1 hrest
    obtain ⟨runs, hruns, hrest⟩ := bind_eq_ok_iff.1 hrest
    obtain ⟨built, hbuilt, hpure⟩ := bind_eq_ok_iff.1 hrest
    cases pure_eq_ok_iff.1 hpure
    unfold BarChart.build at hbuilt
    -- The steps of the chart itself.
    obtain ⟨measure, hmeasure, hrest⟩ := bind_eq_ok_iff.1 hbuilt
    obtain ⟨bars, hbars, hrest⟩ := bind_eq_ok_iff.1 hrest
    obtain ⟨sorted, hsorted, hpure⟩ := bind_eq_ok_iff.1 hrest
    exact ⟨measure, runs, bars, sorted, mapError_eq_ok_iff.1 hmeasure, hruns, hbars,
      mapError_eq_ok_iff.1 hsorted, (pure_eq_ok_iff.1 hpure).symm⟩
  · -- A full chart is no bar chart.
    obtain ⟨-, -, hrest⟩ := bind_eq_ok_iff.1 hrest
    obtain ⟨runs, -, hrest⟩ := bind_eq_ok_iff.1 hrest
    obtain ⟨line, -, hpure⟩ := bind_eq_ok_iff.1 hrest
    cases pure_eq_ok_iff.1 hpure

/-- **What a bar chart shows.** It always shows the cells that the store reads. These are the cells
of the usable samples if a column is drawn, or a metric that is found where its path says, and the
usable cells themselves if also each number of the metric is read as it is. In general the chart
shows the usable cells exactly if they lead to the same value for every label. -/
theorem chart_shows {s : Store} (hs : s.Reachable) {gerritPrefix : String} {r : ChartRequest}
    {chart : BarChart} (h : s.chart gerritPrefix r = .ok (.bar chart)) :
    ∃ t runs measure, s.tables = some t ∧ s.resolve gerritPrefix r = .ok runs ∧
      r.measure = .ok measure ∧ chart.runs = runs ∧
      chart.Shows r runs (cellsOf (measure.samples? t r.trimmingSeconds)) ∧
      (chart.Shows r runs (measure.usableCells t r.trimmingSeconds) ↔
        ∀ label, (r.aggregateQuery runs).value? (measure.usableCells t r.trimmingSeconds) label =
          (r.aggregateQuery runs).value? (cellsOf (measure.samples? t r.trimmingSeconds)) label) ∧
      (measure.Legible t →
        chart.Shows r runs (measure.cells Json.numberCell t r.trimmingSeconds)) ∧
      (measure.Legible t → measure.ReadAsIs t →
        chart.Shows r runs (measure.usableCells t r.trimmingSeconds)) := by
  obtain ⟨measure, runs, bars, sorted, hmeasure, hruns, hbars, hsorted, rfl⟩ := chart_eq_ok_bar h
  obtain ⟨t, ht, hids⟩ := nodup_ids_resolve hs hruns
  have hread := BarMeasure.isNumeric_cellsOf t r.trimmingSeconds measure
  have husable := BarMeasure.isNumeric_usableCells t r.trimmingSeconds measure
  -- What is read is numeric, so a merged cell is null or a value.
  have hshows := ofBars_shows hids hread (BarMeasure.bars_eq_ok ht hbars) hsorted
  have hlegible : measure.Legible t → (BarChart.ofBars runs sorted).Shows r runs
      (measure.cells Json.numberCell t r.trimmingSeconds) := by
    intro hlegible
    rw [← BarMeasure.cellsOf_eq_cells r.trimmingSeconds hlegible]
    exact hshows
  refine ⟨t, runs, measure, ht, hruns, hmeasure, rfl, hshows, ?_, hlegible, fun hfound hasIs => ?_⟩
  · exact hshows.iff_value? hids hread husable
  · rw [← BarMeasure.cells_eq_usableCells r.trimmingSeconds hasIs]
    exact hlegible hfound

end Store

/-- A record of a run of an SDK with one sample of a metric. -/
def RunRecord.ofMetric (metric : String) (value : Float) : RunRecord :=
  let record := RunRecord.ofParams [("sdk", .str "x")]
  { record with metrics := [⟨0, record.run.datetime, [(metric, .num (.float value))]⟩] }

theorem RunRecord.normal_ofMetric (metric : String) (value : Float) :
    (ofMetric metric value).Normal := by
  refine ⟨?_, by simp [ofMetric, ofParams], ?_, by simp [ofMetric, ofParams]⟩
  · simp [ofMetric, ofParams, Json.Normal, Json.NormalFields, Json.Fields.Ascending]
  · simp [ofMetric, Json.Normal, Json.NormalFields, Json.Fields.Ascending]

/-- A request for the greatest sample of a metric for each SDK. -/
def ChartRequest.greatest (metric : String) : ChartRequest where
  horizontalAxis := ⟨"sdk", .string⟩
  verticalAxes := [.metric metric "y"]
  comparisonFilter := []
  chartMode := .simplified
  mergePolicy := .maximum
  mergeAlgorithm := .maximum
  trimmingSeconds := 0
  bucketiseSeconds := none
  excludeSnapshots := false
  excludeGerrit := false
  runFilterMode := .all
  annotations := []

namespace Store

section OneMetric

variable {s : Store} {t : Tables} {runId : String} {value : Float}

/-- A query about one run alone is one about its samples. -/
theorem bars_of_metricSamples? (ht : s.tables = some t) {q : AggregateQuery} {label : String}
    (hruns : q.runLabels = [(runId, label)]) {samples : List Sample}
    (hread : t.metricSamples? ["cpu"] q.trimmingSeconds runId = some samples) :
    (BarMeasure.metric "cpu").bars s q =
      answer .aggregateMetric (q.evaluate? fun _ => some samples) := by
  have hcheck : FieldPath.check "cpu" = .ok ["cpu"] := by cbv
  -- The run is the only one that is asked for.
  have hsamples : ∀ rl ∈ q.runLabels,
      t.metricSamples? ["cpu"] q.trimmingSeconds rl.1 = some samples := by
    intro rl hrl
    rw [hruns] at hrl
    rw [List.mem_singleton.1 hrl]
    exact hread
  rw [BarMeasure.bars, aggregateMetric, hcheck, hruns]
  simp only [query_of_tables ht]
  exact congrArg (answer .aggregateMetric) (AggregateQuery.evaluate?_congr hsamples)

variable (hrows : Tables.ownedBy t.metrics runId = (RunRecord.ofMetric "cpu" value).metrics)
  (hread : Json.numberCell (.float value) = .real value)

include hrows hread

/-- If the only sample of a run is read as it is, that is what is read of the run. -/
theorem metricSamples?_ofMetric : t.metricSamples? ["cpu"] 0 runId =
    some [⟨0, (RunRecord.ofMetric "cpu" value).run.datetime, .real value⟩] := by
  have hsample : ∀ m ∈ Tables.ownedBy t.metrics runId, m.sample? ["cpu"] =
      some ⟨m.offset, m.initiated, .real value⟩ := by
    intro m hm
    rw [hrows] at hm
    obtain rfl := List.mem_singleton.1 hm
    -- The path has one key, and the only member has it.
    have hfound : Json.Fields.search? [("cpu", .num (.float value))] ["cpu"] =
        some (some (.num (.float value))) := by cbv
    rw [MetricSample.sample?, hfound, ← hread]
    rfl
  rw [Tables.metricSamples?_eq hsample, hrows]
  rfl

/-- Then the series of the run has one point. -/
theorem metricSeries_ofMetric (ht : s.tables = some t) :
    s.metricSeries runId "cpu" ⟨0, none, .maximum⟩ =
      .ok [⟨0, value, runId, (RunRecord.ofMetric "cpu" value).run.datetime⟩] := by
  have hcheck : FieldPath.check "cpu" = .ok ["cpu"] := by cbv
  rw [metricSeries, hcheck]
  simp only [query_of_tables ht, metricSamples?_ofMetric hrows hread, Option.bind_some]
  cbv

/-- Then a query about the run alone is one about this sample. -/
theorem bars_ofMetric (ht : s.tables = some t) {q : AggregateQuery} {label : String}
    (hruns : q.runLabels = [(runId, label)]) (htrimming : q.trimmingSeconds = 0) :
    (BarMeasure.metric "cpu").bars s q = answer .aggregateMetric (q.evaluate? fun _ =>
      some [⟨0, (RunRecord.ofMetric "cpu" value).run.datetime, .real value⟩]) :=
  bars_of_metricSamples? ht hruns (htrimming ▸ metricSamples?_ofMetric hrows hread)

end OneMetric

/-- A request for all runs has the only one, whatever its metric is. -/
theorem resolve_ofMetric (metric : String) (value : Float) :
    (single (.ofMetric metric value)).resolve "" (.greatest metric) =
      .ok [(RunRecord.ofMetric metric value).run] := by
  cbv

/-- A number that is read as it is, in a chart. -/
theorem chart_ofMetric {value : Float} (hread : Json.numberCell (.float value) = .real value) :
    (single (.ofMetric "cpu" value)).chart "" (.greatest "cpu") =
      .ok (.bar ⟨[(RunRecord.ofMetric "cpu" value).run], ["x"], [value], [["run"]]⟩) := by
  have hmeasure : (ChartRequest.greatest "cpu").measure = .ok (.metric "cpu") := by decide
  have hrows : Tables.ownedBy (Tables.empty.append (.ofMetric "cpu" value)).metrics "run" =
      (RunRecord.ofMetric "cpu" value).metrics := rfl
  have hlabels : ((ChartRequest.greatest "cpu").aggregateQuery
      [(RunRecord.ofMetric "cpu" value).run]).runLabels = [("run", "x")] := by cbv
  have hbars := (bars_ofMetric (s := single (.ofMetric "cpu" value)) hrows hread rfl hlabels rfl)
  exact chart_of_bars (by decide) rfl hmeasure (resolve_ofMetric ..) (hbars.trans (by cbv)) rfl

theorem numberCell_five : Json.numberCell (.float 5) = .real 5 := by decide +kernel

/-- The metric of the run is found, and its number is read as it is. -/
theorem legible_ofMetric :
    (BarMeasure.metric "cpu").Legible (Tables.empty.append (.ofMetric "cpu" 5)) ∧
      (BarMeasure.metric "cpu").ReadAsIs (Tables.empty.append (.ofMetric "cpu" 5)) := by
  refine ⟨⟨by decide, fun row hrow => ⟨?_, ?_⟩⟩, fun row hrow n hn => ?_⟩
  -- There is only one row to look at.
  all_goals obtain rfl := List.mem_singleton.1 hrow
  · decide
  · exact StoredKey.namesLegible_of_flat (by simp [Json.isObject])
  · have hat : ∀ value, Json.Fields.at? [("cpu", .num (.float value))] "cpu" =
        some (.num (.float value)) := fun value => by cbv
    obtain rfl : .float 5 = n := by simpa using (hat 5).symm.trans hn
    exact numberCell_five

/-- A metric whose name is plain, and a chart that shows its only sample. -/
theorem chart_shows_plainMetric :
    ∃ t runs chart, (single (.ofMetric "cpu" 5)).tables = some t ∧
      (single (.ofMetric "cpu" 5)).chart "" (.greatest "cpu") = .ok (.bar chart) ∧
      chart.labels = ["x"] ∧ chart.values = [5] ∧
      chart.Shows (.greatest "cpu") runs (BarMeasure.usableCells t 0 (.metric "cpu")) := by
  have hs := Reachable.single (RunRecord.normal_ofMetric "cpu" 5)
  have hchart := chart_ofMetric numberCell_five
  -- The chart is the one that is drawn, and its metric the one that is asked for.
  obtain ⟨t, runs, measure, ht, -, hmeasure, -, -, -, -, hshows⟩ := chart_shows hs hchart
  have hcpu : (ChartRequest.greatest "cpu").measure = .ok (.metric "cpu") := by cbv
  obtain rfl : .metric "cpu" = measure := Except.ok.inj (hcpu.symm.trans hmeasure)
  obtain rfl := Option.some.inj ht
  exact ⟨_, runs, _, rfl, hchart, rfl, rfl, hshows legible_ofMetric.1 legible_ofMetric.2⟩

/-- A metric whose name has a backslash, and a chart without the bar of its only sample. -/
theorem not_shows_backslashMetric :
    ∃ t runs chart, (single (.ofMetric "a\\b" 5)).Reachable ∧
      (single (.ofMetric "a\\b" 5)).tables = some t ∧
      (single (.ofMetric "a\\b" 5)).resolve "" (.greatest "a\\b") = .ok runs ∧
      (single (.ofMetric "a\\b" 5)).chart "" (.greatest "a\\b") = .ok (.bar chart) ∧
      (ChartRequest.greatest "a\\b").measure = .ok (.metric "a\\b") ∧
      ¬ chart.Shows (.greatest "a\\b") runs
          (BarMeasure.usableCells t 0 (.metric "a\\b")) := by
  have hs := Reachable.single (RunRecord.normal_ofMetric "a\\b" 5)
  have hruns := resolve_ofMetric "a\\b" 5
  have hmeasure : (ChartRequest.greatest "a\\b").measure = .ok (.metric "a\\b") := by decide
  have hbars : (BarMeasure.metric "a\\b").bars (single (.ofMetric "a\\b" 5))
      ((ChartRequest.greatest "a\\b").aggregateQuery [(RunRecord.ofMetric "a\\b" 5).run]) =
        .ok [] := by cbv
  have hchart := chart_of_bars (by decide) rfl hmeasure hruns hbars rfl
  refine ⟨_, _, _, hs, rfl, hruns, hchart, hmeasure, fun hshows => ?_⟩
  -- The run has a usable cell, which merges to itself.
  have hcells : ∀ value, BarMeasure.usableCells (Tables.empty.append (.ofMetric "a\\b" value)) 0
      (.metric "a\\b") "run" = [.real value] := fun value => by cbv
  have hmerged : ∀ value, ((ChartRequest.greatest "a\\b").aggregateQuery
      [(RunRecord.ofMetric "a\\b" value).run]).merged? (BarMeasure.usableCells
        (Tables.empty.append (.ofMetric "a\\b" value)) 0 (.metric "a\\b")) "x" =
          some (.real value) := fun value => by cbv
  have hlabel : (RunRecord.ofMetric "a\\b" 5).run.params.labelAt? "sdk" = some "x" := by cbv
  -- So its label should be there, but there are no labels.
  have hmissing := (hshows.labels "x").2
    ⟨⟨_, List.mem_singleton.2 rfl, hlabel, ne_of_eq_of_ne (hcells 5) (List.cons_ne_nil _ _)⟩,
      .real 5, hmerged 5, rfl⟩
  cases hmissing

end Store

/-! ### Runs of versions -/

/-- A record of a run of an SDK version with one sample of a metric. -/
def RunRecord.ofVersion (id version : String) (value : Float) : RunRecord :=
  let record := RunRecord.ofMetric "cpu" value
  { record with run := ⟨id, record.run.datetime, [("impl", .obj [("version", .str version)])]⟩ }

theorem RunRecord.normal_ofVersion (id version : String) (value : Float) :
    (ofVersion id version value).Normal := by
  have hmetric := normal_ofMetric "cpu" value
  refine ⟨?_, hmetric.errors, hmetric.metrics, hmetric.details⟩
  simp [ofVersion, Json.Normal, Json.NormalFields, Json.Fields.Ascending]

/-- A request for a line for each run on some axes, by SDK version. -/
def ChartRequest.linesByVersion (axes : List VerticalAxis) : ChartRequest :=
  { ChartRequest.greatest "cpu" with
    horizontalAxis := .sdkVersion
    chartMode := .full
    verticalAxes := axes }

end BenchCharts

import BenchCharts.Proofs.Chart.Lines
import BenchCharts.Proofs.Dashboard

/-!
# A run alone and among others

A run that is on a full chart by SDK version can also be drawn alone, with the same axes and window.
Both charts show the same of it. What a chart shows of a run is told by its id, so this comes in two
steps: a chart of one run is the part with its id of any chart with the run on it
(`LineChart.exists_build_singleton`), and the run that is found by an id is the one that was found
by the filter (`Store.run?_of_mem_resolve`).

The color is the one thing that others have a say in, since it goes by the place of the run.
-/

namespace BenchCharts

variable {store : Store} {r : ChartRequest}

/-- The request for the same lines and events of one run. -/
def ChartRequest.forRun (r : ChartRequest) (runId : String) : RunChartRequest where
  runId := runId
  verticalAxes := r.verticalAxes
  mergeAlgorithm := r.mergeAlgorithm
  trimmingSeconds := r.trimmingSeconds
  bucketiseSeconds := r.bucketiseSeconds
  annotations := r.annotations

/-! ### The part of a chart that belongs to a run -/

/-- A chart shows one run, and of it what another chart shows, except for the color. -/
structure LineChart.IsPartOf (alone chart : LineChart) (run : Run) (color : String) : Prop where
  /-- The run is the only one. -/
  runs : alone.runs = [run]
  /-- The series are those of the run on the other chart, where they have a color of their own. -/
  series : chart.series.filter (·.runId = run.id) = alone.series.map (Series.recolored color)
  /-- The annotations are those of the run on the other chart. -/
  annotations : alone.annotations = chart.annotations.filter (·.runId = run.id)

/-- The series of a run drawn at another place are in another color. -/
theorem seriesOf_at (field : String) (run : Run) (place : Nat) (window : SeriesWindow)
    (axis : VerticalAxis) :
    seriesOf store window axis (.at field run place) =
      (seriesOf store window axis (.at field run 0)).map (Series.recolored (colorAt place)) := by
  have hsame : StyledRun.axisSeries (.at field run place) store window axis =
      (StyledRun.axisSeries (.at field run 0) store window axis).map
        (List.map (Series.recolored (colorAt place))) :=
    StyledRun.axisSeries_recolored store window (.at field run 0) (colorAt place) axis
  -- The store has no say in the color, and an error has none.
  rw [seriesOf, resultsOf, hsame, resultsOf]
  cases StyledRun.axisSeries (.at field run 0) store window axis <;> rfl

section Part

variable {styled : List StyledRun} (hids : (styled.map fun s => s.run.id).Nodup) {s : StyledRun}
  (hs : s ∈ styled)

include hids hs

/-- The series with the id of a run are the series of that run. -/
theorem filter_allSeries {window : SeriesWindow} {axes : List VerticalAxis} {series : List Series}
    (hseries : allSeries store window styled axes = .ok series) :
    series.filter (·.runId = s.run.id) = axes.flatMap fun axis => seriesOf store window axis s := by
  obtain ⟨hall, rfl⟩ := allSeries_eq_ok_iff.1 hseries
  rw [List.filter_flatMap]
  -- On every axis each series has the id of the run that it was drawn for.
  refine List.flatMap_congr fun axis haxis => ?_
  refine filter_flatMap_owner (fun other hother x hx => ?_) hids hs
  obtain ⟨label, points, rfl⟩ := StyledRun.mem_axisSeries (hall axis haxis other hother) x hx
  rfl

/-- The annotations with the id of a run are the annotations of that run. -/
theorem marks_eq_ok_filter {requests : List AnnotationRequest} {annotations : List Annotation}
    (hmarks : collect (StyledRun.marks store requests) styled = .ok annotations) :
    s.marks store requests = .ok (annotations.filter (·.runId = s.run.id)) := by
  obtain ⟨hall, rfl⟩ := collect_eq_ok_iff.1 hmarks
  have hown : ∀ other ∈ styled, ∀ a ∈ resultsOf (StyledRun.marks store requests) other,
      a.runId = other.run.id :=
    fun other hother => StyledRun.mem_marks (hall other hother)
  rw [filter_flatMap_owner hown hids hs]
  exact hall s hs

end Part

/-- **What a chart of many shows of a run is a chart of the run alone**, colors aside. -/
theorem LineChart.exists_build_singleton {runs : List Run} {chart : LineChart}
    (hids : (runs.map Run.id).Nodup) (htype : r.horizontalAxis.resultType ≠ .integer)
    (h : build store r runs = .ok chart) {place : Nat} {run : Run}
    (hrun : chart.runs[place]? = some run) :
    run ∈ runs ∧ ∃ alone, build store r [run] = .ok alone ∧
      alone.IsPartOf chart run (colorAt place) := by
  obtain ⟨hcheck, styled, hstyled, hruns, hseries, hmarks⟩ := build_eq_ok_iff.1 h
  obtain ⟨ordered, hperm, rfl⟩ := styleRuns_eq_ok hstyled
  rw [hruns, map_run_drawnFrom] at hrun
  -- The run as it is drawn among the others, and as it is drawn alone.
  let among := StyledRun.at r.horizontalAxis.field run place
  let alone := StyledRun.at r.horizontalAxis.field run 0
  have hamong : among ∈ drawnFrom r.horizontalAxis.field 0 ordered := by
    have hmem : .at r.horizontalAxis.field run (0 + place) ∈
        drawnFrom r.horizontalAxis.field 0 ordered := mem_drawnFrom hrun
    rwa [Nat.zero_add] at hmem
  have hnodup : ((drawnFrom r.horizontalAxis.field 0 ordered).map fun s => s.run.id).Nodup := by
    rw [map_id_drawnFrom]
    exact (hperm.map Run.id).nodup_iff.2 hids
  -- The annotations of the run do not depend on its color.
  have hmark : alone.marks store r.annotations =
      .ok (chart.annotations.filter (·.runId = run.id)) :=
    (StyledRun.marks_recolored store among (colorAt 0) r.annotations).trans
      (marks_eq_ok_filter hnodup hamong hmarks)
  -- What can be drawn for the run among others can be drawn for it alone.
  have haxes : ∀ axis ∈ r.verticalAxes, ∀ s ∈ [alone],
      s.axisSeries store r.window axis = .ok (seriesOf store r.window axis s) := by
    intro axis haxis s hs
    obtain rfl := List.mem_singleton.1 hs
    have hdrawn := (allSeries_eq_ok_iff.1 hseries).1 axis haxis among hamong
    have hsame : alone.axisSeries store r.window axis =
        (among.axisSeries store r.window axis).map (List.map (Series.recolored (colorAt 0))) :=
      StyledRun.axisSeries_recolored store r.window among (colorAt 0) axis
    rw [hdrawn] at hsame
    exact eq_ok_resultsOf hsame
  have hbuild : build store r [run] = .ok
      { runs := [run]
        series := r.verticalAxes.flatMap fun axis => [alone].flatMap (seriesOf store r.window axis)
        annotations := chart.annotations.filter (·.runId = run.id) } := by
    refine build_eq_ok_iff.2 ⟨hcheck, [alone], styleRuns_singleton htype run, rfl, ?_, ?_⟩
    · exact allSeries_eq_ok_iff.2 ⟨haxes, rfl⟩
    · rw [collect, hmark]
      exact congrArg Except.ok (List.append_nil _)
  refine ⟨hperm.mem_iff.1 (List.mem_of_getElem? hrun), _, hbuild, rfl, ?_, rfl⟩
  -- By the id of the run its series are found again among all others.
  have hfilter := filter_allSeries hnodup hamong hseries
  refine hfilter.trans ?_
  rw [List.map_flatMap]
  refine List.flatMap_congr fun axis _ => ?_
  rw [List.flatMap_singleton]
  exact seriesOf_at r.horizontalAxis.field run place r.window axis

/-! ### Finding the run -/

namespace Store

/-- A stored run that can be read is found by its id. -/
theorem run?_of_mem {s : Store} {t : Tables} (ht : s.tables = some t)
    (hids : (t.runs.map Run.id).Nodup) {stored run : Run} (hstored : stored ∈ t.runs)
    (hread : stored.loaded? = some run) : s.run? run.id = .ok (some run) := by
  obtain ⟨-, rfl⟩ := Run.loaded?_eq_some_iff.1 hread
  -- Reading a run back leaves its id alone.
  change s.run? stored.id = _
  rw [run?, query_of_tables ht, (find?_key_eq_some_iff hids).2 ⟨hstored, rfl⟩]
  exact answer_eq_ok_iff.2 (congrArg (Option.map some) hread)

/-- A run of a request is found by its id as well. -/
theorem run?_of_mem_resolve {s : Store} (hs : s.Reachable) {gerritPrefix : String}
    {runs : List Run} (hruns : s.resolve gerritPrefix r = .ok runs) {run : Run}
    (hrun : run ∈ runs) : s.run? run.id = .ok (some run) := by
  obtain ⟨compiled, found, -, hfound, hsub⟩ := resolve_eq_ok hruns
  obtain ⟨t, ht, -⟩ := query_eq_ok_iff.1 hfound
  obtain ⟨⟨stored, hstored, hread, -⟩, -⟩ := (mem_findRuns_iff ht hfound).1 (hsub.subset hrun)
  exact run?_of_mem ht (hs.wellFormed t ht).ids hstored hread

/-- The steps to the chart of one run. -/
theorem runChart_eq_ok_iff {s : Store} {request : RunChartRequest} {chart : LineChart} :
    s.runChart request = .ok chart ↔
      request.toChartRequest.validate = .ok () ∧ checkLineAxes request.verticalAxes = .ok () ∧
        ∃ run, s.run? request.runId = .ok (some run) ∧
          LineChart.build s request.toChartRequest [run] = .ok chart := by
  simp only [runChart, bind_eq_ok_iff, mapError_eq_ok_iff]
  constructor
  · rintro ⟨⟨⟩, hvalid, ⟨⟩, hcheck, found, hfound, hbuild⟩
    cases found with
    | none => cases hbuild
    | some run => exact ⟨hvalid, hcheck, run, hfound, hbuild⟩
  · rintro ⟨hvalid, hcheck, run, hfound, hbuild⟩
    exact ⟨(), hvalid, (), hcheck, some run, hfound, hbuild⟩

/-- **What is drawn for a run does not depend on the runs around it.** If a full chart by SDK
version can be drawn, then so can the same chart of each of its runs alone, and it shows what the
chart of all shows of that run, except for the color. -/
theorem runChart_isPartOf_chart {s : Store} (hs : s.Reachable) {gerritPrefix : String}
    (hfull : r.chartMode = .full) (haxis : r.horizontalAxis = .sdkVersion) {chart : Chart}
    (h : s.chart gerritPrefix r = .ok chart) :
    ∃ line, chart = .line line ∧ ∀ place run, line.runs[place]? = some run →
      ∃ alone, s.runChart (r.forRun run.id) = .ok alone ∧
        alone.IsPartOf line run (colorAt place) := by
  obtain ⟨hvalid, hcheck, runs, line, hruns, hline, rfl⟩ := (chart_eq_ok_of_full hfull).1 h
  refine ⟨line, rfl, fun place run hrun => ?_⟩
  -- The runs of a request have different ids, so the id tells what belongs to a run.
  obtain ⟨-, -, hids⟩ := nodup_ids_resolve hs hruns
  have htype : r.horizontalAxis.resultType ≠ .integer := by
    rw [haxis]
    decide
  obtain ⟨hmem, alone, halone, hpart⟩ :=
    LineChart.exists_build_singleton hids htype hline hrun
  refine ⟨alone, runChart_eq_ok_iff.2 ⟨?_, hcheck, run, ?_, ?_⟩, hpart⟩
  · -- The request for the run has the same axes and window, so it is as valid.
    rw [ChartRequest.validate, haxis] at hvalid
    exact hvalid
  · exact run?_of_mem_resolve hs hruns hmem
  · have hsame : LineChart.build s (r.forRun run.id).toChartRequest [run] =
        LineChart.build s r [run] := by
      rw [LineChart.build, LineChart.build, haxis]
      rfl
    rw [hsame]
    exact halone

/-- A store with a run of each of two versions. -/
def twoVersions (x y : Float) : Store :=
  ⟨some (.ofRecords [.ofVersion "a" "1.0.0" x, .ofVersion "b" "2.0.0" y])⟩

theorem reachable_twoVersions (x y : Float) : (twoVersions x y).Reachable :=
  .ofRecords (by simp [Tables.recordIds, RunRecord.ofVersion])
    (by simp [RunRecord.normal_ofVersion])

/-- Each of them has a sample. -/
theorem metricSeries_twoVersions :
    (twoVersions 5 7).metricSeries "a" "cpu" ⟨0, none, .maximum⟩ =
        .ok [⟨0, 5, "a", (RunRecord.ofMetric "cpu" 5).run.datetime⟩] ∧
      (twoVersions 5 7).metricSeries "b" "cpu" ⟨0, none, .maximum⟩ =
        .ok [⟨0, 7, "b", (RunRecord.ofMetric "cpu" 7).run.datetime⟩] := by
  have hrows : ∀ x y, Tables.ownedBy
      (Tables.ofRecords [.ofVersion "a" "1.0.0" x, .ofVersion "b" "2.0.0" y]).metrics "a" =
        (RunRecord.ofMetric "cpu" x).metrics := fun x y => by cbv
  have hrows' : ∀ x y, Tables.ownedBy
      (Tables.ofRecords [.ofVersion "a" "1.0.0" x, .ofVersion "b" "2.0.0" y]).metrics "b" =
        (RunRecord.ofMetric "cpu" y).metrics := fun x y => by cbv
  have hseven : Json.numberCell (.float 7) = .real 7 := by decide +kernel
  exact ⟨metricSeries_ofMetric (hrows 5 7) numberCell_five rfl,
    metricSeries_ofMetric (hrows' 5 7) hseven rfl⟩

/-- Two runs on one chart, and the second of them alone. -/
theorem runChart_isPartOf_chart_twoVersions :
    ∃ line alone,
      (twoVersions 5 7).chart "" (.linesByVersion [.metric "cpu" "y"]) = .ok (.line line) ∧
      line.runs.map Run.id = ["a", "b"] ∧
      (twoVersions 5 7).runChart ((ChartRequest.linesByVersion [.metric "cpu" "y"]).forRun "b") =
        .ok alone ∧
      alone.IsPartOf line (RunRecord.ofVersion "b" "2.0.0" 7).run (colorAt 1) := by
  let r := ChartRequest.linesByVersion [.metric "cpu" "y"]
  let a := (RunRecord.ofVersion "a" "1.0.0" 5).run
  let b := (RunRecord.ofVersion "b" "2.0.0" 7).run
  have hfull : r.chartMode = .full := rfl
  have hruns : (twoVersions 5 7).resolve "" r = .ok [a, b] := by cbv
  have hvalid : r.validate = .ok () := by decide
  have hcheck : checkLineAxes r.verticalAxes = .ok () := by decide
  have hstyled : styleRuns r.horizontalAxis [a, b] = .ok (drawnFrom "impl.version" 0 [a, b]) := by
    cbv
  -- Both runs have a series on the axis.
  obtain ⟨series, hseries⟩ : ∃ series, allSeries (twoVersions 5 7) r.window
      (drawnFrom "impl.version" 0 [a, b]) r.verticalAxes = .ok series := by
    refine ⟨_, allSeries_eq_ok_iff.2 ⟨fun axis haxis drawn hdrawn => ?_, rfl⟩⟩
    obtain rfl := List.mem_singleton.1 haxis
    obtain ⟨points, hpoints⟩ : ∃ points, (twoVersions 5 7).metricSeries drawn.run.id "cpu"
        ⟨0, none, .maximum⟩ = .ok points := by
      rcases List.mem_pair.1 (of_mem_drawnFrom drawn hdrawn).1 with hrun | hrun <;> rw [hrun]
      · exact ⟨_, metricSeries_twoVersions.1⟩
      · exact ⟨_, metricSeries_twoVersions.2⟩
    exact eq_ok_resultsOf (bind_eq_ok_iff.2 ⟨points, hpoints, rfl⟩)
  have hbuild : LineChart.build (twoVersions 5 7) r [a, b] = .ok ⟨[a, b], series, []⟩ := by
    refine LineChart.build_eq_ok_iff.2 ⟨hcheck, _, hstyled, ?_, hseries, rfl⟩
    rw [map_run_drawnFrom]
  have hchart : (twoVersions 5 7).chart "" r = .ok (.line ⟨[a, b], series, []⟩) :=
    (chart_eq_ok_of_full hfull).2 ⟨hvalid, hcheck, _, _, hruns, hbuild, rfl⟩
  obtain ⟨line, heq, hparts⟩ :=
    runChart_isPartOf_chart (reachable_twoVersions 5 7) hfull rfl hchart
  cases heq
  obtain ⟨alone, halone, hpart⟩ := hparts 1 b rfl
  exact ⟨_, alone, hchart, rfl, halone, hpart⟩

end Store

end BenchCharts

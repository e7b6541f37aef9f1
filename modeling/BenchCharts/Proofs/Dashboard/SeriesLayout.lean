import BenchCharts.Proofs.Dashboard.Metrics
import BenchCharts.Proofs.Store.Series

/-!
# How the series of a line chart are laid out

The series of a line chart are one flat list. It is read by position: the axes stand one after the
other as they were requested, and on each of them the runs stand as they do in the chart. What a run
has on an axis is a block of series, which may be empty.

`VerticalAxis.Plots` says what the block is, with one rule for each kind of axis: buckets and errors
have one series whether or not there are points, a metric has one only if there are points, and all
metrics have one for each name with points. `Series.BelongsTo` says what every series of a block
carries of the axis, of the run and of its place. The place counts runs only, so an empty block
takes no color away from the runs after it, and a run has the same color on every axis.

`StyledRun.plots_of_axisSeries` is the step, a run on an axis. A chart is all of these steps in
order (`LineChart.laidOut_of_build`).
-/

namespace BenchCharts

/-! ### A block of series -/

/-- What a series carries of an axis and of a run that stands at a place. -/
structure Series.BelongsTo (x : Series) (axis : VerticalAxis) (run : Run) (place : Nat) :
    Prop where
  /-- The id of the axis. -/
  axisId : x.axisId = axis.axisId
  /-- The id of the run. -/
  runId : x.runId = run.id
  /-- The color of the place. When all colors are used they start again. -/
  color : palette[place % palette.length]? = some x.color
  /-- Points of the run and of no other. -/
  points : ∀ p ∈ x.points, p.runId = run.id

/-- The block of series that an axis has for a run with a label. -/
inductive VerticalAxis.Plots (store : Store) (t : Tables) (w : SeriesWindow)
    (label runId : String) : VerticalAxis → List Series → Prop
  /-- A column has one series, even without points. -/
  | buckets {name axisId : String} {column : BucketColumn} {x : Series}
      (hname : BucketColumn.ofName name = .ok column) (hlabel : x.label = label)
      (hpoints : store.bucketSeries runId column w = .ok x.points) :
      Plots store t w label runId (.buckets name axisId) [x]
  /-- So have the errors. -/
  | errors {axisId : String} {x : Series} (hlabel : x.label = label)
      (hpoints : store.errorSeries runId w = .ok x.points) :
      Plots store t w label runId (.errors axisId) [x]
  /-- A metric with points has one series. -/
  | metric {path axisId : String} {x : Series} (hlabel : x.label = label)
      (hpoints : store.metricSeries runId path w = .ok x.points) (hne : x.points ≠ []) :
      Plots store t w label runId (.metric path axisId) [x]
  /-- A metric without points has none. -/
  | noPoints {path axisId : String} (hpoints : store.metricSeries runId path w = .ok []) :
      Plots store t w label runId (.metric path axisId) []
  /-- Among all metrics of the run, in the order of their names, those with points have one each,
  and the name comes after the label. -/
  | metricsAll {axisId : String} {keys : List String} {points : String → List SeriesPoint}
      {block : List Series} (hasc : keys.Pairwise fun a b => compare a b = .lt)
      (hkeys : ∀ key, key ∈ keys ↔ t.IsMetric runId key)
      (hpoints : ∀ key ∈ keys, store.metricSeries runId key w = .ok (points key))
      (hblock : block.map (fun x => (x.label, x.points)) =
        (keys.filter fun key => points key ≠ []).map fun key =>
          (label ++ " " ++ key, points key)) :
      Plots store t w label runId (.metricsAll axisId) block

/-- The points of a block are those of the run. -/
theorem VerticalAxis.Plots.runId_of_mem {store : Store} {t : Tables} {w : SeriesWindow}
    {label runId : String} {axis : VerticalAxis} {block : List Series}
    (h : axis.Plots store t w label runId block) :
    ∀ x ∈ block, ∀ p ∈ x.points, p.runId = runId := by
  intro x hx
  cases h with
  | @buckets name axisId column y hname hlabel hpoints =>
    -- The points of a series are answered for the run that it is drawn for.
    obtain rfl := List.mem_singleton.1 hx
    have hquery : (SeriesSource.column column).query store runId w = .ok _ := hpoints
    exact SeriesSource.runId_of_query hquery
  | errors hlabel hpoints =>
    obtain rfl := List.mem_singleton.1 hx
    have hquery : SeriesSource.errors.query store runId w = .ok _ := hpoints
    exact SeriesSource.runId_of_query hquery
  | @metric path axisId y hlabel hpoints hne =>
    obtain rfl := List.mem_singleton.1 hx
    have hquery : (SeriesSource.metric path).query store runId w = .ok _ := hpoints
    exact SeriesSource.runId_of_query hquery
  | noPoints hpoints => cases hx
  | @metricsAll axisId keys points block hasc hkeys hpoints hblock =>
    -- The series is that of one of the names, and its points are those asked for by this name.
    have hmem := List.mem_map_of_mem (f := fun x : Series => (x.label, x.points)) hx
    rw [hblock] at hmem
    obtain ⟨key, hkey, heq⟩ := List.mem_map.1 hmem
    obtain ⟨-, hsame⟩ := Prod.mk.inj heq
    rw [← hsame]
    have hquery : (SeriesSource.metric key).query store runId w = .ok _ :=
      hpoints key (List.mem_filter.1 hkey).1
    exact SeriesSource.runId_of_query hquery

namespace StyledRun

variable {store : Store} {t : Tables} (ht : store.tables = some t)
  (hnormal : ∀ row ∈ t.metrics, (Json.obj row.item.metrics).Normal)

include ht hnormal

/-- **What is drawn for a run on an axis is its block there.** -/
theorem plots_of_axisSeries {s : StyledRun} {w : SeriesWindow} {axis : VerticalAxis}
    {block : List Series} (h : s.axisSeries store w axis = .ok block) :
    axis.Plots store t w s.label s.run.id block := by
  cases axis with
  | buckets name axisId =>
    obtain ⟨column, hname, hrest⟩ := bind_eq_ok_iff.1 h
    obtain ⟨points, hpoints, hpure⟩ := bind_eq_ok_iff.1 hrest
    obtain rfl := pure_eq_ok_iff.1 hpure
    exact .buckets (mapError_eq_ok_iff.1 hname) rfl hpoints
  | metric path axisId =>
    obtain ⟨points, hpoints, hpure⟩ := bind_eq_ok_iff.1 h
    obtain rfl := pure_eq_ok_iff.1 hpure
    -- A series without points is left out.
    cases points with
    | nil => exact .noPoints hpoints
    | cons first rest => exact .metric rfl hpoints (List.cons_ne_nil _ _)
  | errors axisId =>
    obtain ⟨points, hpoints, hpure⟩ := bind_eq_ok_iff.1 h
    obtain rfl := pure_eq_ok_iff.1 hpure
    exact .errors rfl hpoints
  | metricsAll axisId =>
    have hsearch := canSearch_of_axisSeries ht h
    -- The names that are listed are those of numbers, and each is asked for its points.
    obtain ⟨keys, hasc, hkeys, haxis⟩ := axisSeries_metricsAll ht hnormal hsearch w axisId
    obtain ⟨hpoints, rfl⟩ := collect_namedSeries_eq_ok_iff.1 (haxis.symm.trans h)
    refine .metricsAll hasc hkeys hpoints ?_
    rw [List.map_map]
    rfl

/-- Every series of the block carries what it should. -/
theorem belongsTo_of_axisSeries {field : String} {run : Run} {place : Nat} {w : SeriesWindow}
    {axis : VerticalAxis} {block : List Series}
    (h : (StyledRun.at field run place).axisSeries store w axis = .ok block) :
    ∀ x ∈ block, x.BelongsTo axis run place := by
  intro x hx
  have hpoints := (plots_of_axisSeries ht hnormal h).runId_of_mem x hx
  obtain ⟨label, points, rfl⟩ := mem_axisSeries h x hx
  exact ⟨rfl, rfl, getElem?_palette place, hpoints⟩

end StyledRun

/-! ### All blocks -/

/-- The series of a chart are laid out axis by axis, as the axes were requested, and on every axis
run by run, as the runs stand in the chart. -/
def LineChart.LaidOut (line : LineChart) (store : Store) (t : Tables) (r : ChartRequest) : Prop :=
  ∃ block : VerticalAxis → Run → Nat → List Series,
    line.series = r.verticalAxes.flatMap (fun axis =>
      line.runs.zipIdx.flatMap fun (run, place) => block axis run place) ∧
    ∀ axis ∈ r.verticalAxes, ∀ place run, line.runs[place]? = some run →
      axis.Plots store t r.window (drawnLabel r.horizontalAxis.field run) run.id
        (block axis run place) ∧
      ∀ x ∈ block axis run place, x.BelongsTo axis run place

/-- A chart that is drawn is laid out. -/
theorem LineChart.laidOut_of_build {store : Store} {t : Tables} (ht : store.tables = some t)
    (hnormal : ∀ row ∈ t.metrics, (Json.obj row.item.metrics).Normal) {r : ChartRequest}
    {runs : List Run} {line : LineChart} (h : build store r runs = .ok line) :
    line.LaidOut store t r := by
  obtain ⟨-, styled, hstyled, hruns, hseries, -⟩ := build_eq_ok_iff.1 h
  obtain ⟨ordered, -, rfl⟩ := styleRuns_eq_ok hstyled
  rw [map_run_drawnFrom] at hruns
  obtain ⟨hall, hflat⟩ := allSeries_eq_ok_iff.1 hseries
  let field := r.horizontalAxis.field
  refine ⟨fun axis run place => seriesOf store r.window axis (.at field run place), ?_, ?_⟩
  · rw [hflat, hruns]
    refine List.flatMap_congr fun axis _ => ?_
    rw [drawnFrom_eq_map_zipIdx, List.flatMap_map]
  · intro axis haxis place run hrun
    rw [hruns] at hrun
    -- The run is drawn at its place, so its block is one of those that make up the chart.
    have hdrawn : .at field run place ∈ drawnFrom field 0 ordered := by
      have hmem : .at field run (0 + place) ∈ drawnFrom field 0 ordered := mem_drawnFrom hrun
      rwa [Nat.zero_add] at hmem
    have hblock := hall axis haxis _ hdrawn
    exact ⟨StyledRun.plots_of_axisSeries ht hnormal hblock,
      StyledRun.belongsTo_of_axisSeries ht hnormal hblock⟩

namespace Store

/-- **How a full chart is laid out.** It is a line chart, no two of its runs share an id, and its
series are the blocks of all axes and runs in order. -/
theorem chart_laidOut {s : Store} (hs : s.Reachable) {gerritPrefix : String} {r : ChartRequest}
    (hfull : r.chartMode = .full) {chart : Chart} (h : s.chart gerritPrefix r = .ok chart) :
    ∃ t line, s.tables = some t ∧ chart = .line line ∧ (line.runs.map Run.id).Nodup ∧
      line.LaidOut s t r := by
  obtain ⟨-, -, runs, line, hruns, hline, rfl⟩ := (chart_eq_ok_of_full hfull).1 h
  obtain ⟨t, ht, hids⟩ := nodup_ids_resolve hs hruns
  refine ⟨t, line, ht, rfl, ?_, ?_⟩
  · obtain ⟨-, styled, hstyled, hdrawn, -⟩ := LineChart.build_eq_ok_iff.1 hline
    obtain ⟨ordered, hperm, rfl⟩ := styleRuns_eq_ok hstyled
    rw [hdrawn, map_run_drawnFrom]
    exact (hperm.map Run.id).nodup_iff.2 hids
  · exact LineChart.laidOut_of_build ht (hs.wellFormed t ht).metrics hline

/-- A store with a run that has a bucket and a run that has a metric. -/
def bucketAndMetric (total : Int) (value : Float) : Store :=
  ⟨some (.ofRecords [.ofTotals "first" "a" [(0, total)], .ofMetric "cpu" value])⟩

/-- A column that only one run has on the left, and a metric that only the other one has on the
right. The column is drawn for both, and the metric in the color of the second run. -/
theorem chart_laidOut_bucketAndMetric :
    let r : ChartRequest := { ChartRequest.greatest "cpu" with
      chartMode := .full
      verticalAxes := [.buckets "operations_total" "left", .metric "cpu" "right"] }
    ∃ t line, (bucketAndMetric 1 5).tables = some t ∧
      (bucketAndMetric 1 5).chart "" r = .ok (.line line) ∧
      line.series.map (fun x => (x.axisId, x.label, x.color, x.runId, x.points.length)) =
        [("left", "a", "#3fb950", "first", 1), ("left", "x", "#58a6ff", "run", 0),
          ("right", "x", "#58a6ff", "run", 1)] ∧
      line.LaidOut (bucketAndMetric 1 5) t r := by
  intro r
  have hs : (bucketAndMetric 1 5).Reachable :=
    .ofRecords (by decide) (by simp [RunRecord.normal_ofTotals, RunRecord.normal_ofMetric])
  let first := (RunRecord.ofTotals "first" "a" [(0, 1)]).run
  let second := (RunRecord.ofMetric "cpu" 5).run
  have hruns : ∀ total value, (bucketAndMetric total value).resolve "" r =
      .ok [(RunRecord.ofTotals "first" "a" [(0, total)]).run,
        (RunRecord.ofMetric "cpu" value).run] := fun total value => by cbv
  have hstyled : styleRuns r.horizontalAxis [first, second] =
      .ok [⟨first, "a", "#3fb950"⟩, ⟨second, "x", "#58a6ff"⟩] := by cbv
  -- What the store answers for each axis and run.
  have hcolumn : ∀ total value, ∃ p, (bucketAndMetric total value).bucketSeries "first"
      .operationsTotal ⟨0, none, .maximum⟩ = .ok [p] := fun total value => ⟨_, by cbv⟩
  have hnone : ∀ total value, (bucketAndMetric total value).bucketSeries "run"
      .operationsTotal ⟨0, none, .maximum⟩ = .ok [] := fun total value => by cbv
  have hmissing : ∀ total value, (bucketAndMetric total value).metricSeries "first" "cpu"
      ⟨0, none, .maximum⟩ = .ok [] := fun total value => by cbv
  have hrows : ∀ total value, Tables.ownedBy (Tables.ofRecords
      [.ofTotals "first" "a" [(0, total)], .ofMetric "cpu" value]).metrics "run" =
        (RunRecord.ofMetric "cpu" value).metrics := fun total value => by cbv
  have hmetric := metricSeries_ofMetric (s := bucketAndMetric 1 5) (hrows 1 5) numberCell_five rfl
  obtain ⟨p, hcolumn⟩ := hcolumn 1 5
  have hseries : allSeries (bucketAndMetric 1 5) r.window
      [⟨first, "a", "#3fb950"⟩, ⟨second, "x", "#58a6ff"⟩] r.verticalAxes =
        .ok [⟨"left", "a", "#3fb950", "first", [p]⟩, ⟨"left", "x", "#58a6ff", "run", []⟩,
          ⟨"right", "x", "#58a6ff", "run", [⟨0, 5, "run", second.datetime⟩]⟩] := by
    have hname : BucketColumn.ofName "operations_total" = .ok .operationsTotal := by decide
    have hcolumns : ∀ (run : StyledRun) points, (bucketAndMetric 1 5).bucketSeries run.run.id
        .operationsTotal r.window = .ok points → run.axisSeries (bucketAndMetric 1 5) r.window
          (.buckets "operations_total" "left") = .ok [run.series "left" run.label points] :=
      fun run points hpoints => bind_eq_ok_iff.2
        ⟨_, mapError_eq_ok_iff.2 hname, bind_eq_ok_iff.2 ⟨points, hpoints, rfl⟩⟩
    have hleft : axisSeries (bucketAndMetric 1 5) r.window (.buckets "operations_total" "left")
        [⟨first, "a", "#3fb950"⟩, ⟨second, "x", "#58a6ff"⟩] =
          .ok [⟨"left", "a", "#3fb950", "first", [p]⟩, ⟨"left", "x", "#58a6ff", "run", []⟩] :=
      bind_eq_ok_iff.2 ⟨_, hcolumns _ _ hcolumn, bind_eq_ok_iff.2
        ⟨_, bind_eq_ok_iff.2 ⟨_, hcolumns _ _ (hnone 1 5), rfl⟩, rfl⟩⟩
    have hright : axisSeries (bucketAndMetric 1 5) r.window (.metric "cpu" "right")
        [⟨first, "a", "#3fb950"⟩, ⟨second, "x", "#58a6ff"⟩] =
          .ok [⟨"right", "x", "#58a6ff", "run", [⟨0, 5, "run", second.datetime⟩]⟩] :=
      bind_eq_ok_iff.2 ⟨[], bind_eq_ok_iff.2 ⟨_, hmissing 1 5, rfl⟩, bind_eq_ok_iff.2
        ⟨_, bind_eq_ok_iff.2 ⟨_, bind_eq_ok_iff.2 ⟨_, hmetric, rfl⟩, rfl⟩, rfl⟩⟩
    exact bind_eq_ok_iff.2 ⟨_, hleft, bind_eq_ok_iff.2
      ⟨_, bind_eq_ok_iff.2 ⟨_, hright, rfl⟩, rfl⟩⟩
  have hcheck : checkLineAxes r.verticalAxes = .ok () := by cbv
  have hbuild : LineChart.build (bucketAndMetric 1 5) r [first, second] =
      .ok ⟨[first, second], _, []⟩ :=
    LineChart.build_eq_ok_iff.2 ⟨hcheck, _, hstyled, rfl, hseries, rfl⟩
  have hchart := (chart_eq_ok_of_full rfl).2 ⟨by cbv, hcheck, _, _, hruns 1 5, hbuild, rfl⟩
  obtain ⟨t, line, ht, heq, -, hlaid⟩ := chart_laidOut hs rfl hchart
  cases heq
  exact ⟨t, _, ht, hchart, rfl, hlaid⟩

end Store

end BenchCharts

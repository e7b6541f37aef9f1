import BenchCharts.Proofs.Chart.Lines
import BenchCharts.Proofs.Dashboard
import BenchCharts.Proofs.Store.Metrics

/-!
# Charts of all metrics

An axis of all metrics should draw, for every run, one series for each name that belongs to a number
in a sample after the warm-up, made of the numbers of that name. `StyledRun.DrawsMetrics` says so
without asking the store for any metric.

The axis lists the names and asks for each as if it were a path. So it draws what it should exactly
if the metrics of the run can be searched and every name, asked for in this way, gives the points of
its own samples (`StyledRun.exists_drawsMetrics_iff`). Legible names whose numbers are read as they
are do, and then the axis fails only if some points cannot be computed at all
(`StyledRun.axisSeries_eq_ok_iff_drawsMetrics`). A name with a point in it is looked for elsewhere,
and one that is no path makes the whole chart fail.
-/

namespace BenchCharts

namespace StyledRun

/-! ### What should be drawn -/

/-- Series of a run for all its metrics: one for each name with samples after the warm-up, in the
order of the names, with the label of the run and the name, and made of the samples of the name.
Each number of a sample is turned into a cell. -/
def DrawsMetrics (s : StyledRun) (cell : Number → Cell) (t : Tables) (w : SeriesWindow)
    (axisId : String) (series : List Series) : Prop :=
  ∃ (keys : List String) (points : String → List SeriesPoint),
    keys.Pairwise (fun a b => compare a b = .lt) ∧
      (∀ key, key ∈ keys ↔ t.samplesOf cell key w.trimmingSeconds s.run.id ≠ []) ∧
      (∀ key ∈ keys, seriesPoints? w s.run.id (t.samplesOf cell key w.trimmingSeconds s.run.id) =
        some (points key)) ∧
      series = keys.map fun key => s.series axisId (s.label ++ " " ++ key) (points key)

/-- A name that gives, asked for as a path, the points of its own samples. -/
def ReadsOwn (s : StyledRun) (cell : Number → Cell) (store : Store) (t : Tables) (w : SeriesWindow)
    (key : String) : Prop :=
  ∃ points, store.metricSeries s.run.id key w = .ok points ∧
    seriesPoints? w s.run.id (t.samplesOf cell key w.trimmingSeconds s.run.id) = some points

variable {s : StyledRun} {cell : Number → Cell} {store : Store} {t : Tables} {w : SeriesWindow}
  {axisId : String} {series series' : List Series}

/-- There is only one way to draw the metrics of a run. -/
theorem DrawsMetrics.unique (h : s.DrawsMetrics cell t w axisId series)
    (h' : s.DrawsMetrics cell t w axisId series') : series = series' := by
  obtain ⟨keys, points, hasc, hmem, hpoints, rfl⟩ := h
  obtain ⟨keys', points', hasc', hmem', hpoints', rfl⟩ := h'
  -- The names are determined, since they ascend, and so are the points of each.
  obtain rfl : keys = keys' := by
    refine eq_of_pairwise_lt hasc hasc' fun key => ?_
    rw [hmem, hmem']
  refine List.map_congr_left fun key hkey => ?_
  have heq : points key = points' key :=
    Option.some.inj ((hpoints key hkey).symm.trans (hpoints' key hkey))
  rw [heq]

/-! ### What is drawn -/

/-- The points that a name gives, asked for as a path; none if that fails. -/
def pointsOf (s : StyledRun) (store : Store) (w : SeriesWindow) (key : String) :
    List SeriesPoint :=
  (store.metricSeries s.run.id key w).toOption.getD []

theorem pointsOf_eq {key : String} {points : List SeriesPoint}
    (h : store.metricSeries s.run.id key w = .ok points) : s.pointsOf store w key = points := by
  rw [pointsOf, h]
  rfl

/-- The names that give points have a series each. -/
theorem collect_namedSeries_eq_ok_iff {keys : List String} :
    collect (s.namedSeries store w axisId) keys = .ok series ↔
      (∀ key ∈ keys, store.metricSeries s.run.id key w = .ok (s.pointsOf store w key)) ∧
        series = (keys.filter fun key => s.pointsOf store w key ≠ []).map fun key =>
          s.series axisId (s.label ++ " " ++ key) (s.pointsOf store w key) := by
  -- Without points there is no series, but that is no failure either.
  have hresults : ∀ key, resultsOf (s.namedSeries store w axisId) key =
      if s.pointsOf store w key = [] then []
      else [s.series axisId (s.label ++ " " ++ key) (s.pointsOf store w key)] := by
    intro key
    rw [resultsOf, namedSeries, pointsOf]
    cases store.metricSeries s.run.id key w with
    | error cause => rfl
    | ok points => cases points <;> rfl
  -- A name fails exactly if the store cannot give its points.
  have hok : ∀ key, s.namedSeries store w axisId key =
      .ok (resultsOf (s.namedSeries store w axisId) key) ↔
        store.metricSeries s.run.id key w = .ok (s.pointsOf store w key) := by
    intro key
    rw [resultsOf, namedSeries, pointsOf]
    cases store.metricSeries s.run.id key w with
    | error cause => constructor <;> intro h <;> cases h
    | ok points => exact ⟨fun _ => rfl, fun _ => rfl⟩
  have hflat : ∀ keys : List String, keys.flatMap (resultsOf (s.namedSeries store w axisId)) =
      (keys.filter fun key => s.pointsOf store w key ≠ []).map fun key =>
        s.series axisId (s.label ++ " " ++ key) (s.pointsOf store w key) := by
    intro keys
    induction keys with
    | nil => rfl
    | cons key rest ih =>
      rw [List.flatMap_cons, ih, hresults]
      by_cases hnil : s.pointsOf store w key = [] <;> simp [hnil]
  rw [collect_eq_ok_iff, hflat]
  simp only [hok]

section

variable (ht : store.tables = some t)
  (hnormal : ∀ row ∈ t.metrics, (Json.obj row.item.metrics).Normal)

include ht hnormal

/-- An axis of all metrics goes through the names of the numbers of a run. -/
theorem axisSeries_metricsAll {s : StyledRun} (hsearch : t.CanSearch s.run.id) (w : SeriesWindow)
    (axisId : String) : ∃ keys, keys.Pairwise (fun a b => compare a b = .lt) ∧
      (∀ key, key ∈ keys ↔ t.IsMetric s.run.id key) ∧
      s.axisSeries store w (.metricsAll axisId) = collect (s.namedSeries store w axisId) keys := by
  obtain ⟨keys, hkeys, hasc, hmem⟩ := Store.metricKeys_eq_ok ht hnormal hsearch
  refine ⟨keys, hasc, hmem, ?_⟩
  rw [axisSeries, hkeys]
  exact metricsSeries_eq_collect s axisId keys

omit hnormal in
/-- The axis cannot be drawn if the metrics of the run cannot be searched. -/
theorem canSearch_of_axisSeries (h : s.axisSeries store w (.metricsAll axisId) = .ok series) :
    t.CanSearch s.run.id := by
  rw [axisSeries] at h
  obtain ⟨keys, hkeys, -⟩ := bind_eq_ok_iff.1 h
  exact Store.canSearch_of_metricKeys ht hkeys

/-- If all names give the points of their own samples, then the axis draws what it should. -/
theorem drawsMetrics_of_readsOwn (axisId : String) (hsearch : t.CanSearch s.run.id)
    (hown : ∀ key, t.IsMetric s.run.id key → s.ReadsOwn cell store t w key) :
    ∃ series, s.axisSeries store w (.metricsAll axisId) = .ok series ∧
      s.DrawsMetrics cell t w axisId series := by
  obtain ⟨keys, hasc, hmem, haxis⟩ := axisSeries_metricsAll ht hnormal hsearch w axisId
  have hpoints : ∀ key, t.IsMetric s.run.id key →
      store.metricSeries s.run.id key w = .ok (s.pointsOf store w key) ∧
        seriesPoints? w s.run.id (t.samplesOf cell key w.trimmingSeconds s.run.id) =
          some (s.pointsOf store w key) := by
    intro key hkey
    obtain ⟨points, hread, hsamples⟩ := hown key hkey
    rw [pointsOf_eq hread]
    exact ⟨hread, hsamples⟩
  -- Of the names that are listed, those with samples after the warm-up are the ones with points.
  refine ⟨_, haxis.trans (collect_namedSeries_eq_ok_iff.2 ⟨?_, rfl⟩),
    keys.filter fun key => s.pointsOf store w key ≠ [], s.pointsOf store w, hasc.filter _, ?_, ?_,
    rfl⟩
  · exact fun key hkey => (hpoints key ((hmem key).1 hkey)).1
  · intro key
    rw [List.mem_filter, hmem, decide_eq_true_iff]
    constructor
    · rintro ⟨hkey, hne⟩
      exact mt (seriesPoints?_eq_nil_iff (hpoints key hkey).2).2 hne
    · intro hne
      have hkey := Tables.isMetric_of_samplesOf_ne_nil hne
      exact ⟨hkey, mt (seriesPoints?_eq_nil_iff (hpoints key hkey).2).1 hne⟩
  · intro key hkey
    exact (hpoints key ((hmem key).1 (List.mem_filter.1 hkey).1)).2

/-- **The axis draws what it should exactly if every name gives the points of its own samples**, and
the metrics can be searched. -/
theorem exists_drawsMetrics_iff :
    (∃ series, s.axisSeries store w (.metricsAll axisId) = .ok series ∧
      s.DrawsMetrics cell t w axisId series) ↔
      t.CanSearch s.run.id ∧ ∀ key, t.IsMetric s.run.id key → s.ReadsOwn cell store t w key := by
  refine ⟨?_, fun h => drawsMetrics_of_readsOwn ht hnormal axisId h.1 h.2⟩
  rintro ⟨series, hseries, drawn, points, hasc, hdrawn, hpoints, rfl⟩
  have hsearch := canSearch_of_axisSeries ht hseries
  refine ⟨hsearch, fun key hkey => ?_⟩
  obtain ⟨keys, -, hmem, haxis⟩ := axisSeries_metricsAll ht hnormal hsearch w axisId
  rw [haxis] at hseries
  obtain ⟨hread, heq⟩ := collect_namedSeries_eq_ok_iff.1 hseries
  -- The labels tell the names, so both lists of series are about the same names.
  have hlabel : Function.Injective fun key : String => s.label ++ " " ++ key := by
    intro a b hab
    have hlist := congrArg String.toList hab
    simp only [String.toList_append] at hlist
    exact String.toList_inj.1 (List.append_cancel_left hlist)
  have hnames : drawn = keys.filter fun key => s.pointsOf store w key ≠ [] := by
    have hmap := congrArg (List.map Series.label) heq
    rw [List.map_map, List.map_map] at hmap
    exact hlabel.list_map hmap
  have hsame : ∀ key ∈ drawn, points key = s.pointsOf store w key := by
    rw [← hnames] at heq
    intro key hkey
    exact congrArg Series.points (List.map_inj_left.1 heq key hkey)
  refine ⟨_, hread key ((hmem key).2 hkey), ?_⟩
  -- A name that is not drawn has no samples after the warm-up, and it gave no points.
  by_cases hnil : s.pointsOf store w key = []
  · have hnot : key ∉ drawn := by
      rw [hnames, List.mem_filter]
      simp [hnil]
    rw [hdrawn, not_not] at hnot
    rw [hnot, hnil]
    rfl
  · have hin : key ∈ drawn := by
      rw [hnames, List.mem_filter]
      exact ⟨(hmem key).2 hkey, decide_eq_true hnil⟩
    rw [hpoints key hin, hsame key hin]

/-- **With legible names the axis draws what it should**, with the numbers as they are read, and
fails if that cannot be drawn. -/
theorem axisSeries_eq_ok_iff_drawsMetrics (hsearch : t.CanSearch s.run.id)
    (hlegible : ∀ key, t.IsMetric s.run.id key → StoredKey.Legible key) :
    s.axisSeries store w (.metricsAll axisId) = .ok series ↔
      s.DrawsMetrics Json.numberCell t w axisId series := by
  have hplain : ∀ key, t.IsMetric s.run.id key → StoredKey.Plain key :=
    fun key hkey => (hlegible key hkey).2.2.2
  have hread : ∀ key, t.IsMetric s.run.id key → store.metricSeries s.run.id key w =
      answer .metricSeries
        (seriesPoints? w s.run.id (t.samplesOf Json.numberCell key w.trimmingSeconds s.run.id)) :=
    fun key hkey => Store.metricSeries_of_legible ht hnormal hsearch hplain (hlegible key hkey) w
  constructor
  -- The axis asks for every name, so each of them gives points, and they are those of its samples.
  · intro hseries
    obtain ⟨keys, -, hmem, haxis⟩ := axisSeries_metricsAll ht hnormal hsearch w axisId
    obtain ⟨hall, -⟩ := collect_namedSeries_eq_ok_iff.1 (haxis.symm.trans hseries)
    have hown : ∀ key, t.IsMetric s.run.id key → s.ReadsOwn Json.numberCell store t w key := by
      intro key hkey
      have hpoints := hall key ((hmem key).2 hkey)
      exact ⟨_, hpoints, answer_eq_ok_iff.1 ((hread key hkey).symm.trans hpoints)⟩
    obtain ⟨series', hseries', hdraws⟩ :=
      drawsMetrics_of_readsOwn ht hnormal axisId hsearch hown
    obtain rfl := Except.ok.inj (hseries.symm.trans hseries')
    exact hdraws
  -- Conversely, what should be drawn has points for every name that has samples.
  · intro hdraws
    have ⟨drawn, points, _, hdrawn, hpoints, _⟩ := hdraws
    have hown : ∀ key, t.IsMetric s.run.id key → s.ReadsOwn Json.numberCell store t w key := by
      intro key hkey
      rw [ReadsOwn, hread key hkey]
      by_cases hnil : t.samplesOf Json.numberCell key w.trimmingSeconds s.run.id = []
      · -- A name without samples after the warm-up gives no points.
        rw [hnil]
        exact ⟨[], rfl, rfl⟩
      · rw [hpoints key ((hdrawn key).2 hnil)]
        exact ⟨points key, rfl, rfl⟩
    obtain ⟨series', hseries', hdraws'⟩ :=
      drawsMetrics_of_readsOwn ht hnormal axisId hsearch hown
    rw [hdraws.unique hdraws']
    exact hseries'

omit ht hnormal in
/-- If each number is read as it is, then so are the series. -/
theorem drawsMetrics_numberCell_iff
    (hread : ∀ key, t.IsMetric s.run.id key → t.ReadAsIs s.run.id key) :
    s.DrawsMetrics Json.numberCell t w axisId series ↔
      s.DrawsMetrics Number.cell t w axisId series := by
  have hsame : ∀ key, t.samplesOf Json.numberCell key w.trimmingSeconds s.run.id =
      t.samplesOf Number.cell key w.trimmingSeconds s.run.id := by
    intro key
    by_cases hkey : t.IsMetric s.run.id key
    · exact Tables.samplesOf_numberCell (hread key hkey) _
    · -- A name that belongs to no number has no samples.
      have hnone : ∀ cell, t.samplesOf cell key w.trimmingSeconds s.run.id = [] := fun cell =>
        not_not.1 (mt Tables.isMetric_of_samplesOf_ne_nil hkey)
      rw [hnone, hnone]
  simp only [DrawsMetrics, hsame]

end

end StyledRun

namespace Store

/-- **What a full chart draws for an axis of all metrics.** Such a chart can be drawn if the axes
before, this axis, the axes after and the annotations can. The series of this axis come after those
of the axes before, run by run in the order of the chart. For each run they are those of all its
metrics exactly if these can be searched and every name gives the points of its own samples. Legible
names give the points of the numbers as they are read, so that the series are those of all metrics
if moreover each number is read as it is. -/
theorem chart_draws_metrics {s : Store} (hs : s.Reachable) {gerritPrefix : String}
    {r : ChartRequest} (hfull : r.chartMode = .full) (hvalid : r.validate = .ok ())
    (hcheck : checkLineAxes r.verticalAxes = .ok ()) {before after : List VerticalAxis}
    {axisId : String} (haxes : r.verticalAxes = before ++ .metricsAll axisId :: after)
    {runs : List Run} (hruns : s.resolve gerritPrefix r = .ok runs) {styled : List StyledRun}
    (hstyled : styleRuns r.horizontalAxis runs = .ok styled) :
    ∃ t, s.tables = some t ∧
      (∀ line, s.chart gerritPrefix r = .ok (.line line) ↔
        ∃ first last, allSeries s r.window styled before = .ok first ∧
          (∀ run ∈ styled, run.axisSeries s r.window (.metricsAll axisId) =
            .ok (seriesOf s r.window (.metricsAll axisId) run)) ∧
          allSeries s r.window styled after = .ok last ∧
          collect (StyledRun.marks s r.annotations) styled = .ok line.annotations ∧
          line.runs = styled.map StyledRun.run ∧
          line.series =
            first ++ styled.flatMap (seriesOf s r.window (.metricsAll axisId)) ++ last) ∧
      ∀ run ∈ styled,
        ((∃ series, run.axisSeries s r.window (.metricsAll axisId) = .ok series ∧
          run.DrawsMetrics Number.cell t r.window axisId series) ↔
            t.CanSearch run.run.id ∧
              ∀ key, t.IsMetric run.run.id key → run.ReadsOwn Number.cell s t r.window key) ∧
        (t.CanSearch run.run.id →
          (∀ key, t.IsMetric run.run.id key → StoredKey.Legible key) →
          (∀ series, run.axisSeries s r.window (.metricsAll axisId) = .ok series ↔
            run.DrawsMetrics Json.numberCell t r.window axisId series) ∧
          ((∀ key, t.IsMetric run.run.id key → t.ReadAsIs run.run.id key) →
            ∀ series, run.axisSeries s r.window (.metricsAll axisId) = .ok series ↔
              run.DrawsMetrics Number.cell t r.window axisId series)) := by
  obtain ⟨t, ht, -⟩ := nodup_ids_resolve hs hruns
  have hnormal := (hs.wellFormed t ht).metrics
  refine ⟨t, ht, fun line => ?_, fun run _ => ⟨?_, fun hsearch hlegible => ?_⟩⟩
  -- The steps of the chart, with the pass over the axes cut before and after this one.
  · rw [chart_eq_ok_of_full hfull]
    constructor
    · rintro ⟨-, -, runs', line', hruns', hline, heq⟩
      cases heq
      obtain rfl := Except.ok.inj (hruns.symm.trans hruns')
      obtain ⟨-, styled', hstyled', hdrawn, hseries, hmarks⟩ := LineChart.build_eq_ok_iff.1 hline
      obtain rfl := Except.ok.inj (hstyled.symm.trans hstyled')
      rw [haxes] at hseries
      obtain ⟨first, block, last, hfirst, hblock, hlast, hall⟩ :=
        allSeries_append_cons_eq_ok_iff.1 hseries
      obtain ⟨hrun, rfl⟩ := collect_eq_ok_iff.1 hblock
      exact ⟨first, last, hfirst, hrun, hlast, hmarks, hdrawn, hall⟩
    · rintro ⟨first, last, hfirst, hrun, hlast, hmarks, hdrawn, hall⟩
      refine ⟨hvalid, hcheck, runs, line, hruns, ?_, rfl⟩
      refine LineChart.build_eq_ok_iff.2 ⟨hcheck, styled, hstyled, hdrawn, ?_, hmarks⟩
      rw [haxes]
      exact allSeries_append_cons_eq_ok_iff.2
        ⟨first, _, last, hfirst, collect_eq_ok_iff.2 ⟨hrun, rfl⟩, hlast, hall⟩
  · exact StyledRun.exists_drawsMetrics_iff ht hnormal
  · have hdraws := fun series =>
      @StyledRun.axisSeries_eq_ok_iff_drawsMetrics run s t r.window axisId series ht hnormal hsearch
        hlegible
    refine ⟨hdraws, fun hread series => (hdraws series).trans ?_⟩
    exact StyledRun.drawsMetrics_numberCell_iff hread

end Store

/-! ### A run with one metric -/

/-- A request for lines of all metrics. -/
def ChartRequest.allMetrics : ChartRequest :=
  { ChartRequest.greatest "" with
    chartMode := .full
    verticalAxes := [.metricsAll "y"] }

namespace Store

/-- The only number of a run is the one that was recorded. -/
theorem mem_metrics_ofMetric {metric : String} {value : Float} {m : MetricSample}
    (hm : m ∈ Tables.ownedBy (Tables.empty.append (.ofMetric metric value)).metrics "run")
    {key : String} {n : Number} (hget : m.metrics.get? key = some (.num n)) :
    key = metric ∧ n = .float value := by
  obtain ⟨row, hrow, rfl⟩ := List.mem_map.1 hm
  obtain rfl := List.mem_singleton.1 (List.mem_filter.1 hrow).1
  simpa using List.mem_singleton.1 (Json.Fields.mem_of_get?_eq_some hget)

/-- A metric with a legible name, and the line that is drawn for it. -/
theorem chart_draws_metrics_legible :
    ∃ t series, (single (.ofMetric "cpu" 5)).tables = some t ∧
      StyledRun.axisSeries (.at "sdk" (RunRecord.ofMetric "cpu" 5).run 0)
        (single (.ofMetric "cpu" 5)) ChartRequest.allMetrics.window (.metricsAll "y") =
          .ok series ∧
      series.map Series.label = ["x cpu"] ∧
      StyledRun.DrawsMetrics (.at "sdk" (RunRecord.ofMetric "cpu" 5).run 0) Number.cell t
        ChartRequest.allMetrics.window "y" series := by
  let run := (RunRecord.ofMetric "cpu" 5).run
  have hs := Reachable.single (RunRecord.normal_ofMetric "cpu" 5)
  have hfull : ChartRequest.allMetrics.chartMode = .full := rfl
  have hvalid : ChartRequest.allMetrics.validate = .ok () := by decide
  have hcheck : checkLineAxes ChartRequest.allMetrics.verticalAxes = .ok () := rfl
  have haxes : ChartRequest.allMetrics.verticalAxes = [] ++ .metricsAll "y" :: [] := rfl
  have hruns : (single (.ofMetric "cpu" 5)).resolve "" .allMetrics = .ok [run] := by cbv
  have hstyled : styleRuns ChartRequest.allMetrics.horizontalAxis [run] =
      .ok [.at "sdk" run 0] := styleRuns_singleton (by decide) run
  obtain ⟨t, ht, -, hdraws⟩ :=
    chart_draws_metrics hs hfull hvalid hcheck haxes hruns hstyled
  obtain ⟨-, hlegible⟩ := hdraws _ (List.mem_singleton_self _)
  obtain rfl := Option.some.inj ht
  have hkeys : ∀ value, (single (.ofMetric "cpu" value)).metricKeys "run" = .ok ["cpu"] :=
    fun value => by cbv
  have hrows : Tables.ownedBy (Tables.empty.append (.ofMetric "cpu" 5)).metrics "run" =
      (RunRecord.ofMetric "cpu" 5).metrics := rfl
  -- The name is asked for as a path, and has one point.
  have hpoints : (single (.ofMetric "cpu" 5)).metricSeries "run" "cpu" ⟨0, none, .maximum⟩ =
      .ok [⟨0, 5, "run", run.datetime⟩] := metricSeries_ofMetric hrows numberCell_five rfl
  have hseries : StyledRun.axisSeries (.at "sdk" run 0) (single (.ofMetric "cpu" 5))
      ChartRequest.allMetrics.window (.metricsAll "y") =
        .ok [⟨"y", "x cpu", "#3fb950", "run", [⟨0, 5, "run", run.datetime⟩]⟩] := by
    exact bind_eq_ok_iff.2 ⟨_, hkeys 5, bind_eq_ok_iff.2 ⟨_, hpoints, rfl⟩⟩
  -- The metrics of the one sample are not nested.
  have hsearch : (Tables.empty.append (.ofMetric "cpu" 5)).CanSearch "run" := by
    intro m hm
    obtain ⟨row, hrow, rfl⟩ := List.mem_map.1 hm
    obtain rfl := List.mem_singleton.1 (List.mem_filter.1 hrow).1
    decide
  refine ⟨_, _, rfl, hseries, rfl, ((hlegible hsearch ?_).2 ?_ _).1 hseries⟩
  · rintro key ⟨m, hm, n, hget⟩
    rw [(mem_metrics_ofMetric hm hget).1]
    decide
  · rintro key - m hm n hget
    rw [(mem_metrics_ofMetric hm hget).2]
    exact numberCell_five

/-- A metric with a point in its name, for which nothing is drawn, and one without a name, with
which there is no chart at all. -/
theorem not_drawsMetrics_dotted_and_unnamed :
    (∃ t line, (single (.ofMetric "a.b" 5)).Reachable ∧
      (single (.ofMetric "a.b" 5)).tables = some t ∧
      ChartRequest.allMetrics.validate = .ok () ∧
      (single (.ofMetric "a.b" 5)).chart "" .allMetrics = .ok (.line line) ∧
      ¬ StyledRun.DrawsMetrics (.at "sdk" (RunRecord.ofMetric "a.b" 5).run 0) Number.cell t
          ChartRequest.allMetrics.window "y" line.series) ∧
    (single (.ofMetric "" 5)).Reachable ∧
      (single (.ofMetric "" 5)).chart "" .allMetrics = .error (.invalid .emptyPath) := by
  have hdotted := Reachable.single (RunRecord.normal_ofMetric "a.b" 5)
  have hunnamed := Reachable.single (RunRecord.normal_ofMetric "" 5)
  -- The path leads into an object that is not there, so nothing is drawn.
  have hchart : ∀ value, (single (.ofMetric "a.b" value)).chart "" .allMetrics =
      .ok (.line ⟨[(RunRecord.ofMetric "a.b" value).run], [], []⟩) := fun value => by cbv
  have hrefused : ∀ value, (single (.ofMetric "" value)).chart "" .allMetrics =
      .error (.invalid .emptyPath) := fun value => by cbv
  have hsamples : ∀ value, ∃ sample, (Tables.empty.append (.ofMetric "a.b" value)).samplesOf
      Number.cell "a.b" 0 "run" = [sample] := fun value => ⟨_, by cbv⟩
  refine ⟨⟨_, _, hdotted, rfl, by decide, hchart 5, ?_⟩, hunnamed, hrefused 5⟩
  rintro ⟨keys, points, -, hkeys, -, hnone⟩
  obtain ⟨sample, hsample⟩ := hsamples 5
  -- The name has a sample, so it should be among the names that are drawn.
  have hin : "a.b" ∈ keys := (hkeys "a.b").2 (ne_of_eq_of_ne hsample (List.cons_ne_nil _ _))
  rw [List.map_eq_nil_iff.1 hnone.symm] at hin
  cases hin

end Store

end BenchCharts

import BenchCharts.Proofs.Chart.Lines
import BenchCharts.Proofs.Dashboard
import BenchCharts.Proofs.Store.Metrics

/-!
# The two modes of a chart

The same request can be drawn with bars or with lines. Bars are made by one query for all runs,
which groups samples by the labels that it is given; lines are drawn run by run, once the runs have
been put in order and styled. Still both group the runs alike.

On either path a run counts for its label if the store reads a sample of the axis in it
(`BarMeasure.cellsOf_ne_nil_iff`). For a bar chart this is what it means to be a contributor. For a
line chart it decides whether the series of the run has points (`StyledRun.exists_drawn_iff`), since
there is a point as soon as there is a sample. The charts differ in two places only: lines are also
drawn for runs without a label, and there is no bar for a label whose cells merge to NULL.
-/

namespace BenchCharts

/-! ### The axis of a measure -/

/-- What bars measure on an axis. -/
inductive BarMeasure.OfAxis : BarMeasure → VerticalAxis → Prop
  /-- A column by its name. -/
  | column {name axisId : String} {c : BucketColumn} (hname : BucketColumn.ofName name = .ok c) :
      OfAxis (.column c) (.buckets name axisId)
  /-- A metric by its path. -/
  | metric {path axisId : String} {keys : List String}
      (hpath : FieldPath.check path = .ok keys) : OfAxis (.metric path) (.metric path axisId)

/-- A request that bars can be drawn for has one axis, on which they measure what they do. -/
theorem ChartRequest.exists_axis_of_measure {r : ChartRequest} {measure : BarMeasure}
    (h : r.measure = .ok measure) : ∃ axis, r.verticalAxes = [axis] ∧ measure.OfAxis axis := by
  unfold ChartRequest.measure at h
  split at h
  -- The two axes that bars can have; each is checked in its own way.
  · next name axisId haxes =>
    cases hname : BucketColumn.ofName name with
    | error cause =>
      rw [hname] at h
      cases h
    | ok c =>
      rw [hname] at h
      cases h
      exact ⟨_, haxes, .column hname⟩
  · next path axisId haxes =>
    cases hpath : FieldPath.check path with
    | error cause =>
      rw [hpath] at h
      cases h
    | ok keys =>
      rw [hpath] at h
      cases h
      exact ⟨_, haxes, .metric hpath⟩
  · cases h
  · cases h

/-! ### Series with points -/

theorem cellsOf_ne_nil_iff {samples? : String → Option (List Sample)} {runId : String}
    {samples : List Sample} (h : samples? runId = some samples) :
    cellsOf samples? runId ≠ [] ↔ samples ≠ [] := by
  rw [cellsOf, h, Option.getD_some, ne_eq, List.map_eq_nil_iff]

section Drawn

variable {store : Store} {t : Tables} (ht : store.tables = some t) {measure : BarMeasure}
  {axis : VerticalAxis} (haxis : measure.OfAxis axis) {window : SeriesWindow}

include ht haxis

/-- **What is drawn for a run** on an axis has points exactly if the run has cells of the measure,
and then it has the label of the run. -/
theorem StyledRun.exists_drawn_iff {s : StyledRun} {series : List Series}
    (h : s.axisSeries store window axis = .ok series) {label : String} :
    (∃ x ∈ series, x.points ≠ [] ∧ x.label = label) ↔
      s.label = label ∧ cellsOf (measure.samples? t window.trimmingSeconds) s.run.id ≠ [] := by
  cases haxis with
  | @column name axisId c hname =>
    rw [StyledRun.axisSeries, hname] at h
    obtain ⟨_, ⟨⟩, hrest⟩ := bind_eq_ok_iff.1 h
    obtain ⟨points, hpoints, hpure⟩ := bind_eq_ok_iff.1 hrest
    obtain rfl := pure_eq_ok_iff.1 hpure
    rw [Store.bucketSeries, Store.query_of_tables ht, answer_eq_ok_iff] at hpoints
    -- There are points exactly if there are samples.
    rw [cellsOf_ne_nil_iff rfl, ne_eq, ← seriesPoints?_eq_nil_iff hpoints]
    simp [StyledRun.series, and_comm]
  | @metric path axisId keys hpath =>
    obtain rfl := FieldPath.keys_of_check hpath
    rw [StyledRun.axisSeries] at h
    obtain ⟨points, hread, hpure⟩ := bind_eq_ok_iff.1 h
    obtain rfl := pure_eq_ok_iff.1 hpure
    rw [Store.metricSeries, hpath] at hread
    simp only [Store.query_of_tables ht, answer_eq_ok_iff] at hread
    obtain ⟨samples, hsamples, hpoints⟩ := Option.bind_eq_some_iff.1 hread
    have hcells : cellsOf ((BarMeasure.metric path).samples? t window.trimmingSeconds) s.run.id ≠
        [] ↔ samples ≠ [] := cellsOf_ne_nil_iff hsamples
    rw [hcells, ne_eq, ← seriesPoints?_eq_nil_iff hpoints]
    -- A series without points is not drawn in the first place.
    cases points with
    | nil => simp
    | cons point rest => simp [StyledRun.series]

/-- A label is drawn with points for a run that has it exactly if some run with the label has cells
of the measure. -/
theorem exists_drawn_iff {field : String} {ordered : List Run}
    (hids : (ordered.map Run.id).Nodup) {series : List Series}
    (h : allSeries store window (drawnFrom field 0 ordered) [axis] = .ok series) {label : String} :
    (∃ x ∈ series, x.points ≠ [] ∧ x.label = label ∧
        ∃ run ∈ ordered, run.id = x.runId ∧ (run.params.labelAt? field).isSome = true) ↔
      ∃ run ∈ ordered, run.params.labelAt? field = some label ∧
        cellsOf (measure.samples? t window.trimmingSeconds) run.id ≠ [] := by
  obtain ⟨hdrawn, rfl⟩ := allSeries_eq_ok_iff.1 h
  replace hdrawn := hdrawn axis (List.mem_singleton_self axis)
  have hone : ∀ s ∈ drawnFrom field 0 ordered, _ := fun s hs =>
    @StyledRun.exists_drawn_iff store t ht measure axis haxis window s _ (hdrawn s hs) label
  rw [List.flatMap_singleton]
  constructor
  · rintro ⟨x, hx, hpoints, hlabel, run, hrun, hid, hfield⟩
    obtain ⟨s, hs, hx⟩ := List.mem_flatMap.1 hx
    obtain ⟨hslabel, hcells⟩ := (hone s hs).1 ⟨x, hx, hpoints, hlabel⟩
    obtain ⟨hsrun, hdrawnLabel⟩ := of_mem_drawnFrom s hs
    -- The series has the id of the run that it was drawn for, and no other run has that id.
    obtain ⟨_, _, rfl⟩ := StyledRun.mem_axisSeries (hdrawn s hs) x hx
    obtain rfl : run = s.run := List.inj_on_of_nodup_map hids hrun hsrun hid
    obtain ⟨found, hfound⟩ := Option.isSome_iff_exists.1 hfield
    rw [hdrawnLabel, drawnLabel, hfound, Option.getD_some] at hslabel
    exact ⟨s.run, hsrun, hslabel ▸ hfound, hcells⟩
  · rintro ⟨run, hrun, hlabel, hcells⟩
    obtain ⟨place, hplace⟩ := List.getElem?_of_mem hrun
    have hs : .at field run (0 + place) ∈ drawnFrom field 0 ordered := mem_drawnFrom hplace
    have hslabel : drawnLabel field run = label := by rw [drawnLabel, hlabel, Option.getD_some]
    obtain ⟨x, hx, hpoints, hxlabel⟩ := (hone _ hs).2 ⟨hslabel, hcells⟩
    refine ⟨x, List.mem_flatMap.2 ⟨_, hs, hx⟩, hpoints, hxlabel, run, hrun, ?_, ?_⟩
    · obtain ⟨_, _, rfl⟩ := StyledRun.mem_axisSeries (hdrawn _ hs) x hx
      rfl
    · rw [hlabel]
      rfl

end Drawn

/-! ### Bars and lines of one request -/

namespace Store

/-- **Both modes of a chart group the runs alike.** If a request can be answered with bars and with
lines, then both charts have the same runs, and the labels of the bars are those with which a run
that has the field is drawn with points, except for the labels whose cells merge to NULL. -/
theorem chart_modes_agree {s : Store} (hs : s.Reachable) {gerritPrefix : String}
    {r : ChartRequest} {simplified full : Chart}
    (hsimplified : s.chart gerritPrefix { r with chartMode := .simplified } = .ok simplified)
    (hfull : s.chart gerritPrefix { r with chartMode := .full } = .ok full) :
    ∃ bars lines t measure, simplified = .bar bars ∧ full = .line lines ∧ s.tables = some t ∧
      r.measure = .ok measure ∧ lines.runs.Perm bars.runs ∧
      ∀ label, label ∈ bars.labels ↔
        (∃ x ∈ lines.series, x.points ≠ [] ∧ x.label = label ∧ ∃ run ∈ lines.runs,
          run.id = x.runId ∧ (run.params.labelAt? r.horizontalAxis.field).isSome = true) ∧
        (r.aggregateQuery bars.runs).merged?
          (cellsOf (measure.samples? t r.trimmingSeconds)) label ≠ some .null := by
  obtain ⟨bars, rfl⟩ := exists_bars_of_chart rfl hsimplified
  obtain ⟨measure, runs, found, sorted, hmeasure, hruns, hfound, hsorted, rfl⟩ :=
    chart_eq_ok_bar hsimplified
  obtain ⟨-, -, runs', lines, hruns', hbuild, rfl⟩ := (chart_eq_ok_of_full rfl).1 hfull
  -- The mode has no say in which runs a request has.
  obtain rfl : runs = runs' := Except.ok.inj (hruns.symm.trans hruns')
  obtain ⟨t, ht, hids⟩ := nodup_ids_resolve hs hruns
  have hmeasure : r.measure = .ok measure := hmeasure
  obtain ⟨axis, haxes, haxis⟩ := r.exists_axis_of_measure hmeasure
  obtain ⟨-, styled, hstyled, hlines, hseries, -⟩ := LineChart.build_eq_ok_iff.1 hbuild
  obtain ⟨ordered, hperm, rfl⟩ := styleRuns_eq_ok hstyled
  rw [map_run_drawnFrom] at hlines
  have hids' : (ordered.map Run.id).Nodup := (hperm.map Run.id).nodup_iff.2 hids
  -- A line with a label is drawn if some run with that label has samples.
  have hdrawn : ∀ label, _ := fun label =>
    @exists_drawn_iff s t ht measure axis haxis r.window _ ordered hids' _ (haxes ▸ hseries) label
  have hevaluate := BarMeasure.bars_eq_ok ht hfound
  have hread := BarMeasure.isNumeric_cellsOf t r.trimmingSeconds measure
  have hshows := ofBars_shows hids hread hevaluate hsorted
  refine ⟨_, lines, t, measure, rfl, rfl, ht, hmeasure, hlines ▸ hperm, fun label => ?_⟩
  rw [hshows.labels label, hlines, hdrawn label]
  constructor
  · rintro ⟨⟨run, hrun, hcounts⟩, cell, hcell, hnull⟩
    refine ⟨⟨run, hperm.mem_iff.2 hrun, hcounts⟩, fun heq => ?_⟩
    obtain rfl : .null = cell := Option.some.inj (heq.symm.trans hcell)
    cases hnull
  · rintro ⟨⟨run, hrun, hlabel, hcells⟩, hne⟩
    replace hrun := hperm.mem_iff.1 hrun
    -- The query for the bars succeeded, so the cells of the label merge to something.
    obtain ⟨cell, hcell⟩ := AggregateQuery.exists_merged?_of_evaluate? (nodup_labelledRuns hids)
      hevaluate (ChartRequest.exists_contributor_iff.2 ⟨run, hrun, hlabel, hcells⟩)
    refine ⟨⟨run, hrun, hlabel, hcells⟩, cell, hcell, ?_⟩
    cases cell with
    | null => exact absurd hcell hne
    | _ => rfl

/-- One run, whose bar has the label of its line. -/
theorem chart_modes_agree_oneRun :
    ∃ bars lines, bars.labels = ["x"] ∧ lines.runs = [(RunRecord.ofMetric "cpu" 5).run] ∧
      (single (.ofMetric "cpu" 5)).chart "" (.greatest "cpu") = .ok (.bar bars) ∧
      (single (.ofMetric "cpu" 5)).chart "" { ChartRequest.greatest "cpu" with chartMode := .full }
        = .ok (.line lines) ∧
      ∃ x ∈ lines.series, x.points ≠ [] ∧ x.label = "x" := by
  have hs := Reachable.single (RunRecord.normal_ofMetric "cpu" 5)
  have hbars := chart_ofMetric numberCell_five
  let r : ChartRequest := { ChartRequest.greatest "cpu" with chartMode := .full }
  let run := (RunRecord.ofMetric "cpu" 5).run
  have hrows : Tables.ownedBy (Tables.empty.append (.ofMetric "cpu" 5)).metrics "run" =
      (RunRecord.ofMetric "cpu" 5).metrics := rfl
  have hpoints : (single (.ofMetric "cpu" 5)).metricSeries "run" "cpu" r.window =
      .ok [⟨0, 5, "run", run.datetime⟩] := metricSeries_ofMetric hrows numberCell_five rfl
  -- The line of the run has one point.
  have hdrawn : StyledRun.axisSeries (.at "sdk" run 0) (single (.ofMetric "cpu" 5)) r.window
      (.metric "cpu" "y") = .ok [⟨"y", "x", "#3fb950", "run", [⟨0, 5, "run", run.datetime⟩]⟩] :=
    bind_eq_ok_iff.2 ⟨_, hpoints, rfl⟩
  have hseries : allSeries (single (.ofMetric "cpu" 5)) r.window [.at "sdk" run 0] r.verticalAxes =
      .ok [⟨"y", "x", "#3fb950", "run", [⟨0, 5, "run", run.datetime⟩]⟩] :=
    bind_eq_ok_iff.2 ⟨_, bind_eq_ok_iff.2 ⟨_, hdrawn, rfl⟩, rfl⟩
  have hcheck : checkLineAxes r.verticalAxes = .ok () := by decide
  have hbuild : LineChart.build (single (.ofMetric "cpu" 5)) r [run] = .ok ⟨[run], _, []⟩ :=
    LineChart.build_eq_ok_iff.2
      ⟨hcheck, _, styleRuns_singleton (by decide) run, rfl, hseries, rfl⟩
  have hfull : (single (.ofMetric "cpu" 5)).chart "" r = .ok (.line ⟨[run], _, []⟩) :=
    (chart_eq_ok_of_full rfl).2
      ⟨by decide, hcheck, _, _, resolve_ofMetric "cpu" 5, hbuild, rfl⟩
  obtain ⟨bars, lines, t, measure, heq, heq', -, -, hperm, hlabels⟩ :=
    chart_modes_agree (r := .greatest "cpu") hs hbars hfull
  cases heq
  cases heq'
  obtain ⟨⟨x, hx, hpoints, hlabel, -⟩, -⟩ := (hlabels "x").1 (List.mem_singleton_self _)
  exact ⟨_, _, rfl, List.perm_singleton.1 hperm, hbars, hfull, x, hx, hpoints, hlabel⟩

end Store

end BenchCharts

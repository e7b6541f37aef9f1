import BenchCharts.Chart.Lines
import BenchCharts.Proofs.LabelOrder
import BenchCharts.Proofs.Outcome
import BenchCharts.Proofs.Store.Rows

/-!
# What a line chart is made of

A line chart is put together from pieces, each of which is drawn for one run. All passes over runs
and axes are of one form (`collect`), so a chart that is drawn is the list of its pieces, and no
piece is missing (`build_eq_ok_iff`, `allSeries_eq_ok_iff`).

What is drawn for a run depends on its label, its color and the rows that the store has of it:

* `styleRuns_eq_ok` — the runs are rearranged; the label of a run depends on the run alone, and its
  color on its place alone;
* `StyledRun.axisSeries_recolored` — a color shows in the color of the series and nowhere else;
* `StyledRun.axisSeries_congr` — stores that agree on a run draw the same for it.

All that is drawn for a run has the id of the run (`StyledRun.mem_axisSeries`,
`StyledRun.mem_marks`), by which it can be told from what is drawn for others.
-/

namespace BenchCharts

variable {store store' : Store} {window : SeriesWindow}

/-! ### Runs in the order in which they are drawn -/

/-- The colors of the palette are given out in turn. -/
theorem getElem?_palette (place : Nat) :
    palette[place % palette.length]? = some (colorAt place) := by
  have hplace : place % palette.length < palette.length := Nat.mod_lt _ (by decide)
  have hcolor : colorAt place = (palette[place % palette.length]?).getD "" :=
    List.getD_eq_getElem?_getD
  rw [hcolor, List.getElem?_eq_getElem hplace, Option.getD_some]

/-- The label with which a run is drawn. -/
def drawnLabel (field : String) (run : Run) : String :=
  (run.params.labelAt? field).getD unknownLabel

/-- A run as it is drawn at a place. -/
def StyledRun.at (field : String) (run : Run) (place : Nat) : StyledRun :=
  ⟨run, drawnLabel field run, colorAt place⟩

/-- Runs as they are drawn one after the other, from a place on. -/
def drawnFrom (field : String) (place : Nat) : List Run → List StyledRun
  | [] => []
  | run :: rest => .at field run place :: drawnFrom field (place + 1) rest

theorem map_run_drawnFrom (field : String) (place : Nat) (runs : List Run) :
    (drawnFrom field place runs).map StyledRun.run = runs := by
  induction runs generalizing place with
  | nil => rfl
  | cons run rest ih => rw [drawnFrom, List.map_cons, ih, StyledRun.at]

theorem map_id_drawnFrom (field : String) (place : Nat) (runs : List Run) :
    (drawnFrom field place runs).map (fun s => s.run.id) = runs.map Run.id := by
  have hmap : (drawnFrom field place runs).map (fun s => s.run.id) =
      ((drawnFrom field place runs).map StyledRun.run).map Run.id := (List.map_map ..).symm
  rw [hmap, map_run_drawnFrom]

/-- A run is drawn at its place. -/
theorem mem_drawnFrom {field : String} {place : Nat} {runs : List Run} {i : Nat} {run : Run}
    (hrun : runs[i]? = some run) : .at field run (place + i) ∈ drawnFrom field place runs := by
  induction runs generalizing place i with
  | nil => cases hrun
  | cons first rest ih =>
    cases i with
    | zero =>
      obtain rfl : first = run := by simpa using hrun
      exact List.mem_cons_self ..
    -- In the rest the run is one place nearer to the front, and the rest starts one place later.
    | succ i =>
      have hrest : .at field run (place + 1 + i) ∈ drawnFrom field (place + 1) rest :=
        ih (by simpa using hrun)
      rw [Nat.add_right_comm] at hrest
      exact List.mem_cons_of_mem _ hrest

theorem of_mem_drawnFrom {field : String} {place : Nat} {runs : List Run} :
    ∀ s ∈ drawnFrom field place runs, s.run ∈ runs ∧ s.label = drawnLabel field s.run := by
  induction runs generalizing place with
  | nil => simp [drawnFrom]
  | cons run rest ih =>
    rw [drawnFrom, List.forall_mem_cons]
    refine ⟨⟨List.mem_cons_self .., rfl⟩, fun s hs => ?_⟩
    exact ⟨List.mem_cons_of_mem _ (ih s hs).1, (ih s hs).2⟩

/-- The runs are drawn as they stand, each with its place. -/
theorem drawnFrom_eq_map_zipIdx (field : String) (place : Nat) (runs : List Run) :
    drawnFrom field place runs =
      (runs.zipIdx place).map fun (run, place) => .at field run place := by
  induction runs generalizing place with
  | nil => rfl
  | cons run rest ih => rw [drawnFrom, ih, List.zipIdx_cons, List.map_cons]

/-- Runs given with the labels with which they are drawn get their colors by their places. -/
theorem colorRuns_eq_drawnFrom {field : String} {place : Nat} {labelled : List (String × Run)}
    (h : ∀ pair ∈ labelled, pair.1 = drawnLabel field pair.2) :
    colorRuns place labelled = drawnFrom field place (labelled.map Prod.snd) := by
  induction labelled generalizing place with
  | nil => rfl
  | cons pair rest ih =>
    obtain ⟨hfirst, hrest⟩ := List.forall_mem_cons.1 h
    rw [List.map_cons, drawnFrom, ← ih hrest, StyledRun.at, ← hfirst]
    rfl

/-- Every run has a label or has none. -/
theorem perm_runsWithLabel (field : String) (runs : List Run) :
    ((runsWithLabel field runs).map Prod.snd ++ runsWithoutLabel field runs).Perm runs := by
  induction runs with
  | nil => exact .refl _
  | cons run rest ih =>
    rw [runsWithLabel, runsWithoutLabel] at ih ⊢
    cases hlabel : run.params.labelAt? field with
    -- A run is in one of the two lists, depending on whether it has a label.
    | some label => simpa [hlabel] using ih.cons run
    | none =>
      simp only [List.filterMap_cons, hlabel, Option.map_none, List.filter_cons,
        Option.isNone_none, if_true]
      exact List.perm_middle.trans (ih.cons run)

/-- **Runs are rearranged**, and get their labels and colors. -/
theorem styleRuns_eq_ok {axis : HorizontalAxis} {runs : List Run} {styled : List StyledRun}
    (h : styleRuns axis runs = .ok styled) :
    ∃ ordered, ordered.Perm runs ∧ styled = drawnFrom axis.field 0 ordered := by
  unfold styleRuns at h
  obtain ⟨labelled, hlabelled, hpure⟩ := bind_eq_ok_iff.1 h
  obtain rfl := pure_eq_ok_iff.1 hpure
  obtain ⟨hperm, -⟩ := sortByLabel_eq_ok hlabelled
  let others := (runsWithoutLabel axis.field runs).map fun run => (unknownLabel, run)
  -- Sorting moves the pairs of label and run as they are, so each run still has its own label.
  have hlabels : ∀ pair ∈ labelled ++ others, pair.1 = drawnLabel axis.field pair.2 := by
    intro pair hpair
    rcases List.mem_append.1 hpair with hpair | hpair
    · obtain ⟨run, -, hrun⟩ := List.mem_filterMap.1 (hperm.mem_iff.1 hpair)
      obtain ⟨label, hlabel, rfl⟩ := Option.map_eq_some_iff.1 hrun
      rw [drawnLabel, hlabel, Option.getD_some]
    · obtain ⟨run, hrun, rfl⟩ := List.mem_map.1 hpair
      have hnone := Option.isNone_iff_eq_none.1 (List.mem_filter.1 hrun).2
      rw [drawnLabel, hnone, Option.getD_none]
  refine ⟨(labelled ++ others).map Prod.snd, ?_, colorRuns_eq_drawnFrom hlabels⟩
  have hothers : others.map Prod.snd = runsWithoutLabel axis.field runs := by
    rw [List.map_map]
    exact List.map_id _
  rw [List.map_append, hothers]
  exact ((hperm.map Prod.snd).append_right _).trans (perm_runsWithLabel axis.field runs)

/-- A run alone can be drawn, unless its label should be a whole number. -/
theorem styleRuns_singleton {axis : HorizontalAxis} (htype : axis.resultType ≠ .integer)
    (run : Run) : styleRuns axis [run] = .ok [.at axis.field run 0] := by
  -- Only a label that should be a number and is none can make the sort fail.
  obtain ⟨sorted, hsorted⟩ : ∃ sorted, sortByLabel axis.resultType Prod.fst
      (runsWithLabel axis.field [run]) = .ok sorted :=
    ⟨_, sortByLabel_eq_ok_iff.2 ⟨fun heq => absurd heq htype, rfl⟩⟩
  have hstyled : ∃ styled, styleRuns axis [run] = .ok styled := by
    rw [styleRuns, hsorted]
    exact ⟨_, rfl⟩
  obtain ⟨styled, hstyled⟩ := hstyled
  obtain ⟨ordered, hperm, rfl⟩ := styleRuns_eq_ok hstyled
  obtain rfl := List.perm_singleton.1 hperm
  exact hstyled

/-! ### Series -/

/-- A series in another color. -/
def Series.recolored (color : String) (x : Series) : Series := { x with color }

namespace StyledRun

/-- The series of one of the metrics of a run, with its name in the label. -/
def namedSeries (s : StyledRun) (store : Store) (window : SeriesWindow) (axisId metric : String) :
    Except ChartError (List Series) := do
  let points ← store.metricSeries s.run.id metric window
  return if points.isEmpty then [] else [s.series axisId (s.label ++ " " ++ metric) points]

theorem metricsSeries_eq_collect (s : StyledRun) (axisId : String) (metrics : List String) :
    s.metricsSeries store window axisId metrics =
      collect (s.namedSeries store window axisId) metrics := by
  induction metrics with
  | nil => rfl
  | cons metric rest ih =>
    rw [metricsSeries, collect, ih, namedSeries]
    -- The pass stops at the first metric that fails.
    cases store.metricSeries s.run.id metric window with
    | error cause => rfl
    | ok points =>
      cases collect (s.namedSeries store window axisId) rest with
      | error cause => rfl
      | ok others => cases points <;> rfl

theorem mem_namedSeries {s : StyledRun} {axisId metric : String} {series : List Series}
    (h : s.namedSeries store window axisId metric = .ok series) :
    ∀ x ∈ series, ∃ label points, x = s.series axisId label points := by
  unfold namedSeries at h
  obtain ⟨points, -, hpure⟩ := bind_eq_ok_iff.1 h
  obtain rfl := pure_eq_ok_iff.1 hpure
  intro x hx
  split at hx
  · cases hx
  · exact ⟨_, _, List.mem_singleton.1 hx⟩

/-- **Every series of a run on an axis has the ids of both**, and the color of the run. -/
theorem mem_axisSeries {s : StyledRun} {axis : VerticalAxis} {series : List Series}
    (h : s.axisSeries store window axis = .ok series) :
    ∀ x ∈ series, ∃ label points, x = s.series axis.axisId label points := by
  intro x hx
  cases axis with
  | buckets name axisId =>
    obtain ⟨column, -, hrest⟩ := bind_eq_ok_iff.1 h
    obtain ⟨points, -, hpure⟩ := bind_eq_ok_iff.1 hrest
    obtain rfl := pure_eq_ok_iff.1 hpure
    exact ⟨_, _, List.mem_singleton.1 hx⟩
  | metric metric axisId =>
    obtain ⟨points, -, hpure⟩ := bind_eq_ok_iff.1 h
    obtain rfl := pure_eq_ok_iff.1 hpure
    split at hx
    · cases hx
    · exact ⟨_, _, List.mem_singleton.1 hx⟩
  | errors axisId =>
    obtain ⟨points, -, hpure⟩ := bind_eq_ok_iff.1 h
    obtain rfl := pure_eq_ok_iff.1 hpure
    exact ⟨_, _, List.mem_singleton.1 hx⟩
  -- The only axis with more than one series for a run.
  | metricsAll axisId =>
    obtain ⟨metrics, -, hseries⟩ := bind_eq_ok_iff.1 h
    rw [metricsSeries_eq_collect] at hseries
    obtain ⟨hall, rfl⟩ := collect_eq_ok_iff.1 hseries
    obtain ⟨metric, hmetric, hx⟩ := List.mem_flatMap.1 hx
    exact mem_namedSeries (hall metric hmetric) x hx

/-- **A color shows in the color of the series alone.** -/
theorem axisSeries_recolored (store : Store) (window : SeriesWindow) (s : StyledRun)
    (color : String) (axis : VerticalAxis) :
    axisSeries { s with color } store window axis =
      (s.axisSeries store window axis).map (List.map (Series.recolored color)) := by
  have hseries : ∀ axisId label points, [series { s with color } axisId label points] =
      [s.series axisId label points].map (Series.recolored color) :=
    fun axisId label points => rfl
  -- On axes of metrics there is only a series if there are points.
  have hpresent : ∀ axisId label (points : List SeriesPoint),
      (if points.isEmpty then [] else [series { s with color } axisId label points]) =
        (if points.isEmpty then [] else [s.series axisId label points]).map
          (Series.recolored color) := by
    intro axisId label points
    split
    · rfl
    · exact hseries axisId label points
  cases axis with
  | buckets name axisId =>
    rw [axisSeries, axisSeries]
    cases (BucketColumn.ofName name).mapError ChartError.invalid with
    | error cause => rfl
    | ok column => exact bind_pure_eq_map _ (hseries axisId s.label)
  | metric metric axisId =>
    rw [axisSeries, axisSeries]
    exact bind_pure_eq_map _ (hpresent axisId s.label)
  | errors axisId =>
    rw [axisSeries, axisSeries]
    exact bind_pure_eq_map _ (hseries axisId s.label)
  -- The names are those in the store, whatever the color is.
  | metricsAll axisId =>
    rw [axisSeries, axisSeries]
    cases store.metricKeys s.run.id with
    | error cause => rfl
    | ok metrics =>
      have hnamed : namedSeries { s with color } store window axisId = fun metric =>
          (s.namedSeries store window axisId metric).map (List.map (Series.recolored color)) := by
        funext metric
        rw [namedSeries, namedSeries]
        exact bind_pure_eq_map _ (hpresent axisId (s.label ++ " " ++ metric))
      have hcollect := collect_map (Series.recolored color) (s.namedSeries store window axisId)
        metrics
      rw [← hnamed, ← metricsSeries_eq_collect, ← metricsSeries_eq_collect] at hcollect
      exact hcollect

/-- **Stores that agree on a run draw the same for it.** -/
theorem axisSeries_congr {s : StyledRun} (h : store.AgreeOn store' s.run.id)
    (axis : VerticalAxis) :
    s.axisSeries store window axis = s.axisSeries store' window axis := by
  cases axis with
  | buckets name axisId => simp only [axisSeries, h.bucketSeries]
  | metric metric axisId => simp only [axisSeries, h.metricSeries]
  | errors axisId => simp only [axisSeries, h.errorSeries]
  | metricsAll axisId =>
    -- The stores list the same names, and answer each alike.
    have hnamed : s.namedSeries store window axisId = s.namedSeries store' window axisId := by
      funext metric
      rw [namedSeries, namedSeries, h.metricSeries]
    simp only [axisSeries, h.metricKeys, metricsSeries_eq_collect, hnamed]

end StyledRun

theorem allSeries_eq_collect (runs : List StyledRun) (axes : List VerticalAxis) :
    allSeries store window runs axes =
      collect (fun axis => collect (fun s => s.axisSeries store window axis) runs) axes := by
  have haxis : ∀ axis, axisSeries store window axis runs =
      collect (fun s => s.axisSeries store window axis) runs := by
    intro axis
    induction runs with
    | nil => rfl
    | cons s rest ih => rw [axisSeries, collect, ih]
  -- The outer pass goes over the axes, and for each of them the inner one over the runs.
  induction axes with
  | nil => rfl
  | cons axis rest ih => rw [allSeries, collect, ih, haxis]

/-- The series of a run on an axis; nothing if they cannot be drawn. -/
def seriesOf (store : Store) (window : SeriesWindow) (axis : VerticalAxis) :
    StyledRun → List Series :=
  resultsOf fun s => s.axisSeries store window axis

/-- **The series of a chart are those of its axes, run by run**, and none of them fails. -/
theorem allSeries_eq_ok_iff {runs : List StyledRun} {axes : List VerticalAxis}
    {series : List Series} :
    allSeries store window runs axes = .ok series ↔
      (∀ axis ∈ axes, ∀ s ∈ runs,
        s.axisSeries store window axis = .ok (seriesOf store window axis s)) ∧
        series = axes.flatMap fun axis => runs.flatMap (seriesOf store window axis) := by
  rw [allSeries_eq_collect, collect_eq_ok_iff]
  constructor
  · rintro ⟨hall, rfl⟩
    have haxis := fun axis haxis => collect_eq_ok_iff.1 (hall axis haxis)
    refine ⟨fun axis hmem => (haxis axis hmem).1, ?_⟩
    exact List.flatMap_congr fun axis hmem => (haxis axis hmem).2
  · rintro ⟨hall, rfl⟩
    have haxis := fun axis hmem => collect_eq_ok_iff.2 ⟨hall axis hmem, rfl⟩
    refine ⟨fun axis hmem => eq_ok_resultsOf (haxis axis hmem), ?_⟩
    refine List.flatMap_congr fun axis hmem => ?_
    rw [resultsOf, haxis axis hmem]
    rfl

/-- The series of one axis stand between those of the axes before and those of the axes after. -/
theorem allSeries_append_cons_eq_ok_iff {runs : List StyledRun} {before after : List VerticalAxis}
    {axis : VerticalAxis} {series : List Series} :
    allSeries store window runs (before ++ axis :: after) = .ok series ↔
      ∃ first block last, allSeries store window runs before = .ok first ∧
        collect (fun s => s.axisSeries store window axis) runs = .ok block ∧
        allSeries store window runs after = .ok last ∧ series = first ++ block ++ last := by
  simp only [allSeries_eq_collect, collect_append, collect, bind_eq_ok_iff, pure_eq_ok_iff]
  constructor
  · rintro ⟨first, hfirst, _, ⟨block, hblock, last, hlast, rfl⟩, rfl⟩
    exact ⟨first, block, last, hfirst, hblock, hlast, (List.append_assoc ..).symm⟩
  · rintro ⟨first, block, last, hfirst, hblock, hlast, rfl⟩
    exact ⟨first, hfirst, _, ⟨block, hblock, last, hlast, rfl⟩, (List.append_assoc ..).symm⟩

/-! ### Annotations -/

/-- The annotations of a run that a request asks for. -/
def StyledRun.marks (store : Store) (requests : List AnnotationRequest) (s : StyledRun) :
    Except ChartError (List Annotation) :=
  match requestedEventTypes requests with
  | some types => runAnnotations store types s
  | none => .ok []

namespace StyledRun

theorem mem_annotate {runId : String} {anchor : Instant} {index : Nat} {events : List RunEvent} :
    ∀ a ∈ annotate runId anchor index events, a.runId = runId := by
  induction events generalizing index with
  | nil => simp [annotate]
  | cons e rest ih =>
    rw [annotate, List.forall_mem_cons]
    exact ⟨rfl, ih⟩

/-- **Every annotation of a run has its id.** -/
theorem mem_marks {requests : List AnnotationRequest} {s : StyledRun}
    {annotations : List Annotation} (h : s.marks store requests = .ok annotations) :
    ∀ a ∈ annotations, a.runId = s.run.id := by
  unfold marks at h
  split at h
  · unfold runAnnotations at h
    obtain ⟨events, -, hrest⟩ := bind_eq_ok_iff.1 h
    split at hrest
    · obtain rfl := pure_eq_ok_iff.1 hrest
      simp
    · obtain ⟨first, -, hpure⟩ := bind_eq_ok_iff.1 hrest
      obtain rfl := pure_eq_ok_iff.1 hpure
      exact mem_annotate
  · obtain rfl := Except.ok.inj h
    simp

/-- A color does not show in annotations. -/
theorem marks_recolored (store : Store) (s : StyledRun) (color : String)
    (requests : List AnnotationRequest) :
    marks store requests { s with color } = s.marks store requests := rfl

theorem marks_congr {s : StyledRun} (h : store.AgreeOn store' s.run.id)
    (requests : List AnnotationRequest) :
    s.marks store requests = s.marks store' requests := by
  rw [marks, marks]
  split
  · simp only [runAnnotations, h.runEvents, h.firstBucketTime]
  · rfl

end StyledRun

/-! ### The chart -/

namespace LineChart

/-- A chart with its annotations drawn run by run, as its series are. -/
theorem build_eq_collect (store : Store) (r : ChartRequest) (runs : List Run) :
    build store r runs = (do
      (checkLineAxes r.verticalAxes).mapError .invalid
      let styled ← (styleRuns r.horizontalAxis runs).mapError .invalid
      let series ← allSeries store r.window styled r.verticalAxes
      let annotations ← collect (StyledRun.marks store r.annotations) styled
      return { runs := styled.map StyledRun.run, series, annotations }) := by
  -- If no types are asked for, no run is asked for events, and every run has no annotations.
  have hmarks : ∀ styled, collect (StyledRun.marks store r.annotations) styled =
      match requestedEventTypes r.annotations with
      | some types => allAnnotations store types styled
      | none => .ok [] := by
    intro styled
    induction styled with
    | nil => split <;> rfl
    | cons s rest ih =>
      rw [collect, ih, StyledRun.marks]
      split <;> rfl
  simp only [build, hmarks]
  cases requestedEventTypes r.annotations <;> rfl

/-- **The steps to a line chart.** -/
theorem build_eq_ok_iff {r : ChartRequest} {runs : List Run} {chart : LineChart} :
    build store r runs = .ok chart ↔
      checkLineAxes r.verticalAxes = .ok () ∧
        ∃ styled, styleRuns r.horizontalAxis runs = .ok styled ∧
          chart.runs = styled.map StyledRun.run ∧
          allSeries store r.window styled r.verticalAxes = .ok chart.series ∧
          collect (StyledRun.marks store r.annotations) styled = .ok chart.annotations := by
  rw [build_eq_collect, bind_eq_ok_iff]
  constructor
  · rintro ⟨⟨⟩, hcheck, hrest⟩
    obtain ⟨styled, hstyled, hrest⟩ := bind_eq_ok_iff.1 hrest
    obtain ⟨series, hseries, hrest⟩ := bind_eq_ok_iff.1 hrest
    obtain ⟨annotations, hannotations, hpure⟩ := bind_eq_ok_iff.1 hrest
    obtain rfl := pure_eq_ok_iff.1 hpure
    exact ⟨mapError_eq_ok_iff.1 hcheck, styled, mapError_eq_ok_iff.1 hstyled, rfl, hseries,
      hannotations⟩
  · rintro ⟨hcheck, styled, hstyled, hruns, hseries, hannotations⟩
    refine ⟨(), mapError_eq_ok_iff.2 hcheck, bind_eq_ok_iff.2 ⟨styled, ?_, ?_⟩⟩
    · exact mapError_eq_ok_iff.2 hstyled
    refine bind_eq_ok_iff.2 ⟨_, hseries, bind_eq_ok_iff.2 ⟨_, hannotations, ?_⟩⟩
    rw [pure_eq_ok_iff, ← hruns]

/-- A chart is of the runs that it was asked for, in another order. -/
theorem perm_runs_of_build {r : ChartRequest} {runs : List Run} {chart : LineChart}
    (h : build store r runs = .ok chart) : chart.runs.Perm runs := by
  obtain ⟨-, styled, hstyled, hruns, -⟩ := build_eq_ok_iff.1 h
  obtain ⟨ordered, hperm, rfl⟩ := styleRuns_eq_ok hstyled
  rw [hruns, map_run_drawnFrom]
  exact hperm

/-- **Stores that agree on all runs of a chart draw the same chart**, or neither draws any. -/
theorem build_congr {r : ChartRequest} {runs : List Run}
    (h : ∀ run ∈ runs, store.AgreeOn store' run.id) :
    build store r runs = build store' r runs := by
  rw [build_eq_collect, build_eq_collect]
  cases hstyled : styleRuns r.horizontalAxis runs with
  | error cause => rfl
  | ok styled =>
    -- The styled runs are the runs themselves in another order, so the stores agree on each.
    have hagree : ∀ s ∈ styled, store.AgreeOn store' s.run.id := by
      obtain ⟨ordered, hperm, rfl⟩ := styleRuns_eq_ok hstyled
      intro s hs
      have hrun := List.mem_map_of_mem (f := StyledRun.run) hs
      rw [map_run_drawnFrom] at hrun
      exact h s.run (hperm.mem_iff.1 hrun)
    have hseries : allSeries store r.window styled r.verticalAxes =
        allSeries store' r.window styled r.verticalAxes := by
      rw [allSeries_eq_collect, allSeries_eq_collect]
      exact collect_congr fun axis _ =>
        collect_congr fun s hs => StyledRun.axisSeries_congr (hagree s hs) axis
    have hmarks : collect (StyledRun.marks store r.annotations) styled =
        collect (StyledRun.marks store' r.annotations) styled :=
      collect_congr fun s hs => StyledRun.marks_congr (hagree s hs) r.annotations
    simp only [Except.mapError, bind, Except.bind, hseries, hmarks]

end LineChart

end BenchCharts

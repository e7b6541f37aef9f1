import BenchCharts.Proofs.Chart.Lines
import BenchCharts.Proofs.Dashboard
import BenchCharts.Proofs.Dashboard.Refusals

/-!
# The order of the runs of a line chart

Runs are put in order in three places. The store finds them by the texts of their times and then by
their ids; the filter and the selection drop some of them and move none; and the chart takes out the
runs with a label, sorts them by it and puts the others after them. The sort is stable, so where
labels do not decide, the order of the store is still there. `Run.Precedes` is what all of this
comes to: one order, told by two runs alone.

No two runs of a store share an id, so the order is strict, and there is only one way to arrange
runs in it (`Run.Precedes.asymm`, `eq_of_perm_of_pairwise_precedes`).

Labels that should be whole numbers are looked at before they are sorted. The first one that is no
number refuses the request, and nothing else on the way to a chart fails for such a reason
(`LineChart.build_eq_notAnInteger_iff`). Runs without a label are not looked at.
-/

namespace BenchCharts

/-! ### The order -/

/-- Parameters have nothing at a path, or `null`. -/
def Run.Lacks (field : String) (run : Run) : Prop :=
  ∀ value, run.params.at? field = some value → value = .null

/-- A run has no label exactly if it lacks the field. -/
theorem Run.labelAt?_eq_none_iff {field : String} {run : Run} :
    run.params.labelAt? field = none ↔ run.Lacks field := by
  rw [Json.Fields.labelAt?, Option.map_eq_none_iff, Option.filter_eq_none_iff]
  -- A value that is there is a label unless it is `null`.
  refine forall₂_congr fun value _ => ?_
  cases value <;> simp [Json.isNull]

/-- A run comes before another one on a line chart. -/
inductive Run.Precedes (axis : HorizontalAxis) (a b : Run) : Prop
  /-- Both have the field, and the label of the first is below that of the other. -/
  | label {x y : String} (ha : a.params.labelAt? axis.field = some x)
      (hb : b.params.labelAt? axis.field = some y)
      (hlt : compareLabels axis.resultType x y = .ok .lt)
  /-- Both have the field with labels that compare equal. Then the text of the time decides, and
  after it the id. -/
  | tie {x y : String} (ha : a.params.labelAt? axis.field = some x)
      (hb : b.params.labelAt? axis.field = some y)
      (heq : compareLabels axis.resultType x y = .ok .eq)
      (hstored : a.compareStored b = .lt)
  /-- Only the first one has the field. -/
  | present {x : String} (ha : a.params.labelAt? axis.field = some x) (hb : b.Lacks axis.field)
  /-- Neither has the field, so that the time and the id decide. -/
  | lacking (ha : a.Lacks axis.field) (hb : b.Lacks axis.field)
      (hstored : a.compareStored b = .lt)

namespace Run.Precedes

variable {axis : HorizontalAxis} {a b : Run}

/-- Of two runs at most one comes before the other. -/
theorem asymm (hab : a.Precedes axis b) : ¬ b.Precedes axis a := by
  have hstored : a.compareStored b = .lt → b.compareStored a ≠ .lt := by
    intro hlt hgt
    rw [Std.OrientedCmp.gt_of_lt hlt] at hgt
    cases hgt
  have hlacks : ∀ {run : Run} {x : String}, run.params.labelAt? axis.field = some x →
      ¬ run.Lacks axis.field := by
    intro run x hlabel hnone
    rw [Run.labelAt?_eq_none_iff.2 hnone] at hlabel
    cases hlabel
  intro hba
  -- Either the labels or the stored order would go both ways, or a run would have the field and
  -- lack it.
  cases hab with
  | label ha hb hlt =>
    cases hba with
    -- Each run has one label, so both are compared in both directions.
    | label hb' ha' hlt' =>
      cases ha.symm.trans ha'
      cases hb.symm.trans hb'
      cases (compareLabels_swap hlt).symm.trans hlt'
    | tie hb' ha' heq' _ =>
      cases ha.symm.trans ha'
      cases hb.symm.trans hb'
      cases (compareLabels_swap hlt).symm.trans heq'
    | present _ hnone => exact hlacks ha hnone
    | lacking hnone _ _ => exact hlacks hb hnone
  | tie ha hb heq hlt =>
    cases hba with
    | label hb' ha' hlt' =>
      cases ha.symm.trans ha'
      cases hb.symm.trans hb'
      cases (compareLabels_swap heq).symm.trans hlt'
    | tie _ _ _ hlt' => exact hstored hlt hlt'
    | present _ hnone => exact hlacks ha hnone
    | lacking hnone _ _ => exact hlacks hb hnone
  | present ha hnone =>
    cases hba with
    | label hb' _ _ => exact hlacks hb' hnone
    | tie hb' _ _ _ => exact hlacks hb' hnone
    | present hb' _ => exact hlacks hb' hnone
    | lacking _ hnone' _ => exact hlacks ha hnone'
  | lacking hnone hnone' hlt =>
    cases hba with
    | label _ ha' _ => exact hlacks ha' hnone
    | tie _ ha' _ _ => exact hlacks ha' hnone
    | present hb' _ => exact hlacks hb' hnone'
    | lacking _ _ hlt' => exact hstored hlt hlt'

end Run.Precedes

/-- There is only one way to arrange runs in this order. -/
theorem eq_of_perm_of_pairwise_precedes {axis : HorizontalAxis} {l l' : List Run}
    (hperm : l.Perm l') (h : l.Pairwise (Run.Precedes axis))
    (h' : l'.Pairwise (Run.Precedes axis)) : l = l' :=
  hperm.eq_of_pairwise (fun _ _ _ _ hab hba => absurd hba hab.asymm) h h'

/-! ### Runs in order -/

theorem map_run_colorRuns (place : Nat) (labelled : List (String × Run)) :
    (colorRuns place labelled).map StyledRun.run = labelled.map Prod.snd := by
  induction labelled generalizing place with
  | nil => rfl
  | cons pair rest ih => rw [colorRuns, List.map_cons, ih, List.map_cons]

theorem mem_runsWithLabel {field : String} {runs : List Run} {pair : String × Run} :
    pair ∈ runsWithLabel field runs ↔
      pair.2 ∈ runs ∧ pair.2.params.labelAt? field = some pair.1 := by
  obtain ⟨label, run⟩ := pair
  rw [runsWithLabel, List.mem_filterMap]
  constructor
  · rintro ⟨other, hother, hlabel⟩
    obtain ⟨text, htext, heq⟩ := Option.map_eq_some_iff.1 hlabel
    cases heq
    exact ⟨hother, htext⟩
  · rintro ⟨hrun, hlabel⟩
    exact ⟨run, hrun, by rw [hlabel, Option.map_some]⟩

theorem map_fst_runsWithLabel (field : String) (runs : List Run) :
    (runsWithLabel field runs).map Prod.fst =
      runs.filterMap fun run => run.params.labelAt? field := by
  rw [runsWithLabel, List.map_filterMap]
  refine List.filterMap_congr fun run _ => ?_
  cases run.params.labelAt? field <;> rfl

/-- **Runs in stored order are drawn in order.** -/
theorem pairwise_precedes_styleRuns {axis : HorizontalAxis} {runs : List Run}
    {styled : List StyledRun} (h : styleRuns axis runs = .ok styled)
    (hstored : runs.Pairwise fun a b => a.compareStored b = .lt) :
    (styled.map StyledRun.run).Pairwise (Run.Precedes axis) := by
  obtain ⟨labelled, hlabelled, hpure⟩ := bind_eq_ok_iff.1 h
  obtain rfl := pure_eq_ok_iff.1 hpure
  obtain ⟨hperm, -⟩ := sortByLabel_eq_ok hlabelled
  have hlabel : ∀ pair ∈ labelled, pair.2.params.labelAt? axis.field = some pair.1 :=
    fun pair hpair => (mem_runsWithLabel.1 (hperm.mem_iff.1 hpair)).2
  have hlacks : ∀ run ∈ runsWithoutLabel axis.field runs, run.Lacks axis.field := fun run hrun =>
    Run.labelAt?_eq_none_iff.1 (Option.isNone_iff_eq_none.1 (List.mem_filter.1 hrun).2)
  rw [map_run_colorRuns, List.map_append, List.map_map]
  refine List.pairwise_append.2 ⟨List.pairwise_map.2 ?_, ?_, fun a ha b hb => ?_⟩
  -- The runs with a label were in stored order when they were sorted, which is stable.
  · have hbefore : (runsWithLabel axis.field runs).Pairwise
        fun p q => p.2.compareStored q.2 = .lt := by
      refine List.Pairwise.filterMap _ (fun a b hab p hp q hq => ?_) hstored
      obtain ⟨x, -, rfl⟩ := Option.map_eq_some_iff.1 hp
      obtain ⟨y, -, rfl⟩ := Option.map_eq_some_iff.1 hq
      exact hab
    refine (pairwise_sortByLabel hlabelled hbefore).imp_of_mem fun {p q} hp hq hpq => ?_
    rcases hpq with hlt | ⟨heq, hlt⟩
    · exact .label (hlabel p hp) (hlabel q hq) hlt
    · exact .tie (hlabel p hp) (hlabel q hq) heq hlt
  -- Those without one are in stored order still.
  · rw [show (Prod.snd ∘ fun run : Run => (unknownLabel, run)) = id from rfl, List.map_id]
    refine (hstored.filter _).imp_of_mem fun {a b} ha hb hlt => ?_
    exact .lacking (hlacks a ha) (hlacks b hb) hlt
  -- The runs without a label stand after all others.
  · obtain ⟨pair, hpair, rfl⟩ := List.mem_map.1 ha
    obtain ⟨run, hrun, rfl⟩ := List.mem_map.1 hb
    exact .present (hlabel pair hpair) (hlacks run hrun)

/-- Runs cannot be put in order exactly if a label should be a number and is none. -/
theorem styleRuns_eq_error_iff {axis : HorizontalAxis} {runs : List Run} {cause : RequestError} :
    styleRuns axis runs = .error cause ↔
      axis.resultType = .integer ∧
        ∃ text, firstNoInteger? (runs.filterMap fun run => run.params.labelAt? axis.field) =
          some text ∧ cause = .notAnInteger text := by
  rw [← map_fst_runsWithLabel, ← sortByLabel_eq_error_iff, styleRuns, bind_eq_error_iff]
  -- After the sort nothing can fail.
  refine or_iff_left ?_
  rintro ⟨labelled, -, hpure⟩
  cases hpure

/-! ### What else can fail -/

/-- A step that may fail, but never because a label is no number. -/
def IgnoresLabels {α : Type} (x : Except ChartError α) : Prop :=
  ∀ text, x ≠ .error (.invalid (.notAnInteger text))

namespace IgnoresLabels

variable {α β : Type}

theorem ok (a : α) : IgnoresLabels (.ok a : Except ChartError α) := by
  intro text h
  cases h

theorem bind {x : Except ChartError α} {f : α → Except ChartError β} (hx : IgnoresLabels x)
    (hf : ∀ a, IgnoresLabels (f a)) : IgnoresLabels (x >>= f) := by
  intro text h
  rcases bind_eq_error_iff.1 h with h | ⟨a, -, h⟩
  · exact hx text h
  · exact hf a text h

theorem collect {f : α → Except ChartError (List β)} {l : List α}
    (hf : ∀ a ∈ l, IgnoresLabels (f a)) : IgnoresLabels (BenchCharts.collect f l) := by
  intro text h
  obtain ⟨a, ha, h⟩ := exists_of_collect_eq_error h
  exact hf a ha text h

theorem storeError (q : StoreQuery) : IgnoresLabels (.error (.store q) : Except ChartError α) := by
  intro text h
  cases h

theorem query {s : Store} {q : StoreQuery} {f : Tables → Except ChartError α}
    (hf : ∀ t, IgnoresLabels (f t)) : IgnoresLabels (s.query q f) := by
  rw [Store.query]
  split
  · exact hf _
  · exact storeError q

theorem answer (q : StoreQuery) (a : Option α) : IgnoresLabels (BenchCharts.answer q a) := by
  intro text h
  cases a <;> cases h

theorem metricKeys (s : Store) (runId : String) : IgnoresLabels (s.metricKeys runId) := by
  refine query fun t => ?_
  dsimp only
  split
  · exact ok _
  · exact storeError _

theorem columnOfName (name : String) :
    IgnoresLabels ((BucketColumn.ofName name).mapError .invalid) := by
  intro text h
  obtain ⟨cause, hcause, heq⟩ := mapError_eq_error_iff.1 h
  cases heq
  unfold BucketColumn.ofName at hcause
  split at hcause <;> cases hcause

theorem metricSeries (s : Store) (runId path : String) (w : SeriesWindow) :
    IgnoresLabels (s.metricSeries runId path w) := by
  rw [Store.metricSeries]
  split
  · next cause hcheck =>
    intro text h
    cases h
    -- A path may be refused, but for another reason.
    unfold FieldPath.check at hcheck
    split at hcheck
    · cases hcheck
    · split at hcheck <;> cases hcheck
  · exact query fun t => answer _ _

theorem namedSeries (s : StyledRun) (store : Store) (w : SeriesWindow) (axisId metric : String) :
    IgnoresLabels (s.namedSeries store w axisId metric) :=
  bind (metricSeries store s.run.id metric w) fun _ => ok _

theorem axisSeries (s : StyledRun) (store : Store) (w : SeriesWindow) (axis : VerticalAxis) :
    IgnoresLabels (s.axisSeries store w axis) := by
  cases axis with
  | buckets name axisId =>
    exact bind (columnOfName name) fun c => bind (query fun t => answer _ _) fun _ => ok _
  | metric path axisId => exact bind (metricSeries store s.run.id path w) fun _ => ok _
  | errors axisId => exact bind (query fun t => answer _ _) fun _ => ok _
  | metricsAll axisId =>
    refine bind (metricKeys store s.run.id) fun keys => ?_
    rw [StyledRun.metricsSeries_eq_collect]
    exact collect fun key _ => namedSeries s store w axisId key

theorem marks (store : Store) (requests : List AnnotationRequest) (s : StyledRun) :
    IgnoresLabels (s.marks store requests) := by
  rw [StyledRun.marks]
  split
  · refine bind (query fun t => answer _ _) fun events => ?_
    split
    · exact ok _
    · exact bind (query fun t => ok _) fun _ => ok _
  · exact ok _

end IgnoresLabels

/-- **Only the order of the runs can fail because of a label.** -/
theorem LineChart.build_eq_notAnInteger_iff {store : Store} {r : ChartRequest} {runs : List Run}
    (hcheck : checkLineAxes r.verticalAxes = .ok ()) {text : String} :
    build store r runs = .error (.invalid (.notAnInteger text)) ↔
      styleRuns r.horizontalAxis runs = .error (.notAnInteger text) := by
  rw [build_eq_collect, hcheck]
  change (styleRuns r.horizontalAxis runs).mapError ChartError.invalid >>= _ = _ ↔ _
  cases styleRuns r.horizontalAxis runs with
  | error cause =>
    change Except.error (ChartError.invalid cause) = _ ↔ _
    simp
  | ok styled =>
    -- After the order there is only what the store is asked for.
    have hrest : IgnoresLabels (do
        let series ← allSeries store r.window styled r.verticalAxes
        let annotations ← collect (StyledRun.marks store r.annotations) styled
        return ({ runs := styled.map StyledRun.run, series, annotations } : LineChart)) := by
      refine .bind ?_ fun series => .bind ?_ fun annotations => .ok _
      · rw [allSeries_eq_collect]
        exact .collect fun axis _ => .collect fun s _ => .axisSeries s store r.window axis
      · exact .collect fun s _ => .marks store r.annotations s
    refine iff_of_false (hrest text) ?_
    intro h
    cases h

/-! ### The chart -/

namespace Store

/-- The runs of a request are in stored order. -/
theorem pairwise_compareStored_resolve {s : Store} (hs : s.Reachable) {gerritPrefix : String}
    {r : ChartRequest} {runs : List Run} (h : s.resolve gerritPrefix r = .ok runs) :
    runs.Pairwise fun a b => a.compareStored b = .lt := by
  obtain ⟨compiled, found, -, hfound, hsub⟩ := resolve_eq_ok h
  obtain ⟨t, ht, -⟩ := query_eq_ok_iff.1 hfound
  -- Some of the runs that are found may be dropped, but none is moved.
  exact (pairwise_findRuns (hs.wellFormed t ht).ids ht hfound).sublist hsub

/-- A full chart that passes the checks is drawn of the runs of the request. -/
theorem chart_eq_map_buildLines {s : Store} {gerritPrefix : String} {r : ChartRequest}
    (hfull : r.chartMode = .full) (hvalid : r.validate = .ok ())
    (hcheck : checkLineAxes r.verticalAxes = .ok ()) {runs : List Run}
    (hruns : s.resolve gerritPrefix r = .ok runs) :
    s.chart gerritPrefix r = (LineChart.build s r runs).map Chart.line := by
  -- For a full chart these are the checks of its lines.
  have haxes : r.checkAxes = .ok () := by
    unfold ChartRequest.checkAxes
    rw [hfull]
    exact hcheck
  rw [chart_eq, hvalid, haxes, hruns]
  change s.draw r runs = _
  unfold draw
  rw [hfull]
  cases LineChart.build s r runs <;> rfl

/-- **The order of the runs of a full chart.** If there is a chart, its runs are those of the
request, arranged in the only way in which each precedes all that come after it. With whole numbers
for labels there is none if a run has another label. Among all requests that pass the checks and
have runs, those are refused for a label that have such a run, and the error names the first such
label; runs that lack the field have no part in this. -/
theorem chart_orders_runs {s : Store} (hs : s.Reachable) {gerritPrefix : String}
    {r : ChartRequest} (hfull : r.chartMode = .full) :
    (∀ chart, s.chart gerritPrefix r = .ok chart →
      ∃ runs line, s.runs r.comparisonFilter (r.selection gerritPrefix) = .ok runs ∧
        chart = .line line ∧ line.runs.Perm runs ∧
        line.runs.Pairwise (Run.Precedes r.horizontalAxis) ∧
        ∀ other, other.Perm runs → other.Pairwise (Run.Precedes r.horizontalAxis) →
          other = line.runs) ∧
    (∀ runs, s.runs r.comparisonFilter (r.selection gerritPrefix) = .ok runs →
      r.horizontalAxis.resultType = .integer →
      (∃ run ∈ runs, ∃ label, run.params.labelAt? r.horizontalAxis.field = some label ∧
        Text.signed64? (Text.trim label) = none) →
      ∃ e, s.chart gerritPrefix r = .error e) ∧
    ∀ runs, s.runs r.comparisonFilter (r.selection gerritPrefix) = .ok runs →
      r.validate = .ok () → checkLineAxes r.verticalAxes = .ok () → ∀ label,
        (s.chart gerritPrefix r = .error (.invalid (.notAnInteger label)) ↔
          r.horizontalAxis.resultType = .integer ∧
            firstNoInteger? (runs.filterMap fun run =>
              run.params.labelAt? r.horizontalAxis.field) = some label) := by
  have hrefused : ∀ runs, s.resolve gerritPrefix r = .ok runs →
      r.validate = .ok () → checkLineAxes r.verticalAxes = .ok () → ∀ label,
        (s.chart gerritPrefix r = .error (.invalid (.notAnInteger label)) ↔
          r.horizontalAxis.resultType = .integer ∧
            firstNoInteger? (runs.filterMap fun run =>
              run.params.labelAt? r.horizontalAxis.field) = some label) := by
    intro runs hruns hvalid hcheck label
    rw [chart_eq_map_buildLines hfull hvalid hcheck hruns, map_eq_error_iff,
      LineChart.build_eq_notAnInteger_iff hcheck, styleRuns_eq_error_iff]
    refine and_congr_right fun _ => ?_
    simp [eq_comm]
  refine ⟨fun chart h => ?_, fun runs hruns hinteger hlabel => ?_, hrefused⟩
  · obtain ⟨-, -, runs, line, hruns, hline, rfl⟩ := (chart_eq_ok_of_full hfull).1 h
    obtain ⟨-, styled, hstyled, hdrawn, -⟩ := LineChart.build_eq_ok_iff.1 hline
    have hpairwise : line.runs.Pairwise (Run.Precedes r.horizontalAxis) := by
      rw [hdrawn]
      exact pairwise_precedes_styleRuns hstyled (pairwise_compareStored_resolve hs hruns)
    have hperm : line.runs.Perm runs := by
      obtain ⟨ordered, hordered, rfl⟩ := styleRuns_eq_ok hstyled
      rw [hdrawn, map_run_drawnFrom]
      exact hordered
    refine ⟨runs, line, hruns, rfl, hperm, hpairwise, fun other hother hsorted => ?_⟩
    exact eq_of_perm_of_pairwise_precedes (hother.trans hperm.symm) hsorted hpairwise
  · cases h : s.chart gerritPrefix r with
    | error e => exact ⟨e, rfl⟩
    | ok chart =>
      -- The request passed the checks, so the first label that is no number would refuse it.
      obtain ⟨hvalid, hcheck, -⟩ := (chart_eq_ok_of_full hfull).1 h
      obtain ⟨run, hrun, label, hlabel, hnone⟩ := hlabel
      have hfirst : (firstNoInteger? (runs.filterMap fun run =>
          run.params.labelAt? r.horizontalAxis.field)).isSome = true := by
        rw [firstNoInteger?, List.find?_isSome]
        refine ⟨label, List.mem_filterMap.2 ⟨run, hrun, hlabel⟩, ?_⟩
        rw [hnone, Option.isNone_none]
      obtain ⟨text, htext⟩ := Option.isSome_iff_exists.1 hfirst
      have herror := (hrefused runs hruns hvalid hcheck text).2 ⟨hinteger, htext⟩
      cases h.symm.trans herror

end Store

/-- A request for lines of runs whose labels are whole numbers. -/
def ChartRequest.linesByNumber : ChartRequest :=
  { ChartRequest.greatest "cpu" with
    horizontalAxis := ⟨"sdk", .integer⟩
    chartMode := .full
    verticalAxes := [.errors "y"] }

namespace Store

/-- A store with runs of three numbers, two of which are equal, and a run without a number. -/
def fourRuns : Store :=
  ⟨some (.ofRecords [.ofTotals "a" "8" [], .ofTotals "b" "9" [], .ofTotals "c" "08" [],
    .ofParams [("sdk", .null)]])⟩

/-- Equal numbers are in the order of the ids, and not of their texts. A label that is no number
refuses the request. -/
theorem chart_orders_runs_fourRuns :
    ∃ runs line,
      fourRuns.runs [] (ChartRequest.linesByNumber.selection "") = .ok runs ∧
      fourRuns.chart "" .linesByNumber = .ok (.line line) ∧
      line.runs.map Run.id = ["a", "c", "b", "run"] ∧
      line.runs.Pairwise (Run.Precedes ⟨"sdk", .integer⟩) ∧
      (single (.ofTotals "run" "x" [])).chart "" .linesByNumber =
        .error (.invalid (.notAnInteger "x")) := by
  have hnull : (RunRecord.ofParams [("sdk", .null)]).Normal :=
    RunRecord.normal_ofParams (by simp [Json.Normal, Json.NormalFields, Json.Fields.Ascending])
  have hfour : fourRuns.Reachable :=
    .ofRecords (by decide) (by simp [RunRecord.normal_ofTotals, hnull])
  have hone := Reachable.single (RunRecord.normal_ofTotals "run" "x" [])
  have hchart : ∃ line, fourRuns.chart "" .linesByNumber = .ok (.line line) ∧
      line.runs.map Run.id = ["a", "c", "b", "run"] := ⟨⟨_, _, _⟩, by cbv, rfl⟩
  obtain ⟨line, hchart, hids⟩ := hchart
  obtain ⟨hordered, -, -⟩ := @chart_orders_runs _ hfour "" .linesByNumber rfl
  obtain ⟨runs, _, hruns, heq, -, hpairwise, -⟩ := hordered _ hchart
  cases heq
  obtain ⟨-, -, hrefused⟩ := @chart_orders_runs _ hone "" .linesByNumber rfl
  refine ⟨runs, line, hruns, hchart, hids, hpairwise, ?_⟩
  exact (hrefused _ (by cbv) (by cbv) (by cbv) "x").2 ⟨rfl, by cbv⟩

end Store

end BenchCharts

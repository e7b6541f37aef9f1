import BenchCharts.Proofs.Dashboard

/-!
# The runs under a bar

A bar comes with the ids of its runs. The store collects them as one text with a separator between
neighbours, and the text is cut at separators again. So an id with the separator in it comes out in
pieces, and every other one as it was (`listedIds_eq_self_iff`).

`BarChart.ListsRuns` says what the lists of a chart should be. `chart_lists` says what they are, and
that they are what they should be exactly if no run under a bar has the separator in its id.
-/

namespace BenchCharts

/-! ### Ids in one text -/

/-- The ids that come out, in order, where some ids were collected in one text. -/
def listedIds (ids : List String) : List String :=
  stableSort compare (Text.split (· == idSeparator) (Text.join (.singleton idSeparator) ids))

theorem not_mem_of_mem_listedIds {ids : List String} {id : String} (h : id ∈ listedIds ids) :
    idSeparator ∉ id.toList := by
  rw [listedIds, mem_stableSort, Text.split] at h
  obtain ⟨piece, hpiece, rfl⟩ := List.mem_map.1 h
  intro hmem
  rw [String.toList_ofList] at hmem
  have hnot := Text.not_separator_of_mem_splitChars hpiece _ hmem
  rw [beq_self_eq_true] at hnot
  cases hnot

theorem split_join_of_forall_not_mem {ids : List String} (hne : ids ≠ [])
    (hfree : ∀ id ∈ ids, idSeparator ∉ id.toList) :
    Text.split (· == idSeparator) (Text.join (.singleton idSeparator) ids) = ids := by
  have hpieces : ids.map String.toList ≠ [] := by simpa using hne
  have hmap : ∀ piece ∈ ids.map String.toList, idSeparator ∉ piece := by
    intro piece hpiece
    obtain ⟨id, hid, rfl⟩ := List.mem_map.1 hpiece
    exact hfree id hid
  rw [Text.split, Text.join, String.toList_ofList, String.toList_singleton,
    Text.splitChars_joinChars hpieces hmap, List.map_map]
  exact List.map_id'' (fun _ => String.ofList_toList) ids

/-- **Ids come out as they were exactly if none of them has the separator in it.** -/
theorem listedIds_eq_self_iff {ids : List String} (hne : ids ≠ [])
    (hascending : ids.Pairwise fun a b => compare a b = .lt) :
    listedIds ids = ids ↔ ∀ id ∈ ids, idSeparator ∉ id.toList := by
  constructor
  · intro hsame id hid
    rw [← hsame] at hid
    exact not_mem_of_mem_listedIds hid
  · intro hfree
    rw [listedIds, split_join_of_forall_not_mem hne hfree]
    have hdistinct : ids.Pairwise fun a b => compare a b ≠ .eq := by
      refine hascending.imp fun hlt heq => ?_
      rw [hlt] at heq
      cases heq
    exact eq_of_pairwise_lt (pairwise_lt_stableSort hdistinct) hascending fun id => mem_stableSort

/-! ### The runs of a label -/

namespace AggregateQuery

/-- The ids of the contributors with a label, in order. -/
def idsOf (q : AggregateQuery) (cells : String → List Cell) (label : String) : List String :=
  ((q.contributors cells).filter (·.2 = label)).map Prod.fst

theorem pairwise_idsOf {q : AggregateQuery} (hids : (q.runLabels.map Prod.fst).Nodup)
    (cells : String → List Cell) (label : String) :
    (q.idsOf cells label).Pairwise fun a b => compare a b = .lt :=
  List.pairwise_map.2 ((pairwise_contributors hids cells).filter _)

/-- **The ids under a bar** are what comes out of those of the contributors with its label. -/
theorem runIds_eq_listedIds {q : AggregateQuery} (hids : (q.runLabels.map Prod.fst).Nodup)
    {samples? : String → Option (List Sample)} {bars : List Bar}
    (h : q.evaluate? samples? = some bars) {bar : Bar} (hbar : bar ∈ bars) :
    bar.runIds = listedIds (q.idsOf (cellsOf samples?) bar.label) := by
  obtain ⟨runs, hbars, hcontributors, -⟩ := evaluate?_steps hids h
  obtain ⟨⟨label, group⟩, hgroup, hof⟩ := (mem_bars?_iff hbars).1 hbar
  obtain ⟨-, rfl⟩ := mem_groupBy_iff.1 hgroup
  obtain ⟨cell, -, hfloat⟩ := Option.map_eq_some_iff.1 hof
  obtain ⟨value, -, rfl⟩ := Option.map_eq_some_iff.1 hfloat
  -- The runs of a group are those of its label among all that contribute.
  have hgroupIds : (runs.filter (·.label = label)).map RunValue.runId =
      q.idsOf (cellsOf samples?) label := by
    rw [idsOf, ← hcontributors, List.filter_map, List.map_map]
    rfl
  show groupIds _ = _
  rw [← hgroupIds]
  rfl

end AggregateQuery

/-- Which runs contribute depends on their cells only in so far as there are any. -/
theorem AggregateQuery.idsOf_congr {q : AggregateQuery} {cells cells' : String → List Cell}
    (h : ∀ id, cells id = [] ↔ cells' id = []) : q.idsOf cells = q.idsOf cells' := by
  -- A run contributes if it has cells, whatever they are.
  have hempty : ∀ id, (cells id).isEmpty = (cells' id).isEmpty := by
    intro id
    rw [Bool.eq_iff_iff, List.isEmpty_iff, List.isEmpty_iff, h id]
  funext label
  simp only [idsOf, contributors, hempty]

theorem ChartRequest.mem_idsOf_iff {r : ChartRequest} {runs : List Run}
    {cells : String → List Cell} {label id : String} :
    id ∈ (r.aggregateQuery runs).idsOf cells label ↔
      ∃ run ∈ runs, run.id = id ∧ run.params.labelAt? r.horizontalAxis.field = some label ∧
        cells run.id ≠ [] := by
  simp only [AggregateQuery.idsOf, List.mem_map, List.mem_filter, decide_eq_true_eq,
    AggregateQuery.mem_contributors_iff, ChartRequest.aggregateQuery, labelledRuns,
    List.mem_filterMap, Option.map_eq_some_iff]
  constructor
  · rintro ⟨rl, ⟨⟨⟨run, hrun, found, hfound, rfl⟩, hcells⟩, rfl⟩, rfl⟩
    exact ⟨run, hrun, rfl, hfound, hcells⟩
  · rintro ⟨run, hrun, rfl, hlabel, hcells⟩
    exact ⟨(run.id, label), ⟨⟨⟨run, hrun, label, hlabel, rfl⟩, hcells⟩, rfl⟩, rfl⟩

/-! ### The lists of a chart -/

namespace BarChart

/-- The lists of a chart name the runs of each label, by the cells of each run. -/
structure ListsRuns (r : ChartRequest) (runs : List Run) (cells : String → List Cell)
    (chart : BarChart) : Prop where
  /-- There is a list for each label. -/
  length : chart.runIdsPerLabel.length = chart.labels.length
  /-- A list ascends, so that no id is there twice. -/
  ascending : ∀ ids ∈ chart.runIdsPerLabel, ids.Pairwise fun a b => compare a b = .lt
  /-- An id is under a label if it is that of a run with the label and with cells. -/
  mem_iff : ∀ label ids, (label, ids) ∈ chart.labels.zip chart.runIdsPerLabel →
    ∀ id, id ∈ ids ↔ ∃ run ∈ runs, run.id = id ∧
      run.params.labelAt? r.horizontalAxis.field = some label ∧ cells run.id ≠ []
  /-- Every id is that of a run of the chart. -/
  known : ∀ ids ∈ chart.runIdsPerLabel, ∀ id ∈ ids, ∃ run ∈ chart.runs, run.id = id
  /-- No id is under two labels. -/
  disjoint : chart.runIdsPerLabel.Pairwise List.Disjoint

/-- **The lists of a chart name the runs of each label exactly if they are the ids of its
contributors.** -/
theorem listsRuns_iff {r : ChartRequest} {runs : List Run} (hids : (runs.map Run.id).Nodup)
    {cells : String → List Cell} {chart : BarChart} (hruns : chart.runs = runs)
    (hlabels : chart.labels.Nodup) {lists : String → List String}
    (hlists : chart.runIdsPerLabel = chart.labels.map lists) :
    chart.ListsRuns r runs cells ↔
      ∀ label ∈ chart.labels, lists label = (r.aggregateQuery runs).idsOf cells label := by
  have hascending : ∀ label, ((r.aggregateQuery runs).idsOf cells label).Pairwise
      fun a b => compare a b = .lt := by
    intro label
    exact AggregateQuery.pairwise_idsOf (nodup_labelledRuns hids) cells label
  have hpair : ∀ label ids, (label, ids) ∈ chart.labels.zip chart.runIdsPerLabel ↔
      label ∈ chart.labels ∧ ids = lists label := by
    intro label ids
    have hzip := @List.zip_map' _ _ _ id lists chart.labels
    rw [List.map_id] at hzip
    rw [hlists, hzip, List.mem_map]
    simp [eq_comm]
  constructor
  · intro h label hlabel
    have hmem := h.mem_iff label _ ((hpair label _).2 ⟨hlabel, rfl⟩)
    have hlist : lists label ∈ chart.runIdsPerLabel := by
      rw [hlists]
      exact List.mem_map_of_mem hlabel
    -- Both lists ascend and hold the same ids.
    refine eq_of_pairwise_lt (h.ascending _ hlist) (hascending label) fun id => ?_
    rw [hmem, ChartRequest.mem_idsOf_iff]
  · intro hsame
    have hmap : chart.runIdsPerLabel =
        chart.labels.map ((r.aggregateQuery runs).idsOf cells) := by
      rw [hlists]
      exact List.map_congr_left hsame
    refine ⟨?_, ?_, ?_, ?_, ?_⟩
    · rw [hmap, List.length_map]
    · intro ids hmem
      rw [hmap] at hmem
      obtain ⟨label, -, rfl⟩ := List.mem_map.1 hmem
      exact hascending label
    · intro label ids hmem id
      obtain ⟨hlabel, rfl⟩ := (hpair label ids).1 hmem
      rw [hsame label hlabel, ChartRequest.mem_idsOf_iff]
    · intro ids hmem id hid
      rw [hmap] at hmem
      obtain ⟨label, -, rfl⟩ := List.mem_map.1 hmem
      obtain ⟨run, hrun, heq, -⟩ := ChartRequest.mem_idsOf_iff.1 hid
      exact ⟨run, hruns ▸ hrun, heq⟩
    -- A run has one label, and no two runs share an id.
    · rw [hmap, List.pairwise_map]
      refine hlabels.imp fun {label other} hne => ?_
      intro id hid hid'
      obtain ⟨run, hrun, rfl, hlabel, -⟩ := ChartRequest.mem_idsOf_iff.1 hid
      obtain ⟨run', hrun', heq, hlabel', -⟩ := ChartRequest.mem_idsOf_iff.1 hid'
      obtain rfl : run' = run := List.inj_on_of_nodup_map hids hrun' hrun heq
      exact hne (Option.some.inj (hlabel.symm.trans hlabel'))

end BarChart

/-- The ids of some runs under the labels of a chart come out as they were exactly if none of them
has the separator in it. -/
theorem forall_listedIds_idsOf_iff {r : ChartRequest} {runs : List Run}
    (hids : (runs.map Run.id).Nodup) {cells : String → List Cell} {labels : List String}
    (hlabels : ∀ label ∈ labels, ∃ run ∈ runs,
      run.params.labelAt? r.horizontalAxis.field = some label ∧ cells run.id ≠ []) :
    (∀ label ∈ labels, listedIds ((r.aggregateQuery runs).idsOf cells label) =
        (r.aggregateQuery runs).idsOf cells label) ↔
      ∀ run ∈ runs, ∀ label ∈ labels, run.params.labelAt? r.horizontalAxis.field = some label →
        cells run.id ≠ [] → idSeparator ∉ run.id.toList := by
  -- Label by label; under each there is some run, so that the list of ids is not empty.
  have hself : ∀ label ∈ labels, (listedIds ((r.aggregateQuery runs).idsOf cells label) =
      (r.aggregateQuery runs).idsOf cells label ↔
        ∀ id ∈ (r.aggregateQuery runs).idsOf cells label, idSeparator ∉ id.toList) := by
    intro label hlabel
    obtain ⟨run, hrun, hfield, hcells⟩ := hlabels label hlabel
    have hmem : run.id ∈ (r.aggregateQuery runs).idsOf cells label :=
      ChartRequest.mem_idsOf_iff.2 ⟨run, hrun, rfl, hfield, hcells⟩
    refine listedIds_eq_self_iff (List.ne_nil_of_mem hmem) ?_
    exact AggregateQuery.pairwise_idsOf (nodup_labelledRuns hids) cells label
  constructor
  · intro h run hrun label hlabel hfield hcells
    refine (hself label hlabel).1 (h label hlabel) run.id ?_
    exact ChartRequest.mem_idsOf_iff.2 ⟨run, hrun, rfl, hfield, hcells⟩
  · intro h label hlabel
    refine (hself label hlabel).2 fun id hid => ?_
    obtain ⟨run, hrun, rfl, hfield, hcells⟩ := ChartRequest.mem_idsOf_iff.1 hid
    exact h run hrun label hlabel hfield hcells

/-- A record with another id. -/
def RunRecord.withId (record : RunRecord) (id : String) : RunRecord :=
  { record with run := { record.run with id := id } }

theorem RunRecord.Normal.withId {record : RunRecord} (h : record.Normal) (id : String) :
    (record.withId id).Normal :=
  ⟨h.params, h.errors, h.metrics, h.details⟩

namespace Store

/-- **The runs under the bars of a chart.** Under each label are the pieces of the ids of the runs
with the label in which the store reads a cell. These are the runs of the label, each once and in
order, exactly if none of them has the separator in its id. The same holds of the runs with a usable
cell if a column is drawn, or a metric that is found where its path says. -/
theorem chart_lists {s : Store} (hs : s.Reachable) {gerritPrefix : String} {r : ChartRequest}
    {chart : BarChart} (h : s.chart gerritPrefix r = .ok (.bar chart)) :
    ∃ t runs measure, s.tables = some t ∧ s.resolve gerritPrefix r = .ok runs ∧
      r.measure = .ok measure ∧ chart.runs = runs ∧
      (chart.runIdsPerLabel = chart.labels.map fun label => listedIds
        ((r.aggregateQuery runs).idsOf (cellsOf (measure.samples? t r.trimmingSeconds)) label)) ∧
      (∀ cells, chart.ListsRuns r runs cells ↔ ∀ label ∈ chart.labels,
        listedIds ((r.aggregateQuery runs).idsOf
          (cellsOf (measure.samples? t r.trimmingSeconds)) label) =
            (r.aggregateQuery runs).idsOf cells label) ∧
      (chart.ListsRuns r runs (cellsOf (measure.samples? t r.trimmingSeconds)) ↔
        ∀ run ∈ runs, ∀ label ∈ chart.labels,
          run.params.labelAt? r.horizontalAxis.field = some label →
            cellsOf (measure.samples? t r.trimmingSeconds) run.id ≠ [] →
              idSeparator ∉ run.id.toList) ∧
      (measure.Legible t →
        (chart.ListsRuns r runs (measure.usableCells t r.trimmingSeconds) ↔
          ∀ run ∈ runs, ∀ label ∈ chart.labels,
            run.params.labelAt? r.horizontalAxis.field = some label →
              measure.usableCells t r.trimmingSeconds run.id ≠ [] →
                idSeparator ∉ run.id.toList)) := by
  obtain ⟨measure, runs, bars, sorted, hmeasure, hruns, hbars, hsorted, rfl⟩ := chart_eq_ok_bar h
  obtain ⟨t, ht, hids⟩ := nodup_ids_resolve hs hruns
  have hread := BarMeasure.isNumeric_cellsOf t r.trimmingSeconds measure
  have hevaluate := BarMeasure.bars_eq_ok ht hbars
  have hshows := ofBars_shows hids hread hevaluate hsorted
  have hlists : (BarChart.ofBars runs sorted).runIdsPerLabel =
      (BarChart.ofBars runs sorted).labels.map fun label => listedIds
        ((r.aggregateQuery runs).idsOf (cellsOf (measure.samples? t r.trimmingSeconds)) label) := by
    -- The bars are sorted by their labels, and each keeps its list.
    show sorted.map Bar.runIds = (sorted.map Bar.label).map _
    rw [List.map_map]
    refine List.map_congr_left fun bar hbar => ?_
    refine AggregateQuery.runIds_eq_listedIds (nodup_labelledRuns hids) hevaluate ?_
    exact (sortByLabel_eq_ok hsorted).1.mem_iff.1 hbar
  have hiff : ∀ cells, (BarChart.ofBars runs sorted).ListsRuns r runs cells ↔ _ := fun cells =>
    BarChart.listsRuns_iff hids rfl hshows.nodup hlists
  -- Every label that is shown is that of some run in which a cell is read.
  have hcontributes := fun label hlabel => ((hshows.labels label).1 hlabel).1
  have hfaithful := (hiff (cellsOf (measure.samples? t r.trimmingSeconds))).trans
    (forall_listedIds_idsOf_iff hids hcontributes)
  refine ⟨t, runs, measure, ht, hruns, hmeasure, rfl, hlists, hiff, hfaithful, fun hlegible => ?_⟩
  -- A cell is read in a run exactly if the run has a usable one, though it can be another number.
  have hempty : ∀ id, cellsOf (measure.samples? t r.trimmingSeconds) id = [] ↔
      measure.usableCells t r.trimmingSeconds id = [] := by
    intro id
    rw [BarMeasure.cellsOf_eq_cells r.trimmingSeconds hlegible]
    exact BarMeasure.cells_eq_nil_iff ..
  rw [hiff, ← AggregateQuery.idsOf_congr hempty, ← hiff]
  simpa only [ne_eq, hempty] using hfaithful

/-- A run whose id has no separator, and a chart that lists it. -/
theorem chart_lists_plainId :
    ∃ t runs chart, (single (.ofMetric "cpu" 5)).tables = some t ∧
      (single (.ofMetric "cpu" 5)).chart "" (.greatest "cpu") = .ok (.bar chart) ∧
      chart.runIdsPerLabel = [["run"]] ∧
      chart.ListsRuns (.greatest "cpu") runs (BarMeasure.usableCells t 0 (.metric "cpu")) := by
  have hs := Reachable.single (RunRecord.normal_ofMetric "cpu" 5)
  have hchart := chart_ofMetric numberCell_five
  obtain ⟨t, runs, measure, ht, -, hmeasure, hruns, -, -, -, hlists⟩ := chart_lists hs hchart
  have hcpu : (ChartRequest.greatest "cpu").measure = .ok (.metric "cpu") := by decide
  obtain rfl : .metric "cpu" = measure := Except.ok.inj (hcpu.symm.trans hmeasure)
  obtain rfl := Option.some.inj ht
  -- The one run of the chart has an id without a separator.
  refine ⟨_, runs, _, rfl, hchart, rfl, (hlists legible_ofMetric.1).2 ?_⟩
  intro run hrun label hlabel hfield hcells
  rw [← hruns] at hrun
  obtain rfl := List.mem_singleton.1 hrun
  decide

/-- A run whose id has the separator in it, and a chart that lists the pieces. -/
theorem not_listsRuns_separator :
    ∃ t runs chart, (single ((RunRecord.ofMetric "cpu" 5).withId "a\x1fb")).Reachable ∧
      (single ((RunRecord.ofMetric "cpu" 5).withId "a\x1fb")).tables = some t ∧
      (single ((RunRecord.ofMetric "cpu" 5).withId "a\x1fb")).resolve "" (.greatest "cpu") =
        .ok runs ∧
      (single ((RunRecord.ofMetric "cpu" 5).withId "a\x1fb")).chart "" (.greatest "cpu") =
        .ok (.bar chart) ∧
      chart.runIdsPerLabel = [["a", "b"]] ∧
      ¬ chart.ListsRuns (.greatest "cpu") runs (BarMeasure.usableCells t 0 (.metric "cpu")) := by
  let record := (RunRecord.ofMetric "cpu" 5).withId "a\x1fb"
  have hs : (single record).Reachable :=
    Reachable.single ((RunRecord.normal_ofMetric "cpu" 5).withId "a\x1fb")
  have hruns : (single record).resolve "" (.greatest "cpu") = .ok [record.run] := by cbv
  have hrows : Tables.ownedBy (Tables.empty.append record).metrics "a\x1fb" =
      (RunRecord.ofMetric "cpu" 5).metrics := rfl
  have hmeasure : (ChartRequest.greatest "cpu").measure = .ok (.metric "cpu") := by decide
  have hlabels : ((ChartRequest.greatest "cpu").aggregateQuery [record.run]).runLabels =
      [("a\x1fb", "x")] := by cbv
  have hbars := bars_ofMetric (s := single record) hrows numberCell_five rfl hlabels rfl
  have hpieces : ∀ value, answer .aggregateMetric
      (((ChartRequest.greatest "cpu").aggregateQuery [record.run]).evaluate? fun _ =>
        some [⟨0, record.run.datetime, .real value⟩]) = .ok [⟨"x", value, ["a", "b"]⟩] :=
    fun value => by cbv
  have hchart := chart_of_bars (by decide) rfl hmeasure hruns (hbars.trans (hpieces 5)) rfl
  refine ⟨_, _, _, hs, rfl, hruns, hchart, rfl, fun hlists => ?_⟩
  -- No run has the first piece as its id.
  obtain ⟨run, hrun, hid⟩ := hlists.known _ (List.mem_singleton_self _) "a" (List.mem_cons_self ..)
  obtain rfl := List.mem_singleton.1 hrun
  revert hid
  decide

end Store

end BenchCharts

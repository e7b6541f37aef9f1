import BenchCharts.Proofs.Dashboard.DrillDown
import BenchCharts.Proofs.Dashboard.Refusals

/-!
# Totals

If samples and runs are both merged by their sum, a bar over a column of counts shows the total of
its group. The store gets there in two steps, first the total of each run and then the total of
these, and each step fails if it leaves 64 bits on the way. So the two have to add up to the one
sum that a bar is about, `ChartRequest.groupTotal`, which knows nothing of runs or of an order.

* `AggregateQuery.merged?_eq_some_iff_addsUp` — the two steps give that sum or fail;
* `Store.chart_totals` — a chart shows the totals of its groups, and a total that does not fit is
  an error of the store.
-/

namespace BenchCharts

/-! ### Counts -/

/-- The integers of a column, if it is one of counts. -/
def BucketColumn.count? : BucketColumn → Option (Bucket → Int)
  | .operationsTotal => some Bucket.operationsTotal
  | .operationsSuccess => some Bucket.operationsSuccess
  | .operationsFailed => some Bucket.operationsFailed
  | _ => none

theorem Bucket.cell_of_count? {column : BucketColumn} {count : Bucket → Int}
    (h : column.count? = some count) (b : Bucket) : b.cell column = .int (count b) := by
  cases column <;> cases h <;> rfl

namespace Tables

/-- The counts of a run after the warm-up, as they were recorded. -/
def counts (t : Tables) (count : Bucket → Int) (trimming : Int) (runId : String) : List Int :=
  ((ownedBy t.buckets runId).filter (trimming ≤ ·.offset)).map count

/-- The counts of a run after the warm-up, in the order of their offsets. -/
def countsInOrder (t : Tables) (count : Bucket → Int) (trimming : Int) (runId : String) :
    List Int :=
  (afterWarmUp Bucket.offset trimming (ownedBy t.buckets runId)).map count

theorem countsInOrder_perm (t : Tables) (count : Bucket → Int) (trimming : Int) (runId : String) :
    (t.countsInOrder count trimming runId).Perm (t.counts count trimming runId) :=
  (stableSort_perm _ _).map count

end Tables

/-- The cells of counts. -/
def countCells (counts : String → List Int) (runId : String) : List Cell :=
  (counts runId).map .int

theorem countCells_ne_nil_iff {counts : String → List Int} {runId : String} :
    countCells counts runId ≠ [] ↔ counts runId ≠ [] := by
  simp [countCells]

/-- The usable cells of a column of counts are these. -/
theorem BarMeasure.usableCells_of_count? {column : BucketColumn} {count : Bucket → Int}
    (h : column.count? = some count) (t : Tables) (trimming : Int) :
    usableCells t trimming (.column column) = countCells (t.countsInOrder count trimming) := by
  funext runId
  have hcells : ∀ buckets : List Bucket,
      buckets.map (fun bucket => bucket.cell column) = (buckets.map count).map .int := by
    intro buckets
    rw [List.map_map]
    exact List.map_congr_left fun bucket _ => bucket.cell_of_count? h
  -- A count is never null, so every cell is usable.
  rw [usableCells, cells, hcells, List.filter_eq_self.2]
  · rfl
  · simp [Cell.isNull]

/-! ### Totals of totals -/

namespace AggregateQuery

/-- The counts of some runs can be added. -/
structure AddsUp (counts : String → List Int) (ids : List String) : Prop where
  /-- The counts of each run can. -/
  runs : ∀ id ∈ ids, SumsFit (counts id)
  /-- The totals of the runs can. -/
  totals : SumsFit (ids.map fun id => (counts id).sum)

instance (counts : String → List Int) (ids : List String) : Decidable (AddsUp counts ids) :=
  decidable_of_iff (_ ∧ _) ⟨fun h => ⟨h.1, h.2⟩, fun h => ⟨h.runs, h.totals⟩⟩

/-- The first step: one total for each run. -/
theorem mapM_reduce?_sum_eq_some_iff {counts : String → List Int} {ids : List String}
    (hne : ∀ id ∈ ids, counts id ≠ []) {totals : List Cell} :
    (ids.mapM fun id => Aggregation.sum.reduce? (countCells counts id)) = some totals ↔
      (∀ id ∈ ids, SumsFit (counts id)) ∧
        totals = (ids.map fun id => (counts id).sum).map .int := by
  constructor
  · intro h
    have hreduced : ∀ id ∈ ids, ∀ cell, Aggregation.sum.reduce? (countCells counts id) = some cell →
        SumsFit (counts id) ∧ cell = .int (counts id).sum :=
      fun id hid cell => (Aggregation.reduce?_sum_eq_some_iff (hne id hid)).1
    -- If the runs have totals at all, then each of them has the one that it should have.
    refine ⟨fun id hid => ?_, ?_⟩
    · obtain ⟨cell, hcell⟩ := Option.isSome_iff_exists.1
        (isSome_mapM_iff.1 (Option.isSome_iff_exists.2 ⟨totals, h⟩) id hid)
      exact (hreduced id hid cell hcell).1
    · rw [List.map_map]
      exact eq_map_of_mapM_eq_some h fun id hid cell hcell => (hreduced id hid cell hcell).2
  · rintro ⟨hfit, rfl⟩
    rw [mapM_eq_some_iff, List.map_map, List.map_map]
    exact List.map_congr_left fun id hid =>
      (Aggregation.reduce?_sum_eq_some_iff (hne id hid)).2 ⟨hfit id hid, rfl⟩

theorem merged?_eq_bind_idsOf (q : AggregateQuery) (cells : String → List Cell) (label : String) :
    q.merged? cells label =
      ((q.idsOf cells label).mapM fun id => q.mergeAlgorithm.reduce? (cells id)).bind
        q.mergePolicy.reduce? := by
  rw [merged?]
  refine congrArg (Option.bind · _) (Option.ext fun totals => ?_)
  rw [mapM_eq_some_iff, mapM_eq_some_iff, idsOf, List.map_map]
  rfl

/-- **Both steps together.** The cells of a label merge to the total of the totals of its runs, if
all of these can be added, and otherwise to nothing at all. -/
theorem merged?_eq_some_iff_addsUp {q : AggregateQuery} (halgorithm : q.mergeAlgorithm = .sum)
    (hpolicy : q.mergePolicy = .sum) {counts : String → List Int} {label : String}
    (hlabel : ∃ rl ∈ q.contributors (countCells counts), rl.2 = label) {cell : Cell} :
    q.merged? (countCells counts) label = some cell ↔
      AddsUp counts (q.idsOf (countCells counts) label) ∧
        cell = .int ((q.idsOf (countCells counts) label).map fun id => (counts id).sum).sum := by
  -- Neither step has an empty list to reduce, where a sum would be null.
  have hids : ∀ id ∈ q.idsOf (countCells counts) label, counts id ≠ [] := by
    intro id hid
    obtain ⟨rl, hrl, rfl⟩ := List.mem_map.1 hid
    exact countCells_ne_nil_iff.1 (mem_contributors_iff.1 (List.mem_filter.1 hrl).1).2
  have hsome : (q.idsOf (countCells counts) label).map (fun id => (counts id).sum) ≠ [] := by
    obtain ⟨rl, hrl, rfl⟩ := hlabel
    have hid : rl.1 ∈ q.idsOf (countCells counts) rl.2 :=
      List.mem_map_of_mem (List.mem_filter.2 ⟨hrl, decide_eq_true rfl⟩)
    exact List.ne_nil_of_mem (List.mem_map_of_mem hid)
  -- The first step gives integers, and the second one adds these.
  rw [merged?_eq_bind_idsOf, halgorithm, hpolicy, Option.bind_eq_some_iff]
  simp only [mapM_reduce?_sum_eq_some_iff hids]
  constructor
  · rintro ⟨_, ⟨hruns, rfl⟩, htotal⟩
    obtain ⟨htotals, rfl⟩ := (Aggregation.reduce?_sum_eq_some_iff hsome).1 htotal
    exact ⟨⟨hruns, htotals⟩, rfl⟩
  · rintro ⟨hadds, rfl⟩
    exact ⟨_, ⟨hadds.runs, rfl⟩,
      (Aggregation.reduce?_sum_eq_some_iff hsome).2 ⟨hadds.totals, rfl⟩⟩

/-- A total that fits does not help if a sum on the way to it does not. -/
example : ¬ AddsUp (fun id => if id = "a" then [9223372036854775807, 1] else [-5]) ["a", "b"] := by
  decide

/-- Where there is nothing to add, nothing can go wrong. -/
theorem isSome_merged?_iff_addsUp {q : AggregateQuery} (halgorithm : q.mergeAlgorithm = .sum)
    (hpolicy : q.mergePolicy = .sum) {counts : String → List Int} {label : String} :
    ((∃ rl ∈ q.contributors (countCells counts), rl.2 = label) →
        (q.merged? (countCells counts) label).isSome = true) ↔
      AddsUp counts (q.idsOf (countCells counts) label) := by
  by_cases hlabel : ∃ rl ∈ q.contributors (countCells counts), rl.2 = label
  · rw [Option.isSome_iff_exists]
    simp only [merged?_eq_some_iff_addsUp halgorithm hpolicy hlabel, hlabel, true_implies,
      exists_and_left, exists_eq, and_true]
  · have hnone : q.idsOf (countCells counts) label = [] := by
      rw [idsOf, List.map_eq_nil_iff, List.filter_eq_nil_iff]
      exact fun rl hrl heq => hlabel ⟨rl, hrl, of_decide_eq_true heq⟩
    rw [hnone]
    exact iff_of_true (fun h => absurd h hlabel) ⟨List.forall_mem_nil _, (by decide : SumsFit [])⟩

end AggregateQuery

/-! ### The total of a group -/

namespace ChartRequest

/-- The total of all counts of the runs with a label. -/
def groupTotal (r : ChartRequest) (runs : List Run) (counts : String → List Int)
    (label : String) : Int :=
  ((runs.filter fun run => run.params.labelAt? r.horizontalAxis.field = some label).flatMap
    fun run => counts run.id).sum

/-- Runs without counts add nothing, so that they may be left out. -/
theorem sum_labelledRuns (field : String) (runs : List Run) (counts : String → List Int)
    (label : String) :
    ((((labelledRuns field runs).filter fun rl => !(countCells counts rl.1).isEmpty).filter
      (·.2 = label)).map fun rl => (counts rl.1).sum).sum =
        ((runs.filter fun run => run.params.labelAt? field = some label).flatMap
          fun run => counts run.id).sum := by
  induction runs with
  | nil => rfl
  | cons run rest ih =>
    rw [labelledRuns] at ih ⊢
    rw [List.filterMap_cons]
    cases hlabel : run.params.labelAt? field with
    | none => simpa [hlabel] using ih
    | some found =>
      by_cases hfound : found = label
      -- A run with the label is only left out if it has no counts, and then adds nothing.
      · cases hcounts : counts run.id with
        | nil => simpa [hlabel, hfound, countCells, hcounts] using ih
        | cons n more =>
          simpa [hlabel, hfound, countCells, hcounts, Int.add_assoc] using ih
      · by_cases hcounts : counts run.id = []
        · simpa [hlabel, hfound, countCells, hcounts] using ih
        · simpa [hlabel, hfound, countCells, hcounts] using ih

section Orders

variable {r : ChartRequest} {runs : List Run} {inOrder counts : String → List Int}
  (hperm : ∀ id, (inOrder id).Perm (counts id))

include hperm

/-- **The total of the totals is the total of the group**, whatever the order of the counts. -/
theorem sum_idsOf (label : String) :
    (((r.aggregateQuery runs).idsOf (countCells inOrder) label).map
      fun id => (inOrder id).sum).sum = r.groupTotal runs counts label := by
  -- Sorting the contributors changes nothing about their total, nor does the order of the counts of
  -- each.
  have hcontributors := ((stableSort_perm (compareOn Prod.fst)
    ((r.aggregateQuery runs).runLabels.filter fun rl => !(countCells inOrder rl.1).isEmpty)).filter
      (·.2 = label)).map fun rl => (inOrder rl.1).sum
  have hcounts := List.Perm.flatMap_left
    (runs.filter fun run => run.params.labelAt? r.horizontalAxis.field = some label)
      fun run _ => hperm run.id
  rw [groupTotal, ← hcounts.sum_eq, ← sum_labelledRuns, AggregateQuery.idsOf, List.map_map]
  exact hcontributors.sum_eq

/-- What the cells of a group merge to is its total, and that fits. -/
theorem merged?_eq_groupTotal (halgorithm : r.mergeAlgorithm = .sum)
    (hpolicy : r.mergePolicy = .sum) {label : String}
    (hlabel : ∃ rl ∈ (r.aggregateQuery runs).contributors (countCells inOrder), rl.2 = label)
    {cell : Cell}
    (hmerge : (r.aggregateQuery runs).merged? (countCells inOrder) label = some cell) :
    Text.fitsSigned64 (r.groupTotal runs counts label) = true ∧
      cell = .int (r.groupTotal runs counts label) := by
  obtain ⟨hadds, hcell⟩ :=
    (AggregateQuery.merged?_eq_some_iff_addsUp halgorithm hpolicy hlabel).1 hmerge
  rw [← sum_idsOf hperm label]
  exact ⟨hadds.totals.fits, hcell⟩

theorem exists_contributor_iff_counts {label : String} :
    (∃ rl ∈ (r.aggregateQuery runs).contributors (countCells inOrder), rl.2 = label) ↔
      ∃ run ∈ runs, run.params.labelAt? r.horizontalAxis.field = some label ∧
        counts run.id ≠ [] := by
  rw [exists_contributor_iff]
  refine exists_congr fun run => and_congr_right fun _ => and_congr_right fun _ => ?_
  -- Whether there are counts does not depend on their order either.
  rw [countCells_ne_nil_iff, ne_eq, ne_eq, ← List.length_eq_zero_iff, ← List.length_eq_zero_iff,
    (hperm run.id).length_eq]

end Orders

/-- A bar chart of the totals of a column. -/
structure AsksTotals (r : ChartRequest) (column : BucketColumn) : Prop where
  /-- It is a bar chart. -/
  mode : r.chartMode = .simplified
  /-- Its only vertical axis is the column. -/
  measure : r.measure = .ok (.column column)
  /-- The samples of a run are added. -/
  algorithm : r.mergeAlgorithm = .sum
  /-- The runs of a group are added. -/
  policy : r.mergePolicy = .sum

end ChartRequest

/-- A bar chart shows the total of each group, by the counts of each run. -/
structure BarChart.ShowsTotals (r : ChartRequest) (runs : List Run) (counts : String → List Int)
    (chart : BarChart) : Prop where
  /-- There are as many values as labels. -/
  values_length : chart.values.length = chart.labels.length
  /-- No label is there twice. -/
  nodup : chart.labels.Nodup
  /-- A label is there if a run with it has counts. -/
  labels : ∀ label, label ∈ chart.labels ↔
    ∃ run ∈ runs, run.params.labelAt? r.horizontalAxis.field = some label ∧ counts run.id ≠ []
  /-- The value of a label is the total of its group as a float, and the total fits. -/
  values : ∀ label value, (label, value) ∈ chart.labels.zip chart.values →
    Text.fitsSigned64 (r.groupTotal runs counts label) = true ∧
      value = Float.ofInt (r.groupTotal runs counts label)

/-- A chart that shows the cells of counts shows their totals. -/
theorem BarChart.Shows.showsTotals {r : ChartRequest} {runs : List Run} {chart : BarChart}
    {inOrder counts : String → List Int} (hperm : ∀ id, (inOrder id).Perm (counts id))
    (halgorithm : r.mergeAlgorithm = .sum) (hpolicy : r.mergePolicy = .sum)
    (hmerged : ∀ label, (∃ rl ∈ (r.aggregateQuery runs).contributors (countCells inOrder),
      rl.2 = label) → ∃ cell, (r.aggregateQuery runs).merged? (countCells inOrder) label =
        some cell)
    (h : chart.Shows r runs (countCells inOrder)) : chart.ShowsTotals r runs counts := by
  -- A total is never nothing, so that every group has its bar.
  have hlabels : ∀ label, label ∈ chart.labels ↔
      ∃ rl ∈ (r.aggregateQuery runs).contributors (countCells inOrder), rl.2 = label := by
    intro label
    rw [h.labels, ← ChartRequest.exists_contributor_iff]
    refine and_iff_left_of_imp fun hlabel => ?_
    obtain ⟨cell, hmerge⟩ := hmerged label hlabel
    obtain ⟨-, rfl⟩ := ChartRequest.merged?_eq_groupTotal hperm halgorithm hpolicy hlabel hmerge
    exact ⟨_, hmerge, rfl⟩
  refine ⟨h.values_length, h.nodup, fun label => ?_, fun label value hvalue => ?_⟩
  · rw [hlabels, ChartRequest.exists_contributor_iff_counts hperm]
  -- The value of a bar is what its cells merge to, and that is the total.
  · obtain ⟨cell, hmerge, hfloat⟩ := h.values label value hvalue
    have hlabel := (hlabels label).1 (List.of_mem_zip hvalue).1
    obtain ⟨hfits, rfl⟩ :=
      ChartRequest.merged?_eq_groupTotal hperm halgorithm hpolicy hlabel hmerge
    exact ⟨hfits, (Option.some.inj hfloat).symm⟩

/-! ### Two runs -/

/-- A request for the total of all operations of each SDK. -/
def ChartRequest.operations : ChartRequest :=
  { ChartRequest.greatest "" with
    verticalAxes := [.buckets "operations_total" "y"]
    mergePolicy := .sum
    mergeAlgorithm := .sum }

theorem ChartRequest.asksTotals_operations : operations.AsksTotals .operationsTotal :=
  ⟨rfl, by cbv, rfl, rfl⟩

namespace Store

/-- A record of a run of an SDK with two samples, and one of a run of the same with one. -/
def twoTotals (m n k : Int) : List RunRecord :=
  [.ofTotals "a" "x" [(0, m), (1, n)], .ofTotals "b" "x" [(0, k)]]

theorem reachable_twoTotals (m n k : Int) :
    (⟨some (.ofRecords (twoTotals m n k))⟩ : Store).Reachable :=
  .ofRecords (by simp [twoTotals, Tables.recordIds, RunRecord.ofTotals])
    (by simp [twoTotals, RunRecord.normal_ofTotals])

theorem resolve_twoTotals (m n k : Int) :
    (⟨some (.ofRecords (twoTotals m n k))⟩ : Store).resolve "" .operations =
      .ok ((twoTotals m n k).map RunRecord.run) := by
  cbv

theorem addsUp_twoTotals {m n k : Int} (hfirst : SumsFit [m, n]) (hsecond : SumsFit [k])
    (htotals : SumsFit [m + n, k]) (label : String) :
    AggregateQuery.AddsUp
      ((Tables.ofRecords (twoTotals m n k)).countsInOrder Bucket.operationsTotal 0)
      ((ChartRequest.operations.aggregateQuery ((twoTotals m n k).map RunRecord.run)).idsOf
        (countCells ((Tables.ofRecords (twoTotals m n k)).countsInOrder
          Bucket.operationsTotal 0)) label) := by
  have hcontributors : (ChartRequest.operations.aggregateQuery
      ((twoTotals m n k).map RunRecord.run)).contributors (countCells
        ((Tables.ofRecords (twoTotals m n k)).countsInOrder Bucket.operationsTotal 0)) =
          [("a", "x"), ("b", "x")] := by
    cbv
  have ha : (Tables.ofRecords (twoTotals m n k)).countsInOrder Bucket.operationsTotal 0 "a" =
      [m, n] := by cbv
  have hb : (Tables.ofRecords (twoTotals m n k)).countsInOrder Bucket.operationsTotal 0 "b" =
      [k] := by cbv
  rw [AggregateQuery.idsOf, hcontributors]
  -- Under the label of both runs there is one sum to check for each, and under any other nothing.
  by_cases hlabel : "x" = label
  · simp only [hlabel, decide_true, List.filter_cons_of_pos, List.filter_nil, List.map_cons,
      List.map_nil]
    exact ⟨by simp [ha, hb, hfirst, hsecond], by simpa [ha, hb] using htotals⟩
  · simp only [hlabel, decide_false, Bool.false_eq_true, not_false_eq_true,
      List.filter_cons_of_neg, List.filter_nil, List.map_nil]
    exact ⟨List.forall_mem_nil _, (by decide : SumsFit [])⟩

/-! ### Charts of totals -/

variable {s : Store} {gerritPrefix : String} {r : ChartRequest} {column : BucketColumn}

/-- Once a request is accepted and its runs are known, only the bars are left to do. -/
theorem chart_eq_map_build (hr : r.AsksTotals column) (hvalid : r.validate = .ok ())
    {runs : List Run} (hruns : s.resolve gerritPrefix r = .ok runs) :
    s.chart gerritPrefix r = (BarChart.build s r runs).map .bar := by
  have hdraw : s.chart gerritPrefix r = s.draw r runs := by
    -- The checks are over, and the runs are resolved.
    rw [chart_eq, hvalid, ChartRequest.checkAxes, hr.mode, hr.measure, hruns]
    rfl
  rw [hdraw, draw, hr.mode]
  cases BarChart.build s r runs <;> rfl

theorem build_eq (hr : r.AsksTotals column) {t : Tables} (ht : s.tables = some t)
    (runs : List Run) :
    BarChart.build s r runs = (do
      let bars ← answer .aggregateBuckets ((r.aggregateQuery runs).evaluate?
        (BarMeasure.samples? t r.trimmingSeconds (.column column)))
      let sorted ← (sortByLabel r.horizontalAxis.resultType Bar.label bars).mapError .invalid
      return BarChart.ofBars runs sorted) := by
  rw [BarChart.build, hr.measure]
  change (BarMeasure.bars s (r.aggregateQuery runs) (.column column) >>= fun bars => _) = _
  rw [BarMeasure.bars_column ht]
  rfl

/-- A query that fails is all that the store can be blamed for. -/
theorem chart_eq_error_iff (hr : r.AsksTotals column) {t : Tables} (ht : s.tables = some t)
    (hvalid : r.validate = .ok ()) {runs : List Run} (hruns : s.resolve gerritPrefix r = .ok runs) :
    s.chart gerritPrefix r = .error (.store .aggregateBuckets) ↔
      (r.aggregateQuery runs).evaluate?
        (BarMeasure.samples? t r.trimmingSeconds (.column column)) = none := by
  rw [chart_eq_map_build hr hvalid hruns, map_eq_error_iff, build_eq hr ht, bind_eq_error_iff,
    answer_eq_error_iff]
  refine or_iff_left ?_
  rintro ⟨bars, -, hsort⟩
  -- Labels that cannot be ordered are the fault of the request.
  rcases bind_eq_error_iff.1 hsort with hsort | ⟨sorted, -, hpure⟩
  · obtain ⟨cause, -, hcause⟩ := mapError_eq_error_iff.1 hsort
    cases hcause
  · cases hpure

/-- Labels that need not be whole numbers can always be ordered. -/
theorem exists_chart_of_evaluate? (hr : r.AsksTotals column) {t : Tables} (ht : s.tables = some t)
    (hvalid : r.validate = .ok ()) {runs : List Run} (hruns : s.resolve gerritPrefix r = .ok runs)
    (htype : r.horizontalAxis.resultType ≠ .integer) {bars : List Bar}
    (hbars : (r.aggregateQuery runs).evaluate?
      (BarMeasure.samples? t r.trimmingSeconds (.column column)) = some bars) :
    ∃ chart, s.chart gerritPrefix r = .ok chart := by
  obtain ⟨sorted, hsorted⟩ := exists_sortByLabel_eq_ok htype Bar.label bars
  rw [chart_eq_map_build hr hvalid hruns, build_eq hr ht, hbars]
  exact ⟨_, map_eq_ok_iff.2 ⟨_, bind_eq_ok_iff.2
    ⟨bars, rfl, bind_eq_ok_iff.2 ⟨_, mapError_eq_ok_iff.2 hsorted, rfl⟩⟩, rfl⟩⟩

/-- What is read of a column of counts are its counts. -/
theorem cellsOf_count? {count : Bucket → Int} (hcount : column.count? = some count) (t : Tables)
    (trimming : Int) :
    cellsOf (BarMeasure.samples? t trimming (.column column)) =
      countCells (t.countsInOrder count trimming) :=
  (BarMeasure.cellsOf_column ..).trans (BarMeasure.usableCells_of_count? hcount t trimming)

/-- The error comes from groups whose counts cannot be added. -/
theorem chart_eq_error_iff_addsUp (hr : r.AsksTotals column) {count : Bucket → Int}
    (hcount : column.count? = some count) {t : Tables} (ht : s.tables = some t)
    (hvalid : r.validate = .ok ()) {runs : List Run} (hids : (runs.map Run.id).Nodup)
    (hruns : s.resolve gerritPrefix r = .ok runs) :
    s.chart gerritPrefix r = .error (.store .aggregateBuckets) ↔
      ∃ label, ¬ AggregateQuery.AddsUp (t.countsInOrder count r.trimmingSeconds)
        ((r.aggregateQuery runs).idsOf
          (countCells (t.countsInOrder count r.trimmingSeconds)) label) := by
  rw [chart_eq_error_iff hr ht hvalid hruns, ← Option.not_isSome_iff_eq_none,
    AggregateQuery.isSome_evaluate?_iff (nodup_labelledRuns hids) fun _ => rfl,
    cellsOf_count? hcount, not_forall]
  exact exists_congr fun label =>
    not_congr (AggregateQuery.isSome_merged?_iff_addsUp hr.algorithm hr.policy)

/-- A request that succeeds is answered with totals. -/
theorem exists_showsTotals (hs : s.Reachable) (hr : r.AsksTotals column) {count : Bucket → Int}
    (hcount : column.count? = some count) {chart : Chart}
    (hchart : s.chart gerritPrefix r = .ok chart) :
    ∃ t runs bars, s.tables = some t ∧ s.resolve gerritPrefix r = .ok runs ∧
      chart = .bar bars ∧ bars.ShowsTotals r runs (t.counts count r.trimmingSeconds) := by
  obtain ⟨bars, rfl⟩ := exists_bars_of_chart hr.mode hchart
  -- The steps of a chart that succeeds: its axis, its runs, the bars that are found, and these in
  -- order.
  obtain ⟨measure, runs, found, sorted, hmeasure, hruns, hfound, hsorted, rfl⟩ :=
    chart_eq_ok_bar hchart
  cases hr.measure.symm.trans hmeasure
  obtain ⟨t, ht, hids⟩ := nodup_ids_resolve hs hruns
  have hbars : (r.aggregateQuery runs).evaluate?
      (BarMeasure.samples? t r.trimmingSeconds (.column column)) = some found :=
    BarMeasure.bars_eq_ok ht hfound
  have hshows := ofBars_shows hids
    (BarMeasure.isNumeric_cellsOf t r.trimmingSeconds (.column column)) hbars hsorted
  have hmerged := fun label => @AggregateQuery.exists_merged?_of_evaluate? _
    (nodup_labelledRuns hids) _ _ hbars label
  -- What holds of any cells holds of counts.
  rw [cellsOf_count? hcount] at hshows hmerged
  exact ⟨t, runs, _, ht, hruns, rfl,
    hshows.showsTotals (t.countsInOrder_perm count _) hr.algorithm hr.policy hmerged⟩

/-- **What a chart of totals shows.** The value of each label is the total of all usable counts of
its group, converted to a float once. If a total does not fit into 64 bits there is no chart but an
error of the store; and there is one exactly if some group has counts that cannot be added, those of
each run in the order of their offsets and then the totals of the runs in the order of their ids.
Nothing else can go wrong unless labels have to be whole numbers. -/
theorem chart_totals (hs : s.Reachable) (hr : r.AsksTotals column) {count : Bucket → Int}
    (hcount : column.count? = some count) (gerritPrefix : String) :
    (∀ chart, s.chart gerritPrefix r = .ok chart →
      ∃ t runs bars, s.tables = some t ∧ s.resolve gerritPrefix r = .ok runs ∧
        chart = .bar bars ∧ bars.ShowsTotals r runs (t.counts count r.trimmingSeconds)) ∧
      ∀ t runs, s.tables = some t → r.validate = .ok () → s.resolve gerritPrefix r = .ok runs →
        (∀ label, Text.fitsSigned64
            (r.groupTotal runs (t.counts count r.trimmingSeconds) label) = false →
          s.chart gerritPrefix r = .error (.store .aggregateBuckets)) ∧
        (s.chart gerritPrefix r = .error (.store .aggregateBuckets) ↔
          ∃ label, ¬ AggregateQuery.AddsUp (t.countsInOrder count r.trimmingSeconds)
            ((r.aggregateQuery runs).idsOf
              (countCells (t.countsInOrder count r.trimmingSeconds)) label)) ∧
        (r.horizontalAxis.resultType ≠ .integer →
          (∃ chart, s.chart gerritPrefix r = .ok chart) ∨
            s.chart gerritPrefix r = .error (.store .aggregateBuckets)) := by
  refine ⟨fun chart => exists_showsTotals hs hr hcount, fun t runs ht hvalid hruns => ?_⟩
  obtain ⟨-, -, hids⟩ := nodup_ids_resolve hs hruns
  have hfails := chart_eq_error_iff_addsUp hr hcount ht hvalid hids hruns
  refine ⟨fun label hover => hfails.2 ⟨label, fun hadds => ?_⟩, hfails, fun htype => ?_⟩
  · -- A total that can be formed fits.
    have hfits := hadds.totals.fits
    rw [ChartRequest.sum_idsOf (t.countsInOrder_perm count _), hover] at hfits
    cases hfits
  -- If the query succeeds, only the labels could be refused.
  · rw [chart_eq_error_iff hr ht hvalid hruns]
    cases hbars : (r.aggregateQuery runs).evaluate?
        (BarMeasure.samples? t r.trimmingSeconds (.column column)) with
    | none => exact .inr rfl
    | some bars => exact .inl (exists_chart_of_evaluate? hr ht hvalid hruns htype hbars)

/-- Three samples of two runs in one bar, and two runs whose total does not fit. -/
theorem chart_totals_twoRuns :
    (∃ bars, (⟨some (.ofRecords (twoTotals 3 4 5))⟩ : Store).chart "" .operations =
        .ok (.bar bars) ∧ "x" ∈ bars.labels ∧
      ∀ value, ("x", value) ∈ bars.labels.zip bars.values → value = Float.ofInt 12) ∧
      (⟨some (.ofRecords (twoTotals 9223372036854775807 0 1))⟩ : Store).chart "" .operations =
        .error (.store .aggregateBuckets) := by
  have hcount : BucketColumn.operationsTotal.count? = some Bucket.operationsTotal := rfl
  have hvalid : ChartRequest.operations.validate = .ok () := by cbv
  constructor
  · obtain ⟨hshown, hrest⟩ := chart_totals (reachable_twoTotals 3 4 5)
      ChartRequest.asksTotals_operations hcount ""
    obtain ⟨-, hfails, hanswered⟩ := hrest _ _ rfl hvalid (resolve_twoTotals 3 4 5)
    rcases hanswered (by decide) with ⟨chart, hchart⟩ | herror
    · obtain ⟨t, runs, bars, ht, hruns, rfl, hbars⟩ := hshown chart hchart
      cases ht
      cases (resolve_twoTotals 3 4 5).symm.trans hruns
      have hlabel : (RunRecord.ofTotals "a" "x" []).run.params.labelAt? "sdk" = some "x" := by cbv
      have hcounts : (Tables.ofRecords (twoTotals 3 4 5)).counts Bucket.operationsTotal 0 "a" =
          [3, 4] := by cbv
      have htotal : ChartRequest.operations.groupTotal ((twoTotals 3 4 5).map RunRecord.run)
          ((Tables.ofRecords (twoTotals 3 4 5)).counts Bucket.operationsTotal 0) "x" = 12 := by cbv
      refine ⟨bars, hchart, (hbars.labels "x").2 ⟨_, List.mem_cons_self .., hlabel, ?_⟩,
        fun value hvalue => ?_⟩
      · exact ne_of_eq_of_ne hcounts (List.cons_ne_nil _ _)
      -- The total of a group is added before it is made a float.
      · exact (hbars.values "x" value hvalue).2.trans (congrArg Float.ofInt htotal)
    · obtain ⟨label, hnot⟩ := hfails.1 herror
      exact absurd (addsUp_twoTotals (by decide) (by decide) (by decide) label) hnot
  · obtain ⟨-, hrest⟩ := chart_totals (reachable_twoTotals 9223372036854775807 0 1)
      ChartRequest.asksTotals_operations hcount ""
    exact (hrest _ _ rfl hvalid (resolve_twoTotals ..)).1 "x" (by cbv)

end Store

end BenchCharts

import Mathlib.Data.List.Nodup
import BenchCharts.Chart.Bars
import BenchCharts.Proofs.LabelOrder
import BenchCharts.Proofs.Params.Path
import BenchCharts.Proofs.Store.Bars
import BenchCharts.Proofs.Store.Lookup
import BenchCharts.Proofs.Store.Reachable

/-!
# What a bar chart shows

A bar chart should show, for each label that some run with usable samples has, the merge of one
reduction for each of these runs. `BarChart.Shows` says so for any way to get at the cells of a run,
since there are several: `BarMeasure.usableCells` are the numbers that the samples have, as they
are, and those that a query reads are the ones of `BarMeasure.samples?`.

* `bars_eq_ok` — the bars are those of a query over the cells that it reads;
* `ofBars_shows` — a chart of sorted bars shows these cells;
* `cellsOf_eq_cells` — they are the cells of the usable samples for every column, and for a metric
  that is `Legible`: its keys are plain, and the objects with it can be searched and have no name
  with a NUL for which one of them can be taken;
* `cells_eq_usableCells` — they are the usable cells if the store also reads each number of the
  metric as it is.
-/

namespace BenchCharts

open Json

/-! ### Cells -/

/-- The number that a value is, if it is one. -/
def Json.number? : Json → Option Number
  | .num n => some n
  | _ => none

theorem Json.number?_eq_some_iff {j : Json} {n : Number} : j.number? = some n ↔ j = .num n := by
  cases j <;> simp [number?]

theorem Json.isNumber_iff {j : Json} : j.isNumber = true ↔ ∃ n, j = .num n := by
  cases j <;> simp [isNumber]

/-- A number as a cell, without a way through its text. -/
def Number.cell : Number → Cell
  | .int n => if Text.fitsSigned64 n then .int n else .real (Float.ofInt n)
  | .float x => .real x

/-- What is read of a number, where there is one. -/
theorem filter_isNumber_map_cell (found : Option Json) :
    (found.filter Json.isNumber).map Json.cell = (found.bind Json.number?).map Json.numberCell := by
  cases found with
  | none => rfl
  | some j => cases j <;> rfl

/-- Only the number that is there matters. -/
theorem map_number?_congr {cell cell' : Number → Cell} {found : Option Json}
    (h : ∀ n, found = some (.num n) → cell n = cell' n) :
    (found.bind Json.number?).map cell = (found.bind Json.number?).map cell' := by
  refine Option.map_congr fun n hn => ?_
  obtain ⟨j, rfl, hnumber⟩ := Option.bind_eq_some_iff.1 hn
  exact h n (congrArg some (number?_eq_some_iff.1 hnumber))

namespace BarMeasure

/-- The samples of a run that a query reads, or `none` if it cannot read the path of a metric. -/
def samples? (t : Tables) (trimming : Int) : BarMeasure → String → Option (List Sample)
  | .column c, runId => some (t.columnSamples c trimming runId)
  | .metric path, runId => t.metricSamples? (FieldPath.keys path) trimming runId

/-- The cells of the usable samples of a run, in the order of their offsets: what a column holds
unless that is nothing, and the numbers at the path of a metric, each turned into a cell. -/
def cells (cell : Number → Cell) (t : Tables) (trimming : Int) : BarMeasure → String → List Cell
  | .column c, runId =>
    ((afterWarmUp Bucket.offset trimming (Tables.ownedBy t.buckets runId)).map
      fun bucket => bucket.cell c).filter fun cell => !cell.isNull
  | .metric path, runId =>
    (afterWarmUp MetricSample.offset trimming (Tables.ownedBy t.metrics runId)).filterMap
      fun sample => ((sample.metrics.at? path).bind Json.number?).map cell

/-- The usable cells of a run, with the numbers as they are. -/
def usableCells (t : Tables) (trimming : Int) : BarMeasure → String → List Cell :=
  cells Number.cell t trimming

/-- The store finds the metric of a measure where its path says if the keys of the path are plain
and the objects with metrics are legible. -/
def Legible (t : Tables) : BarMeasure → Prop
  | .column _ => True
  | .metric path =>
    (∀ key ∈ FieldPath.keys path, StoredKey.Plain key) ∧ ∀ row ∈ t.metrics, row.item.metrics.Legible

/-- The store reads the numbers of a measure as they are. -/
def ReadAsIs (t : Tables) : BarMeasure → Prop
  | .column _ => True
  | .metric path => ∀ row ∈ t.metrics, ∀ n, row.item.metrics.at? path = some (.num n) →
      Json.numberCell n = n.cell

/-- For no runs the store is not asked at all, but neither would there be any bars. -/
theorem bars_column {s : Store} {t : Tables} (ht : s.tables = some t) (q : AggregateQuery)
    (c : BucketColumn) :
    bars s q (.column c) =
      answer .aggregateBuckets (q.evaluate? (samples? t q.trimmingSeconds (.column c))) := by
  rw [bars, Store.aggregateBuckets]
  split
  · next hempty =>
    rw [AggregateQuery.evaluate?_of_runLabels_eq_nil (List.isEmpty_iff.1 hempty)]
    rfl
  · exact Store.query_of_tables ht _ _

/-- The bars of a measure are those of a query over the samples that it reads. -/
theorem bars_eq_ok {s : Store} {t : Tables} (ht : s.tables = some t) {q : AggregateQuery}
    {measure : BarMeasure} {found : List Bar} (h : measure.bars s q = .ok found) :
    q.evaluate? (measure.samples? t q.trimmingSeconds) = some found := by
  cases measure with
  | column c =>
    rw [bars_column ht] at h
    exact answer_eq_ok_iff.1 h
  -- A path that is no path is refused, but only if there are runs to ask for.
  | metric path =>
    rw [bars, Store.aggregateMetric] at h
    split at h
    · next hempty =>
      cases h
      exact AggregateQuery.evaluate?_of_runLabels_eq_nil (List.isEmpty_iff.1 hempty) _
    · split at h
      · cases h
      · next keys hkeys =>
        obtain rfl := FieldPath.keys_of_check hkeys
        rw [Store.query_of_tables ht] at h
        exact answer_eq_ok_iff.1 h

end BarMeasure

/-! ### Cells that are read and usable cells -/

/-- The sample of the value at a path, which counts if that is a number. -/
def MetricSample.sampleAt (cell : Number → Cell) (path : String) (m : MetricSample) : Sample :=
  ⟨m.offset, m.initiated, (((m.metrics.at? path).bind Json.number?).map cell).getD .null⟩

theorem MetricSample.sampleAt_congr {cell cell' : Number → Cell} {path : String} (m : MetricSample)
    (h : ∀ n, m.metrics.at? path = some (.num n) → cell n = cell' n) :
    m.sampleAt cell path = m.sampleAt cell' path := by
  rw [sampleAt, sampleAt, map_number?_congr h]

/-- The store finds what is at a path of plain keys in a legible object, no more and no less. -/
theorem MetricSample.sample?_of_legible {path : String} {m : MetricSample}
    (hplain : ∀ key ∈ FieldPath.keys path, StoredKey.Plain key) (hlegible : m.metrics.Legible) :
    m.sample? (FieldPath.keys path) = some (m.sampleAt Json.numberCell path) := by
  rw [sample?, Fields.search?_eq_getKeys? hlegible hplain, Fields.getKeys?_keys, Option.map_some,
    filter_isNumber_map_cell]
  rfl

/-- What is read of each sample is read of all of them. -/
theorem Tables.metricSamples?_eq {t : Tables} {keys : List String} {runId : String}
    {sample : MetricSample → Sample}
    (h : ∀ m ∈ ownedBy t.metrics runId, m.sample? keys = some (sample m)) (trimming : Int) :
    t.metricSamples? keys trimming runId =
      some (usable ((afterWarmUp MetricSample.offset trimming (ownedBy t.metrics runId)).map
        sample)) := by
  -- Reading the samples one by one cannot fail.
  have hread : (afterWarmUp MetricSample.offset trimming (ownedBy t.metrics runId)).mapM
      (MetricSample.sample? keys) =
        some ((afterWarmUp MetricSample.offset trimming (ownedBy t.metrics runId)).map sample) := by
    rw [mapM_eq_some_iff, List.map_map]
    exact List.map_congr_left fun m hm => h m (List.mem_filter.1 (mem_stableSort.1 hm)).1
  rw [metricSamples?, hread, Option.map_some]

namespace BarMeasure

/-- A number is a numeric cell, and not nothing. -/
theorem isNumeric_numberCell (n : Number) :
    (Json.numberCell n).isNumeric = true ∧ (Json.numberCell n).isNull = false := by
  cases n with
  | int n =>
    rw [numberCell]
    split <;> exact ⟨rfl, rfl⟩
  | float x => exact ⟨rfl, rfl⟩

theorem isNumeric_cell (n : Number) : n.cell.isNumeric = true := by
  cases n with
  | int n =>
    rw [Number.cell]
    split <;> rfl
  | float x => rfl

theorem isNumeric_bucketCell (bucket : Bucket) (c : BucketColumn) :
    (bucket.cell c).isNumeric = true := by
  have hduration : ∀ d, (Bucket.durationCell d).isNumeric = true := by
    intro d
    cases d with
    | none => rfl
    | some x => exact Cell.isNumeric_ofFloat _
  cases c <;> first | rfl | exact hduration _

/-- A query over a column reads the cells of its usable samples. -/
theorem cellsOf_column (t : Tables) (trimming : Int) (c : BucketColumn) (cell : Number → Cell) :
    cellsOf (samples? t trimming (.column c)) = cells cell t trimming (.column c) := by
  funext runId
  simp only [cellsOf, samples?, Option.getD_some, Tables.columnSamples, usable, cells,
    List.filter_map, List.map_map]
  rfl

/-- Of samples with nothing where there is no number, those with a number count. -/
theorem usable_map {α : Type} (number? : α → Option Number) {cell : Number → Cell}
    (hcell : ∀ n, (cell n).isNull = false) (sample : α → Cell → Sample)
    (hsample : ∀ a c, (sample a c).cell = c) (items : List α) :
    usable (items.map fun a => sample a (((number? a).map cell).getD .null)) =
      items.filterMap fun a => (number? a).map fun n => sample a (cell n) := by
  induction items with
  | nil => rfl
  | cons a rest ih =>
    rw [usable] at ih ⊢
    -- Without a number the cell is null, and the sample is left out.
    cases hn : number? a with
    | none => simpa [hn, hsample, Cell.isNull] using ih
    | some n => simpa [hn, hsample, hcell n] using ih

/-- The cells that a query reads are those of the usable samples if it finds the metric of its
measure where the path says. -/
theorem cellsOf_eq_cells {t : Tables} (trimming : Int) {measure : BarMeasure}
    (hlegible : measure.Legible t) :
    cellsOf (measure.samples? t trimming) = measure.cells Json.numberCell t trimming := by
  cases measure with
  | column c => exact cellsOf_column t trimming c _
  | metric path =>
    obtain ⟨hplain, hobjects⟩ := hlegible
    funext runId
    have hread : ∀ m ∈ Tables.ownedBy t.metrics runId,
        m.sample? (FieldPath.keys path) = some (m.sampleAt Json.numberCell path) := by
      intro m hm
      obtain ⟨row, hrow, rfl⟩ := List.mem_map.1 hm
      exact MetricSample.sample?_of_legible hplain (hobjects row (List.mem_filter.1 hrow).1)
    simp only [cellsOf, samples?, Tables.metricSamples?_eq hread, Option.getD_some]
    -- The samples without a number are left out before or after the cells are made.
    have husable := usable_map (fun m : MetricSample => (m.metrics.at? path).bind Json.number?)
      (fun n => (isNumeric_numberCell n).2) (fun m cell => ⟨m.offset, m.initiated, cell⟩)
      (fun _ _ => rfl) (afterWarmUp MetricSample.offset trimming (Tables.ownedBy t.metrics runId))
    unfold MetricSample.sampleAt
    rw [husable, List.map_filterMap]
    simp only [Option.map_map]
    rfl

/-- If each number is read as it is, then so are the cells. -/
theorem cells_eq_usableCells {t : Tables} (trimming : Int) {measure : BarMeasure}
    (hread : measure.ReadAsIs t) :
    measure.cells Json.numberCell t trimming = measure.usableCells t trimming := by
  cases measure with
  | column c => rfl
  | metric path =>
    funext runId
    refine List.filterMap_congr fun m hm => ?_
    obtain ⟨row, hrow, rfl⟩ := List.mem_map.1 (List.mem_filter.1 (mem_stableSort.1 hm)).1
    exact map_number?_congr (hread row (List.mem_filter.1 hrow).1)

/-- Whether there are cells does not depend on what they are. -/
theorem cells_eq_nil_iff {t : Tables} {trimming : Int} {measure : BarMeasure} {runId : String}
    (cell cell' : Number → Cell) :
    measure.cells cell t trimming runId = [] ↔ measure.cells cell' t trimming runId = [] := by
  cases measure with
  | column c => exact Iff.rfl
  | metric path => simp only [cells, List.filterMap_eq_nil_iff, Option.map_eq_none_iff]

/-- Usable cells are numeric. -/
theorem isNumeric_cells (t : Tables) (trimming : Int) (measure : BarMeasure) {cell : Number → Cell}
    (hcell : ∀ n, (cell n).isNumeric = true) (runId : String) :
    ∀ c ∈ measure.cells cell t trimming runId, c.isNumeric = true := by
  intro found hfound
  cases measure with
  | column c =>
    obtain ⟨bucket, -, rfl⟩ := List.mem_map.1 (List.mem_filter.1 hfound).1
    exact isNumeric_bucketCell bucket c
  | metric path =>
    obtain ⟨sample, -, heq⟩ := List.mem_filterMap.1 hfound
    obtain ⟨n, -, rfl⟩ := Option.map_eq_some_iff.1 heq
    exact hcell n

theorem isNumeric_usableCells (t : Tables) (trimming : Int) (measure : BarMeasure)
    (runId : String) : ∀ c ∈ measure.usableCells t trimming runId, c.isNumeric = true :=
  isNumeric_cells t trimming measure isNumeric_cell runId

/-- Cells that are read are numeric, whatever a path finds. -/
theorem isNumeric_cellsOf (t : Tables) (trimming : Int) (measure : BarMeasure) (runId : String) :
    ∀ c ∈ cellsOf (measure.samples? t trimming) runId, c.isNumeric = true := by
  cases measure with
  | column c =>
    rw [cellsOf_column t trimming c Number.cell]
    exact isNumeric_usableCells t trimming (.column c) runId
  | metric path =>
    intro cell hcell
    obtain ⟨s, hs, rfl⟩ := List.mem_map.1 hcell
    cases hread : t.metricSamples? (FieldPath.keys path) trimming runId with
    | none => simp [samples?, hread] at hs
    | some samples =>
      -- A cell that was read is that of a number, or NULL where the path led to something else.
      obtain ⟨all, hall, rfl⟩ := Option.map_eq_some_iff.1 hread
      simp only [samples?, hread, Option.getD_some] at hs
      have hmem : some s ∈ all.map some := List.mem_map_of_mem (List.mem_filter.1 hs).1
      rw [← mapM_eq_some_iff.1 hall] at hmem
      obtain ⟨sample, -, hsample⟩ := List.mem_map.1 hmem
      obtain ⟨found, -, rfl⟩ := Option.map_eq_some_iff.1 hsample
      rw [filter_isNumber_map_cell]
      cases found.bind Json.number? with
      | none => rfl
      | some n => exact (isNumeric_numberCell n).1

end BarMeasure

/-! ### Charts -/

/-- A run is a contributor to its label if it has cells. -/
theorem ChartRequest.exists_contributor_iff {r : ChartRequest} {runs : List Run}
    {cells : String → List Cell} {label : String} :
    (∃ rl ∈ (r.aggregateQuery runs).contributors cells, rl.2 = label) ↔
      ∃ run ∈ runs, run.params.labelAt? r.horizontalAxis.field = some label ∧
        cells run.id ≠ [] := by
  simp only [AggregateQuery.mem_contributors_iff, ChartRequest.aggregateQuery, labelledRuns,
    List.mem_filterMap, Option.map_eq_some_iff]
  refine ⟨?_, ?_⟩
  · rintro ⟨rl, ⟨⟨run, hrun, label, hlabel, rfl⟩, hcells⟩, rfl⟩
    exact ⟨run, hrun, hlabel, hcells⟩
  · rintro ⟨run, hrun, hlabel, hcells⟩
    exact ⟨(run.id, label), ⟨⟨run, hrun, label, hlabel, rfl⟩, hcells⟩, rfl⟩

/-- Runs are given to a query once each. -/
theorem nodup_labelledRuns {field : String} {runs : List Run} (hids : (runs.map Run.id).Nodup) :
    ((labelledRuns field runs).map Prod.fst).Nodup := by
  -- Some runs are left out, and the others keep their ids and their order.
  have hsub : ((labelledRuns field runs).map Prod.fst).Sublist (runs.map Run.id) := by
    induction runs with
    | nil => exact List.Sublist.refl _
    | cons run rest ih =>
      have ih := ih (List.nodup_cons.1 hids).2
      rw [labelledRuns, List.filterMap_cons]
      cases hlabel : run.params.labelAt? field with
      | none => exact ih.cons _
      | some label => exact ih.cons_cons _
  exact hids.sublist hsub

/-- What a bar chart over some runs shows, by the cells of each run. -/
structure BarChart.Shows (r : ChartRequest) (runs : List Run) (cells : String → List Cell)
    (chart : BarChart) : Prop where
  /-- There are as many values as labels. -/
  values_length : chart.values.length = chart.labels.length
  /-- There are as many lists of run ids as labels. -/
  runIds_length : chart.runIdsPerLabel.length = chart.labels.length
  /-- No label is there twice. -/
  nodup : chart.labels.Nodup
  /-- The labels are in the order of what they are. -/
  ascending : chart.labels.Pairwise fun a b =>
    ∃ o, compareLabels r.horizontalAxis.resultType a b = .ok o ∧ o.isLE = true
  /-- A label is there if a run with it has cells and it does not merge to nothing. -/
  labels : ∀ label, label ∈ chart.labels ↔
    (∃ run ∈ runs, run.params.labelAt? r.horizontalAxis.field = some label ∧ cells run.id ≠ []) ∧
      ∃ cell, (r.aggregateQuery runs).merged? cells label = some cell ∧ cell.isNull = false
  /-- The value of a label is its merged cell. -/
  values : ∀ label value, (label, value) ∈ chart.labels.zip chart.values →
    ∃ cell, (r.aggregateQuery runs).merged? cells label = some cell ∧ cell.float? = some value
  /-- A run without the field contributes to no label. -/
  unlabelled : ∀ run ∈ runs, run.params.labelAt? r.horizontalAxis.field = none →
    ∀ rl ∈ (r.aggregateQuery runs).contributors cells, rl.1 ≠ run.id

/-- A run without the field is no contributor. -/
theorem ne_id_of_mem_contributors {r : ChartRequest} {runs : List Run}
    (hids : (runs.map Run.id).Nodup) {cells : String → List Cell} {run : Run} (hrun : run ∈ runs)
    (hnone : run.params.labelAt? r.horizontalAxis.field = none) :
    ∀ rl ∈ (r.aggregateQuery runs).contributors cells, rl.1 ≠ run.id := by
  intro rl hrl heq
  obtain ⟨hrl, -⟩ := AggregateQuery.mem_contributors_iff.1 hrl
  obtain ⟨other, hother, hlabel⟩ := List.mem_filterMap.1 hrl
  obtain ⟨label, hlabel, rfl⟩ := Option.map_eq_some_iff.1 hlabel
  obtain rfl : other = run := List.inj_on_of_nodup_map hids hother hrun heq
  rw [hnone] at hlabel
  cases hlabel

/-- What a chart shows, told by which pairs of labels and values it has. -/
theorem BarChart.shows_iff {r : ChartRequest} {runs : List Run} (hids : (runs.map Run.id).Nodup)
    {cells : String → List Cell} (hcells : ∀ id, ∀ c ∈ cells id, c.isNumeric = true)
    {chart : BarChart} :
    chart.Shows r runs cells ↔
      chart.values.length = chart.labels.length ∧
        chart.runIdsPerLabel.length = chart.labels.length ∧ chart.labels.Nodup ∧
          (chart.labels.Pairwise fun a b =>
            ∃ o, compareLabels r.horizontalAxis.resultType a b = .ok o ∧ o.isLE = true) ∧
            ∀ label value, (label, value) ∈ chart.labels.zip chart.values ↔
              (r.aggregateQuery runs).value? cells label = some value := by
  -- With as many values as labels, each label is paired with a value.
  have hzip : chart.values.length = chart.labels.length → ∀ label, label ∈ chart.labels ↔
      ∃ value, (label, value) ∈ chart.labels.zip chart.values := by
    intro hlength label
    have hmap : (chart.labels.zip chart.values).map Prod.fst = chart.labels :=
      List.map_fst_zip (by omega)
    rw [← hmap, List.mem_map]
    simp [hmap]
  -- A label has a value if it has cells that merge to something.
  have hvalue := @AggregateQuery.exists_value?_iff (r.aggregateQuery runs) cells hcells
  simp only [ChartRequest.exists_contributor_iff] at hvalue
  refine ⟨?_, ?_⟩
  · intro h
    refine ⟨h.values_length, h.runIds_length, h.nodup, h.ascending, fun label value => ⟨?_, ?_⟩⟩
    · exact fun hmem => Option.bind_eq_some_iff.2 (h.values label value hmem)
    · intro hsome
      -- The label is there, and the value that it is paired with is the merged one.
      have hlabel := (h.labels label).2 (hvalue.1 ⟨value, hsome⟩)
      obtain ⟨value', hmem⟩ := (hzip h.values_length label).1 hlabel
      have hsome' := Option.bind_eq_some_iff.2 (h.values label value' hmem)
      obtain rfl : value = value' := Option.some.inj (hsome.symm.trans hsome')
      exact hmem
  · rintro ⟨hvalues, hrunIds, hnodup, hascending, hmem⟩
    refine ⟨hvalues, hrunIds, hnodup, hascending, fun label => ?_, fun label value hpair => ?_,
      fun run hrun hnone => ne_id_of_mem_contributors hids hrun hnone⟩
    · rw [hzip hvalues label, ← hvalue]
      exact exists_congr fun value => hmem label value
    · exact Option.bind_eq_some_iff.1 ((hmem label value).1 hpair)

/-- **A chart of sorted bars shows the cells that the bars were made of.** -/
theorem ofBars_shows {r : ChartRequest} {runs : List Run} (hids : (runs.map Run.id).Nodup)
    {samples? : String → Option (List Sample)}
    (hcells : ∀ id, ∀ c ∈ cellsOf samples? id, c.isNumeric = true) {bars sorted : List Bar}
    (hbars : (r.aggregateQuery runs).evaluate? samples? = some bars)
    (hsorted : sortByLabel r.horizontalAxis.resultType Bar.label bars = .ok sorted) :
    (BarChart.ofBars runs sorted).Shows r runs (cellsOf samples?) := by
  -- The query gives each label once, and sorting only moves the bars.
  obtain ⟨hnodup, hvalue⟩ := AggregateQuery.evaluate?_eq_some (nodup_labelledRuns hids) hbars
  obtain ⟨hperm, hascending⟩ := sortByLabel_eq_ok hsorted
  refine (BarChart.shows_iff hids hcells).2 ⟨?_, ?_, ?_, ?_, fun label value => ?_⟩
  · simp [BarChart.ofBars]
  · simp [BarChart.ofBars]
  · exact (hperm.map Bar.label).nodup_iff.2 hnodup
  · exact List.pairwise_map.2 hascending
  · rw [← hvalue, BarChart.ofBars, List.zip_map', List.mem_map]
    simp only [Prod.mk.injEq, hperm.mem_iff]

/-- Two ways to get at the cells of a run lead to the same chart exactly if every label has the same
value. -/
theorem BarChart.Shows.iff_value? {r : ChartRequest} {runs : List Run}
    (hids : (runs.map Run.id).Nodup) {cells cells' : String → List Cell}
    (hcells : ∀ id, ∀ c ∈ cells id, c.isNumeric = true)
    (hcells' : ∀ id, ∀ c ∈ cells' id, c.isNumeric = true) {chart : BarChart}
    (h : chart.Shows r runs cells) :
    chart.Shows r runs cells' ↔
      ∀ label, (r.aggregateQuery runs).value? cells' label =
        (r.aggregateQuery runs).value? cells label := by
  obtain ⟨hvalues, hrunIds, hnodup, hascending, hmem⟩ := (BarChart.shows_iff hids hcells).1 h
  rw [BarChart.shows_iff hids hcells']
  refine ⟨?_, ?_⟩
  -- Both sides are told by the pairs of the chart.
  · rintro ⟨-, -, -, -, hmem'⟩ label
    refine Option.ext fun value => ?_
    rw [← hmem' label value, hmem label value]
  · intro hsame
    refine ⟨hvalues, hrunIds, hnodup, hascending, fun label value => ?_⟩
    rw [hsame label, hmem label value]

end BenchCharts

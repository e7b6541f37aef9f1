import BenchCharts.Chart.Bars
import BenchCharts.Proofs.Store.Listings
import BenchCharts.Proofs.Store.Rows
import BenchCharts.Proofs.Store.Search

/-!
# Stores that hold the same

Two stores are `Alike` if they hold the same runs, in any order, and the same rows of each run. What
a query about one run answers is settled by its rows alone. A query about all runs goes over a table
in which they can come in any order, so what it answers must not depend on that:

* `Alike.findRuns` — runs are found in the order of their times and ids, and no two have one id;
* `Alike.bars` — bars are made run by run, in the order in which runs are asked for;
* `Alike.clusterVersions` and `Alike.sdks` — lists of versions have no repetitions, and version
  order is total.

`alike_of_perm` is where such stores come from: the same records are inserted in another order.
-/

namespace BenchCharts

/-- Two sets of tables hold the same runs, and the same rows of each run. -/
structure Tables.Alike (t t' : Tables) : Prop where
  /-- No two runs share an id. -/
  ids : (t.runs.map Run.id).Nodup
  /-- The runs are the same, in any order. -/
  runs : t'.runs.Perm t.runs
  /-- The rows of each run are the same, in the same order. -/
  rows : ∀ runId, t.SameRows t' runId

/-- Every run is searched, in whatever order they come. -/
theorem Tables.Alike.searchable_eq {t t' : Tables} (h : t.Alike t') :
    t.searchable = t'.searchable :=
  h.runs.symm.all_eq

namespace Store

/-- Two stores have tables that hold the same. -/
def Alike (s s' : Store) : Prop :=
  ∃ t t', s.tables = some t ∧ s'.tables = some t' ∧ t.Alike t'

namespace Alike

variable {s s' : Store} (h : s.Alike s')

include h

theorem agreeOn (runId : String) : s.AgreeOn s' runId := by
  obtain ⟨t, t', ht, ht', hsame⟩ := h
  exact ⟨t, t', ht, ht', hsame.rows runId⟩

theorem query_congr {α : Type} {q : StoreQuery} {f : Tables → Except ChartError α}
    (hf : ∀ t t', t.Alike t' → f t = f t') : s.query q f = s'.query q f := by
  obtain ⟨t, t', ht, ht', hsame⟩ := h
  rw [query_of_tables ht, query_of_tables ht']
  exact hf t t' hsame

/-- **A search finds the same runs in the same order**, or fails for both. -/
theorem findRuns (filter : CompiledFilter) : s.findRuns filter = s'.findRuns filter := by
  refine h.query_congr fun t t' hsame => congrArg (answer .findRuns) ?_
  -- No two runs compare as equal, so they come out of sorting in one order.
  have hne : t.runs.Pairwise fun a b => a.compareStored b ≠ .eq :=
    (List.pairwise_map.1 hsame.ids).imp fun hne heq => hne (Run.id_eq_of_compareStored heq)
  -- Every run is looked at, so the search fails for both if it fails on one of them.
  have hread : (∀ run ∈ t'.runs, (acceptsAll? run.params filter.clauses).isSome = true) ↔
      ∀ run ∈ t.runs, (acceptsAll? run.params filter.clauses).isSome = true :=
    forall_congr' fun run => imp_congr_left hsame.runs.mem_iff
  cases hfound : candidates? filter.clauses t.runs with
  | none =>
    have hfound' : candidates? filter.clauses t'.runs = none := by
      rw [Option.eq_none_iff_forall_ne_some]
      intro found hfound'
      have hall := hread.1 (candidates?_eq_some_iff.1 hfound').1
      rw [candidates?_eq_some_iff.2 ⟨hall, rfl⟩] at hfound
      cases hfound
    simp only [search?, hfound, hfound']
  -- The candidates are the same, in another order, which sorting undoes.
  | some found =>
    obtain ⟨hall, rfl⟩ := candidates?_eq_some_iff.1 hfound
    have hfound' := candidates?_eq_some_iff.2 ⟨hread.2 hall, rfl⟩
    simp only [search?, hfound, hfound', Option.bind_eq_bind, Option.bind_some,
      stableSort_eq_of_perm (hsame.runs.filter _) (hne.filter _)]

theorem run? (id : String) : s.run? id = s'.run? id := by
  refine h.query_congr fun t t' hsame => ?_
  rw [find?_key_eq_of_perm hsame.runs hsame.ids]

/-- **A bar query gives the same bars**, or fails for both. -/
theorem bars (q : AggregateQuery) (measure : BarMeasure) :
    measure.bars s q = measure.bars s' q := by
  cases measure with
  | column c =>
    rw [BarMeasure.bars, BarMeasure.bars, aggregateBuckets, aggregateBuckets]
    split
    · rfl
    -- The bars are made run by run, and of each run the samples are the same.
    · refine h.query_congr fun t t' hsame => ?_
      have hsamples : ∀ runId, t.columnSamples c q.trimmingSeconds runId =
          t'.columnSamples c q.trimmingSeconds runId := fun runId =>
        (hsame.rows runId).columnSamples c q.trimmingSeconds
      simp only [hsamples]
  | metric path =>
    rw [BarMeasure.bars, BarMeasure.bars, aggregateMetric, aggregateMetric]
    split
    · rfl
    · cases FieldPath.check path with
      | error cause => rfl
      | ok keys =>
        refine h.query_congr fun t t' hsame => ?_
        have hsamples : t.metricSamples? keys q.trimmingSeconds =
            t'.metricSamples? keys q.trimmingSeconds := funext fun runId =>
          (hsame.rows runId).metricSamples? keys q.trimmingSeconds
        rw [hsamples]

theorem clusterVersions : s.clusterVersions = s'.clusterVersions := by
  refine h.query_congr fun t t' hsame => ?_
  -- Both lists are of the same texts.
  rw [hsame.searchable_eq,
    stableSort_distinct_congr fun version => (hsame.runs.filterMap _).mem_iff]

theorem sdks : s.sdks = s'.sdks := by
  refine h.query_congr fun t t' hsame => ?_
  rw [hsame.searchable_eq, sdksOf_congr fun pair => (hsame.runs.filterMap _).mem_iff]

end Alike

/-- **The same records in another order make a store that holds the same.** -/
theorem alike_of_perm {records records' : List RunRecord}
    (hids : (Tables.recordIds records).Nodup) (hperm : records'.Perm records) :
    Alike ⟨some (.ofRecords records)⟩ ⟨some (.ofRecords records')⟩ := by
  refine ⟨_, _, rfl, rfl, ?_, hperm.map RunRecord.run, ?_⟩
  · rw [Tables.ofRecords, List.map_map]
    exact hids
  · exact fun runId => Tables.sameRows_ofRecords_of_perm hids hperm runId

end Store

end BenchCharts

import BenchCharts.Chart.Bars
import BenchCharts.Proofs.Store.Calls

/-!
# Stores without a warm-up

The buckets and samples before some second can be left out of records before these are inserted, or
the store can be asked for what comes from that second on. `Store.afterAll_withoutWarmUp` says that
leaving out goes through all calls: what they make of the shorter records is what they make of the
full ones, with the rows left out at the end. And for every query that has a warm-up to trim, a
store with those rows left out answers without trimming what the full store answers with it. No
query sees the difference, since each of them drops the early rows before it looks at anything else
(`afterWarmUp_zero`).
-/

namespace BenchCharts

/-! ### Leaving out the warm-up -/

/-- A record without the buckets and samples before a second. -/
def RunRecord.withoutWarmUp (seconds : Int) (record : RunRecord) : RunRecord :=
  { record with
    buckets := record.buckets.filter (seconds ≤ ·.offset)
    metrics := record.metrics.filter (seconds ≤ ·.offset) }

/-- A call with such records. -/
def StoreCall.withoutWarmUp (seconds : Int) : StoreCall → StoreCall
  | .initSchema => .initSchema
  | .insertRun record => .insertRun (record.withoutWarmUp seconds)
  | .insertRuns records => .insertRuns (records.map (·.withoutWarmUp seconds))

/-- Tables without the rows of buckets and samples before a second. -/
def Tables.withoutWarmUp (seconds : Int) (t : Tables) : Tables :=
  { t with
    buckets := t.buckets.filter (seconds ≤ ·.item.offset)
    metrics := t.metrics.filter (seconds ≤ ·.item.offset) }

/-- A store with such tables. -/
def Store.withoutWarmUp (seconds : Int) (s : Store) : Store :=
  ⟨s.tables.map (·.withoutWarmUp seconds)⟩

variable {seconds : Int}

/-! ### Calls -/

namespace Tables

/-- Leaving out the early rows of a record first leaves out the same rows. -/
theorem filter_owned {α : Type} (offset : α → Int) (runId : String) (items : List α) :
    (items.map (⟨runId, ·⟩ : α → Owned α)).filter (seconds ≤ offset ·.item) =
      (items.filter (seconds ≤ offset ·)).map (⟨runId, ·⟩) := by
  rw [List.filter_map]
  rfl

theorem append_withoutWarmUp (t : Tables) (record : RunRecord) :
    (t.append record).withoutWarmUp seconds =
      (t.withoutWarmUp seconds).append (record.withoutWarmUp seconds) := by
  simp only [append, withoutWarmUp, RunRecord.withoutWarmUp, List.filter_append,
    filter_owned Bucket.offset, filter_owned MetricSample.offset]

theorem insert?_withoutWarmUp (t : Tables) (record : RunRecord) :
    (t.withoutWarmUp seconds).insert? (record.withoutWarmUp seconds) =
      (t.insert? record).map (·.withoutWarmUp seconds) := by
  rw [insert?, insert?]
  -- An id is taken in both or in neither.
  change (if t.hasRun record.run.id = true then _ else _) = _
  split
  · rfl
  · rw [Option.map_some, append_withoutWarmUp]

end Tables

namespace Store

theorem insertRun_withoutWarmUp (s : Store) (record : RunRecord) :
    (s.withoutWarmUp seconds).insertRun (record.withoutWarmUp seconds) =
      (s.insertRun record).map (·.withoutWarmUp seconds) := by
  rw [insertRun, insertRun, query, query, withoutWarmUp]
  cases s.tables with
  | none => rfl
  | some t =>
    simp only [Option.map_some, Tables.insert?_withoutWarmUp]
    cases t.insert? record <;> rfl

/-- The same records are inserted, less their early rows, and the same one is refused. -/
theorem insertRuns_withoutWarmUp (s : Store) (records : List RunRecord) :
    (s.withoutWarmUp seconds).insertRuns (records.map (·.withoutWarmUp seconds)) =
      ((s.insertRuns records).1.withoutWarmUp seconds, (s.insertRuns records).2) := by
  induction records generalizing s with
  | nil => rfl
  | cons record rest ih =>
    rw [List.map_cons, insertRuns, insertRuns, insertRun_withoutWarmUp]
    -- Both imports go on after this record, or both stop at it.
    cases s.insertRun record with
    | error cause => rfl
    | ok s' => exact ih s'

theorem acceptedOf_withoutWarmUp (s : Store) (records : List RunRecord) :
    (s.withoutWarmUp seconds).acceptedOf (records.map (·.withoutWarmUp seconds)) =
      (s.acceptedOf records).map (·.withoutWarmUp seconds) := by
  induction records generalizing s with
  | nil => rfl
  | cons record rest ih =>
    rw [List.map_cons, acceptedOf, acceptedOf, insertRun_withoutWarmUp]
    cases s.insertRun record with
    | error cause => rfl
    | ok s' => exact congrArg (record.withoutWarmUp seconds :: ·) (ih s')

theorem initSchema_withoutWarmUp (s : Store) :
    (s.withoutWarmUp seconds).initSchema = s.initSchema.withoutWarmUp seconds := by
  rw [initSchema, initSchema, withoutWarmUp]
  cases s.tables <;> rfl

/-- Leaving out the warm-up goes through a call. -/
theorem after_withoutWarmUp (s : Store) (call : StoreCall) :
    (s.withoutWarmUp seconds).after (call.withoutWarmUp seconds) =
      (s.after call).withoutWarmUp seconds := by
  cases call with
  | initSchema => exact initSchema_withoutWarmUp s
  | insertRun record =>
    -- One record is a list of one.
    rw [StoreCall.withoutWarmUp, after_insertRun, after_insertRun]
    exact congrArg Prod.fst (insertRuns_withoutWarmUp s [record])
  | insertRuns records => exact congrArg Prod.fst (insertRuns_withoutWarmUp s records)

/-- **Leaving out the warm-up goes through all calls of a run.** -/
theorem afterAll_withoutWarmUp (seconds : Int) (s : Store) (calls : List StoreCall) :
    (s.withoutWarmUp seconds).afterAll (calls.map (·.withoutWarmUp seconds)) =
      (s.afterAll calls).withoutWarmUp seconds := by
  induction calls generalizing s with
  | nil => rfl
  | cons call rest ih =>
    rw [List.map_cons, afterAll, List.foldl_cons, after_withoutWarmUp]
    exact ih (s.after call)

/-- So the calls insert the same records, less their early rows. -/
theorem accepted_withoutWarmUp (seconds : Int) (s : Store) (calls : List StoreCall) :
    (s.withoutWarmUp seconds).accepted (calls.map (·.withoutWarmUp seconds)) =
      (s.accepted calls).map (·.withoutWarmUp seconds) := by
  induction calls generalizing s with
  | nil => rfl
  | cons call rest ih =>
    have hcall : (s.withoutWarmUp seconds).acceptedBy (call.withoutWarmUp seconds) =
        (s.acceptedBy call).map (·.withoutWarmUp seconds) := by
      cases call with
      | initSchema => rfl
      | insertRun record => exact acceptedOf_withoutWarmUp s [record]
      | insertRuns records => exact acceptedOf_withoutWarmUp s records
    rw [List.map_cons, accepted, accepted, hcall, after_withoutWarmUp, ih, List.map_append]

end Store

/-! ### Samples -/

/-- Once the early items are left out, nothing is left to trim. -/
theorem afterWarmUp_zero {α : Type} (offset : α → Int) (hseconds : 0 ≤ seconds) (items : List α) :
    afterWarmUp offset 0 (items.filter (seconds ≤ offset ·)) =
      afterWarmUp offset seconds items := by
  rw [afterWarmUp, afterWarmUp, List.filter_filter]
  -- An offset from the later second on is not negative.
  refine congrArg (stableSort _) (List.filter_congr fun item _ => ?_)
  simp only [Bool.and_eq_decide, decide_eq_true_eq, decide_eq_decide]
  omega

namespace Tables

theorem ownedBy_filter {α : Type} (p : α → Bool) (rows : List (Owned α)) (runId : String) :
    ownedBy (rows.filter (p ·.item)) runId = (ownedBy rows runId).filter p := by
  rw [ownedBy, ownedBy, List.filter_map, List.filter_filter, List.filter_filter]
  refine congrArg (List.map Owned.item) (List.filter_congr fun row _ => ?_)
  exact Bool.and_comm ..

/-- Of the rows of a run, those that are left are the ones that trimming would have left. -/
theorem afterWarmUp_ownedBy {α : Type} (offset : α → Int) (hseconds : 0 ≤ seconds)
    (rows : List (Owned α)) (runId : String) :
    afterWarmUp offset 0 (ownedBy (rows.filter (seconds ≤ offset ·.item)) runId) =
      afterWarmUp offset seconds (ownedBy rows runId) := by
  rw [ownedBy_filter (seconds ≤ offset ·), afterWarmUp_zero offset hseconds]

variable (t : Tables) (hseconds : 0 ≤ seconds) (runId : String)

include hseconds

theorem columnSamples_withoutWarmUp (c : BucketColumn) :
    (t.withoutWarmUp seconds).columnSamples c 0 runId = t.columnSamples c seconds runId := by
  rw [columnSamples, columnSamples, ← afterWarmUp_ownedBy Bucket.offset hseconds]
  rfl

theorem metricSamples?_withoutWarmUp (keys : List String) :
    (t.withoutWarmUp seconds).metricSamples? keys 0 runId =
      t.metricSamples? keys seconds runId := by
  rw [metricSamples?, metricSamples?, ← afterWarmUp_ownedBy MetricSample.offset hseconds]
  rfl

theorem errorSamples?_withoutWarmUp :
    (t.withoutWarmUp seconds).errorSamples? 0 runId = t.errorSamples? seconds runId := by
  rw [errorSamples?, errorSamples?, ← afterWarmUp_ownedBy Bucket.offset hseconds]
  rfl

end Tables

/-! ### Queries -/

namespace Store

/-- A query is answered alike if it computes from the tables without the early rows what it computes
from all of them. -/
theorem query_withoutWarmUp {α : Type} (s : Store) {q : StoreQuery}
    {f f' : Tables → Except ChartError α} (h : ∀ t, f' (t.withoutWarmUp seconds) = f t) :
    (s.withoutWarmUp seconds).query q f' = s.query q f := by
  rw [query, query, withoutWarmUp]
  -- Without a schema both fail, since there are no tables to leave anything out of.
  cases s.tables with
  | none => rfl
  | some t => exact h t

variable (s : Store)

theorem findRuns_withoutWarmUp (filter : CompiledFilter) :
    (s.withoutWarmUp seconds).findRuns filter = s.findRuns filter :=
  s.query_withoutWarmUp fun _ => rfl

variable {w : SeriesWindow} (hseconds : 0 ≤ w.trimmingSeconds)

include hseconds

theorem bucketSeries_withoutWarmUp (runId : String) (c : BucketColumn) :
    (s.withoutWarmUp w.trimmingSeconds).bucketSeries runId c { w with trimmingSeconds := 0 } =
      s.bucketSeries runId c w := by
  refine s.query_withoutWarmUp fun t => ?_
  rw [← t.columnSamples_withoutWarmUp hseconds]
  rfl

theorem metricSeries_withoutWarmUp (runId metric : String) :
    (s.withoutWarmUp w.trimmingSeconds).metricSeries runId metric { w with trimmingSeconds := 0 } =
      s.metricSeries runId metric w := by
  rw [metricSeries, metricSeries]
  cases FieldPath.check metric with
  | error cause => rfl
  | ok keys =>
    refine s.query_withoutWarmUp fun t => ?_
    rw [← t.metricSamples?_withoutWarmUp hseconds]
    rfl

theorem errorSeries_withoutWarmUp (runId : String) :
    (s.withoutWarmUp w.trimmingSeconds).errorSeries runId { w with trimmingSeconds := 0 } =
      s.errorSeries runId w := by
  refine s.query_withoutWarmUp fun t => ?_
  rw [← t.errorSamples?_withoutWarmUp hseconds]
  rfl

omit hseconds in
/-- A bar query reduces the same samples. -/
theorem bars_withoutWarmUp {q : AggregateQuery} (hseconds : 0 ≤ q.trimmingSeconds)
    (measure : BarMeasure) :
    measure.bars (s.withoutWarmUp q.trimmingSeconds) { q with trimmingSeconds := 0 } =
      measure.bars s q := by
  -- The checks before the query do not look at the rows.
  cases measure with
  | column c =>
    rw [BarMeasure.bars, BarMeasure.bars, aggregateBuckets, aggregateBuckets]
    split
    · rfl
    · refine s.query_withoutWarmUp fun t => ?_
      simp only [t.columnSamples_withoutWarmUp hseconds]
      rfl
  | metric path =>
    rw [BarMeasure.bars, BarMeasure.bars, aggregateMetric, aggregateMetric]
    split
    · rfl
    · cases FieldPath.check path with
      | error cause => rfl
      | ok keys =>
        refine s.query_withoutWarmUp fun t => ?_
        -- The samples are asked for run by run.
        have hsamples : (t.withoutWarmUp q.trimmingSeconds).metricSamples? keys 0 =
            t.metricSamples? keys q.trimmingSeconds :=
          funext fun runId => t.metricSamples?_withoutWarmUp hseconds runId keys
        rw [hsamples]
        rfl

end Store

end BenchCharts

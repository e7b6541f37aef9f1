import BenchCharts.Proofs.Ownership
import BenchCharts.Proofs.Store.Reachable
import BenchCharts.Store.Bars

/-!
# The rows of a run

All queries about one run look at the rows with its id and at nothing else. Two stores that
`AgreeOn` a run, which is to have the same rows of it in the same order, answer each of them alike,
with a result or with an error. How the rows of different runs are mixed in the tables does not
matter.

`Tables.ofRecords` are the tables of a list of records. As long as no id is there twice, the rows of
a run are those that its record brought (`ownedBy_rowsOf`). A store `Holds` records if these are its
tables. It takes another record exactly if the id of that is not taken yet
(`Holds.insertRun_eq_ok_iff`), and so a fresh store takes any list of records with different ids
(`insertRuns_ofRecords`).
-/

namespace BenchCharts

/-! ### What a query about one run reads -/

/-- Two sets of tables have the same rows of a run, in the same order. -/
structure Tables.SameRows (t t' : Tables) (runId : String) : Prop where
  /-- The time buckets. -/
  buckets : ownedBy t.buckets runId = ownedBy t'.buckets runId
  /-- The metric samples. -/
  metrics : ownedBy t.metrics runId = ownedBy t'.metrics runId
  /-- The events. -/
  events : ownedBy t.events runId = ownedBy t'.events runId

namespace Tables.SameRows

variable {t t' : Tables} {runId : String} (h : t.SameRows t' runId)

include h

theorem columnSamples (c : BucketColumn) (trimming : Int) :
    t.columnSamples c trimming runId = t'.columnSamples c trimming runId := by
  rw [Tables.columnSamples, Tables.columnSamples, h.buckets]

theorem metricSamples? (keys : List String) (trimming : Int) :
    t.metricSamples? keys trimming runId = t'.metricSamples? keys trimming runId := by
  rw [Tables.metricSamples?, Tables.metricSamples?, h.metrics]

theorem errorSamples? (trimming : Int) :
    t.errorSamples? trimming runId = t'.errorSamples? trimming runId := by
  rw [Tables.errorSamples?, Tables.errorSamples?, h.buckets]

end Tables.SameRows

namespace Store

/-- Two stores have tables, and the same rows of a run in them. -/
def AgreeOn (s s' : Store) (runId : String) : Prop :=
  ∃ t t', s.tables = some t ∧ s'.tables = some t' ∧ t.SameRows t' runId

namespace AgreeOn

variable {s s' : Store} {runId : String} (h : s.AgreeOn s' runId)

include h

/-- A query is answered alike if it computes the same from the same rows. -/
theorem query_congr {α : Type} {q : StoreQuery} {f : Tables → Except ChartError α}
    (hf : ∀ t t', t.SameRows t' runId → f t = f t') : s.query q f = s'.query q f := by
  obtain ⟨t, t', ht, ht', hrows⟩ := h
  rw [query_of_tables ht, query_of_tables ht']
  exact hf t t' hrows

theorem bucketSeries (c : BucketColumn) (w : SeriesWindow) :
    s.bucketSeries runId c w = s'.bucketSeries runId c w := by
  refine h.query_congr fun t t' hrows => ?_
  rw [hrows.columnSamples]

theorem metricSeries (metric : String) (w : SeriesWindow) :
    s.metricSeries runId metric w = s'.metricSeries runId metric w := by
  rw [Store.metricSeries, Store.metricSeries]
  cases FieldPath.check metric with
  | error cause => rfl
  | ok keys =>
    refine h.query_congr fun t t' hrows => ?_
    rw [hrows.metricSamples?]

theorem errorSeries (w : SeriesWindow) : s.errorSeries runId w = s'.errorSeries runId w := by
  refine h.query_congr fun t t' hrows => ?_
  rw [hrows.errorSamples?]

theorem metricKeys : s.metricKeys runId = s'.metricKeys runId := by
  refine h.query_congr fun t t' hrows => ?_
  rw [hrows.metrics]

theorem firstBucketTime : s.firstBucketTime runId = s'.firstBucketTime runId := by
  refine h.query_congr fun t t' hrows => ?_
  rw [hrows.buckets]

theorem runEvents (eventTypes : List String) :
    s.runEvents runId eventTypes = s'.runEvents runId eventTypes := by
  refine h.query_congr fun t t' hrows => ?_
  rw [hrows.events]

end AgreeOn

end Store

/-! ### Events -/

namespace Store

variable {s : Store} {t : Tables} (ht : s.tables = some t) {runId : String}
  {eventTypes : List String}

include ht

/-- The events of a run are answered if all of them can be read, also those of other types. -/
theorem runEvents_eq_ok_iff {found : List RunEvent} :
    s.runEvents runId eventTypes = .ok found ↔
      (∀ e ∈ Tables.ownedBy t.events runId, (Json.obj e.params).readable = true) ∧
        found = ((stableSort (fun a b : RunEvent => a.datetime.compareStored b.datetime)
          (Tables.ownedBy t.events runId)).filter fun e =>
            eventTypes.isEmpty || eventTypes.contains e.eventType).map RunEvent.loaded := by
  have hread : ∀ events : List RunEvent, events.mapM RunEvent.loaded? =
      events.mapM fun e => if (Json.obj e.params).readable then some e.loaded else none :=
    fun _ => rfl
  rw [runEvents, query_of_tables ht]
  simp only [answer_eq_ok_iff, Option.map_eq_some_iff, hread, mapM_ite_eq_some_iff, mem_stableSort]
  -- Reading leaves the type alone, so it does not matter when the other types are dropped.
  constructor
  · rintro ⟨_, ⟨hall, rfl⟩, rfl⟩
    exact ⟨hall, List.filter_map⟩
  · rintro ⟨hall, rfl⟩
    exact ⟨_, ⟨hall, rfl⟩, List.filter_map⟩

theorem runEvents_eq_error
    (hread : ¬ ∀ e ∈ Tables.ownedBy t.events runId, (Json.obj e.params).readable = true) :
    s.runEvents runId eventTypes = .error (.store .runEvents) := by
  -- A query that has no result can fail in one way only.
  have hnone : ∀ found, s.runEvents runId eventTypes ≠ .ok found :=
    fun found hfound => hread ((runEvents_eq_ok_iff ht).1 hfound).1
  rw [runEvents, query_of_tables ht] at hnone ⊢
  exact answer_eq_error_iff.2 (Option.eq_none_iff_forall_ne_some.2 fun found hfound =>
    hnone found (answer_eq_ok_iff.2 hfound))

end Store

/-! ### The tables of a list of records -/

namespace Tables

/-- The rows that a record brings to a table, with the id of its run. -/
def rowsOf {α : Type} (items : RunRecord → List α) (record : RunRecord) : List (Owned α) :=
  (items record).map fun item => ⟨record.run.id, item⟩

/-- The tables into which a list of records has been inserted. -/
def ofRecords (records : List RunRecord) : Tables where
  runs := records.map RunRecord.run
  buckets := records.flatMap (rowsOf RunRecord.buckets)
  metrics := records.flatMap (rowsOf RunRecord.metrics)
  events := records.flatMap (rowsOf RunRecord.events)

/-- The ids of the runs of a list of records. -/
def recordIds (records : List RunRecord) : List String := records.map fun record => record.run.id

theorem runId_of_mem_rowsOf {α : Type} (items : RunRecord → List α) (record : RunRecord) :
    ∀ row ∈ rowsOf items record, row.runId = record.run.id := by
  intro row hrow
  obtain ⟨item, -, rfl⟩ := List.mem_map.1 hrow
  rfl

/-- **The rows of a run are those that its record brought.** -/
theorem ownedBy_rowsOf {α : Type} (items : RunRecord → List α) {records : List RunRecord}
    (hids : (recordIds records).Nodup) {record : RunRecord} (hrecord : record ∈ records) :
    ownedBy (records.flatMap (rowsOf items)) record.run.id = items record := by
  -- No other record brought rows with this id.
  have hrows := filter_flatMap_owner (fun record _ => runId_of_mem_rowsOf items record) hids hrecord
  have hitems : (rowsOf items record).map Owned.item = items record := by
    rw [rowsOf, List.map_map]
    exact List.map_id _
  exact (congrArg (List.map Owned.item) hrows).trans hitems

theorem ownedBy_rowsOf_of_not_mem {α : Type} (items : RunRecord → List α)
    {records : List RunRecord} {runId : String} (hid : runId ∉ recordIds records) :
    ownedBy (records.flatMap (rowsOf items)) runId = [] := by
  have hrows := filter_flatMap_of_not_mem (fun record _ => runId_of_mem_rowsOf items record) hid
  exact congrArg (List.map Owned.item) hrows

/-- The order of the records does not show in the rows of a run. -/
theorem sameRows_ofRecords_of_perm {records records' : List RunRecord}
    (hids : (recordIds records).Nodup) (hperm : records'.Perm records) (runId : String) :
    (ofRecords records).SameRows (ofRecords records') runId := by
  have hids' : (recordIds records').Nodup := (hperm.map _).nodup_iff.2 hids
  have hsame : ∀ {α : Type} (items : RunRecord → List α),
      ownedBy (records.flatMap (rowsOf items)) runId =
        ownedBy (records'.flatMap (rowsOf items)) runId := by
    -- The argument is the same for all three tables.
    intro α items
    by_cases hid : runId ∈ recordIds records
    · obtain ⟨record, hrecord, rfl⟩ := List.mem_map.1 hid
      rw [ownedBy_rowsOf items hids hrecord,
        ownedBy_rowsOf items hids' (hperm.mem_iff.2 hrecord)]
    · have hid' : runId ∉ recordIds records' := mt (hperm.map _).mem_iff.1 hid
      rw [ownedBy_rowsOf_of_not_mem items hid, ownedBy_rowsOf_of_not_mem items hid']
  exact ⟨hsame _, hsame _, hsame _⟩

theorem append_ofRecords (records : List RunRecord) (record : RunRecord) :
    (ofRecords records).append record = ofRecords (records ++ [record]) := by
  simp [append, ofRecords, rowsOf]

theorem hasRun_ofRecords {records : List RunRecord} {id : String} :
    (ofRecords records).hasRun id = true ↔ id ∈ recordIds records := by
  simp [hasRun, ofRecords, recordIds]

end Tables

namespace Store

/-- The tables of a store are those of some records, and no two of these have one id. -/
structure Holds (s : Store) (records : List RunRecord) : Prop where
  /-- Every record is there as a whole, and nothing else. -/
  tables : s.tables = some (.ofRecords records)
  /-- No two records have one id. -/
  ids : (Tables.recordIds records).Nodup

theorem holds_initSchema {s : Store} (hs : s.tables = none) : s.initSchema.Holds [] := by
  refine ⟨?_, List.nodup_nil⟩
  rw [initSchema, hs]
  rfl

namespace Holds

variable {s s' : Store} {records more : List RunRecord} {record : RunRecord}

/-- **A record is refused exactly if its id is taken.** -/
theorem insertRun_eq_ok_iff (h : s.Holds records) :
    s.insertRun record = .ok s' ↔
      record.run.id ∉ Tables.recordIds records ∧
        s' = ⟨some (.ofRecords (records ++ [record]))⟩ := by
  rw [Store.insertRun, query_of_tables h.tables, Tables.insert?, Tables.append_ofRecords]
  by_cases hid : record.run.id ∈ Tables.recordIds records
  · rw [if_pos (Tables.hasRun_ofRecords.2 hid)]
    exact iff_of_false (by simp) fun hfree => hfree.1 hid
  · rw [if_neg (mt Tables.hasRun_ofRecords.1 hid), Except.ok.injEq, eq_comm]
    exact (and_iff_right hid).symm

theorem insertRun (h : s.Holds records) (hins : s.insertRun record = .ok s') :
    s'.Holds (records ++ [record]) := by
  obtain ⟨hid, rfl⟩ := h.insertRun_eq_ok_iff.1 hins
  -- The new id is not among the old ones.
  refine ⟨rfl, ?_⟩
  rw [Tables.recordIds, List.map_append, List.nodup_append]
  refine ⟨h.ids, List.nodup_singleton _, ?_⟩
  intro a ha b hb
  rw [List.mem_singleton.1 hb]
  exact ne_of_mem_of_not_mem ha hid

/-- Records whose ids are neither taken nor given twice are all inserted. -/
theorem insertRuns_of_nodup (h : s.Holds records)
    (hids : (Tables.recordIds (records ++ more)).Nodup) :
    s.insertRuns more = (⟨some (.ofRecords (records ++ more))⟩, .ok ()) := by
  induction more generalizing s records with
  | nil =>
    rw [insertRuns, List.append_nil, ← h.tables]
  | cons record rest ih =>
    -- No earlier record has the id of this one, and no later one will have it either.
    have hfree : record.run.id ∉ Tables.recordIds records := by
      rw [Tables.recordIds, List.map_append] at hids
      exact fun hid => List.disjoint_of_nodup_append hids hid (List.mem_cons_self ..)
    have hins := h.insertRun_eq_ok_iff.2 ⟨hfree, rfl⟩
    -- The records that are left come after those that were inserted.
    have happend : records ++ record :: rest = records ++ [record] ++ rest := by
      rw [List.append_assoc, List.singleton_append]
    rw [happend] at hids ⊢
    rw [insertRuns, hins]
    exact ih (h.insertRun hins) hids

end Holds

/-- **A list of records is inserted into a fresh store as a whole** if no id is there twice. -/
theorem insertRuns_ofRecords {records : List RunRecord}
    (hids : (Tables.recordIds records).Nodup) :
    fresh.initSchema.insertRuns records = (⟨some (.ofRecords records)⟩, .ok ()) :=
  (holds_initSchema rfl).insertRuns_of_nodup hids

theorem Reachable.ofRecords {records : List RunRecord} (hids : (Tables.recordIds records).Nodup)
    (hnormal : ∀ record ∈ records, record.Normal) : Reachable ⟨some (.ofRecords records)⟩ := by
  have hreach := Reachable.insertRuns (.initSchema .fresh) hnormal
  rwa [insertRuns_ofRecords hids] at hreach

end Store

end BenchCharts

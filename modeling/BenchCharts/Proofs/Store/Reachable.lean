import BenchCharts.Proofs.Run.Codec
import BenchCharts.Store.Basic

/-!
# The stores that can come about

A store is `Reachable` if it comes from a fresh one by applying the schema and inserting normal
records. What is refused leaves the store as it is, so only insertions that succeed are steps.

The invariant `Tables.WellFormed` says that ids are unique and that every stored object is normal.
`Tables.WellFormed.append` is the step, and `Reachable.wellFormed` the invariant of every run of
steps.
-/

namespace BenchCharts

/-! ### The invariant -/

/-- What holds of the tables of every store that can come about. -/
structure Tables.WellFormed (t : Tables) : Prop where
  /-- No two runs share an id. -/
  ids : (t.runs.map Run.id).Nodup
  /-- The parameters of runs are normal. -/
  params : ∀ run ∈ t.runs, (Json.obj run.params).Normal
  /-- The errors of buckets are normal. -/
  errors : ∀ row ∈ t.buckets, (Json.obj row.item.errors).Normal
  /-- The metrics of samples are normal. -/
  metrics : ∀ row ∈ t.metrics, (Json.obj row.item.metrics).Normal
  /-- The details of events are normal. -/
  details : ∀ row ∈ t.events, (Json.obj row.item.params).Normal

namespace Tables

/-- What holds of old rows and of all new ones of a run holds of the rows of both. -/
theorem forall_mem_append_owned {α : Type} {P : α → Prop} {rows : List (Owned α)} {items : List α}
    (hrows : ∀ row ∈ rows, P row.item) (hitems : ∀ item ∈ items, P item) (runId : String) :
    ∀ row ∈ rows ++ items.map (⟨runId, ·⟩), P row.item := by
  intro row hrow
  rcases List.mem_append.1 hrow with hrow | hrow
  · exact hrows row hrow
  · obtain ⟨item, hitem, rfl⟩ := List.mem_map.1 hrow
    exact hitems item hitem

theorem wellFormed_empty : empty.WellFormed :=
  ⟨List.nodup_nil, by simp [empty], by simp [empty], by simp [empty], by simp [empty]⟩

/-- Inserting a normal record keeps tables well-formed. -/
theorem WellFormed.insert? {t t' : Tables} {record : RunRecord} (ht : t.WellFormed)
    (hrecord : record.Normal) (hins : t.insert? record = some t') : t'.WellFormed := by
  have hids := insert?_ids_nodup ht.ids hins
  unfold Tables.insert? at hins
  split at hins
  -- The record is refused if its id is taken.
  · cases hins
  · cases hins
    -- Else each table gets the rows of the record at its end.
    refine ⟨hids, fun run hrun => ?_, ?_, ?_, ?_⟩
    · rcases List.mem_append.1 hrun with hrun | hrun
      · exact ht.params run hrun
      · rw [List.mem_singleton.1 hrun]
        exact hrecord.params
    · exact forall_mem_append_owned ht.errors hrecord.errors record.run.id
    · exact forall_mem_append_owned ht.metrics hrecord.metrics record.run.id
    · exact forall_mem_append_owned ht.details hrecord.details record.run.id

end Tables

/-! ### Runs of steps -/

namespace Store

/-- The stores that come from a fresh one by applying the schema and inserting normal records. -/
inductive Reachable : Store → Prop
  /-- A store as it is created. -/
  | fresh : Reachable .fresh
  /-- The schema has been applied. -/
  | initSchema {s : Store} (hs : Reachable s) : Reachable s.initSchema
  /-- A record has been inserted. -/
  | insertRun {s s' : Store} {record : RunRecord} (hs : Reachable s) (hrecord : record.Normal)
      (hins : s.insertRun record = .ok s') : Reachable s'

/-- A query has a result if there are tables that it can be computed from. -/
theorem query_eq_ok_iff {α : Type} {s : Store} {q : StoreQuery}
    {f : Tables → Except ChartError α} {a : α} :
    s.query q f = .ok a ↔ ∃ t, s.tables = some t ∧ f t = .ok a := by
  unfold query
  cases s.tables <;> simp

/-- What a query computes from the tables that there are. -/
theorem query_of_tables {α : Type} {s : Store} {t : Tables} (ht : s.tables = some t)
    (q : StoreQuery) (f : Tables → Except ChartError α) : s.query q f = f t := by
  rw [query, ht]

/-- An insertion succeeds on tables that take the record. -/
theorem insertRun_eq_ok_iff {s s' : Store} {record : RunRecord} :
    s.insertRun record = .ok s' ↔
      ∃ t t', s.tables = some t ∧ t.insert? record = some t' ∧ s' = ⟨some t'⟩ := by
  rw [insertRun, query_eq_ok_iff]
  refine exists_congr fun t => ?_
  rw [exists_and_left]
  refine and_congr_right fun _ => ?_
  cases t.insert? record <;> simp [eq_comm]

/-- **The tables of every reachable store are well-formed.** -/
theorem Reachable.wellFormed {s : Store} (hs : s.Reachable) :
    ∀ t, s.tables = some t → t.WellFormed := by
  -- Induction on the steps; only an insertion adds rows.
  induction hs with
  | fresh => simp [Store.fresh]
  | @initSchema s hs ih =>
    intro t ht
    rw [Store.initSchema] at ht
    -- The schema makes empty tables only if there are none yet.
    cases hsome : s.tables with
    | none =>
      simp only [hsome, Option.getD_none, Option.some.injEq] at ht
      exact ht ▸ Tables.wellFormed_empty
    | some t' =>
      simp only [hsome, Option.getD_some, Option.some.injEq] at ht
      exact ht ▸ ih t' hsome
  | insertRun hs hrecord hins ih =>
    intro t ht
    obtain ⟨before, after, hbefore, hafter, rfl⟩ := insertRun_eq_ok_iff.1 hins
    obtain rfl : after = t := by simpa using ht
    exact (ih before hbefore).insert? hrecord hafter

/-- Inserting many normal records keeps a store reachable, also if one of them is refused. -/
theorem Reachable.insertRuns {s : Store} (hs : s.Reachable) {records : List RunRecord}
    (hrecords : ∀ record ∈ records, record.Normal) : (s.insertRuns records).1.Reachable := by
  induction records generalizing s with
  | nil => exact hs
  | cons record rest ih =>
    obtain ⟨hrecord, hrest⟩ := List.forall_mem_cons.1 hrecords
    rw [Store.insertRuns]
    cases hins : s.insertRun record with
    -- The first refusal ends the import, at a store that was reached by then.
    | ok s' => exact ih (hs.insertRun hrecord hins) hrest
    | error e => exact hs

/-! ### Stores with one record -/

/-- The store into which one record has been inserted. -/
def single (record : RunRecord) : Store := ⟨some (Tables.empty.append record)⟩

theorem Reachable.single {record : RunRecord} (h : record.Normal) : (single record).Reachable :=
  .insertRun (.initSchema .fresh) h rfl

end Store

/-- A record of a run with some parameters and nothing else. -/
def RunRecord.ofParams (params : Json.Fields) : RunRecord where
  run := ⟨"run", ⟨⟨2024, 3, 1, by decide⟩, 43200, 0, by decide⟩, params⟩
  buckets := []
  metrics := []
  events := []

theorem RunRecord.normal_ofParams {params : Json.Fields} (h : (Json.obj params).Normal) :
    (ofParams params).Normal :=
  ⟨h, by simp [ofParams], by simp [ofParams], by simp [ofParams]⟩

/-- A bucket with a number of operations and nothing else. -/
def Bucket.ofTotal (offset total : Int) : Bucket where
  offset := offset
  datetime := ⟨⟨2024, 3, 1, by decide⟩, 43200, 0, by decide⟩
  operationsTotal := total
  operationsSuccess := total
  operationsFailed := 0
  durationMin := none
  durationMax := none
  durationAverage := none
  durationP50 := none
  durationP95 := none
  durationP99 := none
  errors := []

/-- A record of a run of an SDK with a number of operations at each of some offsets. -/
def RunRecord.ofTotals (id sdk : String) (totals : List (Int × Int)) : RunRecord :=
  let record := RunRecord.ofParams [("sdk", .str sdk)]
  { record with
    run := { record.run with id := id }
    buckets := totals.map fun total => .ofTotal total.1 total.2 }

theorem RunRecord.normal_ofTotals (id sdk : String) (totals : List (Int × Int)) :
    (ofTotals id sdk totals).Normal := by
  refine ⟨?_, fun bucket hbucket => ?_, by simp [ofTotals, ofParams], by simp [ofTotals, ofParams]⟩
  · simp [ofTotals, ofParams, Json.Normal, Json.NormalFields, Json.Fields.Ascending]
  · obtain ⟨total, -, rfl⟩ := List.mem_map.1 hbucket
    simp [Bucket.ofTotal, Json.Normal, Json.NormalFields, Json.Fields.Ascending]

end BenchCharts

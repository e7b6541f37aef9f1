import Mathlib.Order.Bounds.Defs
import BenchCharts.Proofs.Store.Rows

/-!
# What an import leaves behind

An import inserts records one after the other and stops at the first that is refused. What it leaves
behind is told by one number: how many records there are from the start of the list on whose ids are
new and different from each other (`Tables.taken`). These records are stored as if each had been
inserted alone, and with them their buckets, samples and events. Of the record after them, and of
all that follow, nothing is stored, also if some of these have ids that are free.

`Tables.takes_cons_iff` is the step: a record with a free id can be stored, and then the others are
up to the tables that have it. `Store.insertCounting_eq` puts the steps together for the loop with
its counter.
-/

namespace BenchCharts

namespace Tables

/-! ### Records that tables take -/

/-- The tables with the rows of some records at the end, and all rows there were as they were. -/
def appendAll (t : Tables) (records : List RunRecord) : Tables where
  runs := t.runs ++ records.map RunRecord.run
  buckets := t.buckets ++ records.flatMap (rowsOf RunRecord.buckets)
  metrics := t.metrics ++ records.flatMap (rowsOf RunRecord.metrics)
  events := t.events ++ records.flatMap (rowsOf RunRecord.events)

@[simp] theorem appendAll_nil (t : Tables) : t.appendAll [] = t := by
  simp [appendAll]

theorem appendAll_cons (t : Tables) (record : RunRecord) (rest : List RunRecord) :
    t.appendAll (record :: rest) = (t.append record).appendAll rest := by
  simp [appendAll, append, rowsOf]

/-- The ids of some records are free, and different from each other. -/
structure Takes (t : Tables) (records : List RunRecord) : Prop where
  /-- No two records have one id. -/
  nodup : (recordIds records).Nodup
  /-- No run has the id of a record. -/
  free : ∀ id ∈ recordIds records, t.hasRun id = false

theorem hasRun_append (t : Tables) (record : RunRecord) (id : String) :
    (t.append record).hasRun id = (t.hasRun id || record.run.id == id) := by
  simp [hasRun, append]

theorem takes_nil (t : Tables) : t.Takes [] := ⟨List.nodup_nil, by simp [recordIds]⟩

/-- The first record has a free id, and the tables that have it take the others. -/
theorem takes_cons_iff {t : Tables} {record : RunRecord} {rest : List RunRecord} :
    t.Takes (record :: rest) ↔ t.hasRun record.run.id = false ∧ (t.append record).Takes rest := by
  constructor
  · rintro ⟨hnodup, hfree⟩
    obtain ⟨hfirst, hrest⟩ := List.nodup_cons.1 hnodup
    refine ⟨hfree _ (List.mem_cons_self ..), hrest, fun id hid => ?_⟩
    -- An id of the others is not that of the first, so it stays free.
    have hne : record.run.id ≠ id := (ne_of_mem_of_not_mem hid hfirst).symm
    rw [hasRun_append, hfree id (List.mem_cons_of_mem _ hid), Bool.false_or]
    exact beq_false_of_ne hne
  · rintro ⟨hfirst, hnodup, hfree⟩
    -- What is free after the first record was free before, and is not its id.
    have hothers : ∀ id ∈ recordIds rest, t.hasRun id = false ∧ record.run.id ≠ id := by
      intro id hid
      have hboth := hfree id hid
      rw [hasRun_append, Bool.or_eq_false_iff] at hboth
      exact ⟨hboth.1, by simpa using hboth.2⟩
    refine ⟨List.nodup_cons.2 ⟨fun hid => (hothers _ hid).2 rfl, hnodup⟩, ?_⟩
    exact List.forall_mem_cons.2 ⟨hfirst, fun id hid => (hothers id hid).1⟩

/-- How many records tables take from the start of a list on. -/
def taken (t : Tables) : List RunRecord → Nat
  | [] => 0
  | record :: rest => if t.hasRun record.run.id then 0 else (t.append record).taken rest + 1

/-- **No more records can be taken** than are. -/
theorem isGreatest_taken (t : Tables) (records : List RunRecord) :
    IsGreatest {k | k ≤ records.length ∧ t.Takes (records.take k)} (t.taken records) := by
  induction records generalizing t with
  | nil => exact ⟨⟨Nat.le_refl 0, t.takes_nil⟩, fun k hk => hk.1⟩
  | cons record rest ih =>
    obtain ⟨⟨hle, htakes⟩, hgreatest⟩ := ih (t.append record)
    rw [taken]
    split
    -- The very first record has an id that is taken.
    · next htaken =>
      refine ⟨⟨Nat.zero_le _, t.takes_nil⟩, ?_⟩
      rintro (_ | k) ⟨-, hk⟩
      · exact Nat.le_refl 0
      · rw [List.take_succ_cons, takes_cons_iff, htaken] at hk
        cases hk.1
    -- The first record is taken, and with it what the tables that have it take of the rest.
    · next hfree =>
      have hfirst : t.hasRun record.run.id = false := by simpa using hfree
      refine ⟨⟨Nat.succ_le_succ hle, takes_cons_iff.2 ⟨hfirst, htakes⟩⟩, ?_⟩
      rintro (_ | k) ⟨hlength, hk⟩
      · exact Nat.zero_le _
      · rw [List.take_succ_cons, takes_cons_iff] at hk
        exact Nat.succ_le_succ (hgreatest ⟨Nat.le_of_succ_le_succ hlength, hk.2⟩)

end Tables

namespace Store

/-! ### Imports -/

/-- A record with a free id is inserted, and any other one is refused. -/
theorem insertRun_of_tables {s : Store} {t : Tables} (ht : s.tables = some t) (record : RunRecord) :
    s.insertRun record = if t.hasRun record.run.id then .error (.store (.insertRun record.run.id))
      else .ok ⟨some (t.append record)⟩ := by
  rw [insertRun, query_of_tables ht, Tables.insert?]
  cases t.hasRun record.run.id <;> rfl

/-- Records that tables take can be inserted one by one. -/
theorem foldlM_insertRun_of_takes {s : Store} {t : Tables} (ht : s.tables = some t)
    {records : List RunRecord} (h : t.Takes records) :
    records.foldlM insertRun s = .ok ⟨some (t.appendAll records)⟩ := by
  induction records generalizing s t with
  | nil =>
    rw [Tables.appendAll_nil, ← ht]
    rfl
  | cons record rest ih =>
    obtain ⟨hfree, hrest⟩ := Tables.takes_cons_iff.1 h
    rw [List.foldlM_cons, insertRun_of_tables ht, hfree, Tables.appendAll_cons]
    exact ih rfl hrest

/-- **The loop stores the records that the tables take.** It counts them if these are all, and
otherwise fails with the record after them. -/
theorem insertCounting_eq {s : Store} {t : Tables} (ht : s.tables = some t) (counter : Nat)
    (records : List RunRecord) :
    s.insertCounting counter records =
      (⟨some (t.appendAll (records.take (t.taken records)))⟩,
        match records[t.taken records]? with
        | none => .ok (counter + records.length)
        | some record => .error (.store (.insertRun record.run.id))) := by
  induction records generalizing s t counter with
  | nil =>
    rw [insertCounting, List.take_nil, Tables.appendAll_nil, ← ht]
    rfl
  | cons record rest ih =>
    rw [insertCounting, insertRun_of_tables ht, Tables.taken]
    cases t.hasRun record.run.id with
    -- The loop stops at this record, and the store is the one it was given.
    | true => simp [← ht]
    -- The loop goes on with the record stored and the counter one higher.
    | false =>
      have hrest := ih (s := ⟨some (t.append record)⟩) rfl (counter + 1)
      simp [hrest, Tables.appendAll_cons, Nat.add_right_comm, Nat.add_assoc]

/-- **What an import leaves behind.** Of any list of records the longest prefix with ids that are
free and different from each other is stored, as if its records had been inserted one by one: after
all rows that there were, which stay as they are, every table has the rows of these records and
nothing else. If that is the whole list, its length is the answer. If not, the import fails with the
first record after the prefix. -/
theorem insertAll_stores_prefix {s : Store} {t : Tables} (ht : s.tables = some t)
    (records : List RunRecord) :
    ∃ k, IsGreatest {k | k ≤ records.length ∧ t.Takes (records.take k)} k ∧
      (records.take k).foldlM insertRun s = .ok (s.insertAll records).1 ∧
      (s.insertAll records).1.tables = some
        { runs := t.runs ++ (records.take k).map RunRecord.run
          buckets := t.buckets ++ (records.take k).flatMap (Tables.rowsOf RunRecord.buckets)
          metrics := t.metrics ++ (records.take k).flatMap (Tables.rowsOf RunRecord.metrics)
          events := t.events ++ (records.take k).flatMap (Tables.rowsOf RunRecord.events) } ∧
      (k = records.length → (s.insertAll records).2 = .ok records.length) ∧
      ∀ record, records[k]? = some record →
        ∃ q : StoreQuery, (s.insertAll records).2 = .error (.store q) ∧
          q.context = "insert run " ++ record.run.id := by
  have hgreatest := t.isGreatest_taken records
  have hall := insertCounting_eq ht 0 records
  refine ⟨t.taken records, hgreatest, ?_, ?_, fun hk => ?_, fun record hrecord => ?_⟩
  -- These records one by one make the same store.
  · rw [insertAll, hall]
    exact foldlM_insertRun_of_takes ht hgreatest.1.2
  · rw [insertAll, hall]
    rfl
  -- Nothing is left after the prefix, so the loop came to its end.
  · have hnone : records[t.taken records]? = none := List.getElem?_eq_none (Nat.le_of_eq hk.symm)
    rw [insertAll, hall, hnone, Nat.zero_add]
  · rw [insertAll, hall, hrecord]
    exact ⟨_, rfl, rfl⟩

/-- A store with a run, and an import whose third record has its id. The first two records are
stored; the last one is not, although its id is free. -/
theorem insertAll_stores_prefix_idTaken :
    let s := single (.ofTotals "b" "x" [(0, 1)])
    let records : List RunRecord := [.ofTotals "a" "x" [(0, 2), (1, 3)], .ofTotals "c" "y" [(0, 4)],
      .ofTotals "b" "y" [(0, 5)], .ofTotals "d" "y" [(0, 6)]]
    ∃ t q, (s.insertAll records).1.tables = some t ∧ t.runs.map Run.id = ["b", "a", "c"] ∧
      t.buckets.map (fun row => (row.runId, row.item.operationsTotal)) =
        [("b", 1), ("a", 2), ("a", 3), ("c", 4)] ∧
      (s.insertAll records).2 = .error (.store q) ∧ q.context = "insert run b" := by
  intro s records
  let before := Tables.empty.append (.ofTotals "b" "x" [(0, 1)])
  obtain ⟨k, hk, -, htables, -, hrefused⟩ :=
    insertAll_stores_prefix (s := s) (t := before) rfl records
  -- There is one greatest number only, and the tables can count it.
  obtain rfl : k = 2 := hk.unique (before.isGreatest_taken records)
  obtain ⟨q, hq, hcontext⟩ := hrefused _ rfl
  exact ⟨_, q, htables, rfl, rfl, hq, hcontext⟩

end Store

end BenchCharts

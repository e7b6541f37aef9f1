import BenchCharts.Proofs.Json.Reread
import BenchCharts.Proofs.Store.Rows
import BenchCharts.Store.Search

/-!
# Stores after any calls

A store is changed by three calls: one applies the schema, one inserts a record, and one inserts
records up to the first that is refused. The records that calls insert are `accepted`, and nothing
else leaves a trace: the tables are those of the accepted records, each of them as a whole, and no
two have one id. This is the invariant `Store.Holds`; `Holds.after` is the step, and
`Holds.afterAll` what a whole run of calls preserves.

What a query about an id answers is settled by the first record with that id
(`Holds.answersAlikeOn`). This gives both that the answers are those of a store with that record
alone, and that no later call changes them.

The run of a record comes back with parameters that were kept as text. They come back at all only
if they can be read again, and are those that were inserted exactly if moreover each number in them
survives that (`Holds.run?_eq_inserted_iff`).
-/

namespace BenchCharts

/-- A call that can change a store. -/
inductive StoreCall where
  /-- Applies the schema. -/
  | initSchema
  /-- Inserts a record. -/
  | insertRun (record : RunRecord)
  /-- Inserts records one after the other up to the first that is refused. -/
  | insertRuns (records : List RunRecord)

/-- The records that a call brings. -/
def StoreCall.records : StoreCall → List RunRecord
  | .initSchema => []
  | .insertRun record => [record]
  | .insertRuns records => records

namespace Store

/-! ### What calls do -/

/-- The store after a call. A record that is refused leaves it as it is. -/
def after (s : Store) : StoreCall → Store
  | .initSchema => s.initSchema
  | .insertRun record => (s.insertRun record).toOption.getD s
  | .insertRuns records => (s.insertRuns records).1

/-- The store after some calls. -/
def afterAll (s : Store) (calls : List StoreCall) : Store := calls.foldl after s

/-- The records of a list that are inserted: those before the first that is refused. -/
def acceptedOf (s : Store) : List RunRecord → List RunRecord
  | [] => []
  | record :: rest =>
    match s.insertRun record with
    | .ok s' => record :: s'.acceptedOf rest
    | .error _ => []

/-- The records that a call inserts. -/
def acceptedBy (s : Store) : StoreCall → List RunRecord
  | .initSchema => []
  | .insertRun record => s.acceptedOf [record]
  | .insertRuns records => s.acceptedOf records

/-- The records that some calls insert, in order. -/
def accepted (s : Store) : List StoreCall → List RunRecord
  | [] => []
  | call :: rest => s.acceptedBy call ++ (s.after call).accepted rest

theorem mem_of_mem_acceptedOf {s : Store} {record : RunRecord} {records : List RunRecord}
    (h : record ∈ s.acceptedOf records) : record ∈ records := by
  induction records generalizing s with
  | nil => cases h
  | cons first rest ih =>
    rw [acceptedOf] at h
    split at h
    · exact (List.mem_cons.1 h).elim (fun heq => heq ▸ List.mem_cons_self ..)
        fun hrest => List.mem_cons_of_mem _ (ih hrest)
    · cases h

theorem mem_of_mem_acceptedBy {s : Store} {record : RunRecord} {call : StoreCall}
    (h : record ∈ s.acceptedBy call) : record ∈ call.records := by
  cases call with
  | initSchema => cases h
  | insertRun given => exact mem_of_mem_acceptedOf h
  | insertRuns given => exact mem_of_mem_acceptedOf h

/-- Only records that some call brings are inserted. -/
theorem exists_call_of_mem_accepted {s : Store} {record : RunRecord} {calls : List StoreCall}
    (h : record ∈ s.accepted calls) : ∃ call ∈ calls, record ∈ call.records := by
  induction calls generalizing s with
  | nil => cases h
  | cons call rest ih =>
    rw [accepted] at h
    rcases List.mem_append.1 h with h | h
    · exact ⟨call, List.mem_cons_self .., mem_of_mem_acceptedBy h⟩
    · obtain ⟨later, hlater, hrecord⟩ := ih h
      exact ⟨later, List.mem_cons_of_mem _ hlater, hrecord⟩

theorem afterAll_append (s : Store) (calls later : List StoreCall) :
    s.afterAll (calls ++ later) = (s.afterAll calls).afterAll later :=
  List.foldl_append

theorem after_insertRun (s : Store) (record : RunRecord) :
    s.after (.insertRun record) = s.after (.insertRuns [record]) := by
  rw [after, after, insertRuns]
  cases s.insertRun record <;> rfl

/-! ### Before the schema is applied -/

theorem after_of_no_tables {s : Store} (hs : s.tables = none) {call : StoreCall}
    (hcall : call ≠ .initSchema) : s.after call = s ∧ s.acceptedBy call = [] := by
  -- Without tables every record is refused, so no list gets beyond its first record.
  have hrefused : ∀ record, s.insertRun record = .error (.store (.insertRun record.run.id)) := by
    intro record
    rw [insertRun, query, hs]
  have hlist : ∀ records, s.insertRuns records = (s, (s.insertRuns records).2) ∧
      s.acceptedOf records = [] := by
    intro records
    cases records with
    | nil => exact ⟨rfl, rfl⟩
    | cons record rest =>
      rw [insertRuns, acceptedOf, hrefused]
      exact ⟨rfl, rfl⟩
  cases call with
  | initSchema => exact absurd rfl hcall
  | insertRun record =>
    rw [after_insertRun]
    exact ⟨congrArg Prod.fst (hlist [record]).1, (hlist [record]).2⟩
  | insertRuns records => exact ⟨congrArg Prod.fst (hlist records).1, (hlist records).2⟩

theorem afterAll_of_no_tables {s : Store} (hs : s.tables = none) {calls : List StoreCall}
    (hcalls : StoreCall.initSchema ∉ calls) : s.afterAll calls = s ∧ s.accepted calls = [] := by
  induction calls with
  | nil => exact ⟨rfl, rfl⟩
  | cons call rest ih =>
    have hcall : call ≠ .initSchema := fun heq => hcalls (heq ▸ List.mem_cons_self ..)
    obtain ⟨hafter, hnone⟩ := after_of_no_tables hs hcall
    obtain ⟨hrest, hempty⟩ := ih fun hmem => hcalls (List.mem_cons_of_mem _ hmem)
    refine ⟨?_, ?_⟩
    · rw [afterAll, List.foldl_cons, hafter]
      exact hrest
    · rw [accepted, hafter, hnone, hempty]
      rfl

/-! ### The invariant -/

namespace Holds

variable {s : Store} {records : List RunRecord}

theorem insertRuns (h : s.Holds records) (more : List RunRecord) :
    (s.insertRuns more).1.Holds (records ++ s.acceptedOf more) := by
  induction more generalizing s records with
  | nil => rwa [Store.insertRuns, acceptedOf, List.append_nil]
  | cons record rest ih =>
    rw [Store.insertRuns, acceptedOf]
    -- The list stops at the record that is refused, and what is held stays.
    cases hins : s.insertRun record with
    | error cause => rwa [List.append_nil]
    | ok s' =>
      have hrest := ih (h.insertRun hins)
      rwa [List.append_assoc, List.singleton_append] at hrest

/-- **A call adds the records that it inserts, and nothing else.** -/
theorem after (h : s.Holds records) (call : StoreCall) :
    (s.after call).Holds (records ++ s.acceptedBy call) := by
  cases call with
  | initSchema =>
    rw [acceptedBy, List.append_nil, Store.after, Store.initSchema, h.tables]
    exact ⟨rfl, h.ids⟩
  | insertRun record =>
    rw [after_insertRun]
    exact h.insertRuns [record]
  | insertRuns more => exact h.insertRuns more

/-- **So do all calls of a run.** -/
theorem afterAll (h : s.Holds records) (calls : List StoreCall) :
    (s.afterAll calls).Holds (records ++ s.accepted calls) := by
  induction calls generalizing s records with
  | nil => rwa [accepted, List.append_nil]
  | cons call rest ih =>
    have hrest := ih (h.after call)
    rwa [List.append_assoc] at hrest

end Holds

theorem holds_afterAll_of_mem {s : Store} (hs : s.tables = none) {calls : List StoreCall}
    (hcalls : StoreCall.initSchema ∈ calls) : (s.afterAll calls).Holds (s.accepted calls) := by
  induction calls with
  | nil => cases hcalls
  | cons call rest ih =>
    by_cases hcall : call = .initSchema
    · subst hcall
      exact (holds_initSchema hs).afterAll rest
    -- Any other call changes nothing, as there are no tables yet.
    · obtain ⟨hafter, hnone⟩ := after_of_no_tables hs hcall
      have hrest := ih ((List.mem_cons.1 hcalls).resolve_left (Ne.symm hcall))
      rw [accepted, hafter, hnone, List.nil_append, Store.afterAll, List.foldl_cons, hafter]
      exact hrest

/-! ### What queries about an id answer -/

/-- Two stores answer queries about an id alike. -/
structure AnswersAlikeOn (s s' : Store) (id : String) : Prop where
  /-- The run with the id. -/
  run? : s.run? id = s'.run? id
  /-- The series of its buckets. -/
  bucketSeries : ∀ column w, s.bucketSeries id column w = s'.bucketSeries id column w
  /-- The series of its metrics. -/
  metricSeries : ∀ metric w, s.metricSeries id metric w = s'.metricSeries id metric w
  /-- The series of its errors. -/
  errorSeries : ∀ w, s.errorSeries id w = s'.errorSeries id w
  /-- The names of its metrics. -/
  metricKeys : s.metricKeys id = s'.metricKeys id
  /-- The time of its first bucket. -/
  firstBucketTime : s.firstBucketTime id = s'.firstBucketTime id
  /-- Its events. -/
  runEvents : ∀ eventTypes, s.runEvents id eventTypes = s'.runEvents id eventTypes

/-- The first of some records with an id. -/
def firstWithId? (records : List RunRecord) (id : String) : Option RunRecord :=
  records.find? (·.run.id == id)

theorem firstWithId?_eq_some_iff {records : List RunRecord}
    (hids : (Tables.recordIds records).Nodup) {id : String} {record : RunRecord} :
    firstWithId? records id = some record ↔ record ∈ records ∧ record.run.id = id :=
  find?_key_eq_some_iff hids

theorem firstWithId?_eq_none_iff {records : List RunRecord} {id : String} :
    firstWithId? records id = none ↔ id ∉ Tables.recordIds records := by
  simp [firstWithId?, Tables.recordIds, List.find?_eq_none]

/-- The rows of an id are those that the first record with it brought. -/
theorem ownedBy_rowsOf_firstWithId? {α : Type} (items : RunRecord → List α)
    {records : List RunRecord} (hids : (Tables.recordIds records).Nodup) (id : String) :
    Tables.ownedBy (records.flatMap (Tables.rowsOf items)) id =
      ((firstWithId? records id).map items).getD [] := by
  cases hfirst : firstWithId? records id with
  | none => exact Tables.ownedBy_rowsOf_of_not_mem items (firstWithId?_eq_none_iff.1 hfirst)
  | some record =>
    obtain ⟨hrecord, rfl⟩ := (firstWithId?_eq_some_iff hids).1 hfirst
    exact Tables.ownedBy_rowsOf items hids hrecord

namespace Holds

variable {s s' : Store} {records records' : List RunRecord} {id : String}

theorem run?_eq (h : s.Holds records) (id : String) :
    s.run? id = match firstWithId? records id with
      | some record => answer (.loadRun id) (record.run.loaded?.map some)
      | none => .ok none := by
  have hfind : (Tables.ofRecords records).runs.find? (fun run => run.id == id) =
      (firstWithId? records id).map RunRecord.run := List.find?_map
  rw [Store.run?, query_of_tables h.tables, hfind]
  cases firstWithId? records id <;> rfl

/-- No run is found with an id that no record has. -/
theorem run?_eq_none (h : s.Holds records) (hid : id ∉ Tables.recordIds records) :
    s.run? id = .ok none := by
  rw [h.run?_eq, firstWithId?_eq_none_iff.2 hid]

/-- The run of a record is read, or fails to be. -/
theorem run?_eq_answer (h : s.Holds records) {record : RunRecord} (hrecord : record ∈ records) :
    s.run? record.run.id = answer (.loadRun record.run.id) (record.run.loaded?.map some) := by
  rw [h.run?_eq, (firstWithId?_eq_some_iff h.ids).2 ⟨hrecord, rfl⟩]

/-- **The first record with an id settles what is answered for it.** -/
theorem answersAlikeOn (h : s.Holds records) (h' : s'.Holds records')
    (hfirst : firstWithId? records id = firstWithId? records' id) : s.AnswersAlikeOn s' id := by
  -- All rows of the id were brought by the first record with it.
  have hrows : ∀ {α : Type} (items : RunRecord → List α),
      Tables.ownedBy (records.flatMap (Tables.rowsOf items)) id =
        Tables.ownedBy (records'.flatMap (Tables.rowsOf items)) id := by
    intro α items
    rw [ownedBy_rowsOf_firstWithId? items h.ids, ownedBy_rowsOf_firstWithId? items h'.ids, hfirst]
  have hagree : s.AgreeOn s' id :=
    ⟨_, _, h.tables, h'.tables, ⟨hrows _, hrows _, hrows _⟩⟩
  exact
    { run? := by rw [h.run?_eq, h'.run?_eq, hfirst]
      bucketSeries := hagree.bucketSeries
      metricSeries := hagree.metricSeries
      errorSeries := hagree.errorSeries
      metricKeys := hagree.metricKeys
      firstBucketTime := hagree.firstBucketTime
      runEvents := hagree.runEvents }

theorem single (record : RunRecord) : (single record).Holds [record] := by
  refine ⟨?_, List.nodup_singleton _⟩
  simp [Store.single, Tables.empty, Tables.append, Tables.ofRecords, Tables.rowsOf]

theorem answersAlikeOn_single (h : s.Holds records) {record : RunRecord}
    (hrecord : record ∈ records) :
    s.AnswersAlikeOn (Store.single record) record.run.id := by
  refine h.answersAlikeOn (.single record) ?_
  rw [(firstWithId?_eq_some_iff h.ids).2 ⟨hrecord, rfl⟩, firstWithId?, List.find?_cons_of_pos]
  exact beq_self_eq_true _

/-- **Calls that insert no record with an id change no answer for it.** -/
theorem answersAlikeOn_afterAll (h : s.Holds records) {later : List StoreCall}
    (hlater : id ∉ Tables.recordIds (s.accepted later)) :
    (s.afterAll later).AnswersAlikeOn s id := by
  refine (h.afterAll later).answersAlikeOn h ?_
  rw [firstWithId?, List.find?_append]
  -- The first record with the id is still the same, as none was added.
  have hnone : firstWithId? (s.accepted later) id = none := firstWithId?_eq_none_iff.2 hlater
  rw [firstWithId?] at hnone
  rw [hnone, Option.or_none]
  rfl

theorem not_mem_recordIds_accepted (h : s.Holds records) (hid : id ∈ Tables.recordIds records)
    (later : List StoreCall) : id ∉ Tables.recordIds (s.accepted later) := by
  -- The records before and after have ids of their own.
  have hids := (h.afterAll later).ids
  rw [Tables.recordIds, List.map_append] at hids
  exact List.disjoint_of_nodup_append hids hid

/-- The run of a record comes back as it was inserted exactly if its parameters are not too deep and
each number in them comes back. -/
theorem run?_eq_inserted_iff (h : s.Holds records) {record : RunRecord}
    (hrecord : record ∈ records) :
    s.run? record.run.id = .ok (some record.run) ↔
      (Json.obj record.run.params).depth ≤ Json.depthLimit ∧
        ∀ n ∈ (Json.obj record.run.params).numbers, n.reread? = some n := by
  -- Of a run that is loaded only the parameters can differ.
  have hloaded : record.run = record.run.loaded ↔
      (Json.obj record.run.params).reread = .obj record.run.params := by
    rw [Json.reread, Json.obj.injEq]
    exact ⟨fun heq => (congrArg Run.params heq).symm, fun heq => by rw [Run.loaded, heq]⟩
  rw [h.run?_eq_answer hrecord, answer_eq_ok_iff, ← Json.readable_and_reread_eq_self_iff,
    ← hloaded, ← Run.loaded?_eq_some_iff, Option.map_eq_some_iff]
  simp

end Holds

/-! ### All calls on a fresh store -/

/-- **Every id is answered for by the record that was accepted with it**, after any calls on a
fresh store and whatever calls come later. The run comes back if its parameters can be read where
they were written, and as it was inserted exactly if moreover each number in them survives that. -/
theorem afterAll_answers (calls : List StoreCall) :
    -- Nothing can be inserted before the schema is applied.
    (StoreCall.initSchema ∉ calls →
      fresh.afterAll calls = fresh ∧ fresh.accepted calls = []) ∧
    (StoreCall.initSchema ∈ calls →
      (∃ t, (fresh.afterAll calls).tables = some t ∧ t = .ofRecords (fresh.accepted calls) ∧
        (t.runs.map Run.id).Nodup) ∧
      (∀ record, (∃ s', (fresh.afterAll calls).insertRun record = .ok s') ↔
        record.run.id ∉ Tables.recordIds (fresh.accepted calls)) ∧
      (∀ id ∉ Tables.recordIds (fresh.accepted calls), (fresh.afterAll calls).run? id = .ok none) ∧
      (∀ record ∈ fresh.accepted calls,
        (fresh.afterAll calls).run? record.run.id =
          (if (Json.obj record.run.params).readable then .ok (some record.run.loaded)
            else .error (.store (.loadRun record.run.id))) ∧
        ((fresh.afterAll calls).run? record.run.id = .ok (some record.run) ↔
          (Json.obj record.run.params).depth ≤ Json.depthLimit ∧
            ∀ n ∈ (Json.obj record.run.params).numbers, n.reread? = some n) ∧
        (fresh.afterAll calls).AnswersAlikeOn (single record) record.run.id ∧
        ∀ later, (fresh.afterAll (calls ++ later)).AnswersAlikeOn (fresh.afterAll calls)
          record.run.id) ∧
      ∀ id later, id ∉ Tables.recordIds ((fresh.afterAll calls).accepted later) →
        (fresh.afterAll (calls ++ later)).AnswersAlikeOn (fresh.afterAll calls) id) := by
  refine ⟨afterAll_of_no_tables rfl, fun hmem => ?_⟩
  -- The invariant: the store holds the records that were accepted so far.
  have hholds : (fresh.afterAll calls).Holds (fresh.accepted calls) :=
    holds_afterAll_of_mem rfl hmem
  have hlater : ∀ id later, id ∉ Tables.recordIds ((fresh.afterAll calls).accepted later) →
      (fresh.afterAll (calls ++ later)).AnswersAlikeOn (fresh.afterAll calls) id := by
    intro id later hid
    rw [afterAll_append]
    exact hholds.answersAlikeOn_afterAll hid
  refine ⟨⟨_, hholds.tables, rfl, ?_⟩, ?_, fun id => hholds.run?_eq_none, ?_, hlater⟩
  · rw [Tables.ofRecords, List.map_map]
    exact hholds.ids
  · intro record
    constructor
    · rintro ⟨s', hins⟩
      exact (hholds.insertRun_eq_ok_iff.1 hins).1
    · intro hid
      exact ⟨_, hholds.insertRun_eq_ok_iff.2 ⟨hid, rfl⟩⟩
  -- A record that was accepted keeps its id, so no later one is accepted with it.
  · intro record hrecord
    refine ⟨?_, hholds.run?_eq_inserted_iff hrecord, hholds.answersAlikeOn_single hrecord, ?_⟩
    · rw [hholds.run?_eq_answer hrecord, Run.loaded?]
      split <;> rfl
    intro later
    have hid : record.run.id ∈ Tables.recordIds (fresh.accepted calls) :=
      List.mem_map_of_mem hrecord
    exact hlater _ later (hholds.not_mem_recordIds_accepted hid later)

/-- The parameter `3e23` does not come back: the digits with which it is kept are read as the float
below it. -/
theorem not_run?_eq_inserted_largeFloat :
    fresh.accepted [.initSchema, .insertRun (.ofParams [("x", .num (.float 3e23))])] =
        [.ofParams [("x", .num (.float 3e23))]] ∧
      (fresh.afterAll [.initSchema, .insertRun (.ofParams [("x", .num (.float 3e23))])]).run?
        "run" ≠ .ok (some (RunRecord.ofParams [("x", .num (.float 3e23))]).run) := by
  let record := RunRecord.ofParams [("x", .num (.float 3e23))]
  have hholds : (fresh.afterAll [.initSchema, .insertRun record]).Holds
      (fresh.accepted [.initSchema, .insertRun record]) :=
    holds_afterAll_of_mem rfl (List.mem_cons_self ..)
  have haccepted : fresh.accepted [.initSchema, .insertRun record] = [record] := rfl
  refine ⟨haccepted, fun hrun => ?_⟩
  rw [haccepted] at hholds
  have hnumber : .float 3e23 ∈ (Json.obj record.run.params).numbers := by
    simp [record, RunRecord.ofParams, Json.numbers, Json.numbersOfFields]
  have hsame := ((hholds.run?_eq_inserted_iff (List.mem_singleton_self _)).1 hrun).2 _ hnumber
  revert hsame
  decide +kernel

end Store

end BenchCharts

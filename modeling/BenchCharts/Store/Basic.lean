import BenchCharts.Error
import BenchCharts.Run.Basic

/-!
# The store

A store has four tables: runs, and the time buckets, metric samples and events of runs, each with
the id of its run. Rows are kept in the order in which they were inserted. The tables exist once
the schema has been applied; before that every query and every insertion fails.

A record is inserted as a whole or not at all. It is refused if the store has a run with its id,
so ids are unique (`Tables.insert?_ids_nodup`).
-/

namespace BenchCharts

/-- A row that belongs to a run. -/
structure Owned (α : Type) where
  /-- The id of the run. -/
  runId : String
  /-- What is recorded. -/
  item : α

/-- The tables of a store. -/
structure Tables where
  /-- The runs. -/
  runs : List Run
  /-- The time buckets of all runs. -/
  buckets : List (Owned Bucket)
  /-- The metric samples of all runs. -/
  metrics : List (Owned MetricSample)
  /-- The events of all runs. -/
  events : List (Owned RunEvent)

namespace Tables

/-- Tables without rows. -/
def empty : Tables := ⟨[], [], [], []⟩

/-- Whether there is a run with an id. -/
def hasRun (t : Tables) (id : String) : Bool := t.runs.any (·.id == id)

/-- The tables with the rows of a record at the end. -/
def append (t : Tables) (record : RunRecord) : Tables where
  runs := t.runs ++ [record.run]
  buckets := t.buckets ++ record.buckets.map (⟨record.run.id, ·⟩)
  metrics := t.metrics ++ record.metrics.map (⟨record.run.id, ·⟩)
  events := t.events ++ record.events.map (⟨record.run.id, ·⟩)

/-- The tables with a record inserted, unless its id is taken. -/
def insert? (t : Tables) (record : RunRecord) : Option Tables :=
  if t.hasRun record.run.id then none else some (t.append record)

/-- The rows of a table that belong to a run. -/
def ownedBy {α : Type} (rows : List (Owned α)) (runId : String) : List α :=
  (rows.filter (·.runId == runId)).map Owned.item

/-- Insertion keeps ids unique. -/
theorem insert?_ids_nodup {t t' : Tables} {record : RunRecord}
    (h : (t.runs.map Run.id).Nodup) (hins : t.insert? record = some t') :
    (t'.runs.map Run.id).Nodup := by
  unfold insert? at hins
  split at hins
  · simp at hins
  · rename_i hfree
    cases hins
    simp only [hasRun, Bool.not_eq_true, List.any_eq_false, beq_iff_eq] at hfree
    simp only [append, List.map_append, List.map_cons, List.map_nil]
    refine List.nodup_append.2 ⟨h, by simp, ?_⟩
    intro a ha b hb
    obtain ⟨run, hrun, rfl⟩ := List.mem_map.1 ha
    rw [List.mem_singleton.1 hb]
    exact hfree run hrun

end Tables

/-- What a query answers, where `none` is its failure. -/
def answer {α : Type} (q : StoreQuery) : Option α → Except ChartError α
  | some a => .ok a
  | none => .error (.store q)

/-- An answer is what could be computed. -/
theorem answer_eq_ok_iff {α : Type} {q : StoreQuery} {result : Option α} {a : α} :
    answer q result = .ok a ↔ result = some a := by
  cases result <;> simp [answer]

theorem answer_eq_error_iff {α : Type} {q : StoreQuery} {result : Option α} :
    answer q result = .error (.store q) ↔ result = none := by
  cases result <;> simp [answer]

/-- A store: its tables, once the schema has been applied. -/
structure Store where
  /-- The tables, if they exist. -/
  tables : Option Tables

namespace Store

/-- A store as it is created, without a schema. -/
def fresh : Store := ⟨none⟩

/-- The store with the schema applied; what it holds already stays. -/
def initSchema (s : Store) : Store := ⟨some (s.tables.getD .empty)⟩

/-- Does something with the tables, on behalf of a query. -/
def query {α : Type} (s : Store) (q : StoreQuery) (f : Tables → Except ChartError α) :
    Except ChartError α :=
  match s.tables with
  | some t => f t
  | none => .error (.store q)

/-- The store with a record inserted. -/
def insertRun (s : Store) (record : RunRecord) : Except ChartError Store :=
  s.query (.insertRun record.run.id) fun t =>
    match t.insert? record with
    | some t' => .ok ⟨some t'⟩
    | none => .error (.store (.insertRun record.run.id))

/-- The store with records inserted one after the other up to the first that is refused, and
whether one was. -/
def insertRuns (s : Store) : List RunRecord → Store × Except ChartError Unit
  | [] => (s, .ok ())
  | record :: rest =>
    match s.insertRun record with
    | .ok s' => insertRuns s' rest
    | .error e => (s, .error e)

/-- The store with records inserted in the same way, and a number counted up by one for each record,
unless one was refused. -/
def insertCounting (s : Store) (counter : Nat) : List RunRecord → Store × Except ChartError Nat
  | [] => (s, .ok counter)
  | record :: rest =>
    match s.insertRun record with
    | .ok s' => insertCounting s' (counter + 1) rest
    | .error e => (s, .error e)

/-- The store with records inserted in the same way, and how many were inserted, unless one was
refused. -/
def insertAll (s : Store) (records : List RunRecord) : Store × Except ChartError Nat :=
  s.insertCounting 0 records

end Store

end BenchCharts

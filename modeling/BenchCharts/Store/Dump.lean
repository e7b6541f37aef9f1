import BenchCharts.Json.Printer
import BenchCharts.Json.Reader
import BenchCharts.Run.Codec
import BenchCharts.Store.Basic

/-!
# Stores in files

A store is written to a file as the JSON list of its records, in the order of its runs, and a store
without tables as an empty file. Reading inserts the records again, with the float nearest to each
decimal, so that every value comes back.
-/

namespace BenchCharts.Store

/-- The records that a store was made from. -/
def records (t : Tables) : List RunRecord :=
  t.runs.map fun run =>
    { run
      buckets := Tables.ownedBy t.buckets run.id
      metrics := Tables.ownedBy t.metrics run.id
      events := Tables.ownedBy t.events run.id }

/-- A store as a text. -/
def dump (s : Store) : String :=
  match s.tables with
  | none => ""
  | some t => (Json.ofList RunRecord.encode (records t)).compact

/-- The store that was written as a text. -/
def ofDump? (text : String) : Option Store :=
  if text = "" then some fresh
  else do
    let records ← Json.list? RunRecord.decode? (← Json.readExactly? text)
    match fresh.initSchema.insertRuns records with
    | (s, .ok ()) => some s
    | (_, .error _) => none

end BenchCharts.Store

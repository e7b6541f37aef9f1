import BenchCharts.CommandLine.Execution
import BenchCharts.Store.Dump

/-!
# The program

Reads the files that a command line names, carries the command out, writes the database back, and
prints the outcome. All else is in `CommandLine/Execution`.
-/

namespace BenchCharts.Program

open CommandLine

/-- The file that a command reads. -/
def inputFile? : Command → Option String
  | .importRuns path => some path
  | .chart path _ => some path
  | .runs path _ _ _ _ => path
  | _ => none

/-- What there is at a path. -/
def look (path : String) : IO (List (String × Content)) := do
  try
    let bytes ← IO.FS.readBinFile path
    match String.fromUTF8? bytes with
    | some text => return [(path, .text text)]
    | none => return [(path, .other)]
  catch
    -- The code of an attempt to read a folder.
    | .inappropriateType _ 21 _ => return [(path, .folder)]
    | _ => return []

/-- What there is on the way that a path takes. -/
def lookAlong (path : String) : IO (List (String × Content)) := do
  let steps := Host.steps path
  let before := (List.range steps.length).map fun n => "/".intercalate (steps.take n)
  let found ← (before.filter (· ≠ "")).mapM look
  return found.flatten

/-- What there is at a path, where a store is looked for. -/
def lookForStore (path : String) : IO (List (String × Content)) := do
  let found ← look path
  return found.map fun (path, content) =>
    match content with
    | .text text =>
      match Store.ofDump? text with
      | some s => (path, .store s)
      | none => (path, .text text)
    | content => (path, content)

/-- The files that are needed for a command, and the folders with them. -/
def load (inv : Invocation) : IO Directory := do
  let mut files := []
  if let .file path := Host.plain.address inv.database then
    files := (← lookForStore path) ++ (← lookAlong path)
  if let some path := inputFile? inv.command then
    files := files ++ (← look path) ++ (← lookAlong path)
  return ⟨files⟩

/-- Writes the database. -/
def save (inv : Invocation) (d : Directory) : IO Unit := do
  if let .file path := Host.plain.address inv.database then
    if let some (.store s) := d.content? .plain (Host.plain.place path) then
      IO.FS.writeFile path s.dump

/-- Prints an outcome. -/
def print (outcome : Outcome) : IO UInt32 := do
  IO.print outcome.output
  match outcome with
  | .failed e =>
    IO.eprintln ("Error: " ++ e.message)
    match e.cause? with
    | some cause => IO.eprintln ("\nCaused by:\n    " ++ cause)
    | none => return 1
  | .misused => IO.eprint helpText
  | _ => return outcome.exitCode.toUInt32
  return outcome.exitCode.toUInt32

/-- Carries out a command line. -/
def run (args : List String) : IO UInt32 := do
  match Invocation.read (← IO.getEnv "PERF_DASHBOARD_DB") args with
  | .error stop => print stop.outcome
  | .ok inv =>
    let (d, outcome) := inv.execute .plain (← load inv)
    save inv d
    print outcome

end BenchCharts.Program

/-- The program. -/
def main (args : List String) : IO UInt32 := BenchCharts.Program.run args

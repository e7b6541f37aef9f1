import BenchCharts.Chart.RequestCodec
import BenchCharts.Chart.ResponseCodec
import BenchCharts.CommandLine.Directory
import BenchCharts.CommandLine.Invocation
import BenchCharts.Dashboard
import BenchCharts.Json.Printer
import BenchCharts.Json.Reader
import BenchCharts.Report
import BenchCharts.Store.Listings
import BenchCharts.Text.Quoted

/-!
# Carrying out commands

`CommandLine.execute` takes a command line and a directory to the directory afterwards and the
outcome: what is printed, or what went wrong. The exit code follows from the outcome.

A command first opens the database, then reads its file, if it has one, and then does its work. So a
file is there for the database even if the command fails; tables are only created once the records
to be imported have been read; and records before the one that is refused stay imported. A database
that cannot be opened leaves everything as it is.
-/

namespace BenchCharts.CommandLine

/-- What a command was doing when it failed. -/
inductive Task where
  /-- Creating the tables. -/
  | createSchema
  /-- Importing records. -/
  | importRuns
  /-- Drawing a chart. -/
  | drawChart
  /-- Drawing the chart of one run. -/
  | drawRun (id : String)
  /-- Listing runs. -/
  | listRuns
  /-- Listing cluster versions. -/
  | listClusterVersions
  /-- Listing SDKs. -/
  | listSdks
deriving DecidableEq, Repr

/-- The failure of a task in words. -/
def Task.failure : Task → String
  | .createSchema => "Failed to create schema"
  | .importRuns => "Failed to import runs"
  | .drawChart => "Failed to evaluate chart request"
  | .drawRun id => "Failed to chart run " ++ id
  | .listRuns => "Failed to list runs"
  | .listClusterVersions => "Failed to load cluster versions"
  | .listSdks => "Failed to load SDKs"

/-- Why a command failed. -/
inductive CommandError where
  /-- The database cannot be opened. -/
  | unopened (address reason : String)
  /-- A file cannot be read. -/
  | unreadable (path : String) (reason : FileError)
  /-- What a file holds is not what the command needs. -/
  | malformed (path : String)
  /-- The library refused. -/
  | failed (task : Task) (reason : ChartError)
deriving DecidableEq, Repr

namespace CommandError

/-- What failed, in words. -/
def message : CommandError → String
  | .unopened address _ => "Failed to open database: " ++ Text.quoted address
  | .unreadable path _ => "Failed to read file: " ++ Text.quoted path
  | .malformed path => "Failed to parse JSON from " ++ Text.quoted path
  | .failed task _ => task.failure

/-- Why it failed, in words. -/
def cause? : CommandError → Option String
  | .unopened _ reason =>
    some ("Connection pool error: timed out waiting for connection: " ++ reason)
  | .unreadable _ reason => some reason.message
  | .malformed _ => none
  | .failed _ reason => some reason.message

end CommandError

/-- How an execution ends. -/
inductive Outcome where
  /-- It succeeds and prints a text. -/
  | printed (text : String)
  /-- The command fails. -/
  | failed (error : CommandError)
  /-- The command line makes no sense. -/
  | misused
  /-- The database cannot be opened without any connection. -/
  | aborted
deriving DecidableEq, Repr

namespace Outcome

/-- The exit code. -/
def exitCode : Outcome → Nat
  | .printed _ => 0
  | .failed _ => 1
  | .misused => 2
  | .aborted => 101

/-- The text on standard output. -/
def output : Outcome → String
  | .printed text => text
  | _ => ""

/-- What an answer or an error leads to. -/
def of : Except CommandError String → Outcome
  | .ok text => .printed text
  | .error e => .failed e

end Outcome

/-- The name of the program and its version. -/
def versionText : String := "perf-dashboard 0.1.0\n"

/-- What is shown when help is asked for. -/
def helpText : String :=
  "Usage: perf-dashboard [OPTIONS] <COMMAND>\n\nCommands:\n"
    ++ "  init      Create the database schema\n"
    ++ "  import    Load runs from a JSON file\n"
    ++ "  chart     Evaluate a chart request\n"
    ++ "  run       Chart a single run\n"
    ++ "  runs      List runs matching a filter\n"
    ++ "  versions  Show known cluster versions and SDKs\n"

/-- The outcome when nothing is carried out. -/
def Stop.outcome : Stop → Outcome
  | .misuse => .misused
  | .help => .printed helpText
  | .version => .printed versionText

/-- The value in a JSON file, where something of a certain shape is looked for. -/
def Directory.readJson {α : Type} (d : Directory) (h : Host) (shape : Json.Shape)
    (decode : Json → Option α) (path : String) : Except CommandError α :=
  match d.readText h path with
  | .error reason => .error (.unreadable path reason)
  | .ok text =>
    match (Json.readAs? shape text).bind decode with
    | some value => .ok value
    | none => .error (.malformed path)

/-- The records of an import: a list of them, or a single one. -/
def records? (j : Json) : Option (List RunRecord) :=
  (Json.list? RunRecord.decode? j).or ((RunRecord.decode? j).map ([·]))

/-- A value as it is printed: over several lines, with a line break at the end. -/
def printJson (j : Json) : String := j.pretty ++ "\n"

/-- A value in one of the formats. -/
def Format.print {α : Type} (format : Format) (encode : α → Json) (report : α → String) (a : α) :
    String :=
  match format with
  | .json => printJson (encode a)
  | .text => report a

/-- Cluster versions and SDKs in JSON. -/
def encodeReference (lists : List String × List SdkInfo) : Json :=
  .obj [("clusterVersions", Json.ofList .str lists.1), ("sdks", Json.ofList SdkInfo.encode lists.2)]

/-- Names the task in which the library refused. -/
def during {α : Type} (task : Task) (result : Except ChartError α) : Except CommandError α :=
  result.mapError (.failed task)

namespace Invocation

variable (inv : Invocation) (h : Host)

/-- What a command prints that only reads. Commands that change the store print nothing. -/
def answer (d : Directory) (store : Store) : Except CommandError String :=
  match inv.command with
  | .init => .ok ""
  | .importRuns _ => .ok ""
  | .chart path format => do
    let request ← d.readJson h ChartRequest.shape ChartRequest.decode? path
    let chart ← during .drawChart (store.chart inv.gerritPrefix request)
    return format.print Chart.encode Report.chart chart
  | .run request format => do
    let chart ← during (.drawRun request.runId) (store.runChart request)
    return format.print LineChart.encode Report.lineChart chart
  | .runs path mode excludeSnapshots excludeGerrit format => do
    let filter ← match path with
      | some path => d.readJson h .any Json.map? path
      | none => .ok []
    let selection : RunSelection :=
      { mode, excludeSnapshots, excludeGerrit, gerritPrefix := inv.gerritPrefix }
    let runs ← during .listRuns (store.runs filter selection)
    return format.print (Json.ofList Run.encode) Report.runs runs
  | .versions format => do
    let clusterVersions ← during .listClusterVersions store.clusterVersions
    let sdks ← during .listSdks store.sdks
    return format.print encodeReference (fun lists => Report.reference lists.1 lists.2)
      (clusterVersions, sdks)

/-- Creates the tables of the database in a file. -/
def createSchema (file : Option String) (d : Directory) : Directory × Outcome :=
  match during .createSchema (d.withSchema h file) with
  | .ok store => (d.putStore h file store, .printed "")
  | .error e => (d, .failed e)

/-- Imports records, and creates the tables before that. -/
def importRuns (file : Option String) (d : Directory) (path : String) : Directory × Outcome :=
  -- The records come first, so that bad ones leave the database without tables.
  match d.readJson h .any records? path with
  | .error e => (d, .failed e)
  | .ok records =>
    match during .createSchema (d.withSchema h file) with
    | .error e => (d, .failed e)
    | .ok store =>
      -- What was inserted before a refusal is kept.
      let (store, result) := store.insertRuns records
      (d.putStore h file store, .of ((during .importRuns result).map fun _ => ""))

/-- Carries out a command for the database in a file. -/
def carryOut (file : Option String) (d : Directory) : Directory × Outcome :=
  match inv.command with
  | .init => createSchema h file d
  | .importRuns path => importRuns h file d path
  | _ => (d, .of (inv.answer h d (d.store h file)))

/-- Opens the database and carries out a command. -/
def execute (d : Directory) : Directory × Outcome :=
  if inv.poolSize = 0 then (d, .aborted)
  else
    match d.database h inv.database with
    | .file path => inv.carryOut h (some path) (d.openStore h path)
    | .volatile => inv.carryOut h none d
    | .refused reason => (d, .failed (.unopened inv.database reason))

end Invocation

/-- Carries out a command line in a directory. -/
def execute (environment : Option String) (args : List String) (d : Directory)
    (h : Host := .plain) : Directory × Outcome :=
  match Invocation.read environment args with
  | .ok inv => inv.execute h d
  | .error stop => (d, stop.outcome)

end BenchCharts.CommandLine

import BenchCharts.CommandLine.Arguments
import BenchCharts.Selection

/-!
# Invocations

A command line names a command, with flags of its own, and says where the database is and how
versions under review are recognised. The general flags may stand before the name of the command,
after it, or both, and then the later ones count.

The path of the database can also come from the environment. It counts where the command line gives
no path, and it has to be a path wherever it could count, so an empty one is a mistake even if the
flag is given on one side of the command's name.
-/

namespace BenchCharts.CommandLine

/-- What is to be done. -/
inductive Command where
  /-- Creates the tables. -/
  | init
  /-- Imports the records of a file. -/
  | importRuns (file : String)
  /-- Draws the chart of a request in a file. -/
  | chart (request : String) (format : Format)
  /-- Draws the chart of one run. -/
  | run (request : RunChartRequest) (format : Format)
  /-- Lists the runs that match the filter in a file. -/
  | runs (filter : Option String) (mode : RunFilterMode) (excludeSnapshots excludeGerrit : Bool)
      (format : Format)
  /-- Lists cluster versions and SDKs. -/
  | versions (format : Format)

/-- The names of commands. -/
inductive CommandName where
  /-- Creates the tables. -/
  | init
  /-- Imports records. -/
  | importRuns
  /-- Draws a chart. -/
  | chart
  /-- Draws the chart of one run. -/
  | run
  /-- Lists runs. -/
  | runs
  /-- Lists versions. -/
  | versions
deriving DecidableEq, Repr

namespace CommandName

/-- The command that a word names. -/
def ofWord? : String → Option CommandName
  | "init" => some .init
  | "import" => some .importRuns
  | "chart" => some .chart
  | "run" => some .run
  | "runs" => some .runs
  | "versions" => some .versions
  | _ => none

/-- The flags of a command's own. -/
def flags : CommandName → List Flag
  | .init => []
  | .importRuns => [.file]
  | .chart => [.request, .format]
  | .run => [.id, .axis, .trimmingSeconds, .bucketiseSeconds, .events, .format]
  | .runs => [.filter, .mode, .excludeSnapshots, .excludeGerrit, .format]
  | .versions => [.format]

end CommandName

/-! ### What settings say -/

namespace Setting

/-- The path of the database. -/
def database? (settings : List Setting) : Option String :=
  settings.findSome? fun | .database path => some path | _ => none

/-- The number of connections. -/
def poolSize? (settings : List Setting) : Option Nat :=
  settings.findSome? fun | .poolSize n => some n | _ => none

/-- What versions under review start with. -/
def gerritPrefix? (settings : List Setting) : Option String :=
  settings.findSome? fun | .gerritPrefix text => some text | _ => none

/-- The file with records. -/
def file? (settings : List Setting) : Option String :=
  settings.findSome? fun | .file path => some path | _ => none

/-- The file with a request. -/
def request? (settings : List Setting) : Option String :=
  settings.findSome? fun | .request path => some path | _ => none

/-- The id of a run. -/
def id? (settings : List Setting) : Option String :=
  settings.findSome? fun | .id text => some text | _ => none

/-- The vertical axes. -/
def axes (settings : List Setting) : List VerticalAxis :=
  settings.filterMap fun | .axis drawn => some drawn | _ => none

/-- The seconds that are left out. -/
def trimmingSeconds? (settings : List Setting) : Option Int :=
  settings.findSome? fun | .trimmingSeconds n => some n | _ => none

/-- The width of the buckets. -/
def bucketiseSeconds? (settings : List Setting) : Option Int :=
  settings.findSome? fun | .bucketiseSeconds n => some n | _ => none

/-- The types of events, of each time they are given. -/
def eventTypes (settings : List Setting) : List (List String) :=
  settings.filterMap fun | .events types => some types | _ => none

/-- The file with a filter. -/
def filter? (settings : List Setting) : Option String :=
  settings.findSome? fun | .filter path => some path | _ => none

/-- The run filter mode. -/
def mode? (settings : List Setting) : Option RunFilterMode :=
  settings.findSome? fun | .mode taken => some taken | _ => none

/-- The format. -/
def format? (settings : List Setting) : Option Format :=
  settings.findSome? fun | .format written => some written | _ => none

/-- What is drawn on top of the lines: the events of all types that are given, or of every type if
the flag is given without any. -/
def annotations (settings : List Setting) : List AnnotationRequest :=
  match eventTypes settings with
  | [] => []
  | types => [.runEvents types.flatten]

end Setting

/-- The command that a name and settings make, unless something it needs is missing. -/
def Command.of? (name : CommandName) (settings : List Setting) : Option Command :=
  match name with
  | .init => some .init
  | .importRuns => (Setting.file? settings).map .importRuns
  | .chart => do
    return .chart (← Setting.request? settings) ((Setting.format? settings).getD .json)
  | .run => do
    let runId ← Setting.id? settings
    let verticalAxes := Setting.axes settings
    if verticalAxes.isEmpty then none
    let request : RunChartRequest := {
      runId
      verticalAxes
      mergeAlgorithm := .average
      trimmingSeconds := (Setting.trimmingSeconds? settings).getD 0
      bucketiseSeconds := Setting.bucketiseSeconds? settings
      annotations := Setting.annotations settings }
    return .run request ((Setting.format? settings).getD .json)
  | .runs =>
    some (.runs (Setting.filter? settings) ((Setting.mode? settings).getD .all)
      (settings.contains .excludeSnapshots) (settings.contains .excludeGerrit)
      ((Setting.format? settings).getD .text))
  | .versions => some (.versions ((Setting.format? settings).getD .text))

/-- A command with everything said around it. -/
structure Invocation where
  /-- The file with the database. -/
  database : String
  /-- The most connections that may be open at once. -/
  poolSize : Nat
  /-- What versions under review start with. -/
  gerritPrefix : String
  /-- What is to be done. -/
  command : Command

namespace Invocation

/-- The file with the database, where nothing else is said. -/
def defaultDatabase : String := "perf-dashboard.db"

/-- The number of connections, where nothing else is said. -/
def defaultPoolSize : Nat := 8

/-- The flags that every command takes. -/
def generalFlags : List Flag := [.database, .poolSize, .gerritPrefix, .verbose, .help]

/-- The path of the database, from the environment and the settings before and after the name of
the command. -/
def databaseOf (environment : Option String) (outer inner : List Setting) :
    Except Stop String :=
  match Setting.database? outer, Setting.database? inner with
  | some _, some path => .ok path
  | some path, none => given path
  | none, some path => given path
  | none, none => given (environment.getD defaultDatabase)
where
  /-- A path, unless the environment has an empty one. -/
  given (path : String) : Except Stop String :=
    if environment = some "" then .error .misuse else .ok path

/-- What a word that names no command leads to: a request for help, on all or on one command, or a
mistake. -/
def stopAt (word : String) (rest : List String) : Stop :=
  match word, rest with
  | "help", [] => .help
  | "help", [about] =>
    if about = "help" ∨ (CommandName.ofWord? about).isSome then .help else .misuse
  | _, _ => .misuse

/-- Reads a command line. -/
def read (environment : Option String) (args : List String) : Except Stop Invocation := do
  let (outer, rest) ← Reading.empty.run (generalFlags ++ [.version]) args
  match rest with
  | [] => .error .misuse
  | word :: rest =>
    match CommandName.ofWord? word with
    | none => .error (stopAt word rest)
    | some name =>
      let (inner, rest) ← Reading.empty.run (name.flags ++ generalFlags) rest
      let database ← databaseOf environment outer inner
      match rest, Command.of? name inner with
      | [], some command =>
        return {
          database
          poolSize := ((Setting.poolSize? inner).or (Setting.poolSize? outer)).getD defaultPoolSize
          gerritPrefix :=
            ((Setting.gerritPrefix? inner).or (Setting.gerritPrefix? outer)).getD
              defaultGerritPrefix
          command }
      | _, _ => .error .misuse

end Invocation

end BenchCharts.CommandLine

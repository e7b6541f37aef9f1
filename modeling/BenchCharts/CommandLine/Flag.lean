import BenchCharts.CommandLine.Spelling
import BenchCharts.Text.Numeral
import BenchCharts.Text.Split

/-!
# Flags and settings

A flag has a long name and sometimes a letter, and takes no value, one value, or any number of them.
A `Setting` is a flag together with what its values say. `Setting.of?` reads the values and refuses
those that do not fit: numbers out of range, names that are none, and empty paths.
-/

namespace BenchCharts.CommandLine

/-- How results are written. -/
inductive Format where
  /-- As JSON. -/
  | json
  /-- As plain text. -/
  | text
deriving DecidableEq, Repr

/-- The format that a name stands for. -/
def Format.ofName? : String → Option Format
  | "json" => some .json
  | "text" => some .text
  | _ => none

/-- How many values a flag takes. -/
inductive Arity where
  /-- None. -/
  | none
  /-- Exactly one. -/
  | one
  /-- Any number. -/
  | any
deriving DecidableEq, Repr

/-- What can be said on the command line beside the name of a command. -/
inductive Flag where
  /-- The file with the database. -/
  | database
  /-- The most connections that may be open at once. -/
  | poolSize
  /-- What versions under review start with. -/
  | gerritPrefix
  /-- More messages. -/
  | verbose
  /-- Explains the command line. -/
  | help
  /-- Shows the version of the program. -/
  | version
  /-- The file with records to import. -/
  | file
  /-- The file with a chart request. -/
  | request
  /-- The id of a run. -/
  | id
  /-- A vertical axis. -/
  | axis
  /-- The seconds at the start of the run that are left out. -/
  | trimmingSeconds
  /-- The width of the buckets. -/
  | bucketiseSeconds
  /-- The types of the events to be drawn. -/
  | events
  /-- The file with a filter. -/
  | filter
  /-- Which versions of each SDK are taken. -/
  | mode
  /-- Leaves snapshots out. -/
  | excludeSnapshots
  /-- Leaves versions under review out. -/
  | excludeGerrit
  /-- How results are written. -/
  | format
deriving DecidableEq, Repr

namespace Flag

/-- The long name, as it stands after two hyphens. -/
def name : Flag → String
  | .database => "database"
  | .poolSize => "pool-size"
  | .gerritPrefix => "gerrit-prefix"
  | .verbose => "verbose"
  | .help => "help"
  | .version => "version"
  | .file => "file"
  | .request => "request"
  | .id => "id"
  | .axis => "axis"
  | .trimmingSeconds => "trimming-seconds"
  | .bucketiseSeconds => "bucketise-seconds"
  | .events => "events"
  | .filter => "filter"
  | .mode => "mode"
  | .excludeSnapshots => "exclude-snapshots"
  | .excludeGerrit => "exclude-gerrit"
  | .format => "format"

/-- The letter, as it stands after one hyphen. -/
def letter? : Flag → Option Char
  | .database => some 'd'
  | .verbose => some 'v'
  | .help => some 'h'
  | .version => some 'V'
  | .file => some 'f'
  | .request => some 'r'
  | _ => none

/-- How many values a flag takes. -/
def arity : Flag → Arity
  | .verbose | .help | .version | .excludeSnapshots | .excludeGerrit => .none
  | .events => .any
  | _ => .one

/-- Whether a flag may be given more than once. -/
def repeatable : Flag → Bool
  | .axis | .events => true
  | _ => false

end Flag

/-- A flag with what its values say. -/
inductive Setting where
  /-- The file with the database. -/
  | database (path : String)
  /-- The most connections that may be open at once. -/
  | poolSize (connections : Nat)
  /-- What versions under review start with. -/
  | gerritPrefix (text : String)
  /-- More messages. -/
  | verbose
  /-- The file with records to import. -/
  | file (path : String)
  /-- The file with a chart request. -/
  | request (path : String)
  /-- The id of a run. -/
  | id (text : String)
  /-- A vertical axis. -/
  | axis (axis : VerticalAxis)
  /-- The seconds at the start of the run that are left out. -/
  | trimmingSeconds (seconds : Int)
  /-- The width of the buckets. -/
  | bucketiseSeconds (seconds : Int)
  /-- The types of the events to be drawn. -/
  | events (types : List String)
  /-- The file with a filter. -/
  | filter (path : String)
  /-- Which versions of each SDK are taken. -/
  | mode (mode : RunFilterMode)
  /-- Leaves snapshots out. -/
  | excludeSnapshots
  /-- Leaves versions under review out. -/
  | excludeGerrit
  /-- How results are written. -/
  | format (format : Format)
deriving DecidableEq, Repr

namespace Setting

/-- The flag of a setting. -/
def flag : Setting → Flag
  | .database _ => .database
  | .poolSize _ => .poolSize
  | .gerritPrefix _ => .gerritPrefix
  | .verbose => .verbose
  | .file _ => .file
  | .request _ => .request
  | .id _ => .id
  | .axis _ => .axis
  | .trimmingSeconds _ => .trimmingSeconds
  | .bucketiseSeconds _ => .bucketiseSeconds
  | .events _ => .events
  | .filter _ => .filter
  | .mode _ => .mode
  | .excludeSnapshots => .excludeSnapshots
  | .excludeGerrit => .excludeGerrit
  | .format _ => .format

/-- A path; the empty text is none. -/
def path? (s : String) : Option String := if s = "" then none else some s

/-- A number of connections; it has to fit into 32 bits. -/
def connections? (s : String) : Option Nat :=
  ((Text.signed64? s).filter fun n => 0 ≤ n && n < 4294967296).map Int.toNat

/-- Commas divide a value into several. -/
def cutAtCommas (values : List String) : List String := values.flatMap (Text.split (· == ','))

/-- The setting that a flag and its values make, if the values fit. -/
def of? : Flag → List String → Option Setting
  | .database, [s] => (path? s).map .database
  | .poolSize, [s] => (connections? s).map .poolSize
  | .gerritPrefix, [s] => some (.gerritPrefix s)
  | .verbose, [] => some .verbose
  | .file, [s] => (path? s).map .file
  | .request, [s] => (path? s).map .request
  | .id, [s] => some (.id s)
  | .axis, [s] => (VerticalAxis.ofArgument s).toOption.map .axis
  | .trimmingSeconds, [s] => (Text.signed64? s).map .trimmingSeconds
  | .bucketiseSeconds, [s] => (Text.signed64? s).map .bucketiseSeconds
  | .events, values => some (.events (cutAtCommas values))
  | .filter, [s] => (path? s).map .filter
  | .mode, [s] => (RunFilterMode.ofArgument s).toOption.map .mode
  | .excludeSnapshots, [] => some .excludeSnapshots
  | .excludeGerrit, [] => some .excludeGerrit
  | .format, [s] => (Format.ofName? s).map .format
  | _, _ => none

end Setting

end BenchCharts.CommandLine

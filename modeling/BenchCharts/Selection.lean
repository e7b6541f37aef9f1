import BenchCharts.Chart.Request
import BenchCharts.Run.Basic
import BenchCharts.Version

/-!
# Selecting runs by SDK version

Runs can be left out because their SDK is a snapshot, or because it was built from a change under
review, which shows in a prefix of the version. In the two latest modes only the runs with the
highest version of each SDK are taken. That version is found among all runs, before any run is left
out, so leaving out the highest version of an SDK leaves out the SDK.

Only a string that is a version, is not under review, and, in the stricter mode, is no snapshot can
be the latest.
-/

namespace BenchCharts

/-- The prefix of versions under review, where none is given. -/
def defaultGerritPrefix : String := "refs/"

/-- Which runs are taken. -/
structure RunSelection where
  /-- Which versions of each SDK. -/
  mode : RunFilterMode
  /-- Whether snapshots are left out. -/
  excludeSnapshots : Bool
  /-- Whether versions under review are left out. -/
  excludeGerrit : Bool
  /-- The prefix of versions under review. -/
  gerritPrefix : String

namespace RunSelection

/-- Whether a version is under review. -/
def isGerrit (s : RunSelection) (version : String) : Bool :=
  s.gerritPrefix.toList.isPrefixOf version.toList

/-- Whether a version can be the latest of its SDK. -/
def eligible (s : RunSelection) (version : String) : Bool :=
  !s.isGerrit version && (Version.parse? version).isSome
    && !(s.mode == .latestNonSnapshot && Version.isSnapshot version)

/-- Language and version of a run whose version can be the latest. -/
def candidate? (s : RunSelection) (run : Run) : Option (String × String) := do
  let language ← run.language?
  let version ← run.version?
  if s.eligible version then some (language, version) else none

/-- The latest versions with one more version of a language taken into account. -/
def takeHigher (latest : List (String × String)) (language version : String) :
    List (String × String) :=
  match latest with
  | [] => [(language, version)]
  | (language', version') :: rest =>
    if language' = language then
      (language, if Version.compare version version' = .gt then version else version') :: rest
    else (language', version') :: takeHigher rest language version

/-- The latest version of each language among some runs. -/
def latestVersions (s : RunSelection) (runs : List Run) : List (String × String) :=
  (runs.filterMap s.candidate?).foldl (fun latest (language, version) =>
    takeHigher latest language version) []

/-- Whether a run is left out for its version alone. -/
def excludes (s : RunSelection) (run : Run) : Bool :=
  run.version?.any fun version =>
    (s.excludeGerrit && s.isGerrit version) || (s.excludeSnapshots && Version.isSnapshot version)

/-- Whether a run has the latest version of its language. -/
def isLatest (latest : List (String × String)) (run : Run) : Bool :=
  match run.language?, run.version? with
  | some language, some version => latest.lookup language == some version
  | _, _ => false

/-- The runs that are taken, in their order. -/
def apply (s : RunSelection) (runs : List Run) : List Run :=
  -- The latest versions are those of all runs, not only of the ones that stay.
  let latest := s.latestVersions runs
  runs.filter fun run =>
    !s.excludes run && (!s.mode.selectsLatest || isLatest latest run)

end RunSelection

end BenchCharts

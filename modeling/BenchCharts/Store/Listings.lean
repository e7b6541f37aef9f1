import BenchCharts.Chart.Response
import BenchCharts.Sorting
import BenchCharts.Store.Basic
import BenchCharts.Store.Lookup
import BenchCharts.Version

/-!
# Reference lists

The cluster versions and the SDKs that occur in the runs of a store, each once and in version order.
Only texts count; a run without a text at the path in question adds nothing. A run that cannot be
searched makes the lists fail.
-/

namespace BenchCharts

/-- The text that the store finds at a path in the parameters of a run. -/
def Run.storedText? (run : Run) (path : String) : Option String :=
  (StoredKey.lookup? (.obj run.params) (FieldPath.keys path)).join.bind Json.text?

/-- Language and version of the SDK of a run, if both are texts. -/
def Run.storedSdk? (run : Run) : Option (String × String) := do
  return (← run.storedText? languagePath, ← run.storedText? versionPath)

/-- Pairs of language and version as a list of SDKs, in the order of their languages. -/
def sdksOf (pairs : List (String × String)) : List SdkInfo :=
  (groupBy compare Prod.fst (distinct pairs)).map fun (language, group) =>
    ⟨language, stableSort Version.compare (group.map Prod.snd)⟩

/-- Whether the parameters of all runs can be searched. -/
def Tables.searchable (t : Tables) : Bool := t.runs.all fun run => (Json.obj run.params).searchable

namespace Store

/-- The cluster versions of all runs. -/
def clusterVersions (s : Store) : Except ChartError (List String) :=
  s.query .clusterVersions fun t =>
    if t.searchable then
      .ok (stableSort Version.compare
        (distinct (t.runs.filterMap (·.storedText? clusterVersionPath))))
    else .error (.store .clusterVersions)

/-- The SDKs of all runs. -/
def sdks (s : Store) : Except ChartError (List SdkInfo) :=
  s.query .sdkVersions fun t =>
    if t.searchable then .ok (sdksOf (t.runs.filterMap Run.storedSdk?))
    else .error (.store .sdkVersions)

end Store

end BenchCharts

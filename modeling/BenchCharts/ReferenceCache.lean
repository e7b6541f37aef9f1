import BenchCharts.Chart.Response

/-!
# The cache of reference lists

The lists of cluster versions and of SDKs change rarely, so each is loaded at most once. A list
that could not be loaded is not kept, and the next call loads it again. Resetting the cache drops
both lists.

Each call tells what it answers, whether it had to load, and what the cache is afterwards.
-/

namespace BenchCharts

/-- The lists that have been loaded. -/
structure ReferenceCache where
  /-- The cluster versions. -/
  versions : Option (List String)
  /-- The SDKs. -/
  sdkInfos : Option (List SdkInfo)
deriving DecidableEq

/-- What a call for a list does. -/
structure Fetched (ε α : Type) where
  /-- The list, or why it could not be loaded. -/
  result : Except ε α
  /-- Whether the list had to be loaded. -/
  loaded : Bool
  /-- The cache afterwards. -/
  cache : ReferenceCache

namespace ReferenceCache

/-- A cache without lists. -/
def empty : ReferenceCache := ⟨none, none⟩

/-- Whether both lists have been loaded. -/
def isPopulated (c : ReferenceCache) : Bool := c.versions.isSome && c.sdkInfos.isSome

/-- The cluster versions, loaded if they are not there. -/
def clusterVersions {ε : Type} (c : ReferenceCache) (load : Unit → Except ε (List String)) :
    Fetched ε (List String) :=
  match c.versions with
  | some list => ⟨.ok list, false, c⟩
  | none =>
    match load () with
    | .ok list => ⟨.ok list, true, { c with versions := some list }⟩
    | .error e => ⟨.error e, true, c⟩

/-- The SDKs, loaded if they are not there. -/
def sdks {ε : Type} (c : ReferenceCache) (load : Unit → Except ε (List SdkInfo)) :
    Fetched ε (List SdkInfo) :=
  match c.sdkInfos with
  | some list => ⟨.ok list, false, c⟩
  | none =>
    match load () with
    | .ok list => ⟨.ok list, true, { c with sdkInfos := some list }⟩
    | .error e => ⟨.error e, true, c⟩

end ReferenceCache

end BenchCharts

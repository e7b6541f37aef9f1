import BenchCharts.Proofs.Store.Listings
import BenchCharts.Proofs.Store.Rows

/-!
# What the reference lists hold

The list of SDKs has each language once, in order, with its versions in order; the list of cluster
versions is in order too. What is in them are the texts at three paths in the parameters of the
runs, as the store reads these. It reads a name up to the first NUL only, so what it finds is what
there is in the parameters after every name has been cut there (`StoredKey.getKeys?_cutNames`).

Nothing that a run has is missed in this way. But a run may come to have a language, a version or a
cluster version only because a name of it is cut, and then it is in the lists all the same.

A run whose parameters are nested too deeply to be searched makes both lists fail.
-/

namespace BenchCharts

/-! ### Names up to a NUL -/

namespace StoredKey

open Json

/-- A name up to the first NUL. -/
def legiblePart (name : String) : String := String.ofList (name.toList.takeWhile (· ≠ '\x00'))

/-- A plain key finds the members with names that begin with it and go on behind a NUL, if at
all. -/
theorem finds_iff_legiblePart {key name : String} (hplain : Plain key) :
    finds key name = true ↔ legiblePart name = key := by
  rw [finds_iff hplain, legiblePart, ← String.toList_inj, String.toList_ofList]

mutual

/-- A value with all names in it cut at the first NUL, except inside arrays. -/
def cutNames : Json → Json
  | .obj fields => .obj (cutFields fields)
  | .null => .null
  | .bool b => .bool b
  | .num n => .num n
  | .str s => .str s
  | .arr items => .arr items

/-- Members with all names in them cut at the first NUL. -/
def cutFields : Fields → Fields
  | [] => []
  | (name, value) :: rest => (legiblePart name, cutNames value) :: cutFields rest

end

theorem text?_cutNames (j : Json) : (cutNames j).text? = j.text? := by
  cases j <;> rfl

/-- A plain key finds the first member that has the key for its name when names are cut. -/
theorem get?_cutFields {key : String} (hplain : Plain key) (fields : Fields) :
    (cutFields fields).get? key =
      (fields.find? fun field => finds key field.1).map fun field => cutNames field.2 := by
  induction fields with
  | nil => rfl
  | cons member rest ih =>
    obtain ⟨name, value⟩ := member
    rw [cutFields, Fields.get?_cons, List.find?_cons, ih]
    by_cases hname : legiblePart name = key
    · rw [if_pos hname, (finds_iff_legiblePart hplain).2 hname]
      rfl
    -- A name that is not found does not become the key by being cut.
    · have hskip : finds key name = false :=
        Bool.eq_false_iff.2 (mt (finds_iff_legiblePart hplain).1 hname)
      rw [if_neg hname, hskip]

/-- **What the store finds at plain keys** is what is there when names are cut. -/
theorem getKeys?_cutNames {keys : List String} (hplain : ∀ key ∈ keys, Plain key) (j : Json) :
    (cutNames j).getKeys? keys = (lookup? j keys).join.map cutNames := by
  induction keys generalizing j with
  | nil => rw [getKeys?_nil, lookup?]; rfl
  | cons key more ih =>
    obtain ⟨hkey, hmore⟩ := List.forall_mem_cons.1 hplain
    -- Both go on from the first member that the key finds.
    rw [lookup?_cons hkey]
    cases j with
    -- Only an object has members to go on to.
    | obj fields =>
      rw [cutNames, getKeys?_obj, Fields.getKeys?, get?_cutFields hkey]
      simp only [fields?, Option.getD_some]
      cases fields.find? fun field => finds key field.1 with
      | none => rfl
      | some field => exact ih hmore field.2
    | _ => rfl

end StoredKey

namespace Run

/-- A run as the store reads it, with the names in its parameters cut at the first NUL. -/
def asRead (run : Run) : Run := { run with params := StoredKey.cutFields run.params }

/-- What the store finds at a plain path is the text there in the run as it reads it. -/
theorem storedText?_eq_asRead (run : Run) {path : String}
    (hplain : ∀ key ∈ FieldPath.keys path, StoredKey.Plain key) :
    run.storedText? path = run.asRead.params.textAt? path := by
  have hcut := StoredKey.getKeys?_cutNames hplain (.obj run.params)
  rw [StoredKey.cutNames, Json.Fields.getKeys?_keys] at hcut
  rw [storedText?, asRead, Json.Fields.textAt?, hcut, Option.bind_map]
  -- Cutting names inside a value does not change what text it is.
  exact Option.bind_congr fun value _ => (StoredKey.text?_cutNames value).symm

theorem storedSdk?_eq_some_iff_asRead {run : Run} {language version : String} :
    run.storedSdk? = some (language, version) ↔
      run.asRead.language? = some language ∧ run.asRead.version? = some version := by
  rw [storedSdk?_eq_some_iff, storedText?_eq_asRead run plain_of_mem_languagePath,
    storedText?_eq_asRead run plain_of_mem_versionPath]
  rfl

/-- No text at a plain path is lost when names are cut. -/
theorem textAt?_asRead {run : Run} (hnormal : (Json.obj run.params).Normal) {path text : String}
    (hplain : ∀ key ∈ FieldPath.keys path, StoredKey.Plain key)
    (htext : run.params.textAt? path = some text) : run.asRead.params.textAt? path = some text := by
  rw [← storedText?_eq_asRead run hplain, storedText?_of_textAt? hnormal hplain htext]

/-- None is added if there is nothing to cut. -/
theorem textAt?_asRead_of_legible {run : Run} (hnames : StoredKey.NamesLegible (.obj run.params))
    {path : String} (hplain : ∀ key ∈ FieldPath.keys path, StoredKey.Plain key) :
    run.asRead.params.textAt? path = run.params.textAt? path := by
  rw [← storedText?_eq_asRead run hplain, storedText?_eq_textAt? hnames hplain]

end Run

/-! ### The lists -/

/-- Versions with some property, each once and in their order. -/
structure IsVersionList (versions : List String) (p : String → Prop) : Prop where
  /-- They ascend. -/
  ascending : versions.Pairwise (Version.compare · · = .lt)
  /-- They are those with the property. -/
  mem_iff : ∀ version, version ∈ versions ↔ p version

/-- Languages and versions that have some property together, each once and in their order. -/
structure IsSdkList (infos : List SdkInfo) (p : String → String → Prop) : Prop where
  /-- The languages ascend. -/
  languages : (infos.map SdkInfo.language).Pairwise (compare · · = .lt)
  /-- Each has versions, and they ascend. -/
  versions : ∀ info ∈ infos, info.versions ≠ [] ∧
    info.versions.Pairwise (Version.compare · · = .lt)
  /-- They are those with the property. -/
  mem_iff : ∀ language version,
    (∃ info ∈ infos, info.language = language ∧ version ∈ info.versions) ↔ p language version

theorem IsVersionList.congr {versions : List String} {p q : String → Prop}
    (h : IsVersionList versions p) (hpq : ∀ version, p version ↔ q version) :
    IsVersionList versions q :=
  ⟨h.ascending, fun version => (h.mem_iff version).trans (hpq version)⟩

theorem IsSdkList.congr {infos : List SdkInfo} {p q : String → String → Prop}
    (h : IsSdkList infos p) (hpq : ∀ language version, p language version ↔ q language version) :
    IsSdkList infos q :=
  ⟨h.languages, h.versions, fun language version =>
    (h.mem_iff language version).trans (hpq language version)⟩

/-- Distinct texts in version order. -/
theorem isVersionList_stableSort {texts : List String} (hnodup : texts.Nodup) :
    IsVersionList (stableSort Version.compare texts) (· ∈ texts) where
  ascending := pairwise_lt_stableSort <|
    hnodup.imp fun hne heq => hne (Std.LawfulEqCmp.eq_of_compare heq)
  mem_iff _ := mem_stableSort

theorem mem_sdksOf_iff {pairs : List (String × String)} {info : SdkInfo} :
    info ∈ sdksOf pairs ↔
      (∃ version, (info.language, version) ∈ pairs) ∧
        info.versions = stableSort Version.compare (versionsIn pairs info.language) := by
  obtain ⟨language, versions⟩ := info
  rw [sdksOf_eq_map, List.mem_map]
  constructor
  -- An entry is there for a language that occurs with some version.
  · rintro ⟨language', hlanguage, hinfo⟩
    cases hinfo
    rw [mem_stableSort, mem_distinct] at hlanguage
    obtain ⟨⟨_, version⟩, hpair, rfl⟩ := List.mem_map.1 hlanguage
    exact ⟨⟨version, mem_distinct.1 hpair⟩, rfl⟩
  · rintro ⟨⟨version, hpair⟩, hversions⟩
    refine ⟨language, ?_, congrArg (SdkInfo.mk language) hversions.symm⟩
    rw [mem_stableSort, mem_distinct]
    exact List.mem_map.2 ⟨_, mem_distinct.2 hpair, rfl⟩

/-- The list of some pairs of language and version. -/
theorem isSdkList_sdksOf (pairs : List (String × String)) :
    IsSdkList (sdksOf pairs) fun language version => (language, version) ∈ pairs where
  languages := by
    rw [sdksOf, List.map_map]
    exact pairwise_lt_groupBy (distinct pairs)
  versions := by
    intro info hinfo
    obtain ⟨⟨version, hpair⟩, hversions⟩ := mem_sdksOf_iff.1 hinfo
    -- A language is there because of some pair, whose version is one of its own.
    have hlist := isVersionList_stableSort (nodup_versionsIn pairs info.language)
    rw [hversions]
    refine ⟨List.ne_nil_of_mem ((hlist.mem_iff version).2 (mem_versionsIn.2 hpair)), ?_⟩
    exact hlist.ascending
  mem_iff := by
    intro language version
    constructor
    · rintro ⟨info, hinfo, rfl, hversion⟩
      rw [(mem_sdksOf_iff.1 hinfo).2, mem_stableSort, mem_versionsIn] at hversion
      exact hversion
    -- The language of the pair has an entry, and the version is in it.
    · intro hpair
      refine ⟨⟨language, stableSort Version.compare (versionsIn pairs language)⟩,
        mem_sdksOf_iff.2 ⟨⟨version, hpair⟩, rfl⟩, rfl, ?_⟩
      rw [mem_stableSort, mem_versionsIn]
      exact hpair

/-! ### The lists of a store -/

/-- Some run has an SDK of this language and version. -/
def HasSdk (runs : List Run) (language version : String) : Prop :=
  ∃ run ∈ runs, run.language? = some language ∧ run.version? = some version

/-- Some run has this cluster version. -/
def HasClusterVersion (runs : List Run) (version : String) : Prop :=
  ∃ run ∈ runs, run.params.textAt? clusterVersionPath = some version

theorem plain_of_mem_clusterVersionPath :
    ∀ key ∈ FieldPath.keys clusterVersionPath, StoredKey.Plain key := by decide

section Runs

variable {runs : List Run} {language version : String}

/-- The store finds the SDKs of the runs as it reads them. -/
theorem mem_storedSdks_iff :
    (language, version) ∈ runs.filterMap Run.storedSdk? ↔
      HasSdk (runs.map Run.asRead) language version := by
  rw [List.mem_filterMap, HasSdk]
  simp only [List.mem_map, exists_exists_and_eq_and, Run.storedSdk?_eq_some_iff_asRead]

theorem mem_storedClusterVersions_iff :
    version ∈ runs.filterMap (·.storedText? clusterVersionPath) ↔
      HasClusterVersion (runs.map Run.asRead) version := by
  rw [List.mem_filterMap, HasClusterVersion]
  simp only [List.mem_map, exists_exists_and_eq_and,
    fun run => Run.storedText?_eq_asRead run plain_of_mem_clusterVersionPath]

theorem HasSdk.asRead (hnormal : ∀ run ∈ runs, (Json.obj run.params).Normal)
    (h : HasSdk runs language version) : HasSdk (runs.map Run.asRead) language version := by
  obtain ⟨run, hrun, hlanguage, hversion⟩ := h
  exact ⟨run.asRead, List.mem_map_of_mem hrun,
    Run.textAt?_asRead (hnormal run hrun) plain_of_mem_languagePath hlanguage,
    Run.textAt?_asRead (hnormal run hrun) plain_of_mem_versionPath hversion⟩

theorem HasClusterVersion.asRead (hnormal : ∀ run ∈ runs, (Json.obj run.params).Normal)
    (h : HasClusterVersion runs version) : HasClusterVersion (runs.map Run.asRead) version := by
  obtain ⟨run, hrun, hversion⟩ := h
  exact ⟨run.asRead, List.mem_map_of_mem hrun,
    Run.textAt?_asRead (hnormal run hrun) plain_of_mem_clusterVersionPath hversion⟩

theorem hasSdk_asRead_iff (hnames : ∀ run ∈ runs, StoredKey.NamesLegible (.obj run.params)) :
    HasSdk (runs.map Run.asRead) language version ↔ HasSdk runs language version := by
  simp only [HasSdk, List.mem_map, exists_exists_and_eq_and]
  refine exists_congr fun run => and_congr_right fun hrun => ?_
  rw [Run.language?, Run.textAt?_asRead_of_legible (hnames run hrun) plain_of_mem_languagePath,
    Run.version?, Run.textAt?_asRead_of_legible (hnames run hrun) plain_of_mem_versionPath]
  rfl

theorem hasClusterVersion_asRead_iff
    (hnames : ∀ run ∈ runs, StoredKey.NamesLegible (.obj run.params)) :
    HasClusterVersion (runs.map Run.asRead) version ↔ HasClusterVersion runs version := by
  simp only [HasClusterVersion, List.mem_map, exists_exists_and_eq_and]
  refine exists_congr fun run => and_congr_right fun hrun => ?_
  rw [Run.textAt?_asRead_of_legible (hnames run hrun) plain_of_mem_clusterVersionPath]

end Runs

namespace Store

variable {s : Store} {t : Tables}

theorem sdks_of_tables (ht : s.tables = some t) (hsearch : t.searchable = true) :
    s.sdks = .ok (sdksOf (t.runs.filterMap Run.storedSdk?)) :=
  (query_of_tables ht _ _).trans (if_pos hsearch)

theorem clusterVersions_of_tables (ht : s.tables = some t) (hsearch : t.searchable = true) :
    s.clusterVersions = .ok (stableSort Version.compare
      (distinct (t.runs.filterMap (·.storedText? clusterVersionPath)))) :=
  (query_of_tables ht _ _).trans (if_pos hsearch)

/-- Both lists fail if some run cannot be searched. -/
theorem referenceLists_of_not_searchable (ht : s.tables = some t)
    (hsearch : t.searchable = false) :
    s.sdks = .error (.store .sdkVersions) ∧
      s.clusterVersions = .error (.store .clusterVersions) := by
  have hnot : ¬ t.searchable = true := by simp [hsearch]
  exact ⟨(query_of_tables ht _ _).trans (if_neg hnot),
    (query_of_tables ht _ _).trans (if_neg hnot)⟩

/-- **What the reference lists hold.** Both lists are there if all runs can be searched, and neither
is if some run cannot. Each language and each version is in them once and in its order, and they
hold what the runs have when their names are cut at the first NUL. Nothing that the runs have
themselves is missing, and there is nothing else if no name in the parameters of a run has a NUL. -/
theorem referenceLists_hold (hs : s.Reachable) (ht : s.tables = some t) :
    (t.searchable = false → s.sdks = .error (.store .sdkVersions) ∧
      s.clusterVersions = .error (.store .clusterVersions)) ∧
    (t.searchable = true →
      ∃ infos versions, s.sdks = .ok infos ∧ s.clusterVersions = .ok versions ∧
        IsSdkList infos (HasSdk (t.runs.map Run.asRead)) ∧
        IsVersionList versions (HasClusterVersion (t.runs.map Run.asRead)) ∧
        (∀ language version, HasSdk t.runs language version →
          ∃ info ∈ infos, info.language = language ∧ version ∈ info.versions) ∧
        (∀ version, HasClusterVersion t.runs version → version ∈ versions) ∧
        ((∀ run ∈ t.runs, StoredKey.NamesLegible (.obj run.params)) →
          IsSdkList infos (HasSdk t.runs) ∧
            IsVersionList versions (HasClusterVersion t.runs))) := by
  refine ⟨referenceLists_of_not_searchable ht, fun hsearch => ?_⟩
  have hparams := (hs.wellFormed t ht).params
  -- The lists of what the store finds, which is what the runs have as it reads them.
  have hsdks : IsSdkList (sdksOf (t.runs.filterMap Run.storedSdk?))
      (HasSdk (t.runs.map Run.asRead)) :=
    (isSdkList_sdksOf _).congr fun language version => mem_storedSdks_iff
  have hversions : IsVersionList
      (stableSort Version.compare (distinct (t.runs.filterMap (·.storedText? clusterVersionPath))))
      (HasClusterVersion (t.runs.map Run.asRead)) :=
    (isVersionList_stableSort (nodup_distinct _)).congr fun version =>
      mem_distinct.trans mem_storedClusterVersions_iff
  refine ⟨_, _, sdks_of_tables ht hsearch, clusterVersions_of_tables ht hsearch, hsdks, hversions,
    ?_, ?_, ?_⟩
  -- What a run has it still has when names are cut, and no more is cut if all are legible.
  · exact fun language version h => (hsdks.mem_iff language version).2 (h.asRead hparams)
  · exact fun version h => (hversions.mem_iff version).2 (h.asRead hparams)
  · intro hnames
    exact ⟨hsdks.congr fun language version => hasSdk_asRead_iff hnames,
      hversions.congr fun version => hasClusterVersion_asRead_iff hnames⟩

end Store

/-- A record of a run with a version of a Java SDK and a cluster version, under some names. -/
def RunRecord.ofVersions (id clusterName sdkName : String) (clusterVersion version : Json) :
    RunRecord :=
  let record := RunRecord.ofParams
    [(clusterName, .obj [("version", clusterVersion)]),
      (sdkName, .obj [("language", .str "Java"), ("version", version)])]
  { record with run := { record.run with id } }

theorem RunRecord.normal_ofVersions {id clusterName sdkName : String}
    {clusterVersion version : Json} (hnames : compare clusterName sdkName = .lt)
    (hcluster : clusterVersion.Normal) (hversion : version.Normal) :
    (ofVersions id clusterName sdkName clusterVersion version).Normal := by
  refine ⟨?_, by simp [ofVersions, ofParams], by simp [ofVersions, ofParams],
    by simp [ofVersions, ofParams]⟩
  have hkeys : compare "language" "version" = .lt := by decide
  simp [ofVersions, ofParams, Json.Normal, Json.NormalFields, Json.Fields.Ascending, hkeys, hnames,
    hcluster, hversion]

/-- The names in the record are legible if the two that it is given are. -/
theorem RunRecord.namesLegible_ofVersions {id clusterName sdkName : String}
    {clusterVersion version : Json} (hcluster : '\x00' ∉ clusterName.toList)
    (hsdk : '\x00' ∉ sdkName.toList) (hscalars : clusterVersion.isObject = false)
    (hscalars' : version.isObject = false) :
    StoredKey.NamesLegible
      (.obj (ofVersions id clusterName sdkName clusterVersion version).run.params) := by
  refine StoredKey.namesLegible_obj fun member hmember => ?_
  have hlanguage : (Json.str "Java").isObject = false := rfl
  simp only [ofVersions, ofParams, List.mem_cons, List.not_mem_nil, or_false] at hmember
  -- Both members are objects with scalars in them.
  rcases hmember with rfl | rfl
  · exact ⟨hcluster, StoredKey.namesLegible_of_flat (by simp [hscalars])⟩
  · exact ⟨hsdk, StoredKey.namesLegible_of_flat (by simp [hlanguage, hscalars'])⟩

namespace Store

/-- Two versions that are in another order as texts, and a run without a version. -/
theorem referenceLists_hold_threeRuns :
    let records : List RunRecord :=
      [.ofVersions "a" "cluster" "impl" (.str "7.2.0") (.str "3.0.10"),
        .ofVersions "b" "cluster" "impl" (.str "7.2.0") (.str "3.0.9"),
        .ofVersions "c" "cluster" "impl" .null (.num (.int 3))]
    let s : Store := ⟨some (.ofRecords records)⟩
    s.Reachable ∧ s.sdks = .ok [⟨"Java", ["3.0.9", "3.0.10"]⟩] ∧ s.clusterVersions = .ok ["7.2.0"] ∧
      IsSdkList [⟨"Java", ["3.0.9", "3.0.10"]⟩] (HasSdk (records.map RunRecord.run)) ∧
      IsVersionList ["7.2.0"] (HasClusterVersion (records.map RunRecord.run)) := by
  intro records s
  have hkeys : compare "cluster" "impl" = .lt := by decide
  have hreachable : s.Reachable := by
    refine .ofRecords (by simp [records, Tables.recordIds, RunRecord.ofVersions]) ?_
    simp only [records, List.mem_cons, List.not_mem_nil, or_false]
    rintro record (rfl | rfl | rfl) <;> exact RunRecord.normal_ofVersions hkeys trivial trivial
  have hnames : ∀ run ∈ records.map RunRecord.run, StoredKey.NamesLegible (.obj run.params) := by
    simp only [records, List.map_cons, List.map_nil, List.mem_cons, List.not_mem_nil, or_false]
    rintro run (rfl | rfl | rfl) <;>
      exact RunRecord.namesLegible_ofVersions (by decide) (by decide) rfl rfl
  have hsearch : (Tables.ofRecords records).searchable = true := by decide
  obtain ⟨infos, versions, hinfos, hversions, -, -, -, -, hlegible⟩ :=
    (referenceLists_hold hreachable rfl).2 hsearch
  -- No name has a NUL, so the lists are those of the runs themselves.
  obtain ⟨hsdkList, hversionList⟩ := hlegible hnames
  -- Both lists are computed, and are the ones that the theorem speaks of.
  have hlist : sdksOf ((Tables.ofRecords records).runs.filterMap Run.storedSdk?) =
      [⟨"Java", ["3.0.9", "3.0.10"]⟩] := by decide +kernel
  have hlist' : stableSort Version.compare (distinct
      ((Tables.ofRecords records).runs.filterMap (·.storedText? clusterVersionPath))) =
        ["7.2.0"] := by decide +kernel
  have hsdks : s.sdks = .ok [⟨"Java", ["3.0.9", "3.0.10"]⟩] :=
    hlist ▸ sdks_of_tables rfl hsearch
  have hcluster : s.clusterVersions = .ok ["7.2.0"] :=
    hlist' ▸ clusterVersions_of_tables rfl hsearch
  obtain rfl := Except.ok.inj (hsdks.symm.trans hinfos)
  obtain rfl := Except.ok.inj (hcluster.symm.trans hversions)
  exact ⟨hreachable, hsdks, hcluster, hsdkList, hversionList⟩

/-- Names that agree with `cluster` and `impl` up to a NUL. The run has neither an SDK nor a cluster
version, but both are listed. -/
theorem not_referenceLists_hold_nul :
    let record := RunRecord.ofVersions "a" "cluster\x00" "impl\x00" (.str "7.2.0") (.str "1")
    (single record).Reachable ∧ (single record).tables = some (Tables.ofRecords [record]) ∧
      (single record).sdks = .ok [⟨"Java", ["1"]⟩] ∧
      (single record).clusterVersions = .ok ["7.2.0"] ∧ record.run.language? = none ∧
      record.run.params.textAt? clusterVersionPath = none ∧
      ¬ IsSdkList [⟨"Java", ["1"]⟩] (HasSdk [record.run]) ∧
      ¬ IsVersionList ["7.2.0"] (HasClusterVersion [record.run]) := by
  intro record
  have hlist : sdksOf ((Tables.ofRecords [record]).runs.filterMap Run.storedSdk?) =
      [⟨"Java", ["1"]⟩] := by decide +kernel
  have hlist' : stableSort Version.compare (distinct
      ((Tables.ofRecords [record]).runs.filterMap (·.storedText? clusterVersionPath))) =
        ["7.2.0"] := by decide +kernel
  have htables : (single record).tables = some (Tables.ofRecords [record]) := rfl
  -- Read as they are, the parameters have neither of the two names.
  have hlanguage : record.run.language? = none := rfl
  have hcluster : record.run.params.textAt? clusterVersionPath = none := rfl
  have hsearch : (Tables.ofRecords [record]).searchable = true := by decide
  refine ⟨.single (RunRecord.normal_ofVersions (by decide) trivial trivial), htables,
    hlist ▸ sdks_of_tables htables hsearch, hlist' ▸ clusterVersions_of_tables htables hsearch,
    hlanguage, hcluster, fun hsdks => ?_, fun hversions => ?_⟩
  -- What is listed would have to be in the run, but the run has nothing there.
  · obtain ⟨run, hrun, hhas, -⟩ := (hsdks.mem_iff "Java" "1").1 ⟨_, List.mem_singleton.2 rfl, rfl,
      List.mem_singleton.2 rfl⟩
    obtain rfl := List.mem_singleton.1 hrun
    rw [hlanguage] at hhas
    cases hhas
  · obtain ⟨run, hrun, hhas⟩ := (hversions.mem_iff "7.2.0").1 (List.mem_singleton.2 rfl)
    obtain rfl := List.mem_singleton.1 hrun
    rw [hcluster] at hhas
    cases hhas

end Store

end BenchCharts

import BenchCharts.Proofs.Dashboard
import BenchCharts.Proofs.Selection
import BenchCharts.Proofs.Store.Listings
import BenchCharts.Proofs.Store.Rows

/-!
# Latest versions and the list of SDKs

In the latest modes a selection takes, of each language, the runs with the greatest eligible
version. The list of SDKs has the versions of a language in ascending order, so that should be the
last one of them that is eligible: a selection then `KeepsLastListed`.

Both go by the same order. They differ in how they read a run, since the list has what the store
finds, and that can be more than the run has. Such a version is `Misread`.

* `mem_apply_iff` — the runs that are taken, in terms of the runs as they are read;
* `lastListed?_eq_some_iff` — the last version in the list, in terms of what the store finds;
* `runs_keepsLastListed_iff` — the two lead to the same runs of a language exactly if no version
  that is misread exceeds its greatest one.
-/

namespace BenchCharts

/-! ### All runs -/

/-- All runs as they are found, in stored order. -/
def Tables.loadedRuns (t : Tables) : List Run :=
  (stableSort Run.compareStored t.runs).map Run.loaded

theorem Tables.mem_loadedRuns {t : Tables} {run : Run} :
    run ∈ t.loadedRuns ↔ ∃ stored ∈ t.runs, stored.loaded = run := by
  rw [loadedRuns, List.mem_map]
  simp only [mem_stableSort]

theorem Tables.exists_mem_loadedRuns_iff {t : Tables} {language version : String} :
    (∃ run ∈ t.loadedRuns, run.language? = some language ∧ run.version? = some version) ↔
      ∃ run ∈ t.runs, run.language? = some language ∧ run.version? = some version := by
  simp only [mem_loadedRuns, exists_exists_and_eq_and, Run.language?_loaded, Run.version?_loaded]

/-- All runs of a store can be read. -/
def Tables.AllReadable (t : Tables) : Prop := ∀ run ∈ t.runs, (Json.obj run.params).readable = true

instance (t : Tables) : Decidable t.AllReadable :=
  inferInstanceAs (Decidable (∀ run ∈ t.runs, _))

/-- What can be read can be searched. -/
theorem Tables.AllReadable.searchable {t : Tables} (h : t.AllReadable) : t.searchable = true :=
  List.all_eq_true.2 fun run hrun => Json.searchable_of_readable (h run hrun)

namespace Store

variable {s : Store} {t : Tables} (ht : s.tables = some t)

include ht

/-- The empty filter lets all runs through, if they can be read. -/
theorem runs_nil (hread : t.AllReadable) (selection : RunSelection) :
    s.runs [] selection = .ok (selection.apply t.loadedRuns) := by
  -- Without clauses, pattern and exclusions, none of the passes of a search drops a run.
  let compiled : CompiledFilter := ⟨[], [], []⟩
  have hcandidates : t.runs.filter (fun run => acceptsAll? run.params [] == some true) = t.runs :=
    List.filter_eq_self.2 fun run _ => rfl
  have hcontains : t.loadedRuns.filter compiled.contains = t.loadedRuns :=
    List.filter_eq_self.2 fun run _ => by rw [CompiledFilter.contains, Json.containsFields]
  have hexclusions : compiled.applyExclusions t.loadedRuns = t.loadedRuns :=
    List.filter_eq_self.2 fun run _ => rfl
  have hfound : s.findRuns compiled = .ok t.loadedRuns := by
    have hcan : CanFind t compiled :=
      ⟨by decide, fun run hrun => ⟨rfl, fun _ => hread run hrun⟩⟩
    refine (findRuns_eq_ok_iff ht).2 ⟨hcan, ?_⟩
    rw [hcandidates]
    exact hcontains.symm
  rw [runs_of_compile s CompiledFilter.compile_nil, hfound]
  exact congrArg (fun runs => Except.ok (selection.apply runs)) hexclusions

/-- One run that cannot be read makes the search fail. -/
theorem runs_nil_of_not_allReadable (hread : ¬ t.AllReadable) (selection : RunSelection) :
    s.runs [] selection = .error (.store .findRuns) := by
  have hfails : s.findRuns ⟨[], [], []⟩ = .error (.store .findRuns) := by
    rw [findRuns, query_of_tables ht, answer_eq_error_iff]
    refine Option.eq_none_iff_forall_ne_some.2 fun found hfound => hread fun run hrun => ?_
    -- A search that succeeds has read every run that it has found, and without clauses it finds
    -- all.
    have hok : s.findRuns ⟨[], [], []⟩ = .ok found :=
      (query_of_tables ht _ _).trans (answer_eq_ok_iff.2 hfound)
    exact (((findRuns_eq_ok_iff ht).1 hok).1.2 run hrun).2 rfl
  rw [runs_of_compile s CompiledFilter.compile_nil, hfails]
  rfl

end Store

namespace RunSelection

variable {s : RunSelection}

/-- A selection of the latest versions that leaves out nothing else. -/
structure OnlyLatest (s : RunSelection) : Prop where
  /-- Only the latest versions are taken. -/
  latest : s.mode ≠ .all
  /-- Snapshots stay. -/
  keepsSnapshots : s.excludeSnapshots = false
  /-- Versions under review stay. -/
  keepsGerrit : s.excludeGerrit = false

/-- **The runs that are taken** are those with the greatest version of their language. -/
theorem mem_apply_iff (h : s.OnlyLatest) {runs : List Run} {run : Run} :
    run ∈ s.apply runs ↔ run ∈ runs ∧ ∃ language version, run.language? = some language ∧
      run.version? = some version ∧ s.Greatest runs language version := by
  -- Nothing is left out but older versions.
  have hstays : s.excludes run = false := by
    rw [excludes_eq_false_iff]
    intro version _ hexcluded
    simp [Excluded, h.keepsSnapshots, h.keepsGerrit] at hexcluded
  rw [apply, List.mem_filter]
  refine and_congr_right fun hrun => ?_
  rw [hstays, selectsLatest_iff.2 h.latest, ← isLatest_iff hrun]
  rfl

/-! ### The last version in the list -/

/-- The last version of a language in a list of SDKs that is eligible. -/
def lastListed? (s : RunSelection) (infos : List SdkInfo) (language : String) : Option String :=
  ((versionsOf infos language).filter s.eligible).getLast?

/-- The last version in the list is the greatest of those that occur with the language. -/
theorem lastListed?_eq_some_iff {pairs : List (String × String)} {language version : String} :
    s.lastListed? (sdksOf pairs) language = some version ↔
      ((language, version) ∈ pairs ∧ s.Eligible version) ∧
        ∀ other, (language, other) ∈ pairs → s.Eligible other →
          Version.compare other version ≠ .gt := by
  -- The list ascends, and so does what is eligible in it.
  have hascending := (pairwise_versionsOf_sdksOf pairs language).filter s.eligible
  rw [lastListed?, getLast?_eq_some_iff_of_pairwise_lt hascending]
  simp only [List.mem_filter, mem_versionsOf_sdksOf, eligible_iff, and_imp, Ordering.isLE_iff_ne_gt]

/-- Of a language, exactly the runs are kept whose version is the last eligible one in a list of
SDKs. -/
def KeepsLastListed (s : RunSelection) (infos : List SdkInfo) (runs kept : List Run)
    (language : String) : Prop :=
  ∀ run ∈ runs, run.language? = some language →
    (run ∈ kept ↔
      ∃ version, run.version? = some version ∧ s.lastListed? infos language = some version)

end RunSelection

/-! ### What the store finds and what runs have -/

/-- The store finds a language and a version that are not those of the run. -/
structure Run.Misread (run : Run) (language version : String) : Prop where
  /-- The store finds them. -/
  found : run.storedSdk? = some (language, version)
  /-- They are not there. -/
  notThere : ¬ (run.language? = some language ∧ run.version? = some version)

/-- Nothing is misread if all names are legible. -/
theorem Run.not_misread_of_legible {run : Run} (hnames : StoredKey.NamesLegible (.obj run.params))
    (language version : String) : ¬ run.Misread language version := fun hmisread =>
  hmisread.notThere ((storedSdk?_eq_some_iff_of_legible hnames).1 hmisread.found)

namespace Tables

/-- The languages and versions that the store finds. -/
def sdkPairs (t : Tables) : List (String × String) := t.runs.filterMap Run.storedSdk?

variable {t : Tables} {selection : RunSelection} {language version : String}

/-- What a run has is in the list. -/
theorem WellFormed.mem_sdkPairs (ht : t.WellFormed) {run : Run} (hrun : run ∈ t.loadedRuns)
    (hlanguage : run.language? = some language) (hversion : run.version? = some version) :
    (language, version) ∈ t.sdkPairs := by
  obtain ⟨stored, hstored, hsdk⟩ :=
    exists_mem_loadedRuns_iff.1 ⟨run, hrun, hlanguage, hversion⟩
  exact List.mem_filterMap.2
    ⟨stored, hstored, Run.storedSdk?_of_sdk (ht.params stored hstored) hsdk.1 hsdk.2⟩

/-- No eligible version that a run has exceeds the last one in the list. -/
theorem WellFormed.greatest_of_lastListed? (ht : t.WellFormed)
    (hlast : selection.lastListed? (sdksOf t.sdkPairs) language = some version) :
    selection.Greatest t.loadedRuns language version := by
  obtain ⟨⟨-, heligible⟩, hhighest⟩ := RunSelection.lastListed?_eq_some_iff.1 hlast
  -- Whatever a run has is listed, too.
  refine ⟨heligible, fun run hrun hlanguage other hother hoeligible => ?_⟩
  exact hhighest other (ht.mem_sdkPairs hrun hlanguage hother) hoeligible

/-- The greatest version that a run has is the last one in the list exactly if no version that is
misread exceeds it. -/
theorem WellFormed.lastListed?_iff_of_greatest (ht : t.WellFormed) {run : Run}
    (hrun : run ∈ t.loadedRuns) (hlanguage : run.language? = some language)
    (hversion : run.version? = some version)
    (hgreatest : selection.Greatest t.loadedRuns language version) :
    selection.lastListed? (sdksOf t.sdkPairs) language = some version ↔
      ∀ misread ∈ t.runs, ∀ other, misread.Misread language other → selection.Eligible other →
        Version.compare other version ≠ .gt := by
  rw [RunSelection.lastListed?_eq_some_iff,
    and_iff_right ⟨ht.mem_sdkPairs hrun hlanguage hversion, hgreatest.eligible⟩]
  constructor
  · intro hhighest misread hmisread other hother heligible
    exact hhighest other (List.mem_filterMap.2 ⟨misread, hmisread, hother.found⟩) heligible
  · intro hhighest other hother heligible
    obtain ⟨stored, hstored, hfound⟩ := List.mem_filterMap.1 hother
    -- A version in the list is one that some run has, or it is misread.
    by_cases hthere : stored.language? = some language ∧ stored.version? = some other
    · -- Versions that runs have do not exceed the greatest one anyway.
      obtain ⟨run', hrun', hlanguage', hversion'⟩ :=
        exists_mem_loadedRuns_iff.2 ⟨stored, hstored, hthere⟩
      exact hgreatest.highest run' hrun' hlanguage' other hversion' heligible
    · exact hhighest stored hstored other ⟨hfound, hthere⟩ heligible

/-- A version that is misread exceeds the greatest one that runs of the language have. -/
def MisreadExceeds (t : Tables) (selection : RunSelection) (language : String) : Prop :=
  ∃ version, (∃ run ∈ t.loadedRuns, run.language? = some language ∧ run.version? = some version) ∧
    selection.Greatest t.loadedRuns language version ∧
      ∃ misread ∈ t.runs, ∃ other, misread.Misread language other ∧ selection.Eligible other ∧
        Version.compare other version = .gt

theorem not_misreadExceeds_of_legible
    (hnames : ∀ run ∈ t.runs, StoredKey.NamesLegible (.obj run.params)) :
    ¬ t.MisreadExceeds selection language := by
  rintro ⟨-, -, -, misread, hmisread, other, hother, -⟩
  exact misread.not_misread_of_legible (hnames misread hmisread) language other hother

theorem WellFormed.exists_listed_of_mem_apply (ht : t.WellFormed) (honly : selection.OnlyLatest)
    {run : Run} (hkept : run ∈ selection.apply t.loadedRuns) :
    ∃ language version, run.language? = some language ∧ run.version? = some version ∧
      selection.Eligible version ∧ version ∈ versionsOf (sdksOf t.sdkPairs) language := by
  obtain ⟨hrun, language, version, hlanguage, hversion, hgreatest⟩ :=
    (RunSelection.mem_apply_iff honly).1 hkept
  refine ⟨language, version, hlanguage, hversion, hgreatest.eligible, ?_⟩
  exact mem_versionsOf_sdksOf.2 (ht.mem_sdkPairs hrun hlanguage hversion)

/-- The last eligible version in the list makes out the runs that are kept, unless one that is
misread exceeds them all. -/
theorem WellFormed.keepsLastListed_iff (ht : t.WellFormed) (honly : selection.OnlyLatest) :
    selection.KeepsLastListed (sdksOf t.sdkPairs) t.loadedRuns (selection.apply t.loadedRuns)
        language ↔
      ¬ t.MisreadExceeds selection language := by
  constructor
  · rintro hkeeps ⟨version, ⟨run, hrun, hlanguage, hversion⟩, hgreatest, misread, hmisread, other,
      hother, heligible, hgt⟩
    -- The run is kept, so its version is the last one in the list, where the other one is too.
    have hkept := (RunSelection.mem_apply_iff honly).2
      ⟨hrun, language, version, hlanguage, hversion, hgreatest⟩
    obtain ⟨version', hversion', hlast⟩ := (hkeeps run hrun hlanguage).1 hkept
    obtain rfl := Option.some.inj (hversion.symm.trans hversion')
    have hhighest := (ht.lastListed?_iff_of_greatest hrun hlanguage hversion hgreatest).1 hlast
    exact hhighest misread hmisread other hother heligible hgt
  -- A run with the greatest version has the last one in the list if nothing exceeds it there.
  · intro hnone run hrun hlanguage
    rw [RunSelection.mem_apply_iff honly, and_iff_right hrun]
    constructor
    · rintro ⟨language', version, hlanguage', hversion, hgreatest⟩
      obtain rfl := Option.some.inj (hlanguage.symm.trans hlanguage')
      refine ⟨version, hversion, ?_⟩
      refine (ht.lastListed?_iff_of_greatest hrun hlanguage hversion hgreatest).2 ?_
      intro misread hmisread other hother heligible hgt
      exact hnone ⟨version, ⟨run, hrun, hlanguage, hversion⟩, hgreatest, misread, hmisread, other,
        hother, heligible, hgt⟩
    -- What runs have is in the list, so this direction holds whatever else is in it.
    · rintro ⟨version, hversion, hlast⟩
      exact ⟨language, version, hlanguage, hversion, ht.greatest_of_lastListed? hlast⟩

end Tables

namespace Store

/-- **When latest versions and the list of SDKs agree.** The runs are selected if all of them can be
read, and the list is made if all of them can be searched, which follows. Then what is kept has an
eligible version that is in the list, so nothing is kept of a language without one. Of a language,
the runs with the last eligible version in the list are kept exactly if no version that is misread
exceeds the greatest one that its runs have; and nothing is misread if no name in the parameters of
a run has a NUL. -/
theorem runs_keepsLastListed_iff {s : Store} (hs : s.Reachable) {t : Tables}
    (ht : s.tables = some t) {selection : RunSelection} (honly : selection.OnlyLatest) :
    (¬ t.AllReadable → s.runs [] selection = .error (.store .findRuns)) ∧
    (t.searchable = false → s.sdks = .error (.store .sdkVersions)) ∧
    (t.AllReadable → ∃ kept infos, s.runs [] selection = .ok kept ∧ s.sdks = .ok infos ∧
      kept.Sublist t.loadedRuns ∧
      (∀ run ∈ kept, ∃ language version, run.language? = some language ∧
        run.version? = some version ∧ selection.Eligible version ∧
          version ∈ versionsOf infos language) ∧
      (∀ language, selection.lastListed? infos language = none →
        ∀ run ∈ kept, run.language? ≠ some language) ∧
      (∀ language, selection.KeepsLastListed infos t.loadedRuns kept language ↔
        ¬ t.MisreadExceeds selection language) ∧
      ((∀ run ∈ t.runs, StoredKey.NamesLegible (.obj run.params)) →
        ∀ language, selection.KeepsLastListed infos t.loadedRuns kept language)) := by
  refine ⟨fun hread => runs_nil_of_not_allReadable ht hread selection, fun hsearch => ?_,
    fun hread => ?_⟩
  · exact (query_of_tables ht _ _).trans (if_neg (by simp [hsearch]))
  have hwf := hs.wellFormed t ht
  -- What can be read can be searched, so there is a list, too.
  have hsdks : s.sdks = .ok (sdksOf t.sdkPairs) :=
    (query_of_tables ht _ _).trans (if_pos hread.searchable)
  refine ⟨_, _, runs_nil ht hread selection, hsdks, List.filter_sublist, ?_, ?_, ?_, ?_⟩
  · exact fun run hkept => hwf.exists_listed_of_mem_apply honly hkept
  -- A run that is kept has an eligible version in the list, so the list has a last one.
  · intro language hnone run hkept hlanguage
    obtain ⟨language', version, hlanguage', -, heligible, hmem⟩ :=
      hwf.exists_listed_of_mem_apply honly hkept
    obtain rfl := Option.some.inj (hlanguage.symm.trans hlanguage')
    rw [RunSelection.lastListed?, List.getLast?_eq_none_iff, List.filter_eq_nil_iff] at hnone
    exact hnone version hmem (RunSelection.eligible_iff.2 heligible)
  · exact fun language => hwf.keepsLastListed_iff honly
  · intro hnames language
    exact (hwf.keepsLastListed_iff honly).2 (Tables.not_misreadExceeds_of_legible hnames)

end Store

/-- A record of a run of a Java SDK, with the SDK in some member of its parameters. -/
def RunRecord.ofSdk (id member version : String) : RunRecord :=
  let sdk : Json := .obj [("language", .str "Java"), ("version", .str version)]
  let record := RunRecord.ofParams [(member, sdk)]
  { record with run := { record.run with id } }

theorem RunRecord.normal_ofSdk (id member version : String) : (ofSdk id member version).Normal := by
  refine ⟨?_, by simp [ofSdk, ofParams], by simp [ofSdk, ofParams], by simp [ofSdk, ofParams]⟩
  have hkeys : compare "language" "version" = .lt := by decide
  simp [ofSdk, ofParams, Json.Normal, Json.NormalFields, Json.Fields.Ascending, hkeys]

theorem RunRecord.namesLegible_ofSdk {id member version : String} (h : '\x00' ∉ member.toList) :
    StoredKey.NamesLegible (.obj (ofSdk id member version).run.params) := by
  refine StoredKey.namesLegible_obj fun field hfield => ?_
  obtain rfl := List.mem_singleton.1 hfield
  exact ⟨h, StoredKey.namesLegible_of_flat (by simp [Json.isObject])⟩

/-- All runs with the latest versions, in one of the latest modes. -/
def RunSelection.onlyLatest (mode : RunFilterMode) : RunSelection :=
  ⟨mode, false, false, defaultGerritPrefix⟩

namespace Store

/-- A store with runs of two versions of a Java SDK, with the SDK in some member of the
parameters. -/
def twoSdks (member version member' version' : String) : Store :=
  ⟨some (.ofRecords [.ofSdk "a" member version, .ofSdk "b" member' version'])⟩

theorem reachable_twoSdks (member version member' version' : String) :
    (twoSdks member version member' version').Reachable :=
  .ofRecords (by simp [Tables.recordIds, RunRecord.ofSdk]) (by simp [RunRecord.normal_ofSdk])

/-- A release and a snapshot under legible names. Where snapshots are not eligible, the release is
the last version in the list that is, and its run is kept. -/
theorem runs_keepsLastListed_iff_releaseAndSnapshot :
    let s := twoSdks "impl" "1.0.0" "impl" "2.0.0-1"
    let releases := RunSelection.onlyLatest .latestNonSnapshot
    ∃ t kept infos, s.tables = some t ∧ s.runs [] releases = .ok kept ∧ s.sdks = .ok infos ∧
      infos = [⟨"Java", ["1.0.0", "2.0.0-1"]⟩] ∧ kept.map Run.id = ["a"] ∧
      releases.lastListed? infos "Java" = some "1.0.0" ∧
      ∀ language, releases.KeepsLastListed infos t.loadedRuns kept language := by
  intro s releases
  have honly : releases.OnlyLatest := ⟨by decide, rfl, rfl⟩
  have hread : (Tables.ofRecords
      [.ofSdk "a" "impl" "1.0.0", .ofSdk "b" "impl" "2.0.0-1"]).AllReadable := by decide
  obtain ⟨kept, infos, hkept, hinfos, -, -, -, -, hlegible⟩ :=
    (runs_keepsLastListed_iff (reachable_twoSdks "impl" "1.0.0" "impl" "2.0.0-1") rfl honly).2.2
      hread
  have hlist : sdksOf (Tables.sdkPairs (.ofRecords
      [.ofSdk "a" "impl" "1.0.0", .ofSdk "b" "impl" "2.0.0-1"])) =
        [⟨"Java", ["1.0.0", "2.0.0-1"]⟩] := by decide +kernel
  have hsdks : s.sdks = .ok [⟨"Java", ["1.0.0", "2.0.0-1"]⟩] := congrArg Except.ok hlist
  have hrelease : s.runs [] releases = .ok [(RunRecord.ofSdk "a" "impl" "1.0.0").run] := by cbv
  obtain rfl := Except.ok.inj (hsdks.symm.trans hinfos)
  obtain rfl := Except.ok.inj (hrelease.symm.trans hkept)
  refine ⟨_, _, _, rfl, hkept, hinfos, rfl, rfl, by cbv, hlegible fun run hrun => ?_⟩
  simp only [Tables.ofRecords, List.map_cons, List.map_nil, List.mem_cons, List.not_mem_nil,
    or_false] at hrun
  rcases hrun with rfl | rfl <;> exact RunRecord.namesLegible_ofSdk (by decide)

/-- A name that agrees with `impl` up to a NUL is taken for it in the list, but not where runs are
selected. So the last version in the list is none that a run has, and another one is kept. -/
theorem not_keepsLastListed_nul :
    let s := twoSdks "impl" "1" "impl\x00" "2"
    let latest := RunSelection.onlyLatest .latest
    ∃ t kept infos, s.Reachable ∧ s.tables = some t ∧ latest.OnlyLatest ∧
      s.runs [] latest = .ok kept ∧ s.sdks = .ok infos ∧
      infos = [⟨"Java", ["1", "2"]⟩] ∧ kept.map Run.id = ["a"] ∧
      latest.lastListed? infos "Java" = some "2" ∧
      ¬ latest.KeepsLastListed infos t.loadedRuns kept "Java" := by
  intro s latest
  have hlist : sdksOf (Tables.sdkPairs (.ofRecords
      [.ofSdk "a" "impl" "1", .ofSdk "b" "impl\x00" "2"])) = [⟨"Java", ["1", "2"]⟩] := by
    decide +kernel
  have hsdks : s.sdks = .ok [⟨"Java", ["1", "2"]⟩] := congrArg Except.ok hlist
  have hkept : s.runs [] latest = .ok [(RunRecord.ofSdk "a" "impl" "1").run] := by cbv
  have hlast : latest.lastListed? [⟨"Java", ["1", "2"]⟩] "Java" = some "2" := by cbv
  refine ⟨_, _, _, reachable_twoSdks .., rfl, ⟨by decide, rfl, rfl⟩, hkept, hsdks, rfl, rfl, hlast,
    fun hkeeps => ?_⟩
  have hrun : (RunRecord.ofSdk "a" "impl" "1").run ∈
      (Tables.ofRecords [.ofSdk "a" "impl" "1", .ofSdk "b" "impl\x00" "2"]).loadedRuns :=
    Tables.mem_loadedRuns.2 ⟨_, List.mem_cons_self .., by cbv⟩
  have hversion : (RunRecord.ofSdk "a" "impl" "1").run.version? = some "1" := by cbv
  obtain ⟨version, hversion', hlast'⟩ := (hkeeps _ hrun (by cbv)).1 (List.mem_singleton.2 rfl)
  have htwo : version = "2" := Option.some.inj (hlast'.symm.trans hlast)
  have hone : version = "1" := Option.some.inj (hversion'.symm.trans hversion)
  exact absurd (htwo.symm.trans hone) (by decide)

end Store

end BenchCharts

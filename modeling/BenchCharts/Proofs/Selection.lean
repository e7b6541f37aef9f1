import BenchCharts.Proofs.Version.Order
import BenchCharts.Selection

/-!
# Which runs a selection takes

A selection goes over its runs twice. The first pass keeps, for each language, the highest eligible
version that it has met so far; the second keeps the runs whose version is that very string. `Takes`
says what this amounts to, without passes and without a table of versions:
`apply_eq_filter_takes` is that the runs that are taken are those, in their order.

* `Summarizes` — the invariant of the first pass: every entry of the table is a version that was met
  and that no version met after it or before it exceeds, and no language that was met lacks an
  entry. `Summarizes.takeHigher` is one step, `summarizes_latestVersions` the whole pass.
* `lookup_latestVersions_eq_some_iff` — so the table holds the greatest version of each language.
  That there is only one takes a total order: versions that differ in spelling alone are told apart.
-/

namespace BenchCharts

namespace RunSelection

/-! ### What makes a version eligible or excluded -/

/-- A version of a change under review, by its prefix. -/
def UnderReview (s : RunSelection) (version : String) : Prop :=
  s.gerritPrefix.toList <+: version.toList

/-- What a version needs to be the latest of its language. -/
structure Eligible (s : RunSelection) (version : String) : Prop where
  /-- It is not under review. -/
  notUnderReview : ¬ s.UnderReview version
  /-- It is a version at all. -/
  parses : (Version.parse? version).isSome = true
  /-- It has no hyphen where snapshots cannot be the latest. -/
  noHyphen : s.mode = .latestNonSnapshot → '-' ∉ version.toList

/-- A version that is left out, whatever else there is. -/
def Excluded (s : RunSelection) (version : String) : Prop :=
  (s.excludeGerrit = true ∧ s.UnderReview version) ∨
    (s.excludeSnapshots = true ∧ '-' ∈ version.toList)

theorem isGerrit_iff {s : RunSelection} {version : String} :
    s.isGerrit version = true ↔ s.UnderReview version := by
  rw [isGerrit, UnderReview, List.isPrefixOf_iff_prefix]

theorem eligible_iff {s : RunSelection} {version : String} :
    s.eligible version = true ↔ s.Eligible version := by
  have hmode : (s.mode == .latestNonSnapshot && Version.isSnapshot version) = false ↔
      (s.mode = .latestNonSnapshot → '-' ∉ version.toList) := by
    rw [Bool.and_eq_false_imp, beq_iff_eq, ← Version.isSnapshot_iff]
    simp
  rw [eligible, Bool.and_eq_true, Bool.and_eq_true, Bool.not_eq_true', Bool.not_eq_true', hmode,
    ← Bool.not_eq_true, isGerrit_iff]
  constructor
  · rintro ⟨⟨hreview, hparses⟩, hhyphen⟩
    exact ⟨hreview, hparses, hhyphen⟩
  · intro h
    exact ⟨⟨h.notUnderReview, h.parses⟩, h.noHyphen⟩

theorem excludes_eq_false_iff {s : RunSelection} {run : Run} :
    s.excludes run = false ↔ ∀ version, run.version? = some version → ¬ s.Excluded version := by
  unfold excludes Excluded
  cases run.version? with
  | none => simp
  | some version =>
    rw [Option.any_some, ← Bool.not_eq_true, Bool.or_eq_true, Bool.and_eq_true, Bool.and_eq_true,
      isGerrit_iff, Version.isSnapshot_iff]
    simp

/-! ### The table of latest versions -/

/-- The higher of a version and the one that was the latest so far. -/
def higher (version : String) : Option String → String
  | some latest => if Version.compare version latest = .gt then version else latest
  | none => version

theorem higher_mem (version : String) (latest : Option String) :
    higher version latest = version ∨ latest = some (higher version latest) := by
  cases latest with
  | none => exact .inl rfl
  | some other =>
    rw [higher]
    split
    · exact .inl rfl
    · exact .inr rfl

theorem le_higher (version : String) (latest : Option String) :
    (Version.compare version (higher version latest)).isLE = true := by
  cases latest with
  | none => exact Std.ReflCmp.isLE_rfl
  | some other =>
    rw [higher]
    split
    · exact Std.ReflCmp.isLE_rfl
    · next hle => exact Ordering.isLE_iff_ne_gt.2 hle

theorem le_higher_of_eq_some {version other : String} {latest : Option String}
    (h : latest = some other) : (Version.compare other (higher version latest)).isLE = true := by
  subst h
  rw [higher]
  split
  -- The new version is the higher one because it exceeds the old one.
  · next hgt =>
    rw [Std.OrientedCmp.lt_of_gt hgt]
    rfl
  · exact Std.ReflCmp.isLE_rfl

theorem lookup_entry_cons (language version key : String) (rest : List (String × String)) :
    List.lookup key ((language, version) :: rest) =
      if key = language then some version else List.lookup key rest := by
  rw [List.lookup_cons]
  by_cases hkey : key = language
  · rw [if_pos hkey, beq_iff_eq.2 hkey]
  · rw [if_neg hkey, beq_eq_false_iff_ne.2 hkey]

/-- Taking a version into account changes the entry of its own language and no other. -/
theorem lookup_takeHigher (latest : List (String × String)) (language version key : String) :
    (takeHigher latest language version).lookup key =
      if key = language then some (higher version (latest.lookup language))
      else latest.lookup key := by
  induction latest with
  | nil => rw [takeHigher, lookup_entry_cons, List.lookup_nil, List.lookup_nil, higher]
  | cons entry rest ih =>
    obtain ⟨language', version'⟩ := entry
    rw [takeHigher]
    by_cases hentry : language' = language
    · -- The entry is that of the language, and the rest of the table stays.
      subst hentry
      rw [if_pos rfl, lookup_entry_cons, lookup_entry_cons, lookup_entry_cons, if_pos rfl, higher]
      split <;> rfl
    · rw [if_neg hentry, lookup_entry_cons, lookup_entry_cons, lookup_entry_cons, ih,
        if_neg (Ne.symm hentry)]
      by_cases hkey : key = language
      · subst hkey
        rw [if_neg (Ne.symm hentry), if_pos rfl, if_pos rfl]
      · rw [if_neg hkey, if_neg hkey]

/-- What the first pass knows: `seen` are the versions that it has met, with their languages, and
`latest` is its table. -/
structure Summarizes (seen latest : List (String × String)) : Prop where
  /-- An entry was met. -/
  met : ∀ language version, latest.lookup language = some version → (language, version) ∈ seen
  /-- No version of the same language is higher. -/
  highest : ∀ language version, latest.lookup language = some version →
    ∀ other, (language, other) ∈ seen → (Version.compare other version).isLE = true
  /-- A language that was met has an entry. -/
  complete : ∀ language version, (language, version) ∈ seen →
    (latest.lookup language).isSome = true

theorem summarizes_nil : Summarizes [] [] := ⟨by simp, by simp, by simp⟩

/-- One more version of a language is taken into account. -/
theorem Summarizes.takeHigher {seen latest : List (String × String)} (h : Summarizes seen latest)
    (language version : String) :
    Summarizes (seen ++ [(language, version)])
      (RunSelection.takeHigher latest language version) := by
  refine ⟨?_, ?_, ?_⟩
  -- An entry is the new version, the entry before it, or that of another language.
  · intro key entry hentry
    rw [lookup_takeHigher] at hentry
    split at hentry
    · next hkey =>
      subst hkey
      obtain rfl := Option.some.inj hentry
      rcases higher_mem version (latest.lookup key) with heq | hold
      · simp [heq]
      · exact List.mem_append_left _ (h.met key _ hold)
    · exact List.mem_append_left _ (h.met key entry hentry)
  · intro key entry hentry other hother
    rw [lookup_takeHigher] at hentry
    rw [List.mem_append, List.mem_singleton, Prod.mk.injEq] at hother
    split at hentry
    · next hkey =>
      subst hkey
      obtain rfl := Option.some.inj hentry
      rcases hother with hother | ⟨-, rfl⟩
      · -- A version that was met before is at most the entry before, hence at most the higher one.
        obtain ⟨old, hold⟩ := Option.isSome_iff_exists.1 (h.complete key other hother)
        exact Std.TransCmp.isLE_trans (h.highest key old hold other hother)
          (le_higher_of_eq_some hold)
      · exact le_higher other _
    · next hkey =>
      rcases hother with hother | ⟨heq, -⟩
      · exact h.highest key entry hentry other hother
      · exact absurd heq hkey
  -- No entry is ever taken away.
  · intro key other hother
    rw [lookup_takeHigher]
    rw [List.mem_append, List.mem_singleton, Prod.mk.injEq] at hother
    split
    · rfl
    · next hkey =>
      rcases hother with hother | ⟨heq, -⟩
      · exact h.complete key other hother
      · exact absurd heq hkey

/-- The pass over all versions. -/
theorem Summarizes.foldl {seen latest : List (String × String)} (h : Summarizes seen latest)
    (pairs : List (String × String)) :
    Summarizes (seen ++ pairs) (pairs.foldl (fun latest (language, version) =>
      RunSelection.takeHigher latest language version) latest) := by
  induction pairs generalizing seen latest with
  | nil => simpa using h
  | cons pair rest ih =>
    -- The first pair is taken into account, and the rest is met after it.
    have hstep := ih (h.takeHigher pair.1 pair.2)
    rwa [List.append_assoc, List.singleton_append] at hstep

theorem summarizes_latestVersions (s : RunSelection) (runs : List Run) :
    Summarizes (runs.filterMap s.candidate?) (s.latestVersions runs) :=
  summarizes_nil.foldl _

/-- The table holds, for each language, the version that was met and that none exceeds. -/
theorem Summarizes.lookup_eq_some_iff {seen latest : List (String × String)}
    (h : Summarizes seen latest) {language version : String} :
    latest.lookup language = some version ↔
      (language, version) ∈ seen ∧
        ∀ other, (language, other) ∈ seen → (Version.compare other version).isLE = true := by
  constructor
  · intro hentry
    exact ⟨h.met language version hentry, h.highest language version hentry⟩
  · rintro ⟨hmem, hhighest⟩
    obtain ⟨entry, hentry⟩ := Option.isSome_iff_exists.1 (h.complete language version hmem)
    -- Neither of the two exceeds the other, and the order is total.
    have hle := h.highest language entry hentry version hmem
    have hge := hhighest entry (h.met language entry hentry)
    have heq : Version.compare version entry = .eq := Std.OrientedCmp.isLE_antisymm hle hge
    rw [hentry, Std.LawfulEqCmp.eq_of_compare heq]

/-! ### The runs that are taken -/

/-- An eligible version than which no eligible version of the same language is higher. -/
structure Greatest (s : RunSelection) (runs : List Run) (language version : String) : Prop where
  /-- It can be the latest. -/
  eligible : s.Eligible version
  /-- No run of the language has a higher one that can be the latest too. -/
  highest : ∀ run ∈ runs, run.language? = some language →
    ∀ other, run.version? = some other → s.Eligible other → Version.compare other version ≠ .gt

/-- What it takes for one of some runs to be taken. -/
structure Takes (s : RunSelection) (runs : List Run) (run : Run) : Prop where
  /-- A version that it has is not left out. -/
  notExcluded : ∀ version, run.version? = some version → ¬ s.Excluded version
  /-- In the latest modes it has a language and the greatest eligible version of that. -/
  latest : s.mode ≠ .all → ∃ language version, run.language? = some language ∧
    run.version? = some version ∧ s.Greatest runs language version

theorem mem_candidates_iff {s : RunSelection} {runs : List Run} {language version : String} :
    (language, version) ∈ runs.filterMap s.candidate? ↔
      ∃ run ∈ runs, run.language? = some language ∧ run.version? = some version ∧
        s.Eligible version := by
  rw [List.mem_filterMap]
  refine exists_congr fun run => and_congr_right fun _ => ?_
  rw [candidate?, ← eligible_iff]
  -- Without a language or a version a run is no candidate, and neither side holds.
  cases run.language? with
  | none => simp
  | some language' =>
    cases run.version? with
    | none => simp
    | some version' =>
      -- With both, a run is a candidate if its version is eligible.
      by_cases heligible : s.eligible version' = true
      · simp only [Option.bind_eq_bind, Option.bind_some, heligible, if_true, Option.some.injEq,
          Prod.mk.injEq]
        constructor
        · rintro ⟨rfl, rfl⟩
          exact ⟨rfl, rfl, heligible⟩
        · rintro ⟨rfl, rfl, -⟩
          exact ⟨rfl, rfl⟩
      · simp only [Option.bind_eq_bind, Option.bind_some, heligible, Bool.false_eq_true, if_false,
          reduceCtorEq, Option.some.injEq, false_iff]
        rintro ⟨-, rfl, htrue⟩
        exact heligible htrue

/-- **The table of latest versions** holds the greatest version of each language that occurs. -/
theorem lookup_latestVersions_eq_some_iff {s : RunSelection} {runs : List Run}
    {language version : String} :
    (s.latestVersions runs).lookup language = some version ↔
      (∃ run ∈ runs, run.language? = some language ∧ run.version? = some version) ∧
        s.Greatest runs language version := by
  rw [(summarizes_latestVersions s runs).lookup_eq_some_iff]
  simp only [mem_candidates_iff]
  -- Not to exceed is to be at most as high, since versions are totally ordered.
  constructor
  · rintro ⟨⟨run, hrun, hlanguage, hversion, heligible⟩, hhighest⟩
    refine ⟨⟨run, hrun, hlanguage, hversion⟩, heligible, ?_⟩
    intro other hother holanguage version' hoversion hoeligible
    exact Ordering.isLE_iff_ne_gt.1
      (hhighest version' ⟨other, hother, holanguage, hoversion, hoeligible⟩)
  · rintro ⟨⟨run, hrun, hlanguage, hversion⟩, hgreatest⟩
    refine ⟨⟨run, hrun, hlanguage, hversion, hgreatest.eligible⟩, ?_⟩
    rintro version' ⟨other, hother, holanguage, hoversion, hoeligible⟩
    exact Ordering.isLE_iff_ne_gt.2
      (hgreatest.highest other hother holanguage version' hoversion hoeligible)

theorem selectsLatest_iff {mode : RunFilterMode} : mode.selectsLatest = true ↔ mode ≠ .all := by
  cases mode <;> simp [RunFilterMode.selectsLatest]

/-- A run of a list has the version in the table if that is the greatest of its language. -/
theorem isLatest_iff {s : RunSelection} {runs : List Run} {run : Run} (hrun : run ∈ runs) :
    isLatest (s.latestVersions runs) run = true ↔
      ∃ language version, run.language? = some language ∧ run.version? = some version ∧
        s.Greatest runs language version := by
  unfold isLatest
  cases hlanguage : run.language? with
  | none => simp
  | some language =>
    cases hversion : run.version? with
    | none => simp
    | some version =>
      have hoccurs : ∃ run ∈ runs, run.language? = some language ∧ run.version? = some version :=
        ⟨run, hrun, hlanguage, hversion⟩
      rw [beq_iff_eq, lookup_latestVersions_eq_some_iff, and_iff_right hoccurs]
      simp

open Classical in
/-- **The runs that a selection takes.** They are those that meet `Takes`, in their order. So in the
latest modes all runs of one language that are taken have one version, and a language whose greatest
version is left out has none. -/
theorem apply_eq_filter_takes (s : RunSelection) (runs : List Run) :
    s.apply runs = runs.filter (fun run => decide (s.Takes runs run)) ∧
      (s.mode ≠ .all → ∀ a ∈ s.apply runs, ∀ b ∈ s.apply runs, ∀ language,
        a.language? = some language → b.language? = some language →
          ∃ version, a.version? = some version ∧ b.version? = some version) ∧
      (s.mode ≠ .all → ∀ language version,
        (∃ run ∈ runs, run.language? = some language ∧ run.version? = some version) →
          s.Greatest runs language version → s.Excluded version →
            ∀ run ∈ s.apply runs, run.language? ≠ some language) := by
  -- Each test of the second pass is one condition on the run.
  have happly : s.apply runs = runs.filter (fun run => decide (s.Takes runs run)) := by
    refine List.filter_congr fun run hrun => ?_
    rw [Bool.eq_iff_iff, decide_eq_true_iff, Bool.and_eq_true, Bool.not_eq_true',
      excludes_eq_false_iff, Bool.or_eq_true, Bool.not_eq_true', isLatest_iff hrun,
      ← Bool.not_eq_true, selectsLatest_iff]
    constructor
    · rintro ⟨hexcluded, hlatest⟩
      exact ⟨hexcluded, fun hmode => hlatest.resolve_left (not_not_intro hmode)⟩
    · intro htakes
      refine ⟨htakes.notExcluded, ?_⟩
      by_cases hmode : s.mode = .all
      · exact .inl (not_not_intro hmode)
      · exact .inr (htakes.latest hmode)
  have htaken : ∀ run ∈ s.apply runs, run ∈ runs ∧ s.Takes runs run := by
    intro run hrun
    rw [happly, List.mem_filter, decide_eq_true_iff] at hrun
    exact hrun
  -- Both consequences come from there being one greatest version only.
  have hunique : ∀ language version version',
      (∃ run ∈ runs, run.language? = some language ∧ run.version? = some version) →
        (∃ run ∈ runs, run.language? = some language ∧ run.version? = some version') →
          s.Greatest runs language version → s.Greatest runs language version' →
            version = version' := by
    intro language version version' hoccurs hoccurs' hgreatest hgreatest'
    have hentry := lookup_latestVersions_eq_some_iff.2 ⟨hoccurs, hgreatest⟩
    have hentry' := lookup_latestVersions_eq_some_iff.2 ⟨hoccurs', hgreatest'⟩
    exact Option.some.inj (hentry.symm.trans hentry')
  refine ⟨happly, ?_, ?_⟩
  -- Each of the two has the greatest version of its own language, and that is the same language.
  · intro hmode a ha b hb language halanguage hblanguage
    obtain ⟨haruns, hatakes⟩ := htaken a ha
    obtain ⟨hbruns, hbtakes⟩ := htaken b hb
    obtain ⟨la, va, hla, hva, hagreatest⟩ := hatakes.latest hmode
    obtain ⟨lb, vb, hlb, hvb, hbgreatest⟩ := hbtakes.latest hmode
    obtain rfl : la = language := Option.some.inj (hla.symm.trans halanguage)
    obtain rfl : lb = la := Option.some.inj (hlb.symm.trans hblanguage)
    obtain rfl := hunique lb va vb ⟨a, haruns, hla, hva⟩ ⟨b, hbruns, hlb, hvb⟩ hagreatest hbgreatest
    exact ⟨va, hva, hvb⟩
  -- A run of the language would have the greatest version, which is left out.
  · intro hmode language version hoccurs hgreatest hexcluded run hrun hlanguage
    obtain ⟨hruns, htakes⟩ := htaken run hrun
    obtain ⟨l, v, hl, hv, hrgreatest⟩ := htakes.latest hmode
    obtain rfl : l = language := Option.some.inj (hl.symm.trans hlanguage)
    obtain rfl := hunique l version v hoccurs ⟨run, hruns, hl, hv⟩ hgreatest hrgreatest
    exact htakes.notExcluded version hv hexcluded

/-- The latest versions, as long as they are no snapshots. -/
def latestUnlessSnapshot : RunSelection := ⟨.latest, true, false, defaultGerritPrefix⟩

/-- Runs of two versions of an SDK, the higher of which is a snapshot. -/
def releaseAndSnapshot (datetime : Instant) : List Run :=
  ["1.0.0", "2.0.0-1"].map fun version =>
    ⟨version, datetime, [("impl", .obj [("language", .str "java"), ("version", .str version)])]⟩

/-- The latest version is a snapshot and is left out, so nothing is left of the SDK. -/
theorem apply_eq_filter_takes_snapshot :
    ∃ datetime, Greatest latestUnlessSnapshot (releaseAndSnapshot datetime) "java" "2.0.0-1" ∧
      latestUnlessSnapshot.apply (releaseAndSnapshot datetime) = [] := by
  let datetime : Instant := ⟨⟨2024, 3, 1, by decide⟩, 43200, 0, by decide⟩
  let runs := releaseAndSnapshot datetime
  have hruns : ∀ run ∈ runs, run.language? = some "java" ∧
      (run.version? = some "1.0.0" ∨ run.version? = some "2.0.0-1") := by
    intro run hrun
    obtain ⟨version, hversion, rfl⟩ := List.mem_map.1 hrun
    simp only [List.mem_cons, List.not_mem_nil, or_false] at hversion
    rcases hversion with rfl | rfl
    · exact ⟨rfl, .inl rfl⟩
    · exact ⟨rfl, .inr rfl⟩
  -- A snapshot is left out, but can still be the latest version.
  have hgreatest : Greatest latestUnlessSnapshot runs "java" "2.0.0-1" := by
    refine ⟨eligible_iff.1 (by decide), fun run hrun _ other hother _ => ?_⟩
    rcases (hruns run hrun).2 with hversion | hversion
    · obtain rfl := Option.some.inj (hversion.symm.trans hother)
      decide
    · obtain rfl := Option.some.inj (hversion.symm.trans hother)
      decide
  have hexcluded : Excluded latestUnlessSnapshot "2.0.0-1" := .inr ⟨rfl, by decide⟩
  refine ⟨datetime, hgreatest, List.eq_nil_iff_forall_not_mem.2 fun run hrun => ?_⟩
  obtain ⟨heq, -, hnone⟩ := apply_eq_filter_takes latestUnlessSnapshot runs
  have hmem : run ∈ runs := by
    rw [heq] at hrun
    exact (List.mem_filter.1 hrun).1
  have hoccurs : ∃ run ∈ runs, run.language? = some "java" ∧ run.version? = some "2.0.0-1" :=
    ⟨_, List.mem_cons_of_mem _ (List.mem_cons_self ..), rfl, rfl⟩
  exact hnone (by decide) "java" "2.0.0-1" hoccurs hgreatest hexcluded run hrun (hruns run hmem).1

end RunSelection

end BenchCharts

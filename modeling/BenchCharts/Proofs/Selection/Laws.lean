import BenchCharts.Proofs.Selection
import BenchCharts.Proofs.Store.Reachable

/-!
# Selecting again, in another order, and language by language

In the latest modes what happens to a run depends on all others, since any of them may have a higher
version. But it depends on little of them: `Greatest` only speaks of the runs of one language, and
only asks that none of these has a higher version. So it stays true when runs are dropped, and it
does not see runs of other languages at all (`Greatest.of_language_subset`).

Selecting a second time drops nothing, because the runs that were dropped could only have stood in
the way of those that were taken. Runs in another order are the same runs, and so are the runs of
one language, as far as that language goes: where two lists have the same runs of its language, a
run has the latest version in both or in neither (`isLatest_congr`).
-/

namespace BenchCharts

namespace RunSelection

variable {s : RunSelection} {runs runs' : List Run}

/-- A version stays the greatest of its language if no run of the language is added. -/
theorem Greatest.of_language_subset {language version : String}
    (h : s.Greatest runs language version)
    (hsubset : ∀ run ∈ runs', run.language? = some language → run ∈ runs) :
    s.Greatest runs' language version := by
  refine ⟨h.eligible, fun run hrun hlanguage => ?_⟩
  exact h.highest run (hsubset run hrun hlanguage) hlanguage

/-- A run that has the latest version still has it if no run of its language is added. -/
theorem isLatest_of_language_subset {run : Run} (hrun : run ∈ runs) (hrun' : run ∈ runs')
    (hsubset : ∀ other ∈ runs', other.language? = run.language? → other ∈ runs)
    (h : isLatest (s.latestVersions runs) run = true) :
    isLatest (s.latestVersions runs') run = true := by
  rw [isLatest_iff hrun] at h
  rw [isLatest_iff hrun']
  obtain ⟨language, version, hlanguage, hversion, hgreatest⟩ := h
  -- Its version was the greatest among more runs.
  refine ⟨language, version, hlanguage, hversion, hgreatest.of_language_subset ?_⟩
  intro other hother hsame
  exact hsubset other hother (hsame.trans hlanguage.symm)

/-- **Only the runs of its own language matter to a run.** -/
theorem isLatest_congr {run : Run} (hrun : run ∈ runs) (hrun' : run ∈ runs')
    (hsame : ∀ other, other.language? = run.language? → (other ∈ runs' ↔ other ∈ runs)) :
    isLatest (s.latestVersions runs') run = isLatest (s.latestVersions runs) run := by
  rw [Bool.eq_iff_iff]
  -- In either direction no run of the language is added.
  constructor
  · exact isLatest_of_language_subset hrun' hrun fun other hother hlanguage =>
      (hsame other hlanguage).2 hother
  · exact isLatest_of_language_subset hrun hrun' fun other hother hlanguage =>
      (hsame other hlanguage).1 hother

/-- Whether a run is taken from some runs that it is one of. -/
def takesFrom (s : RunSelection) (runs : List Run) (run : Run) : Bool :=
  !s.excludes run && (!s.mode.selectsLatest || isLatest (s.latestVersions runs) run)

theorem apply_eq_filter (s : RunSelection) (runs : List Run) :
    s.apply runs = runs.filter (s.takesFrom runs) := rfl

theorem takesFrom_congr {run : Run} (hrun : run ∈ runs) (hrun' : run ∈ runs')
    (hsame : ∀ other, other.language? = run.language? → (other ∈ runs' ↔ other ∈ runs)) :
    s.takesFrom runs' run = s.takesFrom runs run := by
  rw [takesFrom, takesFrom, isLatest_congr hrun hrun' hsame]

/-- What was taken once is taken again. -/
theorem apply_apply (s : RunSelection) (runs : List Run) :
    s.apply (s.apply runs) = s.apply runs := by
  refine List.filter_eq_self.2 fun run hrun => ?_
  obtain ⟨hmem, htaken⟩ := List.mem_filter.1 hrun
  rw [Bool.and_eq_true, Bool.or_eq_true] at htaken ⊢
  -- Dropping runs adds none.
  refine ⟨htaken.1, htaken.2.imp_right fun hlatest => ?_⟩
  exact isLatest_of_language_subset hmem hrun (fun other hother _ => (List.mem_filter.1 hother).1)
    hlatest

/-- In another order the same runs are taken. -/
theorem apply_of_perm (h : runs'.Perm runs) : s.apply runs' = runs'.filter (s.takesFrom runs) := by
  rw [apply_eq_filter]
  -- The two lists have the same runs of every language.
  exact List.filter_congr fun run hrun =>
    takesFrom_congr (h.mem_iff.1 hrun) hrun fun _ _ => h.mem_iff

/-- The runs of one language can be picked out before or after. -/
theorem filter_language_apply (s : RunSelection) (runs : List Run) (language : String) :
    (s.apply runs).filter (fun run => run.language? = some language) =
      s.apply (runs.filter fun run => run.language? = some language) := by
  rw [apply_eq_filter, apply_eq_filter, List.filter_filter, List.filter_filter]
  refine List.filter_congr fun run hrun => ?_
  -- Only runs of the language are asked for, and for these the others do not matter.
  by_cases hlanguage : run.language? = some language
  · have hspeaks : run ∈ runs.filter fun run => run.language? = some language :=
      List.mem_filter.2 ⟨hrun, decide_eq_true hlanguage⟩
    have hsame : ∀ other : Run, other.language? = run.language? →
        (other ∈ runs.filter (fun run => run.language? = some language) ↔ other ∈ runs) := by
      intro other hother
      rw [List.mem_filter, decide_eq_true_iff]
      exact and_iff_left (hother.trans hlanguage)
    rw [takesFrom_congr hrun hspeaks hsame, Bool.and_comm]
  · rw [decide_eq_false hlanguage, Bool.false_and, Bool.and_false]

/-- **Selecting is settled after one pass, goes by runs and not by their order, and goes language by
language.** Selecting again changes nothing; in whatever order the runs are, the same ones are
taken, in that order; and the runs of a language that are taken are those that are taken from the
runs of that language alone. -/
theorem apply_idempotent_equivariant_byLanguage (s : RunSelection) (runs : List Run) :
    s.apply (s.apply runs) = s.apply runs ∧
      (∃ takes : Run → Bool, s.apply runs = runs.filter takes ∧
        ∀ runs', runs'.Perm runs →
          s.apply runs' = runs'.filter takes ∧ (s.apply runs').Perm (s.apply runs)) ∧
      ∀ language, (s.apply runs).filter (fun run => run.language? = some language) =
        s.apply (runs.filter fun run => run.language? = some language) := by
  refine ⟨s.apply_apply runs, ⟨s.takesFrom runs, s.apply_eq_filter runs, ?_⟩,
    s.filter_language_apply runs⟩
  intro runs' hperm
  have htaken : s.apply runs' = runs'.filter (s.takesFrom runs) := apply_of_perm hperm
  refine ⟨htaken, ?_⟩
  -- One test picks from both lists.
  rw [htaken, apply_eq_filter]
  exact hperm.filter _

/-- Runs of some languages and versions, each with its version for an id. -/
def runsOfSdks (sdks : List (String × String)) : List Run :=
  sdks.map fun sdk =>
    { (RunRecord.ofParams
        [("impl", .obj [("language", .str sdk.1), ("version", .str sdk.2)])]).run with id := sdk.2 }

/-- One of two languages loses its runs, as its latest version is a snapshot. That is so in any
order of the runs, and nothing else becomes the latest version when the snapshot is gone. -/
theorem apply_idempotent_equivariant_byLanguage_twoLanguages :
    (runsOfSdks [("go", "1.2"), ("java", "2-1"), ("go", "0.9"), ("java", "1")]).Perm
        (runsOfSdks [("java", "1"), ("go", "1.2"), ("go", "0.9"), ("java", "2-1")]) ∧
      (latestUnlessSnapshot.apply
        (runsOfSdks [("java", "1"), ("go", "1.2"), ("go", "0.9"), ("java", "2-1")])).map Run.id =
          ["1.2"] ∧
      (latestUnlessSnapshot.apply
        (runsOfSdks [("go", "1.2"), ("java", "2-1"), ("go", "0.9"), ("java", "1")])).Perm
        (latestUnlessSnapshot.apply
          (runsOfSdks [("java", "1"), ("go", "1.2"), ("go", "0.9"), ("java", "2-1")])) := by
  have hperm : (runsOfSdks [("go", "1.2"), ("java", "2-1"), ("go", "0.9"), ("java", "1")]).Perm
      (runsOfSdks [("java", "1"), ("go", "1.2"), ("go", "0.9"), ("java", "2-1")]) := by
    refine List.Perm.map _ ?_
    decide
  obtain ⟨-, ⟨takes, -, hreordered⟩, -⟩ :=
    apply_idempotent_equivariant_byLanguage latestUnlessSnapshot
      (runsOfSdks [("java", "1"), ("go", "1.2"), ("go", "0.9"), ("java", "2-1")])
  exact ⟨hperm, by decide, (hreordered _ hperm).2⟩

end RunSelection

end BenchCharts

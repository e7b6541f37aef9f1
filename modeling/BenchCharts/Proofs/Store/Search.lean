import Mathlib.Data.List.Nodup
import BenchCharts.Proofs.Filter
import BenchCharts.Proofs.Json.Reread
import BenchCharts.Proofs.Sorting
import BenchCharts.Proofs.Store.Lookup
import BenchCharts.Proofs.Store.Reachable
import BenchCharts.Store.Search

/-!
# What a search finds

A search is `Exact` if it finds the stored runs that contain the pattern of its filter, each once
and in stored order. Clauses are only there to look at fewer runs, but they read keys and numbers in
their own way, and that can leave out a run that contains the pattern.

* `findRuns_eq_ok_iff` — a search filters twice: by clauses, and then by containment;
* `accepts_iff_of_contains` — once a clause reads the value that containment looks at, all that they
  can disagree on is whether two numbers are the same;
* `findRuns_exact_iff` — when a search is exact.
-/

namespace BenchCharts

open Json

/-! ### Candidates -/

theorem acceptsAll?_eq_true_iff {params : Fields} {clauses : List LeafClause} :
    acceptsAll? params clauses = some true ↔
      ∀ clause ∈ clauses, clause.accepts? params = some true := by
  induction clauses with
  | nil => simp [acceptsAll?]
  | cons clause rest ih =>
    rw [acceptsAll?, List.forall_mem_cons, ← ih]
    -- The check goes on only after a clause that accepts.
    split <;> simp_all

/-- The check of all clauses fails only if that of one of them does. -/
theorem isSome_acceptsAll? {params : Fields} {clauses : List LeafClause}
    (h : ∀ clause ∈ clauses, (clause.accepts? params).isSome = true) :
    (acceptsAll? params clauses).isSome = true := by
  induction clauses with
  | nil => rfl
  | cons clause rest ih =>
    obtain ⟨hclause, hrest⟩ := List.forall_mem_cons.1 h
    rw [acceptsAll?]
    split
    · exact ih hrest
    · rfl
    -- The check of this clause would have failed.
    · next hnone => simp [hnone] at hclause

/-- The candidates are the runs that satisfy all clauses, if there is no run on which one of them
cannot be read. -/
theorem candidates?_eq_some_iff {clauses : List LeafClause} {runs found : List Run} :
    candidates? clauses runs = some found ↔
      (∀ run ∈ runs, (acceptsAll? run.params clauses).isSome = true) ∧
        found = runs.filter fun run => acceptsAll? run.params clauses == some true := by
  induction runs generalizing found with
  | nil =>
    rw [candidates?, Option.some.injEq, List.filter_nil, eq_comm]
    simp
  | cons run rest ih =>
    rw [candidates?, List.forall_mem_cons, List.filter_cons]
    cases hrun : acceptsAll? run.params clauses with
    -- A run that cannot be read ends the pass.
    | none => simp
    -- This run can be read. The pass still fails if it does for a later run.
    | some accepted =>
      cases hmore : candidates? clauses rest with
      | none =>
        have hfails : ¬ ∀ run ∈ rest, (acceptsAll? run.params clauses).isSome = true := by
          intro hall
          have hsome := ih.2 ⟨hall, rfl⟩
          rw [hmore] at hsome
          cases hsome
        cases accepted <;> simp [hfails]
      | some more =>
        obtain ⟨hall, rfl⟩ := ih.1 hmore
        rw [and_iff_right ⟨rfl, hall⟩]
        cases accepted with
        | true =>
          rw [if_pos (by decide)]
          simp only [Option.some.injEq]
          exact eq_comm
        | false =>
          rw [if_neg (by decide)]
          simp only [Option.some.injEq]
          exact eq_comm

/-! ### Stored order -/

instance : Std.TransCmp Run.compareStored :=
  inferInstanceAs (Std.TransCmp
    (compareLex (compareOn fun run : Run => run.datetime.stored) (compareOn Run.id)))

/-- Different ids tell runs apart. -/
theorem Run.id_eq_of_compareStored {a b : Run} (h : a.compareStored b = .eq) : a.id = b.id := by
  rw [Run.compareStored, Ordering.then_eq_eq] at h
  exact Std.LawfulEqOrd.eq_of_compare h.2

/-- Runs are found in the order in which they are stored. -/
theorem Run.compareStored_loaded (a b : Run) :
    a.loaded.compareStored b.loaded = a.compareStored b := rfl

namespace Store

/-- The store can carry out a search: there are not too many clauses, no run is in their way, and
every run that satisfies them can be read. -/
def CanFind (t : Tables) (filter : CompiledFilter) : Prop :=
  filter.clauses.length ≤ clauseLimit ∧
    ∀ run ∈ t.runs, (acceptsAll? run.params filter.clauses).isSome = true ∧
      (acceptsAll? run.params filter.clauses = some true →
        (Json.obj run.params).readable = true)

/-- A search filters twice: by the clauses, before the runs are loaded, and then by containment. -/
theorem findRuns_eq_ok_iff {s : Store} {t : Tables} (ht : s.tables = some t)
    {filter : CompiledFilter} {found : List Run} :
    s.findRuns filter = .ok found ↔
      CanFind t filter ∧
        found = ((stableSort Run.compareStored (t.runs.filter fun run =>
          acceptsAll? run.params filter.clauses == some true)).map Run.loaded).filter
            filter.contains := by
  have hread : ∀ candidates : List Run, candidates.mapM Run.loaded? =
      candidates.mapM fun run =>
        if (Json.obj run.params).readable then some run.loaded else none := fun _ => rfl
  rw [findRuns, query_of_tables ht, answer_eq_ok_iff, search?, CanFind, and_assoc]
  -- The number of clauses is looked at before any run.
  split
  · next hlimit =>
    simp only [Option.bind_eq_bind, Option.bind_eq_some_iff, candidates?_eq_some_iff, hread,
      mapM_ite_eq_some_iff, Option.pure_def, Option.some.injEq]
    constructor
    · rintro ⟨_, ⟨hall, rfl⟩, _, ⟨hloaded, rfl⟩, rfl⟩
      refine ⟨hlimit, fun run hrun => ⟨hall run hrun, fun haccepts => ?_⟩, rfl⟩
      -- A run that satisfies all clauses is among the candidates, and these were read.
      refine hloaded run (mem_stableSort.2 (List.mem_filter.2 ⟨hrun, ?_⟩))
      rw [haccepts, beq_self_eq_true]
    · rintro ⟨-, hall, rfl⟩
      refine ⟨_, ⟨fun run hrun => (hall run hrun).1, rfl⟩, _, ⟨fun run hrun => ?_, rfl⟩, rfl⟩
      obtain ⟨hmem, haccepts⟩ := List.mem_filter.1 (mem_stableSort.1 hrun)
      exact (hall run hmem).2 (beq_iff_eq.1 haccepts)
  · next hlimit => simp [hlimit]

/-- What is found is stored, satisfies the clauses and contains the pattern. -/
theorem mem_findRuns_iff {s : Store} {t : Tables} (ht : s.tables = some t)
    {filter : CompiledFilter} {found : List Run} (hfound : s.findRuns filter = .ok found)
    {run : Run} :
    run ∈ found ↔
      (∃ stored ∈ t.runs, stored.loaded? = some run ∧
        acceptsAll? stored.params filter.clauses = some true) ∧ filter.contains run = true := by
  obtain ⟨⟨-, hcan⟩, rfl⟩ := (findRuns_eq_ok_iff ht).1 hfound
  rw [List.mem_filter, List.mem_map]
  refine and_congr_left' (exists_congr fun stored => ?_)
  rw [mem_stableSort, List.mem_filter, beq_iff_eq, Run.loaded?_eq_some_iff]
  constructor
  · rintro ⟨⟨hstored, haccepts⟩, rfl⟩
    exact ⟨hstored, ⟨(hcan stored hstored).2 haccepts, rfl⟩, haccepts⟩
  · rintro ⟨hstored, ⟨-, rfl⟩, haccepts⟩
    exact ⟨⟨hstored, haccepts⟩, rfl⟩

/-- No two runs that are found share an id. -/
theorem nodup_ids_findRuns {s : Store} {t : Tables} (hids : (t.runs.map Run.id).Nodup)
    (ht : s.tables = some t) {filter : CompiledFilter} {found : List Run}
    (hfound : s.findRuns filter = .ok found) : (found.map Run.id).Nodup := by
  obtain ⟨-, rfl⟩ := (findRuns_eq_ok_iff ht).1 hfound
  -- Filters only drop runs, and sorting only moves them.
  refine List.Nodup.sublist (List.filter_sublist.map Run.id) ?_
  rw [List.map_map]
  have hperm := (stableSort_perm Run.compareStored (t.runs.filter fun run =>
    acceptsAll? run.params filter.clauses == some true)).map Run.id
  exact hperm.nodup_iff.2 (hids.sublist (List.filter_sublist.map Run.id))

/-- What is found ascends strictly, so no run is found twice. -/
theorem pairwise_findRuns {s : Store} {t : Tables} (hids : (t.runs.map Run.id).Nodup)
    (ht : s.tables = some t) {filter : CompiledFilter} {found : List Run}
    (hfound : s.findRuns filter = .ok found) :
    found.Pairwise fun a b => a.compareStored b = .lt := by
  obtain ⟨-, rfl⟩ := (findRuns_eq_ok_iff ht).1 hfound
  -- Stored runs differ in their ids, so no two of them are equal in the order.
  have hne : t.runs.Pairwise fun a b => a.compareStored b ≠ .eq :=
    (List.pairwise_map.1 hids).imp fun hne heq => hne (Run.id_eq_of_compareStored heq)
  refine List.Pairwise.filter _ (List.pairwise_map.2 ?_)
  simp only [Run.compareStored_loaded]
  exact pairwise_lt_stableSort (hne.filter _)

end Store

/-! ### Clauses and containment -/

/-- A value that contains a scalar is an array or of the kind of the scalar. Texts and truth values
are the same for the store as for containment, so all that is left to differ are numbers. -/
theorem accepts_iff_of_contains {stored pattern : Json}
    (hscalar : CompiledFilter.isScalar pattern = true)
    (hcontains : stored.reread.contains pattern = true) :
    (stored.cell.equal pattern.cell || stored.isArray) = true ↔
      ∀ m n, stored = .num m → pattern = .num n →
        (numberCell m).equal (numberCell n) = true := by
  -- By the kind of both; most pairs of kinds are ruled out by containment.
  cases pattern with
  | num n =>
    cases stored with
    | num m => simp [cell, isArray]
    | arr items => simp [isArray]
    | _ => simp [reread, contains, containsScalar, sameScalar] at hcontains
  | str text =>
    cases stored with
    | str text' =>
      obtain rfl : text' = text := by
        simpa [reread, contains, containsScalar, sameScalar] using hcontains
      simp [cell, Cell.equal]
    | arr items => simp [isArray]
    | _ => simp [reread, contains, containsScalar, sameScalar] at hcontains
  | bool b =>
    cases stored with
    | bool b' =>
      obtain rfl : b' = b := by
        simpa [reread, contains, containsScalar, sameScalar] using hcontains
      simp [cell, Cell.equal, Cell.compareNumbers?]
    | arr items => simp [isArray]
    | _ => simp [reread, contains, containsScalar, sameScalar] at hcontains
  | _ => simp [CompiledFilter.isScalar] at hscalar

/-- A run that contains the pattern has something at the keys of each clause that contains the
scalar of the clause. -/
theorem exists_contains_of_mem_clauses {filter : Fields} {compiled : CompiledFilter}
    (hnormal : (Json.obj filter).Normal) (hcompile : CompiledFilter.compile filter = .ok compiled)
    {run : Run} (hcontains : compiled.contains run.loaded = true) {clause : LeafClause}
    (hclause : clause ∈ compiled.clauses) :
    ∃ stored, run.params.getKeys? clause.keys = some stored ∧
      stored.reread.contains clause.value = true := by
  obtain ⟨hscalar, hget, -⟩ := (CompiledFilter.mem_clauses_iff hnormal hcompile).1 hclause
  obtain ⟨-, clauses, -, rfl⟩ := CompiledFilter.compile_eq_ok_iff.1 hcompile
  have hend := isEnd_of_isObject_eq_false (CompiledFilter.isObject_of_isScalar hscalar)
  -- Containment asks for every end of the pattern, and the leaf of a clause is one.
  have hends := (Fields.containsFields_iff_ends (Fields.normal_dropNulls hnormal)).1 hcontains
  obtain ⟨found, hfound, hvalue⟩ := hends clause.keys clause.value hget hend
  rw [Run.loaded, Fields.getKeys?_rereadFields, Option.map_eq_some_iff] at hfound
  obtain ⟨stored, hstored, rfl⟩ := hfound
  exact ⟨stored, hstored, hvalue⟩

/-- A clause with plain keys accepts a value that contains its scalar, unless both are numbers that
the store tells apart. -/
theorem LeafClause.accepts?_iff_of_plain {params : Fields} (hnormal : (Json.obj params).Normal)
    (hsearchable : (Json.obj params).searchable = true)
    {clause : LeafClause} (hplain : ∀ key ∈ clause.keys, StoredKey.Plain key)
    (hscalar : CompiledFilter.isScalar clause.value = true) {stored : Json}
    (hstored : params.getKeys? clause.keys = some stored)
    (hcontains : stored.reread.contains clause.value = true) :
    clause.accepts? params = some true ↔
      ∀ m n, params.getKeys? clause.keys = some (.num m) → clause.value = .num n →
        (numberCell m).equal (numberCell n) = true := by
  have hget : (Json.obj params).getKeys? clause.keys = some stored :=
    (Fields.getKeys?_eq_some_iff.1 hstored).2
  -- At plain keys the clause reads what containment looks at.
  rw [accepts?, Fields.search?_of_searchable hsearchable,
    StoredKey.lookup?_of_getKeys? hnormal hplain hget, hstored]
  simp only [Option.map_some, Option.any_some, Option.some.injEq]
  exact accepts_iff_of_contains hscalar hcontains

/-! ### Exact searches -/

namespace Store

/-- A search is exact if it finds the stored runs that contain the pattern of its filter, each once
and in stored order. -/
def FindsExactly (s : Store) (t : Tables) (filter : CompiledFilter) : Prop :=
  ∃ found, s.findRuns filter = .ok found ∧
    (∀ run, run ∈ found ↔
      (∃ stored ∈ t.runs, run = stored.loaded) ∧ filter.contains run = true) ∧
    found.Pairwise fun a b => a.compareStored b = .lt

/-- A search is exact if the store can carry it out and the clauses keep every run that contains the
pattern. -/
theorem findsExactly_iff_accepts {s : Store} {t : Tables} (hids : (t.runs.map Run.id).Nodup)
    (ht : s.tables = some t) {filter : CompiledFilter} :
    s.FindsExactly t filter ↔
      CanFind t filter ∧ ∀ run ∈ t.runs, filter.contains run.loaded = true →
        ∀ clause ∈ filter.clauses, clause.accepts? run.params = some true := by
  refine ⟨?_, ?_⟩
  · rintro ⟨found, hfound, hmem, -⟩
    refine ⟨((findRuns_eq_ok_iff ht).1 hfound).1, fun run hrun hcontains => ?_⟩
    have hloaded := (hmem run.loaded).2 ⟨⟨run, hrun, rfl⟩, hcontains⟩
    obtain ⟨⟨stored, hstored, hread, haccepts⟩, -⟩ := (mem_findRuns_iff ht hfound).1 hloaded
    -- Two runs that are loaded alike have one id, so they are the same stored run.
    have hid : run.loaded.id = stored.loaded.id :=
      congrArg Run.id (Run.loaded?_eq_some_iff.1 hread).2
    obtain rfl : run = stored := List.inj_on_of_nodup_map hids hrun hstored hid
    exact acceptsAll?_eq_true_iff.1 haccepts
  · rintro ⟨hcan, haccepts⟩
    have hfound := (findRuns_eq_ok_iff ht).2 ⟨hcan, rfl⟩
    refine ⟨_, hfound, fun run => ?_, pairwise_findRuns hids ht hfound⟩
    -- The clauses drop no run that contains the pattern, so containment alone decides.
    rw [mem_findRuns_iff ht hfound]
    refine and_congr_left fun hcontains => exists_congr fun stored => and_congr_right fun hrun => ?_
    rw [Run.loaded?_eq_some_iff]
    constructor
    · rintro ⟨⟨-, rfl⟩, -⟩
      rfl
    · rintro rfl
      have hall := acceptsAll?_eq_true_iff.2 (haccepts stored hrun hcontains)
      exact ⟨⟨(hcan.2 stored hrun).2 hall, rfl⟩, hall⟩

/-- For plain keys the clauses are no obstacle to a search, but for their number and for runs that
are nested too deeply. -/
theorem canFind_iff_of_plain {t : Tables} {filter : CompiledFilter}
    (hplain : ∀ clause ∈ filter.clauses, ∀ key ∈ clause.keys, StoredKey.Plain key) :
    CanFind t filter ↔
      filter.clauses.length ≤ clauseLimit ∧
        ∀ run ∈ t.runs, (Json.obj run.params).searchable = true ∧
          (acceptsAll? run.params filter.clauses = some true →
            (Json.obj run.params).readable = true) := by
  refine and_congr_right fun _ => forall₂_congr fun run _ => ?_
  constructor
  · rintro ⟨hread, hloaded⟩
    refine ⟨?_, hloaded⟩
    cases hclauses : filter.clauses with
    -- Without clauses every run is a candidate, and what can be read can be searched.
    | nil =>
      refine searchable_of_readable (hloaded ?_)
      rw [hclauses]
      rfl
    | cons clause rest =>
      have hclause : clause ∈ filter.clauses := by
        rw [hclauses]
        exact List.mem_cons_self ..
      -- The first clause is checked on every run, and at plain keys only depth can make that fail.
      refine (Fields.isSome_search?_iff (hplain clause hclause)).1 ?_
      rw [hclauses, acceptsAll?] at hread
      rw [← Option.isSome_map (f := fun found : Option Json =>
        found.any fun value => value.cell.equal clause.value.cell || value.isArray)]
      change (clause.accepts? run.params).isSome = true
      cases haccepts : clause.accepts? run.params with
      | none => simp [haccepts] at hread
      | some accepted => rfl
  · rintro ⟨hsearchable, hloaded⟩
    refine ⟨isSome_acceptsAll? fun clause hclause => ?_, hloaded⟩
    rw [LeafClause.accepts?, Option.isSome_map]
    exact (Fields.isSome_search?_iff (hplain clause hclause)).2 hsearchable

/-- **When a search is exact.** What is found always is stored and contains the pattern, and is
found once and in order. Nothing is missing exactly if the store can carry out the search, and the
clauses are satisfied on every run that contains the pattern. For plain keys this comes down to the
number of clauses, the depth of the runs and numbers: a number that contains the one of a clause,
since both have the same float, has to be the same for the store, which compares them exactly. -/
theorem findRuns_exact_iff {s : Store} (hs : s.Reachable) {t : Tables} (ht : s.tables = some t)
    {filter : Fields} (hnormal : (Json.obj filter).Normal) {compiled : CompiledFilter}
    (hcompile : CompiledFilter.compile filter = .ok compiled) :
    (s.FindsExactly t compiled ↔
      compiled.clauses.length ≤ clauseLimit ∧
        ∀ run ∈ t.runs, (acceptsAll? run.params compiled.clauses).isSome = true ∧
          (acceptsAll? run.params compiled.clauses = some true →
            (Json.obj run.params).readable = true) ∧
          (compiled.contains run.loaded = true →
            ∀ clause ∈ compiled.clauses, clause.accepts? run.params = some true)) ∧
    ((∀ clause ∈ compiled.clauses, ∀ key ∈ clause.keys, StoredKey.Plain key) →
      (s.FindsExactly t compiled ↔
        compiled.clauses.length ≤ clauseLimit ∧
          ∀ run ∈ t.runs, (Json.obj run.params).searchable = true ∧
            (acceptsAll? run.params compiled.clauses = some true →
              (Json.obj run.params).readable = true) ∧
            (compiled.contains run.loaded = true →
              ∀ clause ∈ compiled.clauses, ∀ m n,
                run.params.getKeys? clause.keys = some (.num m) → clause.value = .num n →
                  (numberCell m).equal (numberCell n) = true))) ∧
    ∀ found, s.findRuns compiled = .ok found →
      (∀ run ∈ found, (∃ stored ∈ t.runs, run = stored.loaded) ∧ compiled.contains run = true) ∧
        found.Pairwise fun a b => a.compareStored b = .lt := by
  have hwf := hs.wellFormed t ht
  have haccepts := @findsExactly_iff_accepts s t hwf.ids ht compiled
  refine ⟨haccepts.trans ?_, fun hplain => ?_, fun found hfound => ⟨fun run hrun => ?_, ?_⟩⟩
  · rw [CanFind, and_assoc]
    simp only [← forall₂_and, and_assoc]
  -- At plain keys the clauses can be read wherever the parameters can be searched.
  · rw [haccepts, canFind_iff_of_plain hplain, and_assoc, ← forall₂_and]
    refine and_congr_right fun _ => forall₂_congr fun run hrun => ?_
    rw [and_assoc]
    refine and_congr_right fun hsearchable => and_congr_right fun _ => ?_
    -- It is left to compare clauses one by one.
    refine forall_congr' fun hcontains => forall₂_congr fun clause hclause => ?_
    obtain ⟨stored, hstored, hvalue⟩ :=
      exists_contains_of_mem_clauses hnormal hcompile hcontains hclause
    obtain ⟨hscalar, -⟩ := (CompiledFilter.mem_clauses_iff hnormal hcompile).1 hclause
    exact LeafClause.accepts?_iff_of_plain (hwf.params run hrun) hsearchable
      (hplain clause hclause) hscalar hstored hvalue
  · obtain ⟨⟨stored, hstored, hread, -⟩, hcontains⟩ := (mem_findRuns_iff ht hfound).1 hrun
    exact ⟨⟨stored, hstored, (Run.loaded?_eq_some_iff.1 hread).2⟩, hcontains⟩
  · exact pairwise_findRuns hwf.ids ht hfound

/-- A search by a number and a text that finds the one run there is. -/
theorem findsExactly_numberAndText :
    ∃ compiled t, CompiledFilter.compile [("a", .num (.int 1)), ("b", .str "x")] = .ok compiled ∧
      (single (.ofParams [("a", .num (.int 1)), ("b", .str "x")])).tables = some t ∧
      (single (.ofParams [("a", .num (.int 1)), ("b", .str "x")])).FindsExactly t compiled := by
  have hnormal : (Json.obj [("a", .num (.int 1)), ("b", .str "x")]).Normal := by
    simp [Json.Normal, NormalFields, Fields.Ascending]
    decide
  have hcompile : CompiledFilter.compile [("a", .num (.int 1)), ("b", .str "x")] =
      .ok ⟨[("a", .num (.int 1)), ("b", .str "x")],
        [⟨"a", ["a"], .num (.int 1)⟩, ⟨"b", ["b"], .str "x"⟩], []⟩ := by cbv
  have hs := Reachable.single (RunRecord.normal_ofParams hnormal)
  refine ⟨_, _, hcompile, rfl, ?_⟩
  refine ((findRuns_exact_iff hs rfl hnormal hcompile).2.1 (by decide)).2 ⟨by decide, ?_⟩
  intro run hrun
  -- The store has one run.
  obtain rfl := List.mem_singleton.1 hrun
  refine ⟨by decide, fun _ => by decide, fun _ clause hclause m n hm hn => ?_⟩
  have hclause : clause = ⟨"a", ["a"], .num (.int 1)⟩ ∨ clause = ⟨"b", ["b"], .str "x"⟩ := by
    simpa using hclause
  -- Only the first clause is about a number.
  rcases hclause with rfl | rfl
  · cases hm
    cases hn
    rfl
  · cases hn

/-- A search that finds nothing where there is a run that contains the pattern is not exact. -/
theorem not_findsExactly_of_nil {s : Store} {t : Tables} {filter : CompiledFilter}
    (hfound : s.findRuns filter = .ok []) {run : Run} (hrun : run ∈ t.runs)
    (hcontains : filter.contains run.loaded = true) : ¬ s.FindsExactly t filter := by
  rintro ⟨found, hfound', hmem, -⟩
  obtain rfl : [] = found := Except.ok.inj (hfound.symm.trans hfound')
  exact List.not_mem_nil ((hmem run.loaded).2 ⟨⟨run, hrun, rfl⟩, hcontains⟩)

/-- Two searches that miss a run. A key with a backslash is not read as it is written, and two
integers beyond `2 ^ 53` that have the same float are not the same for the store. -/
theorem not_findsExactly_backslash_and_largeInteger :
    (∃ compiled t, CompiledFilter.compile [("a\\b", .str "x")] = .ok compiled ∧
      (single (.ofParams [("a\\b", .str "x")])).tables = some t ∧
      ¬ (single (.ofParams [("a\\b", .str "x")])).FindsExactly t compiled) ∧
    ∃ compiled t, CompiledFilter.compile [("n", .num (.int 9007199254740993))] = .ok compiled ∧
      (single (.ofParams [("n", .num (.int 9007199254740992))])).tables = some t ∧
      ¬ (single (.ofParams [("n", .num (.int 9007199254740992))])).FindsExactly t compiled := by
  refine ⟨?_, ?_⟩
  -- The key is read with its escape, so nothing is there.
  · have hcompile : CompiledFilter.compile [("a\\b", .str "x")] =
        .ok ⟨[("a\\b", .str "x")], [⟨"a\\b", ["a\\b"], .str "x"⟩], []⟩ := by cbv
    refine ⟨_, _, hcompile, rfl, ?_⟩
    exact not_findsExactly_of_nil (by cbv) (List.mem_singleton.2 rfl) (by cbv)
  · have hcompile : CompiledFilter.compile [("n", .num (.int 9007199254740993))] =
        .ok ⟨[("n", .num (.int 9007199254740993))],
          [⟨"n", ["n"], .num (.int 9007199254740993)⟩], []⟩ := by cbv
    refine ⟨_, _, hcompile, rfl, ?_⟩
    exact not_findsExactly_of_nil (by cbv) (List.mem_singleton.2 rfl) (by decide +kernel)

end Store

end BenchCharts

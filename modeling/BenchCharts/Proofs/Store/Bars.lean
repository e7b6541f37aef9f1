import BenchCharts.Proofs.Ownership
import BenchCharts.Proofs.Outcome
import BenchCharts.Proofs.Sorting
import BenchCharts.Proofs.Store.Reduction
import BenchCharts.Store.Bars

/-!
# What a bar query computes

A bar query mixes the samples of all runs and takes them apart again, by run and then by label. If
no run is given twice, each run comes back with exactly its own samples and its own label:

* `contributors` are the runs that have samples, in the order of their ids;
* `merged?` is the cell of a label, made of one reduction for each of its contributors;
* `evaluate?_eq_some` — the bars are the labels for which that is a number.

The cells of a run are given as a function, so that nothing here depends on what is measured.
-/

namespace BenchCharts

/-- The cells of a run, where its samples can be read. -/
def cellsOf (samples? : String → Option (List Sample)) (runId : String) : List Cell :=
  ((samples? runId).getD []).map Sample.cell

namespace AggregateQuery

/-- The runs that have cells, with their labels, in the order of their ids. -/
def contributors (q : AggregateQuery) (cells : String → List Cell) : List (String × String) :=
  stableSort (compareOn Prod.fst) (q.runLabels.filter fun rl => !(cells rl.1).isEmpty)

/-- The merged cell of a label: the cells of each contributor reduced first, and then the
reductions. -/
def merged? (q : AggregateQuery) (cells : String → List Cell) (label : String) : Option Cell :=
  (((q.contributors cells).filter (·.2 = label)).mapM fun rl =>
    q.mergeAlgorithm.reduce? (cells rl.1)).bind q.mergePolicy.reduce?

/-- The value of a label: its merged cell as a float, unless that is nothing. -/
def value? (q : AggregateQuery) (cells : String → List Cell) (label : String) : Option Float :=
  (q.merged? cells label).bind Cell.float?

theorem mem_contributors_iff {q : AggregateQuery} {cells : String → List Cell}
    {rl : String × String} :
    rl ∈ q.contributors cells ↔ rl ∈ q.runLabels ∧ cells rl.1 ≠ [] := by
  rw [contributors, mem_stableSort, List.mem_filter]
  simp

/-! ### Samples of all runs -/

/-- The cells of a run with its id and its label. -/
def labelled (cells : String → List Cell) (rl : String × String) : List LabelledCell :=
  (cells rl.1).map fun cell => ⟨rl.1, rl.2, cell⟩

/-- The samples of all runs are those of one run after the other. -/
theorem labelledCells_eq {q : AggregateQuery} {samples? : String → Option (List Sample)}
    {cells : List LabelledCell} (h : q.labelledCells samples? = some cells) :
    cells = q.runLabels.flatMap (labelled (cellsOf samples?)) := by
  unfold labelledCells at h
  rw [Option.map_eq_some_iff] at h
  obtain ⟨lists, hlists, rfl⟩ := h
  have heq := @eq_map_of_mapM_eq_some _ _ _ (labelled (cellsOf samples?)) _ _ hlists ?_
  · rw [heq, List.flatMap_def]
  -- Where a run could be read, its cells are the ones it has.
  · rintro ⟨id, label⟩ - group hgroup
    obtain ⟨samples, hsamples, rfl⟩ := Option.map_eq_some_iff.1 hgroup
    simp [labelled, cellsOf, labelCells, hsamples]

/-- The cells of a run all have its id. -/
theorem runId_of_mem_labelled (cells : String → List Cell) (rl : String × String) :
    ∀ cell ∈ labelled cells rl, cell.runId = rl.1 := by
  intro cell hcell
  obtain ⟨c, -, rfl⟩ := List.mem_map.1 hcell
  rfl

/-! ### One reduction for each run -/

/-- No run is a contributor twice. -/
theorem pairwise_contributors {q : AggregateQuery} (hids : (q.runLabels.map Prod.fst).Nodup)
    (cells : String → List Cell) :
    (q.contributors cells).Pairwise fun a b => compare a.1 b.1 = .lt := by
  refine @pairwise_lt_stableSort _ (compareOn Prod.fst) _ _ ?_
  refine ((List.pairwise_map.1 hids).filter _).imp fun hne heq => hne ?_
  exact Std.LawfulEqOrd.eq_of_compare heq

/-- Grouping by run gives back each contributor with its own cells. -/
theorem groupBy_runId {q : AggregateQuery} (hids : (q.runLabels.map Prod.fst).Nodup)
    (cells : String → List Cell) :
    groupBy compare LabelledCell.runId (q.runLabels.flatMap (labelled cells)) =
      (q.contributors cells).map fun rl => (rl.1, labelled cells rl) := by
  -- Both lists of ids ascend strictly, so it is enough that they have the same ids.
  have hkeys : (groupBy compare LabelledCell.runId
      (q.runLabels.flatMap (labelled cells))).map Prod.fst =
        (q.contributors cells).map Prod.fst := by
    refine eq_of_pairwise_lt (pairwise_lt_groupBy _)
      (List.pairwise_map.2 (pairwise_contributors hids cells)) fun id => ?_
    rw [map_fst_groupBy, mem_stableSort, mem_distinct, List.map_flatMap, List.mem_flatMap,
      List.mem_map]
    refine exists_congr fun rl => ?_
    rw [mem_contributors_iff, and_assoc]
    refine and_congr_right fun _ => ?_
    -- The cells of a run all have its id, so it is among theirs if there are any.
    cases hcells : cells rl.1 with
    | nil => simp [labelled, hcells]
    | cons c rest => simp [labelled, hcells, eq_comm]
  -- What is grouped under an id are the cells of the one run that has it.
  rw [groupBy_eq_map, hkeys, List.map_map]
  refine List.map_congr_left fun rl hrl => ?_
  have hfilter := filter_flatMap_owner (fun rl _ => runId_of_mem_labelled cells rl) hids
    (mem_contributors_iff.1 hrl).1
  exact Prod.ext rfl hfilter

/-- The reduction of the cells of a run has its label. -/
theorem of?_labelled (a : Aggregation) {cells : String → List Cell} {rl : String × String}
    (hne : cells rl.1 ≠ []) :
    RunValue.of? a rl.1 (labelled cells rl) =
      (a.reduce? (cells rl.1)).map fun cell => ⟨rl.1, rl.2, cell⟩ := by
  have hmap : (labelled cells rl).map LabelledCell.cell = cells rl.1 := by
    rw [labelled, List.map_map]
    exact List.map_id _
  cases hgroup : labelled cells rl with
  | nil =>
    rw [hgroup] at hmap
    exact absurd hmap.symm hne
  | cons first rest =>
    -- Whichever cell is the best one, it comes with the same label as all others of the run.
    have hlabel : (a.bestFrom LabelledCell.cell first rest).label = rl.2 := by
      have hmem := a.bestFrom_mem LabelledCell.cell first rest
      rw [← hgroup] at hmem
      obtain ⟨c, -, heq⟩ := List.mem_map.1 hmem
      rw [← heq]
    rw [RunValue.of?, ← hgroup, hmap, hlabel]

/-- **Each contributor is reduced once, from its own cells.** -/
theorem runValues?_eq_some {q : AggregateQuery} (hids : (q.runLabels.map Prod.fst).Nodup)
    {cells : String → List Cell} {runs : List RunValue}
    (h : q.runValues? (q.runLabels.flatMap (labelled cells)) = some runs) :
    runs.map some = (q.contributors cells).map fun rl =>
      (q.mergeAlgorithm.reduce? (cells rl.1)).map fun cell => ⟨rl.1, rl.2, cell⟩ := by
  rw [runValues?, groupBy_runId hids, mapM_eq_some_iff, List.map_map] at h
  rw [← h]
  -- What is grouped under the id of a run are its own cells, with its label.
  refine List.map_congr_left fun rl hrl => ?_
  exact of?_labelled q.mergeAlgorithm (mem_contributors_iff.1 hrl).2

/-! ### One bar for each label -/

/-- The reductions of the contributors with a label are the cells of the runs with that label. -/
theorem mapM_filter_label {reduce : String × String → Option Cell} {rls : List (String × String)}
    {runs : List RunValue}
    (h : runs.map some = rls.map fun rl => (reduce rl).map fun cell => ⟨rl.1, rl.2, cell⟩)
    (label : String) :
    (rls.filter (·.2 = label)).mapM reduce =
      some ((runs.filter (·.label = label)).map RunValue.cell) := by
  rw [mapM_eq_some_iff]
  induction rls generalizing runs with
  | nil =>
    obtain rfl : runs = [] := by simpa using h
    rfl
  | cons rl rest ih =>
    cases runs with
    | nil => cases h
    | cons run more =>
      obtain ⟨hrun, hmore⟩ := List.cons.inj h
      obtain ⟨cell, hcell, rfl⟩ := Option.map_eq_some_iff.1 hrun.symm
      have ih := ih hmore
      -- A contributor and its run have the same label, so the filters keep both or neither.
      by_cases hlabel : rl.2 = label
      · simp [hlabel, hcell, ih]
      · simp [hlabel, ih]

theorem map_runId_label {reduce : String × String → Option Cell} {rls : List (String × String)}
    {runs : List RunValue}
    (h : runs.map some = rls.map fun rl => (reduce rl).map fun cell => ⟨rl.1, rl.2, cell⟩) :
    runs.map (fun run => (run.runId, run.label)) = rls := by
  induction rls generalizing runs with
  | nil => simpa using h
  | cons rl rest ih =>
    cases runs with
    | nil => cases h
    | cons run more =>
      obtain ⟨hrun, hmore⟩ := List.cons.inj h
      obtain ⟨cell, -, rfl⟩ := Option.map_eq_some_iff.1 hrun.symm
      rw [List.map_cons, ih hmore]

/-- The labels of the runs are those of the contributors. -/
theorem mem_map_label_iff {rls : List (String × String)} {runs : List RunValue}
    (h : runs.map (fun run => (run.runId, run.label)) = rls) {label : String} :
    label ∈ runs.map RunValue.label ↔ ∃ rl ∈ rls, rl.2 = label := by
  rw [← h, ← List.mem_map, List.map_map]
  rfl

/-- The bars are those of the groups whose value is something. -/
theorem mem_bars?_iff {q : AggregateQuery} {runs : List RunValue} {bars : List Bar}
    (h : q.bars? runs = some bars) {bar : Bar} :
    bar ∈ bars ↔ ∃ group ∈ groupBy compare RunValue.label runs,
      Bar.of? q.mergePolicy group.1 group.2 = some (some bar) := by
  unfold bars? at h
  rw [Option.map_eq_some_iff] at h
  obtain ⟨found, hfound, rfl⟩ := h
  have hmap := mapM_eq_some_iff.1 hfound
  rw [List.mem_filterMap]
  have hsome : some bar ∈ found ↔ some (some bar) ∈ found.map some := by simp
  simp only [id, exists_eq_right, hsome, ← hmap, List.mem_map]

/-- A label has a bar if the merged cell of its runs has a float. -/
theorem mem_bars_iff {q : AggregateQuery} {runs : List RunValue} {bars : List Bar}
    (h : q.bars? runs = some bars) {label : String} {value : Float} :
    (∃ bar ∈ bars, bar.label = label ∧ bar.value = value) ↔
      label ∈ runs.map RunValue.label ∧
        ∃ cell, q.mergePolicy.reduce? ((runs.filter (·.label = label)).map RunValue.cell) =
          some cell ∧ cell.float? = some value := by
  refine ⟨?_, ?_⟩
  -- A bar was made of the group of its label.
  · rintro ⟨bar, hbar, rfl, rfl⟩
    obtain ⟨⟨label, group⟩, hgroup, hof⟩ := (mem_bars?_iff h).1 hbar
    obtain ⟨hlabel, rfl⟩ := mem_groupBy_iff.1 hgroup
    obtain ⟨cell, hcell, hfloat⟩ := Option.map_eq_some_iff.1 hof
    obtain ⟨value, hvalue, rfl⟩ := Option.map_eq_some_iff.1 hfloat
    exact ⟨hlabel, cell, hcell, hvalue⟩
  · rintro ⟨hlabel, cell, hcell, hvalue⟩
    -- The group of the label merges to this cell, so it has a bar.
    have hof : Bar.of? q.mergePolicy label (runs.filter (·.label = label)) =
        some (some ⟨label, value, groupIds (runs.filter (·.label = label))⟩) := by
      rw [Bar.of?, hcell, Option.map_some, hvalue, Option.map_some]
    exact ⟨_, (mem_bars?_iff h).2 ⟨_, mem_groupBy_iff.2 ⟨hlabel, rfl⟩, hof⟩, rfl, rfl⟩

/-- The labels of the bars are among those of the groups, in their order. -/
theorem labels_sublist {policy : Aggregation} {groups : List (String × List RunValue)}
    {found : List (Option Bar)}
    (h : (groups.map fun (label, group) => Bar.of? policy label group) = found.map some) :
    ((found.filterMap id).map Bar.label).Sublist (groups.map Prod.fst) := by
  induction groups generalizing found with
  | nil =>
    obtain rfl : found = [] := by simpa using h.symm
    exact List.Sublist.refl _
  | cons group rest ih =>
    cases found with
    | nil => cases h
    | cons bar more =>
      obtain ⟨hbar, hmore⟩ := List.cons.inj h
      cases bar with
      -- A group without a value has no bar, which leaves the order of the others as it is.
      | none => exact (ih hmore).cons _
      | some bar =>
        obtain ⟨cell, -, hfloat⟩ := Option.map_eq_some_iff.1 hbar
        obtain ⟨value, -, rfl⟩ := Option.map_eq_some_iff.1 hfloat
        exact (ih hmore).cons_cons _

/-- No two bars share a label. -/
theorem nodup_labels_bars? {q : AggregateQuery} {runs : List RunValue} {bars : List Bar}
    (h : q.bars? runs = some bars) : (bars.map Bar.label).Nodup := by
  unfold bars? at h
  rw [Option.map_eq_some_iff] at h
  obtain ⟨found, hfound, rfl⟩ := h
  refine (labels_sublist (mapM_eq_some_iff.1 hfound)).nodup ?_
  -- The labels of the groups are distinct.
  rw [map_fst_groupBy]
  exact (stableSort_perm _ _).nodup_iff.2 (nodup_distinct _)

/-- A query asks for no samples but those of the runs that it is given. -/
theorem evaluate?_congr {q : AggregateQuery} {samples? samples'? : String → Option (List Sample)}
    (h : ∀ rl ∈ q.runLabels, samples? rl.1 = samples'? rl.1) :
    q.evaluate? samples? = q.evaluate? samples'? := by
  have hcells : q.labelledCells samples? = q.labelledCells samples'? := by
    rw [labelledCells, labelledCells]
    refine congrArg (Option.map List.flatten) (mapM_congr_left fun rl hrl => ?_)
    simp only [h rl hrl]
  rw [evaluate?, evaluate?, hcells]

/-- A query without runs has no bars. -/
theorem evaluate?_of_runLabels_eq_nil {q : AggregateQuery} (h : q.runLabels = [])
    (samples? : String → Option (List Sample)) : q.evaluate? samples? = some [] := by
  have hcells : q.labelledCells samples? = some [] := by
    rw [labelledCells, h]
    rfl
  rw [evaluate?, hcells]
  rfl

/-- What a label of no contributor merges to is nothing. -/
theorem exists_contributor_of_value? {q : AggregateQuery} {cells : String → List Cell}
    {label : String} {value : Float} (h : q.value? cells label = some value) :
    ∃ rl ∈ q.contributors cells, rl.2 = label := by
  cases hfilter : (q.contributors cells).filter (·.2 = label) with
  -- Nothing merges to nothing, which has no float.
  | nil =>
    rw [value?, merged?, hfilter] at h
    cases h
  | cons rl rest =>
    have hmem : rl ∈ (q.contributors cells).filter (·.2 = label) := by
      rw [hfilter]
      exact List.mem_cons_self ..
    obtain ⟨hrl, hlabel⟩ := List.mem_filter.1 hmem
    exact ⟨rl, hrl, of_decide_eq_true hlabel⟩

/-- Numeric cells merge to a numeric cell. -/
theorem isNumeric_merged? {q : AggregateQuery} {cells : String → List Cell}
    (hcells : ∀ id, ∀ c ∈ cells id, c.isNumeric = true) {label : String} {c : Cell}
    (h : q.merged? cells label = some c) : c.isNumeric = true := by
  obtain ⟨reduced, hreduced, hmerge⟩ := Option.bind_eq_some_iff.1 h
  refine Aggregation.reduce?_isNumeric (fun cell hcell => ?_) hmerge
  have hmem : some cell ∈ reduced.map some := List.mem_map_of_mem hcell
  -- What is merged are reductions of the cells of single runs.
  rw [← mapM_eq_some_iff.1 hreduced] at hmem
  obtain ⟨rl, -, hrl⟩ := List.mem_map.1 hmem
  exact Aggregation.reduce?_isNumeric (hcells rl.1) hrl

/-- A label has a value if it is the label of a contributor and does not merge to nothing. -/
theorem exists_value?_iff {q : AggregateQuery} {cells : String → List Cell}
    (hcells : ∀ id, ∀ c ∈ cells id, c.isNumeric = true) {label : String} :
    (∃ value, q.value? cells label = some value) ↔
      (∃ rl ∈ q.contributors cells, rl.2 = label) ∧
        ∃ cell, q.merged? cells label = some cell ∧ cell.isNull = false := by
  refine ⟨?_, ?_⟩
  · rintro ⟨value, hvalue⟩
    refine ⟨exists_contributor_of_value? hvalue, ?_⟩
    obtain ⟨cell, hcell, hfloat⟩ := Option.bind_eq_some_iff.1 hvalue
    refine ⟨cell, hcell, (Cell.isSome_float?_iff (isNumeric_merged? hcells hcell)).1 ?_⟩
    rw [hfloat]
    rfl
  -- A numeric cell that is something has a float.
  · rintro ⟨-, cell, hcell, hnull⟩
    have hfloat := (Cell.isSome_float?_iff (isNumeric_merged? hcells hcell)).2 hnull
    obtain ⟨value, hvalue⟩ := Option.isSome_iff_exists.1 hfloat
    exact ⟨value, Option.bind_eq_some_iff.2 ⟨cell, hcell, hvalue⟩⟩

/-- The steps of a query: one reduction for each contributor, of which the bars are made. -/
theorem evaluate?_steps {q : AggregateQuery} (hids : (q.runLabels.map Prod.fst).Nodup)
    {samples? : String → Option (List Sample)} {bars : List Bar}
    (h : q.evaluate? samples? = some bars) :
    ∃ runs : List RunValue, q.bars? runs = some bars ∧
      runs.map (fun run => (run.runId, run.label)) = q.contributors (cellsOf samples?) ∧
      ∀ label, q.merged? (cellsOf samples?) label =
        q.mergePolicy.reduce? ((runs.filter (·.label = label)).map RunValue.cell) := by
  unfold evaluate? at h
  -- The query reads the cells, reduces them run by run, and merges them label by label.
  obtain ⟨cells, hcells, hrest⟩ := Option.bind_eq_some_iff.1 h
  obtain ⟨runs, hruns, hbars⟩ := Option.bind_eq_some_iff.1 hrest
  rw [labelledCells_eq hcells] at hruns
  have hvalues := runValues?_eq_some hids hruns
  refine ⟨runs, hbars, map_runId_label hvalues, fun label => ?_⟩
  rw [merged?, mapM_filter_label hvalues label]
  rfl

/-- **The bars of a query.** If no run is given twice, no label has two bars, and the bars are the
labels that have a value, with that value. -/
theorem evaluate?_eq_some {q : AggregateQuery} (hids : (q.runLabels.map Prod.fst).Nodup)
    {samples? : String → Option (List Sample)} {bars : List Bar}
    (h : q.evaluate? samples? = some bars) :
    (bars.map Bar.label).Nodup ∧
      ∀ label value, (∃ bar ∈ bars, bar.label = label ∧ bar.value = value) ↔
        q.value? (cellsOf samples?) label = some value := by
  obtain ⟨runs, hbars, hcontributors, hmerged⟩ := evaluate?_steps hids h
  refine ⟨nodup_labels_bars? hbars, fun label value => ?_⟩
  rw [mem_bars_iff hbars, mem_map_label_iff hcontributors, ← hmerged, ← Option.bind_eq_some_iff]
  exact and_iff_right_of_imp exists_contributor_of_value?

/-- A query that succeeds merges the cells of every label. -/
theorem exists_merged?_of_evaluate? {q : AggregateQuery}
    (hids : (q.runLabels.map Prod.fst).Nodup) {samples? : String → Option (List Sample)}
    {bars : List Bar} (h : q.evaluate? samples? = some bars) {label : String}
    (hlabel : ∃ rl ∈ q.contributors (cellsOf samples?), rl.2 = label) :
    ∃ cell, q.merged? (cellsOf samples?) label = some cell := by
  obtain ⟨runs, hbars, hcontributors, hmerged⟩ := evaluate?_steps hids h
  rw [hmerged]
  unfold bars? at hbars
  obtain ⟨found, hfound, -⟩ := Option.map_eq_some_iff.1 hbars
  have hgroup : (label, runs.filter (·.label = label)) ∈ groupBy compare RunValue.label runs :=
    mem_groupBy_iff.2 ⟨(mem_map_label_iff hcontributors).2 hlabel, rfl⟩
  -- The group of the label has an outcome like any other, if only that it has no bar.
  have hmem := List.mem_map_of_mem (f := fun (label, group) => Bar.of? q.mergePolicy label group)
    hgroup
  rw [mapM_eq_some_iff.1 hfound] at hmem
  obtain ⟨bar, -, hbar⟩ := List.mem_map.1 hmem
  obtain ⟨cell, hcell, -⟩ := Option.map_eq_some_iff.1 hbar.symm
  exact ⟨cell, hcell⟩

theorem isSome_runValues?_iff {q : AggregateQuery} (hids : (q.runLabels.map Prod.fst).Nodup)
    {cells : String → List Cell} :
    (q.runValues? (q.runLabels.flatMap (labelled cells))).isSome = true ↔
      ∀ rl ∈ q.contributors cells, (q.mergeAlgorithm.reduce? (cells rl.1)).isSome = true := by
  rw [runValues?, groupBy_runId hids, isSome_mapM_iff, List.forall_mem_map]
  refine forall₂_congr fun rl hrl => ?_
  have hof := of?_labelled q.mergeAlgorithm (mem_contributors_iff.1 hrl).2
  simp only [hof, Option.isSome_map]

theorem isSome_bars?_iff {q : AggregateQuery} {runs : List RunValue} :
    (q.bars? runs).isSome = true ↔
      ∀ label ∈ runs.map RunValue.label,
        (q.mergePolicy.reduce? ((runs.filter (·.label = label)).map RunValue.cell)).isSome =
          true := by
  rw [bars?, Option.isSome_map, isSome_mapM_iff]
  constructor
  · intro h label hlabel
    have hgroup := h (label, runs.filter (·.label = label)) (mem_groupBy_iff.2 ⟨hlabel, rfl⟩)
    exact Option.isSome_map.symm.trans hgroup
  · rintro h ⟨label, group⟩ hgroup
    obtain ⟨hlabel, rfl⟩ := mem_groupBy_iff.1 hgroup
    exact Option.isSome_map.trans (h label hlabel)

/-- **A query succeeds if the cells of every label merge.** -/
theorem isSome_evaluate?_iff {q : AggregateQuery} (hids : (q.runLabels.map Prod.fst).Nodup)
    {samples? : String → Option (List Sample)} (hread : ∀ id, (samples? id).isSome = true) :
    (q.evaluate? samples?).isSome = true ↔
      ∀ label, (∃ rl ∈ q.contributors (cellsOf samples?), rl.2 = label) →
        (q.merged? (cellsOf samples?) label).isSome = true := by
  constructor
  · intro h label hlabel
    obtain ⟨bars, hbars⟩ := Option.isSome_iff_exists.1 h
    exact Option.isSome_iff_exists.2 (exists_merged?_of_evaluate? hids hbars hlabel)
  · intro h
    -- First the samples of every run are read.
    obtain ⟨cells, hcells⟩ : ∃ cells, q.labelledCells samples? = some cells := by
      rw [← Option.isSome_iff_exists, labelledCells, Option.isSome_map, isSome_mapM_iff]
      exact fun rl _ => Option.isSome_map.trans (hread rl.1)
    -- Then each contributor is reduced.
    obtain ⟨runs, hruns⟩ : ∃ runs, q.runValues? cells = some runs := by
      rw [← Option.isSome_iff_exists, labelledCells_eq hcells, isSome_runValues?_iff hids]
      intro rl hrl
      -- Each contributor is reduced in the merging of its own label.
      obtain ⟨cell, hcell⟩ := Option.isSome_iff_exists.1 (h rl.2 ⟨rl, hrl, rfl⟩)
      obtain ⟨reduced, hreduced, -⟩ := Option.bind_eq_some_iff.1 hcell
      exact isSome_mapM_iff.1 (Option.isSome_iff_exists.2 ⟨reduced, hreduced⟩) rl
        (List.mem_filter.2 ⟨hrl, decide_eq_true rfl⟩)
    rw [evaluate?, hcells, Option.bind_eq_bind, Option.bind_some, hruns, Option.bind_eq_bind,
      Option.bind_some, isSome_bars?_iff]
    -- At last the runs of each label are merged.
    rw [labelledCells_eq hcells] at hruns
    have hvalues := runValues?_eq_some hids hruns
    intro label hlabel
    have hmerged := h label ((mem_map_label_iff (map_runId_label hvalues)).1 hlabel)
    rwa [merged?, mapM_filter_label hvalues label, Option.bind_some] at hmerged

end AggregateQuery

end BenchCharts

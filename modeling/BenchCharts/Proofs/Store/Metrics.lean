import BenchCharts.Proofs.Chart.Bars
import BenchCharts.Proofs.Params.Rendered
import BenchCharts.Store.Series

/-!
# Metrics by their names

The names of the metrics of a run are listed as they are in its samples (`Store.metricKeys`), while
the points of a metric are asked for by a path (`Store.metricSeries`). So a name is only good for
asking if, read as a path, it leads back to itself. A `Legible` name does: it has no point at which
a path would be cut, nothing that a path must not have, and nothing that the store reads in a way of
its own.

`Tables.samplesOf` are the samples of a name, taken from the objects without any path. For a
legible name a series is made of just these (`metricSeries_of_legible`), provided that the store can
search the metrics of the run, that no number of the run has a name with a NUL in it, which could be
taken for the shorter name before the NUL, and that the numbers are read as they are.
-/

namespace BenchCharts

open Json

/-! ### Names that can be paths -/

/-- A name that a path can be made of as it is. -/
def StoredKey.Legible (key : String) : Prop :=
  Text.trimChars key.toList ≠ [] ∧ '.' ∉ key.toList ∧ '"' ∉ key.toList ∧ Plain key

instance (key : String) : Decidable (StoredKey.Legible key) :=
  inferInstanceAs (Decidable (_ ∧ _ ∧ _ ∧ _))

theorem FieldPath.check_of_legible {key : String} (h : StoredKey.Legible key) :
    check key = .ok [key] := by
  obtain ⟨htrim, hdot, hquote, -⟩ := h
  have hne : key ≠ "" := by
    rintro rfl
    exact htrim rfl
  -- The name is one key, and a path of it is not blank.
  have haddr := Fields.addressableKey_iff.2 ⟨hne, hdot, hquote⟩
  have hblank : ¬ Blank (ofKeys [key]) := by
    rw [ofKeys_singleton]
    exact fun hblank => htrim (List.isEmpty_iff.1 (isEmpty_trimChars_iff.2 hblank))
  have hcheck := check_ofKeys (List.cons_ne_nil _ _) (List.forall_mem_singleton.2 haddr) hblank
  rwa [ofKeys_singleton] at hcheck

/-! ### Samples of a name -/

/-- Whether a name belongs to a number in some sample of a run. -/
def Tables.IsMetric (t : Tables) (runId key : String) : Prop :=
  ∃ m ∈ ownedBy t.metrics runId, ∃ n, m.metrics.get? key = some (.num n)

/-- The samples of a run after its warm-up in which a name belongs to a number, in order of their
offsets, with each number turned into a cell. -/
def Tables.samplesOf (cell : Number → Cell) (t : Tables) (key : String) (trimming : Int)
    (runId : String) : List Sample :=
  (afterWarmUp MetricSample.offset trimming (ownedBy t.metrics runId)).filterMap fun m =>
    ((m.metrics.get? key).bind Json.number?).map fun n => ⟨m.offset, m.initiated, cell n⟩

/-- The store can search the metrics of a run. -/
def Tables.CanSearch (t : Tables) (runId : String) : Prop :=
  ∀ m ∈ ownedBy t.metrics runId, (Json.obj m.metrics).searchable = true

/-- The store reads the numbers of a name as they are. -/
def Tables.ReadAsIs (t : Tables) (runId key : String) : Prop :=
  ∀ m ∈ ownedBy t.metrics runId, ∀ n, m.metrics.get? key = some (.num n) →
    Json.numberCell n = n.cell

/-- If each number of a name is read as it is, then so are its samples. -/
theorem Tables.samplesOf_numberCell {t : Tables} {runId key : String}
    (hread : t.ReadAsIs runId key) (trimming : Int) :
    t.samplesOf Json.numberCell key trimming runId =
      t.samplesOf Number.cell key trimming runId := by
  refine List.filterMap_congr fun m hm => Option.map_congr fun n hn => ?_
  obtain ⟨value, hget, hvalue⟩ := Option.bind_eq_some_iff.1 hn
  obtain rfl := number?_eq_some_iff.1 hvalue
  rw [hread m (List.mem_filter.1 (mem_stableSort.1 hm)).1 n hget]

/-- A name with samples belongs to a number. -/
theorem Tables.isMetric_of_samplesOf_ne_nil {t : Tables} {cell : Number → Cell} {key : String}
    {trimming : Int} {runId : String} (h : t.samplesOf cell key trimming runId ≠ []) :
    t.IsMetric runId key := by
  obtain ⟨sample, hsample⟩ := List.exists_mem_of_ne_nil _ h
  obtain ⟨m, hm, hnumber⟩ := List.mem_filterMap.1 hsample
  obtain ⟨n, hn, -⟩ := Option.map_eq_some_iff.1 hnumber
  obtain ⟨value, hget, hvalue⟩ := Option.bind_eq_some_iff.1 hn
  obtain rfl := number?_eq_some_iff.1 hvalue
  exact ⟨m, (List.mem_filter.1 (mem_stableSort.1 hm)).1, n, hget⟩

namespace Store

variable {s : Store} {t : Tables} (ht : s.tables = some t)

include ht

/-- The names that are listed for a run are those of its numbers, each once and in order, provided
that its metrics can be searched. -/
theorem metricKeys_eq_ok (hnormal : ∀ row ∈ t.metrics, (Json.obj row.item.metrics).Normal)
    {runId : String} (hsearch : t.CanSearch runId) :
    ∃ keys, s.metricKeys runId = .ok keys ∧ keys.Pairwise (fun a b => compare a b = .lt) ∧
      ∀ key, key ∈ keys ↔ t.IsMetric runId key := by
  refine ⟨_, (query_of_tables ht _ _).trans (if_pos (List.all_eq_true.2 hsearch)), ?_,
    fun key => ?_⟩
  -- The names are distinct before they are sorted, so no two of them compare equal.
  · refine pairwise_lt_stableSort ((nodup_distinct _).imp fun hne heq => ?_)
    exact hne (Std.LawfulEqOrd.eq_of_compare heq)
  · rw [mem_stableSort, mem_distinct, List.mem_map]
    constructor
    · rintro ⟨⟨name, value⟩, hmem, rfl⟩
      obtain ⟨m, hm, hmem⟩ := List.mem_flatMap.1 hmem
      obtain ⟨hmem, hnumber⟩ := List.mem_filter.1 hmem
      obtain ⟨n, rfl⟩ := isNumber_iff.1 hnumber
      obtain ⟨row, hrow, rfl⟩ := List.mem_map.1 hm
      have hasc := (hnormal row (List.mem_filter.1 hrow).1).2
      exact ⟨row.item, hm, n, Fields.get?_of_mem hasc hmem⟩
    · rintro ⟨m, hm, n, hget⟩
      refine ⟨(key, .num n), List.mem_flatMap.2 ⟨m, hm, ?_⟩, rfl⟩
      exact List.mem_filter.2 ⟨Fields.mem_of_get?_eq_some hget, rfl⟩

/-- No names are listed if a sample of the run cannot be searched. -/
theorem canSearch_of_metricKeys {runId : String} {keys : List String}
    (h : s.metricKeys runId = .ok keys) : t.CanSearch runId := by
  rw [metricKeys, query_of_tables ht] at h
  dsimp only at h
  split at h
  · next hall => exact List.all_eq_true.1 hall
  · cases h

end Store

/-! ### Asking by a legible name -/

/-- A plain key finds the same numbers as a look-up of it, unless a number has a name with a NUL. -/
theorem StoredKey.lookup?_singleton {fields : Fields} (hasc : fields.Ascending) {key : String}
    (hplain : Plain key)
    (hnumbers : ∀ name n, fields.get? name = some (.num n) → Plain name) :
    ∃ found, lookup? (.obj fields) [key] = some found ∧
      found.bind Json.number? = (fields.get? key).bind Json.number? := by
  rw [lookup?_cons hplain]
  simp only [fields?, Option.getD_some]
  cases hget : fields.get? key with
  | some value =>
    rw [find?_of_get? hasc hplain hget]
    exact ⟨some value, rfl, rfl⟩
  | none =>
    cases hfind : fields.find? fun field => finds key field.1 with
    | none => exact ⟨none, rfl, rfl⟩
    | some member =>
      -- The key is not there. What is found for it has a NUL in its name, so it is no number.
      obtain ⟨name, value⟩ := member
      have hmem : fields.get? name = some value :=
        Fields.get?_of_mem hasc (List.mem_of_find?_eq_some hfind)
      refine ⟨some value, rfl, Option.eq_none_iff_forall_ne_some.2 fun n hn => ?_⟩
      obtain rfl := number?_eq_some_iff.1 hn
      have hname := hnumbers name n hmem
      have hfinds : finds key name = true := by simpa using List.find?_some hfind
      have heq : name = key := (finds_iff_eq hplain hname.2).1 hfinds
      rw [heq, hget] at hmem
      cases hmem

/-- **The series of a legible name is made of its samples**, as far as numbers are read. -/
theorem Store.metricSeries_of_legible {s : Store} {t : Tables} (ht : s.tables = some t)
    (hnormal : ∀ row ∈ t.metrics, (Json.obj row.item.metrics).Normal) {runId : String}
    (hsearch : t.CanSearch runId)
    (hplain : ∀ name, t.IsMetric runId name → StoredKey.Plain name) {key : String}
    (hkey : StoredKey.Legible key) (w : SeriesWindow) :
    s.metricSeries runId key w = answer .metricSeries
      (seriesPoints? w runId (t.samplesOf Json.numberCell key w.trimmingSeconds runId)) := by
  let number? (m : MetricSample) : Option Number := (m.metrics.get? key).bind Json.number?
  let sample (m : MetricSample) (cell : Cell) : Sample := ⟨m.offset, m.initiated, cell⟩
  have hsample : ∀ m ∈ Tables.ownedBy t.metrics runId, m.sample? [key] =
      some (sample m (((number? m).map Json.numberCell).getD .null)) := by
    intro m hm
    obtain ⟨row, hrow, rfl⟩ := List.mem_map.1 hm
    have hasc := (hnormal row (List.mem_filter.1 hrow).1).2
    -- Every number of a sample is a number of the run, so its name has no NUL.
    have hnumbers : ∀ name n, row.item.metrics.get? name = some (.num n) →
        StoredKey.Plain name := fun name n hget => hplain name ⟨row.item, hm, n, hget⟩
    obtain ⟨found, hfound, hsame⟩ := StoredKey.lookup?_singleton hasc hkey.2.2.2 hnumbers
    rw [MetricSample.sample?, Fields.search?_of_searchable (hsearch _ hm), hfound,
      Option.map_some, filter_isNumber_map_cell, hsame]
  -- A cell that is no number is read as NULL, and such cells are dropped again.
  have hsamples : t.metricSamples? [key] w.trimmingSeconds runId =
      some (t.samplesOf Json.numberCell key w.trimmingSeconds runId) := by
    rw [Tables.metricSamples?_eq hsample]
    refine congrArg some ?_
    exact BarMeasure.usable_map number? (fun n => (BarMeasure.isNumeric_numberCell n).2) sample
      (fun _ _ => rfl) _
  rw [Store.metricSeries, FieldPath.check_of_legible hkey]
  simp only [query_of_tables ht, hsamples, Option.bind_some]

/-! ### Points -/

/-- There are points if there are samples. -/
theorem seriesPoints?_eq_nil_iff {w : SeriesWindow} {runId : String} {samples : List Sample}
    {points : List SeriesPoint} (h : seriesPoints? w runId samples = some points) :
    points = [] ↔ samples = [] := by
  have hmap := mapM_eq_some_iff.1 h
  have hlength := congrArg List.length hmap
  rw [List.length_map, List.length_map] at hlength
  -- There is a group exactly if there is a sample for one.
  have hgroups : groupBy compare (fun s => w.bucketStart s.offset) samples = [] ↔ samples = [] := by
    rw [groupBy, List.map_eq_nil_iff, List.eq_nil_iff_forall_not_mem,
      List.eq_nil_iff_forall_not_mem]
    simp only [mem_stableSort, mem_distinct, List.mem_map]
    constructor
    · exact fun hall sample hmem => hall _ ⟨sample, hmem, rfl⟩
    · rintro hall _ ⟨sample, hmem, -⟩
      exact hall sample hmem
  rw [← hgroups, ← List.length_eq_zero_iff, ← hlength, List.length_eq_zero_iff]

end BenchCharts

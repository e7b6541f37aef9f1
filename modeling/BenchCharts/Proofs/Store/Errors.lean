import BenchCharts.Proofs.Store.Merging
import BenchCharts.Proofs.Store.Series

/-!
# Errors over time

A bucket records how often each kind of error occurred. If what it records are counts, integers of
64 bits, its errors are their exact total, which is zero if it records none, or they cannot be added
since a sum on the way leaves 64 bits (`Bucket.errorSample?_eq`). A bucket without errors is a
sample like any other: it has a point, its zero can be the least of the totals there, and their mean
is taken over it too.

The points of the errors of a run thus draw the totals of its buckets (`DrawsTotals`), and the store
answers these points unless a sum leaves 64 bits, in a bucket or in a point
(`Store.errorSeries_draws_totals`).
-/

namespace BenchCharts

/-! ### Totals of buckets -/

namespace Bucket

/-- What a bucket records of each kind of error is a count. -/
def CountsErrors (b : Bucket) : Prop := ∀ field ∈ b.errors, field.2.int64?.isSome = true

instance (b : Bucket) : Decidable b.CountsErrors :=
  inferInstanceAs (Decidable (∀ field ∈ b.errors, _))

/-- The counts of all kinds of errors. -/
def errorCounts (b : Bucket) : List Int := b.errors.filterMap fun field => field.2.int64?

/-- The number of errors. -/
def errorTotal (b : Bucket) : Int := b.errorCounts.sum

/-- The number of errors, as a sample. -/
def totalSample (b : Bucket) : Sample := ⟨b.offset, b.datetime, .int b.errorTotal⟩

end Bucket

/-- A count is seen as it is by a query. -/
theorem Json.cell_of_int64? {j : Json} {n : Int} (h : j.int64? = some n) :
    j.cell.numeric = .int n := by
  unfold int64? at h
  split at h
  · split at h
    -- A query sees an integer of 64 bits as what it is.
    · next hfits =>
      obtain rfl := Option.some.inj h
      rw [cell, numberCell, if_pos hfits]
      rfl
    · cases h
  · cases h

namespace Bucket

variable {b : Bucket}

/-- Counts are no containers, so nothing is nested too deeply to be searched. -/
theorem searchable_errors (h : b.CountsErrors) : (Json.obj b.errors).searchable = true := by
  have hflat : ∀ fields : Json.Fields, (∀ field ∈ fields, field.2.int64?.isSome = true) →
      Json.depthOfFields fields = 0 := by
    intro fields hfields
    induction fields with
    | nil => rfl
    | cons field rest ih =>
      obtain ⟨hfield, hrest⟩ := List.forall_mem_cons.1 hfields
      -- A count is a number, and no number has anything inside it.
      have hdepth : field.2.depth = 0 := by
        cases hvalue : field.2 <;> simp_all [Json.int64?, Json.depth]
      rw [Json.depthOfFields, hdepth, ih hrest]
      rfl
  rw [Json.searchable, Json.depth, hflat b.errors h]
  decide

theorem map_numeric_errors (h : b.CountsErrors) :
    b.errors.map (fun field => field.2.cell.numeric) = b.errorCounts.map .int := by
  rw [errorCounts, List.map_filterMap, ← List.filterMap_eq_map]
  -- No field is dropped, since each of them is a count.
  refine List.filterMap_congr fun field hfield => ?_
  obtain ⟨n, hn⟩ := Option.isSome_iff_exists.1 (h field hfield)
  rw [hn, Function.comp_apply, Json.cell_of_int64? hn, Option.map_some]

/-- **The errors of a bucket are the total of all kinds**, unless they cannot be added. -/
theorem errorSample?_eq (h : b.CountsErrors) :
    b.errorSample? = if SumsFit b.errorCounts then some b.totalSample else none := by
  rw [errorSample?, errorCell?, if_pos (searchable_errors h), map_numeric_errors h]
  by_cases hnil : b.errorCounts = []
  -- Without errors there is nothing to add, and nothing becomes zero.
  · rw [totalSample, errorTotal, hnil, if_pos (by decide)]
    rfl
  · split
    · next hfit =>
      rw [(Aggregation.reduce?_sum_eq_some_iff hnil).2 ⟨hfit, rfl⟩]
      rfl
    -- If they had a sum, they would fit.
    · next hunfit =>
      have hnone : Aggregation.sum.reduce? (b.errorCounts.map .int) = none :=
        Option.eq_none_iff_forall_ne_some.2 fun c hc =>
          hunfit ((Aggregation.reduce?_sum_eq_some_iff hnil).1 hc).1
      rw [hnone]
      rfl

end Bucket

/-- The errors of some buckets are read if each of them can be added. -/
theorem mapM_errorSample?_eq_some_iff {buckets : List Bucket}
    (hcounts : ∀ b ∈ buckets, b.CountsErrors) {samples : List Sample} :
    buckets.mapM Bucket.errorSample? = some samples ↔
      (∀ b ∈ buckets, SumsFit b.errorCounts) ∧ samples = buckets.map Bucket.totalSample := by
  constructor
  · intro h
    have hfit : ∀ b ∈ buckets, SumsFit b.errorCounts := by
      intro b hb
      have hsome : (b.errorSample?).isSome = true := isSome_mapM_iff.1 (h ▸ rfl) b hb
      rw [Bucket.errorSample?_eq (hcounts b hb)] at hsome
      -- A bucket whose counts do not fit has no sample.
      by_contra hunfit
      rw [if_neg hunfit] at hsome
      cases hsome
    refine ⟨hfit, eq_map_of_mapM_eq_some h fun b hb sample hsample => ?_⟩
    rw [Bucket.errorSample?_eq (hcounts b hb), if_pos (hfit b hb)] at hsample
    exact (Option.some.inj hsample).symm
  -- Each bucket gives its own total.
  · rintro ⟨hfit, rfl⟩
    rw [mapM_eq_some_iff, List.map_map]
    refine List.map_congr_left fun b hb => ?_
    rw [Bucket.errorSample?_eq (hcounts b hb), if_pos (hfit b hb), Function.comp_apply]

/-! ### Points of totals -/

namespace SeriesWindow

/-- The buckets of a run that are put at a start. -/
def bucketsAt (w : SeriesWindow) (start : Int) (buckets : List Bucket) : List Bucket :=
  buckets.filter fun b => w.bucketStart b.offset = start

/-- The numbers of errors of the buckets that are put at a start. -/
def totalsAt (w : SeriesWindow) (start : Int) (buckets : List Bucket) : List Int :=
  (w.bucketsAt start buckets).map Bucket.errorTotal

variable {w : SeriesWindow} {start : Int} {buckets : List Bucket}

theorem filter_map_totalSample :
    (buckets.map Bucket.totalSample).filter (fun s => w.bucketStart s.offset = start) =
      (w.bucketsAt start buckets).map Bucket.totalSample := by
  rw [List.filter_map]
  rfl

theorem map_cell_totalSample :
    ((w.bucketsAt start buckets).map Bucket.totalSample).map Sample.cell =
      (w.totalsAt start buckets).map .int := by
  rw [totalsAt, List.map_map, List.map_map]
  rfl

theorem totalsAt_ne_nil (h : ∃ b ∈ buckets, w.bucketStart b.offset = start) :
    w.totalsAt start buckets ≠ [] := by
  obtain ⟨b, hb, hstart⟩ := h
  have hmem : b ∈ w.bucketsAt start buckets := List.mem_filter.2 ⟨hb, decide_eq_true hstart⟩
  exact List.ne_nil_of_mem (List.mem_map_of_mem hmem)

end SeriesWindow

/-- The points of a series show the errors of some buckets of a run. -/
structure DrawsTotals (w : SeriesWindow) (runId : String) (buckets : List Bucket)
    (points : List SeriesPoint) : Prop where
  /-- The points are in order of time, one for each start. -/
  ascending : (points.map SeriesPoint.offset).Pairwise (· < ·)
  /-- They start where buckets are put, whether these have errors or not. -/
  starts : ∀ start, start ∈ points.map SeriesPoint.offset ↔
    ∃ b ∈ buckets, w.bucketStart b.offset = start
  /-- Each stands for the numbers of errors of all buckets that are put there. -/
  draws : ∀ p ∈ points,
    p.Draws w.merge runId ((w.bucketsAt p.offset buckets).map Bucket.totalSample)
  /-- Its value is exactly what these numbers are merged to. -/
  merges : ∀ p ∈ points, w.merge.Merges (w.totalsAt p.offset buckets) p.value

section Totals

variable {w : SeriesWindow} {runId : String} {buckets : List Bucket} {points : List SeriesPoint}

/-- Points draw totals if they draw the groups of samples that these are. -/
theorem drawsGroups_map_totalSample_iff :
    DrawsGroups w runId (buckets.map Bucket.totalSample) points ↔
      DrawsTotals w runId buckets points := by
  have hstarts : ∀ start, (∃ s ∈ buckets.map Bucket.totalSample, w.bucketStart s.offset = start) ↔
      ∃ b ∈ buckets, w.bucketStart b.offset = start := by
    intro start
    simp only [List.mem_map, exists_exists_and_eq_and]
    rfl
  constructor
  · intro h
    have hdraws : ∀ p ∈ points,
        p.Draws w.merge runId ((w.bucketsAt p.offset buckets).map Bucket.totalSample) :=
      fun p hp => SeriesWindow.filter_map_totalSample ▸ h.draws p hp
    refine ⟨h.ascending, fun start => (h.starts start).trans (hstarts start), hdraws,
      fun p hp => ?_⟩
    -- The cell that was drawn comes from a group with something in it, so it is a merged one.
    obtain ⟨cell, hcell, hvalue⟩ := (hdraws p hp).value
    rw [SeriesWindow.map_cell_totalSample] at hcell
    refine Aggregation.merges_of_reduce? (SeriesWindow.totalsAt_ne_nil ?_) hcell hvalue
    exact (hstarts _).1 ((h.starts _).1 (List.mem_map_of_mem hp))
  · intro h
    refine ⟨h.ascending, fun start => (h.starts start).trans (hstarts start).symm, fun p hp => ?_⟩
    rw [SeriesWindow.filter_map_totalSample]
    exact h.draws p hp

/-- **There are points of totals unless some cannot be merged.** -/
theorem isSome_seriesPoints?_map_totalSample
    (h : ∀ start, w.merge.CanMerge (w.totalsAt start buckets)) :
    (seriesPoints? w runId (buckets.map Bucket.totalSample)).isSome = true := by
  rw [seriesPoints?, isSome_mapM_iff]
  rintro ⟨start, group⟩ hgroup
  obtain ⟨hkey, rfl⟩ := mem_groupBy_iff.1 hgroup
  have hput : ∃ b ∈ buckets, w.bucketStart b.offset = start := by
    rw [List.map_map, List.mem_map] at hkey
    exact hkey
  have hne := SeriesWindow.totalsAt_ne_nil hput
  -- A group is never empty, so it has a value and a time.
  obtain ⟨cell, x, hcell, hx⟩ := Aggregation.exists_float_of_canMerge hne (h start)
  -- The earliest time is that of some bucket.
  have htime : ∃ time, earliest? (((w.bucketsAt start buckets).map Bucket.totalSample).map
      Sample.time) = some time := by
    cases hbuckets : w.bucketsAt start buckets with
    | nil => simp [SeriesWindow.totalsAt, hbuckets] at hne
    | cons b rest => exact ⟨_, rfl⟩
  obtain ⟨time, htime⟩ := htime
  change (SeriesPoint.of? w.merge runId start _).isSome = true
  rw [SeriesWindow.filter_map_totalSample, SeriesPoint.of?, SeriesWindow.map_cell_totalSample,
    hcell, htime]
  simp [hx]

end Totals

namespace Store

/-- **The series of the errors draws the totals of all buckets.** Over stored runs, for a run whose
errors are counts: the store answers points if and only if the counts of each bucket after the
warm-up can be added and the points draw their totals; and it fails with no error but its own, and
only if a sum leaves 64 bits, of the counts of a bucket or of the totals that a sum or a mean is
taken of. -/
theorem errorSeries_draws_totals {s : Store} {t : Tables} (ht : s.tables = some t) {runId : String}
    (hcounts : ∀ b ∈ Tables.ownedBy t.buckets runId, b.CountsErrors) (w : SeriesWindow) :
    let buckets := afterWarmUp Bucket.offset w.trimmingSeconds (Tables.ownedBy t.buckets runId)
    (∀ points, s.errorSeries runId w = .ok points ↔
      (∀ b ∈ buckets, SumsFit b.errorCounts) ∧ DrawsTotals w runId buckets points) ∧
      ∀ e, s.errorSeries runId w = .error e →
        e = .store .errorSeries ∧
          ((∃ b ∈ buckets, ¬ SumsFit b.errorCounts) ∨
            (w.merge = .sum ∨ w.merge = .average) ∧
              ∃ start, ¬ SumsFit (w.totalsAt start buckets)) := by
  intro buckets
  have hcounts' : ∀ b ∈ buckets, b.CountsErrors := fun b hb =>
    hcounts b (List.mem_filter.1 (mem_stableSort.1 hb)).1
  -- The query reads the errors of the buckets and then draws them.
  have hquery : s.errorSeries runId w = answer .errorSeries
      ((buckets.mapM Bucket.errorSample?).bind (seriesPoints? w runId)) :=
    query_of_tables ht ..
  rw [hquery]
  refine ⟨fun points => ?_, fun e he => ?_⟩
  · simp only [answer_eq_ok_iff, Option.bind_eq_some_iff, mapM_errorSample?_eq_some_iff hcounts',
      and_assoc, exists_and_left, exists_eq_left, seriesPoints?_eq_some_iff_drawsGroups,
      drawsGroups_map_totalSample_iff]
  · cases hseries : (buckets.mapM Bucket.errorSample?).bind (seriesPoints? w runId) with
    | some points =>
      rw [hseries] at he
      cases he
    | none =>
      rw [hseries] at he
      cases he
      refine ⟨rfl, ?_⟩
      by_cases hfit : ∀ b ∈ buckets, SumsFit b.errorCounts
      -- The totals are read, so that there is one that cannot be drawn.
      · rw [(mapM_errorSample?_eq_some_iff hcounts').2 ⟨hfit, rfl⟩, Option.bind_some] at hseries
        refine .inr (by_contra fun hsums => ?_)
        have hsome : (seriesPoints? w runId (buckets.map Bucket.totalSample)).isSome = true :=
          isSome_seriesPoints?_map_totalSample fun start hadds =>
            by_contra fun hunfit => hsums ⟨hadds, start, hunfit⟩
        rw [hseries] at hsome
        cases hsome
      -- The errors of some bucket cannot be added in the first place.
      · obtain ⟨b, hb, hunfit⟩ := not_forall₂.1 hfit
        exact .inl ⟨b, hb, hunfit⟩

/-- Buckets of which the first has three errors of two kinds, and the second has none. -/
def errorsAtFirst : List Bucket :=
  [{ Bucket.ofTotal 0 4 with errors := [("ambiguous", .num (.int 1)), ("timeout", .num (.int 2))] },
    .ofTotal 1 4]

/-- The mean of the errors of both is taken over both. -/
theorem errorSeries_draws_totals_mean :
    let s := single { RunRecord.ofTotals "run" "x" [] with buckets := errorsAtFirst }
    ∃ t, s.tables = some t ∧ (∀ b ∈ Tables.ownedBy t.buckets "run", b.CountsErrors) ∧
      s.errorSeries "run" ⟨0, some 2, .average⟩ =
        .ok [⟨0, Float.ofInt 3 / Float.ofNat 2, "run", (Bucket.ofTotal 0 4).datetime⟩] := by
  intro s
  obtain ⟨t, ht⟩ : ∃ t, s.tables = some t := ⟨_, rfl⟩
  have howned : Tables.ownedBy t.buckets "run" = errorsAtFirst := by
    obtain rfl := Option.some.inj ht
    rfl
  have hcounts : ∀ b ∈ Tables.ownedBy t.buckets "run", b.CountsErrors := by
    rw [howned]
    decide
  have hanswers := (errorSeries_draws_totals ht hcounts ⟨0, some 2, .average⟩).1
  -- Nothing is trimmed, and the buckets are in order.
  have hread : afterWarmUp Bucket.offset 0 errorsAtFirst = errorsAtFirst := rfl
  rw [howned, hread] at hanswers
  -- Both buckets are put at the start of one interval of two seconds.
  have hstarts : ∀ b ∈ errorsAtFirst,
      (⟨0, some 2, .average⟩ : SeriesWindow).bucketStart b.offset = 0 := by decide
  refine ⟨t, ht, hcounts, (hanswers _).2 ⟨by decide, List.pairwise_singleton .., fun start => ?_,
    List.forall_mem_singleton.2 ?_, List.forall_mem_singleton.2 fun _ => rfl⟩⟩
  · constructor
    · intro hstart
      obtain rfl := List.mem_singleton.1 hstart
      exact ⟨_, List.mem_cons_self .., hstarts _ (List.mem_cons_self ..)⟩
    · rintro ⟨b, hb, rfl⟩
      exact List.mem_singleton.2 (hstarts b hb)
  -- The mean is that of three errors and none.
  · have hmean : Aggregation.average.reduce? ([3, 0].map .int) = _ :=
      Aggregation.reduce?_average (by decide) (by decide)
    exact ⟨rfl, by decide, ⟨_, hmean, rfl⟩, by decide, by decide⟩

end Store

end BenchCharts

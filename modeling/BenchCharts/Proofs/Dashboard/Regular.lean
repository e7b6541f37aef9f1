import BenchCharts.Proofs.Chart.Codec
import BenchCharts.Proofs.Chart.Lines
import BenchCharts.Proofs.Dashboard
import BenchCharts.Proofs.Dashboard.RunChart
import BenchCharts.Proofs.Store.Series

/-!
# Charts that can be read back

Every chart of a reachable store can be read back from its JSON form if the offsets of the records
in the store have 64 bits (`chart_regular`). The offset of a point is the start of a bucket of time,
which is between an offset in the store and zero. The offset of an annotation is a difference of
instants, of which the calendar allows none that does not fit. Runs that are found are normal as the
stored ones are.
-/

namespace BenchCharts

open Text (fitsSigned64)

/-! ### Runs -/

theorem Run.normal_loaded {run : Run} (h : (Json.obj run.params).Normal) :
    (Json.obj run.loaded.params).Normal := Json.normal_reread h

namespace Store

variable {s : Store}

/-- Runs that are found are normal. -/
theorem normal_of_findRuns (hs : s.Reachable) {filter : CompiledFilter} {found : List Run}
    (h : s.findRuns filter = .ok found) : ∀ run ∈ found, (Json.obj run.params).Normal := by
  obtain ⟨t, ht, -⟩ := query_eq_ok_iff.1 h
  intro run hrun
  obtain ⟨⟨stored, hstored, hread, -⟩, -⟩ := (mem_findRuns_iff ht h).1 hrun
  obtain ⟨-, rfl⟩ := Run.loaded?_eq_some_iff.1 hread
  exact Run.normal_loaded ((hs.wellFormed t ht).params stored hstored)

theorem normal_of_runs (hs : s.Reachable) {filter : Json.Fields} {selection : RunSelection}
    {runs : List Run} (h : s.runs filter selection = .ok runs) :
    ∀ run ∈ runs, (Json.obj run.params).Normal := by
  obtain ⟨compiled, -, hrest⟩ := bind_eq_ok_iff.1 h
  obtain ⟨found, hfound, hpure⟩ := bind_eq_ok_iff.1 hrest
  obtain rfl := pure_eq_ok_iff.1 hpure
  -- Exclusions and the selection only drop runs.
  unfold RunSelection.apply CompiledFilter.applyExclusions
  exact fun run hrun => normal_of_findRuns hs hfound run
    (List.mem_of_mem_filter (List.mem_of_mem_filter hrun))

theorem normal_of_run? (hs : s.Reachable) {id : String} {run : Run}
    (h : s.run? id = .ok (some run)) : (Json.obj run.params).Normal := by
  obtain ⟨t, ht, hanswer⟩ := query_eq_ok_iff.1 h
  -- A run that is answered is a stored one, as it is read back.
  split at hanswer
  · next stored hstored =>
    obtain ⟨found, hread, heq⟩ := Option.map_eq_some_iff.1 (answer_eq_ok_iff.1 hanswer)
    cases heq
    obtain ⟨-, rfl⟩ := Run.loaded?_eq_some_iff.1 hread
    exact Run.normal_loaded ((hs.wellFormed t ht).params stored (List.mem_of_find?_eq_some hstored))
  · cases hanswer

end Store

/-! ### Points -/

/-- All offsets in the tables have 64 bits. -/
structure Tables.OffsetsFit (t : Tables) : Prop where
  /-- Those of the buckets. -/
  buckets : ∀ row ∈ t.buckets, fitsSigned64 row.item.offset = true
  /-- Those of the samples. -/
  metrics : ∀ row ∈ t.metrics, fitsSigned64 row.item.offset = true

theorem Tables.OffsetsFit.ofRecords {records : List RunRecord}
    (h : ∀ record ∈ records, record.OffsetsFit) : (ofRecords records).OffsetsFit := by
  refine ⟨fun row hrow => ?_, fun row hrow => ?_⟩
  · obtain ⟨record, hrecord, hitem⟩ := List.mem_flatMap.1 hrow
    obtain ⟨bucket, hbucket, rfl⟩ := List.mem_map.1 hitem
    exact (h record hrecord).buckets bucket hbucket
  · obtain ⟨record, hrecord, hitem⟩ := List.mem_flatMap.1 hrow
    obtain ⟨sample, hsample, rfl⟩ := List.mem_map.1 hitem
    exact (h record hrecord).metrics sample hsample

/-- The offsets of points fit if those in the store do. -/
theorem SeriesSource.fits_of_query {store : Store} {t : Tables} (ht : store.tables = some t)
    (hfit : t.OffsetsFit) {source : SeriesSource} {runId : String} {w : SeriesWindow}
    {points : List SeriesPoint} (h : source.query store runId w = .ok points) :
    ∀ p ∈ points, fitsSigned64 p.offset = true := by
  obtain ⟨samples, hsamples, hpoints⟩ := (query_eq_ok_iff ht (addressable_of_query h)).1 h
  have hdraws := seriesPoints?_eq_some_iff_drawsGroups.1 hpoints
  intro p hp
  -- The start of a point is that of the bucket of some sample.
  obtain ⟨s, hs, hstart⟩ := (hdraws.starts p.offset).1 (List.mem_map_of_mem hp)
  have hsample : fitsSigned64 s.offset = true := by
    rcases (exists_row_of_mem_samples? hsamples hs).2 with ⟨b, hb, heq⟩ | ⟨m, hm, heq⟩
    · obtain ⟨row, hrow, rfl⟩ := List.mem_map.1 hb
      exact heq ▸ hfit.buckets row (List.mem_filter.1 hrow).1
    · obtain ⟨row, hrow, rfl⟩ := List.mem_map.1 hm
      exact heq ▸ hfit.metrics row (List.mem_filter.1 hrow).1
  rw [← hstart]
  exact (SeriesWindow.fits_bucketStart hsample).2

/-- The points of a series of a run were answered for some source. -/
theorem StyledRun.exists_query_of_axisSeries {store : Store} {w : SeriesWindow} {s : StyledRun}
    {axis : VerticalAxis} {block : List Series} (h : s.axisSeries store w axis = .ok block) :
    ∀ x ∈ block, ∃ source : SeriesSource, source.query store s.run.id w = .ok x.points := by
  intro x hx
  cases axis with
  | buckets name axisId =>
    obtain ⟨column, -, hrest⟩ := bind_eq_ok_iff.1 h
    obtain ⟨points, hpoints, hpure⟩ := bind_eq_ok_iff.1 hrest
    obtain rfl := pure_eq_ok_iff.1 hpure
    rw [List.mem_singleton.1 hx]
    exact ⟨.column column, hpoints⟩
  | metric path axisId =>
    obtain ⟨points, hpoints, hpure⟩ := bind_eq_ok_iff.1 h
    obtain rfl := pure_eq_ok_iff.1 hpure
    split at hx
    -- A metric without points has no series.
    · cases hx
    · rw [List.mem_singleton.1 hx]
      exact ⟨.metric path, hpoints⟩
  | errors axisId =>
    obtain ⟨points, hpoints, hpure⟩ := bind_eq_ok_iff.1 h
    obtain rfl := pure_eq_ok_iff.1 hpure
    rw [List.mem_singleton.1 hx]
    exact ⟨.errors, hpoints⟩
  | metricsAll axisId =>
    obtain ⟨keys, -, hseries⟩ := bind_eq_ok_iff.1 h
    rw [metricsSeries_eq_collect] at hseries
    obtain ⟨hall, rfl⟩ := collect_eq_ok_iff.1 hseries
    obtain ⟨key, hkey, hx⟩ := List.mem_flatMap.1 hx
    obtain ⟨points, hpoints, hpure⟩ := bind_eq_ok_iff.1 (hall key hkey)
    rw [← pure_eq_ok_iff.1 hpure] at hx
    split at hx
    · cases hx
    · rw [List.mem_singleton.1 hx]
      exact ⟨.metric key, hpoints⟩

/-! ### Annotations -/

theorem Date.daysBeforeMonth_le (year : Int) (month : Nat) :
    daysBeforeMonth year month ≤ 31 * month := by
  induction month with
  | zero => exact Nat.zero_le _
  | succ month ih =>
    have hdays := daysInMonth_le year month
    rw [daysBeforeMonth]
    split <;> omega

/-- The calendar has fewer than `2 ^ 28` days on each side. -/
theorem Date.number_bounds (d : Date) : -268435456 < d.number ∧ d.number < 268435456 := by
  obtain ⟨hlow, hhigh, -⟩ := d.valid
  have hbefore := daysBeforeMonth_le d.year d.month
  have hmonth := d.month_lt
  have hday := d.day_lt
  simp only [number, daysBeforeYear]
  omega

/-- The seconds between two instants have 64 bits. -/
theorem Instant.fits_secondsSince (later earlier : Instant) :
    fitsSigned64 (later.secondsSince earlier) = true := by
  have hlater := later.date.number_bounds
  have hearlier := earlier.date.number_bounds
  obtain ⟨hsecond, hnano, -⟩ := later.valid
  obtain ⟨hsecond', hnano', -⟩ := earlier.valid
  rw [Text.fitsSigned64_iff]
  unfold secondsSince
  -- A leap second adds or takes away no more than one.
  extract_lets days clock leap nanos seconds
  have hleap : -1 ≤ leap ∧ leap ≤ 1 := by
    simp only [leap]
    split
    · decide
    · split <;> decide
  simp only [days, clock, nanos, seconds, secondsPerDay, nanosPerSecond]
  omega

theorem regular_annotate {runId : String} {anchor : Instant} {index : Nat}
    {events : List RunEvent} : ∀ a ∈ annotate runId anchor index events, a.Regular := by
  induction events generalizing index with
  | nil => simp [annotate]
  | cons e rest ih =>
    rw [annotate, List.forall_mem_cons]
    refine ⟨⟨Instant.fits_secondsSince _ _, ?_⟩, ih⟩
    -- There are four levels of twenty each.
    simp only [annotationLevels, annotationStep]
    omega

theorem StyledRun.regular_of_marks {store : Store} {requests : List AnnotationRequest}
    {s : StyledRun} {annotations : List Annotation}
    (h : s.marks store requests = .ok annotations) : ∀ a ∈ annotations, a.Regular := by
  unfold marks at h
  split at h
  · unfold runAnnotations at h
    obtain ⟨events, -, hrest⟩ := bind_eq_ok_iff.1 h
    -- A run without events is not asked for its first bucket.
    split at hrest
    · obtain rfl := pure_eq_ok_iff.1 hrest
      simp
    · obtain ⟨first, -, hpure⟩ := bind_eq_ok_iff.1 hrest
      obtain rfl := pure_eq_ok_iff.1 hpure
      exact regular_annotate
  · obtain rfl := Except.ok.inj h
    simp

/-! ### Charts -/

namespace LineChart

variable {store : Store} {t : Tables} (ht : store.tables = some t) (hfit : t.OffsetsFit)
  {r : ChartRequest} {runs : List Run} {chart : LineChart}

include ht hfit

/-- A chart of normal runs can be read back. -/
theorem regular_of_build (hruns : ∀ run ∈ runs, (Json.obj run.params).Normal)
    (h : build store r runs = .ok chart) : chart.Regular := by
  have hperm := perm_runs_of_build h
  obtain ⟨-, styled, -, -, hseries, hannotations⟩ := build_eq_ok_iff.1 h
  obtain ⟨hall, hflat⟩ := allSeries_eq_ok_iff.1 hseries
  obtain ⟨hmarks, hflat'⟩ := collect_eq_ok_iff.1 hannotations
  -- Every annotation was made for some run.
  have hannotated : ∀ a ∈ chart.annotations, a.Regular := by
    intro a ha
    rw [hflat'] at ha
    obtain ⟨s, hs, ha⟩ := List.mem_flatMap.1 ha
    exact StyledRun.regular_of_marks (hmarks s hs) a ha
  refine ⟨fun run hrun => hruns run (hperm.mem_iff.1 hrun), fun x hx => ?_, hannotated⟩
  rw [hflat] at hx
  obtain ⟨axis, haxis, hx⟩ := List.mem_flatMap.1 hx
  obtain ⟨s, hs, hx⟩ := List.mem_flatMap.1 hx
  obtain ⟨source, hquery⟩ := StyledRun.exists_query_of_axisSeries (hall axis haxis s hs) x hx
  exact SeriesSource.fits_of_query ht hfit hquery

end LineChart

namespace Store

variable {s : Store} (hs : s.Reachable)
  (hfit : ∀ t, s.tables = some t → t.OffsetsFit)

include hs hfit

/-- **Every chart that is drawn can be read back.** -/
theorem chart_regular {gerritPrefix : String} {r : ChartRequest} {chart : Chart}
    (h : s.chart gerritPrefix r = .ok chart) : chart.Regular := by
  cases hmode : r.chartMode with
  | simplified =>
    obtain ⟨bars, rfl⟩ := exists_bars_of_chart hmode h
    obtain ⟨-, runs, -, -, -, hruns, -, -, rfl⟩ := chart_eq_ok_bar h
    exact normal_of_runs hs hruns
  | full =>
    obtain ⟨-, -, runs, line, hruns, hline, rfl⟩ := (chart_eq_ok_of_full hmode).1 h
    obtain ⟨t, ht, -⟩ := nodup_ids_resolve hs hruns
    exact LineChart.regular_of_build ht (hfit t ht) (normal_of_runs hs hruns) hline

theorem runChart_regular {request : RunChartRequest} {chart : LineChart}
    (h : s.runChart request = .ok chart) : chart.Regular := by
  obtain ⟨-, -, run, hrun, hline⟩ := runChart_eq_ok_iff.1 h
  obtain ⟨t, ht, -⟩ := query_eq_ok_iff.1 hrun
  -- The chart has one run, which was found by its id.
  refine LineChart.regular_of_build ht (hfit t ht) (fun other hother => ?_) hline
  rw [List.mem_singleton.1 hother]
  exact normal_of_run? hs hrun

end Store

end BenchCharts

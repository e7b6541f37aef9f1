import BenchCharts.Proofs.Store.Calls
import BenchCharts.Proofs.Store.Search
import BenchCharts.Proofs.Store.Series
import BenchCharts.Proofs.Time.Order

/-!
# The order of time in a store

The store keeps texts of times. It lists runs and events in the order of these texts, and takes the
least of them for the first bucket of a run and for each point of a series. If every time has a year
of four digits, all of this is the order of time (`Store.Chronological`), for times with any
fraction and in leap seconds. A time comes back as it was inserted, wherever a query answers it.

Everything goes back to the records that were inserted. The rows of a run are those of its record,
so what a query about the run sorts or takes the least of are times of that record.
-/

namespace BenchCharts

/-! ### The times of records -/

/-- The times that a record brings: those of its run, its buckets, its samples and its events. -/
def RunRecord.times (record : RunRecord) : List Instant :=
  record.run.datetime :: (record.buckets.map Bucket.datetime ++
    record.metrics.map MetricSample.initiated ++ record.events.map RunEvent.datetime)

/-- The times that some records bring. -/
def timesOf (records : List RunRecord) : List Instant := records.flatMap RunRecord.times

/-- An answer is the earliest of some times. -/
structure Instant.EarliestOf (times : List Instant) (answer : Option Instant) : Prop where
  /-- It is read from the least of their texts. -/
  read : (times.map Instant.stored).min?.bind Instant.read? = answer
  /-- There is none only if there are no times. -/
  isNone_iff : answer = none ↔ times = []
  /-- It is one of the times, and no other precedes it. -/
  least : ∀ time, answer = some time → time ∈ times ∧
    ∀ other ∈ times, (time.compareTime other).isLE = true

/-- The order of time, and of ids for runs of one time. -/
def Run.compareTime (a b : Run) : Ordering :=
  (a.datetime.compareTime b.datetime).then (compare a.id b.id)

namespace RunRecord

/-- The events of a record that have one of some types, or all of them if no type is given. -/
def eventsOf (record : RunRecord) (eventTypes : List String) : List RunEvent :=
  record.events.filter fun e => eventTypes.isEmpty || eventTypes.contains e.eventType

/-- The times of the samples that a record brings to one bucket of a series: after the warm-up, put
at the start of the bucket, and with a value in the column, with a number at the path, or all of
them. -/
def sampleTimes (record : RunRecord) (w : SeriesWindow) (start : Int) :
    SeriesSource → List Instant
  | .column c => (record.buckets.filter fun b => w.trimmingSeconds ≤ b.offset ∧
      w.bucketStart b.offset = start ∧ (b.cell c).isNull = false).map Bucket.datetime
  | .metric path => (record.metrics.filter fun m => w.trimmingSeconds ≤ m.offset ∧
      w.bucketStart m.offset = start ∧
      (m.sample? (FieldPath.keys path)).any fun s => !s.cell.isNull).map MetricSample.initiated
  | .errors => (record.buckets.filter fun b => w.trimmingSeconds ≤ b.offset ∧
      w.bucketStart b.offset = start).map Bucket.datetime

/-- The details of all events of a record can be read. -/
def EventsReadable (record : RunRecord) : Prop :=
  ∀ e ∈ record.events, (Json.obj e.params).readable = true

end RunRecord

/-- A store that holds some records answers in the order of time. -/
structure Store.Chronological (s : Store) (records : List RunRecord) : Prop where
  /-- Texts of times are in the order of the times. -/
  texts : ∀ a ∈ timesOf records, ∀ b ∈ timesOf records,
    compare a.stored b.stored = a.compareTime b
  /-- A time is read back from its text. -/
  readBack : ∀ time ∈ timesOf records, Instant.read? time.stored = some time
  /-- The run of a record is found if its parameters can be read, with its own time. -/
  run : ∀ record ∈ records, (Json.obj record.run.params).readable = true →
    ∃ run, s.run? record.run.id = .ok (some run) ∧ run.datetime = record.run.datetime
  /-- A run whose parameters cannot be read is an error. -/
  unreadableRun : ∀ record ∈ records, (Json.obj record.run.params).readable = false →
    s.run? record.run.id = .error (.store (.loadRun record.run.id))
  /-- Runs are found in the order of time, with ties by id, and each with its time. -/
  runs : ∀ filter found, s.findRuns filter = .ok found →
    (found.Pairwise fun a b => a.compareTime b = .lt) ∧
    ∀ run ∈ found, ∃ record ∈ records,
      run.id = record.run.id ∧ run.datetime = record.run.datetime
  /-- The time of the first bucket is the earliest of those that the record brought. -/
  firstBucket : ∀ record ∈ records, ∃ first, s.firstBucketTime record.run.id = .ok first ∧
    Instant.EarliestOf (record.buckets.map Bucket.datetime) first
  /-- The time of each point of a series is the earliest of those of its samples. -/
  series : ∀ record ∈ records, ∀ (source : SeriesSource) w points,
    source.query s record.run.id w = .ok points → ∀ p ∈ points,
      Instant.EarliestOf (record.sampleTimes w p.offset source) (some p.wallClockTime)
  /-- Events whose details can be read are in the order of time, and events of one time in the order
  in which they came. -/
  events : ∀ record ∈ records, record.EventsReadable → ∀ eventTypes, ∃ events : List RunEvent,
    s.runEvents record.run.id eventTypes = .ok (events.map RunEvent.loaded) ∧
    events.Perm (record.eventsOf eventTypes) ∧
    (events.Pairwise fun a b => (a.datetime.compareTime b.datetime).isLE = true) ∧
    ∀ time, events.filter (·.datetime = time) =
      (record.eventsOf eventTypes).filter (·.datetime = time)
  /-- An event whose details cannot be read is an error. -/
  unreadableEvents : ∀ record ∈ records, ¬ record.EventsReadable → ∀ eventTypes,
    s.runEvents record.run.id eventTypes = .error (.store .runEvents)

/-! ### Where times come from -/

section Times

variable {records : List RunRecord} {record : RunRecord} (hrecord : record ∈ records)

include hrecord

theorem datetime_mem_timesOf : record.run.datetime ∈ timesOf records :=
  List.mem_flatMap.2 ⟨record, hrecord, List.mem_cons_self ..⟩

theorem bucket_mem_timesOf {b : Bucket} (hb : b ∈ record.buckets) :
    b.datetime ∈ timesOf records := by
  refine List.mem_flatMap.2 ⟨record, hrecord, List.mem_cons_of_mem _ ?_⟩
  exact List.mem_append_left _ (List.mem_append_left _ (List.mem_map_of_mem hb))

theorem sample_mem_timesOf {m : MetricSample} (hm : m ∈ record.metrics) :
    m.initiated ∈ timesOf records := by
  refine List.mem_flatMap.2 ⟨record, hrecord, List.mem_cons_of_mem _ ?_⟩
  exact List.mem_append_left _ (List.mem_append_right _ (List.mem_map_of_mem hm))

theorem event_mem_timesOf {e : RunEvent} (he : e ∈ record.events) :
    e.datetime ∈ timesOf records := by
  refine List.mem_flatMap.2 ⟨record, hrecord, List.mem_cons_of_mem _ ?_⟩
  exact List.mem_append_right _ (List.mem_map_of_mem he)

/-- The samples of a series have times that the record brought. -/
theorem mem_timesOf_of_mem_sampleTimes {w : SeriesWindow} {start : Int} {source : SeriesSource}
    {time : Instant} (htime : time ∈ record.sampleTimes w start source) :
    time ∈ timesOf records := by
  cases source with
  | column c =>
    obtain ⟨b, hb, rfl⟩ := List.mem_map.1 htime
    exact bucket_mem_timesOf hrecord (List.mem_filter.1 hb).1
  | metric path =>
    obtain ⟨m, hm, rfl⟩ := List.mem_map.1 htime
    exact sample_mem_timesOf hrecord (List.mem_filter.1 hm).1
  | errors =>
    obtain ⟨b, hb, rfl⟩ := List.mem_map.1 htime
    exact bucket_mem_timesOf hrecord (List.mem_filter.1 hb).1

end Times

/-! ### What a series reads -/

namespace Tables

variable {t : Tables} {trimming : Int} {runId : String} {samples : List Sample} {x : Sample}

theorem mem_columnSamples_iff {c : BucketColumn} :
    x ∈ t.columnSamples c trimming runId ↔
      ∃ b ∈ ownedBy t.buckets runId, trimming ≤ b.offset ∧ (b.cell c).isNull = false ∧
        b.sample c = x := by
  simp only [columnSamples, usable, List.mem_filter, List.mem_map, mem_afterWarmUp_iff,
    Bool.not_eq_true']
  constructor
  · rintro ⟨⟨b, ⟨hb, htrimming⟩, rfl⟩, hcell⟩
    exact ⟨b, hb, htrimming, hcell, rfl⟩
  · rintro ⟨b, hb, htrimming, hcell, rfl⟩
    exact ⟨⟨b, ⟨hb, htrimming⟩, rfl⟩, hcell⟩

theorem mem_metricSamples?_iff {keys : List String}
    (h : t.metricSamples? keys trimming runId = some samples) :
    x ∈ samples ↔
      ∃ m ∈ ownedBy t.metrics runId, trimming ≤ m.offset ∧ m.sample? keys = some x ∧
        x.cell.isNull = false := by
  obtain ⟨all, hall, rfl⟩ := Option.map_eq_some_iff.1 h
  simp only [usable, List.mem_filter, mem_iff_of_mapM_eq_some hall, mem_afterWarmUp_iff,
    Bool.not_eq_true']
  constructor
  · rintro ⟨⟨m, ⟨hm, htrimming⟩, hx⟩, hcell⟩
    exact ⟨m, hm, htrimming, hx, hcell⟩
  · rintro ⟨m, hm, htrimming, hx, hcell⟩
    exact ⟨⟨m, ⟨hm, htrimming⟩, hx⟩, hcell⟩

theorem mem_errorSamples?_iff (h : t.errorSamples? trimming runId = some samples) :
    x ∈ samples ↔
      ∃ b ∈ ownedBy t.buckets runId, trimming ≤ b.offset ∧ b.errorSample? = some x := by
  simp only [mem_iff_of_mapM_eq_some h, mem_afterWarmUp_iff, and_assoc]

/-- If there are samples of errors, there is one for each bucket. -/
theorem exists_errorSample? (h : t.errorSamples? trimming runId = some samples) {b : Bucket}
    (hb : b ∈ ownedBy t.buckets runId) (htrimming : trimming ≤ b.offset) :
    ∃ x, b.errorSample? = some x := by
  have hread : b ∈ afterWarmUp Bucket.offset trimming (ownedBy t.buckets runId) :=
    mem_afterWarmUp_iff.2 ⟨hb, htrimming⟩
  exact Option.isSome_iff_exists.1 (isSome_mapM_iff.1 (Option.isSome_of_mem h) b hread)

end Tables

theorem MetricSample.time_sample? {keys : List String} {m : MetricSample} {x : Sample}
    (h : m.sample? keys = some x) : x.time = m.initiated := by
  obtain ⟨found, -, rfl⟩ := Option.map_eq_some_iff.1 h
  rfl

theorem Bucket.time_errorSample? {b : Bucket} {x : Sample} (h : b.errorSample? = some x) :
    x.time = b.datetime := by
  obtain ⟨cell, -, rfl⟩ := Option.map_eq_some_iff.1 h
  rfl

/-- **The times that a series reads for a bucket are those that the record brought to it.** -/
theorem SeriesSource.mem_times_iff {s : Store} {records : List RunRecord} (h : s.Holds records)
    {record : RunRecord} (hrecord : record ∈ records) {w : SeriesWindow} {source : SeriesSource}
    {samples : List Sample}
    (hsamples : source.samples? (.ofRecords records) w.trimmingSeconds record.run.id =
      some samples) (start : Int) (time : Instant) :
    time ∈ (samples.filter fun x => w.bucketStart x.offset = start).map Sample.time ↔
      time ∈ record.sampleTimes w start source := by
  have hbuckets : Tables.ownedBy (Tables.ofRecords records).buckets record.run.id =
      record.buckets := Tables.ownedBy_rowsOf RunRecord.buckets h.ids hrecord
  have hmetrics : Tables.ownedBy (Tables.ofRecords records).metrics record.run.id =
      record.metrics := Tables.ownedBy_rowsOf RunRecord.metrics h.ids hrecord
  -- For each source, both sides are rows of the record with the same conditions in another order.
  cases source with
  | column c =>
    obtain rfl := Option.some.inj hsamples
    simp only [RunRecord.sampleTimes, List.mem_map, List.mem_filter, decide_eq_true_iff,
      Tables.mem_columnSamples_iff, hbuckets]
    constructor
    · rintro ⟨-, ⟨⟨b, hb, htrimming, hcell, rfl⟩, hstart⟩, rfl⟩
      exact ⟨b, ⟨hb, htrimming, hstart, hcell⟩, rfl⟩
    · rintro ⟨b, ⟨hb, htrimming, hstart, hcell⟩, rfl⟩
      exact ⟨b.sample c, ⟨⟨b, hb, htrimming, hcell, rfl⟩, hstart⟩, rfl⟩
  | metric path =>
    simp only [RunRecord.sampleTimes, List.mem_map, List.mem_filter, decide_eq_true_iff,
      Tables.mem_metricSamples?_iff hsamples, hmetrics, Option.any_eq_true, Bool.not_eq_true']
    constructor
    · rintro ⟨x, ⟨⟨m, hm, htrimming, hx, hcell⟩, hstart⟩, rfl⟩
      rw [MetricSample.offset_sample? hx] at hstart
      exact ⟨m, ⟨hm, htrimming, hstart, x, hx, hcell⟩, (MetricSample.time_sample? hx).symm⟩
    · rintro ⟨m, ⟨hm, htrimming, hstart, x, hx, hcell⟩, rfl⟩
      rw [← MetricSample.offset_sample? hx] at hstart
      exact ⟨x, ⟨⟨m, hm, htrimming, hx, hcell⟩, hstart⟩, MetricSample.time_sample? hx⟩
  | errors =>
    simp only [RunRecord.sampleTimes, List.mem_map, List.mem_filter, decide_eq_true_iff,
      Tables.mem_errorSamples?_iff hsamples, hbuckets]
    constructor
    · rintro ⟨x, ⟨⟨b, hb, htrimming, hx⟩, hstart⟩, rfl⟩
      rw [Bucket.offset_errorSample? hx] at hstart
      exact ⟨b, ⟨hb, htrimming, hstart⟩, (Bucket.time_errorSample? hx).symm⟩
    · rintro ⟨b, ⟨hb, htrimming, hstart⟩, rfl⟩
      -- Every bucket has a sample here, since all of them were read.
      obtain ⟨x, hx⟩ := Tables.exists_errorSample? hsamples (hbuckets ▸ hb) htrimming
      rw [← Bucket.offset_errorSample? hx] at hstart
      exact ⟨x, ⟨⟨b, hb, htrimming, hx⟩, hstart⟩, Bucket.time_errorSample? hx⟩

/-! ### Answers in the order of time -/

/-- What is answered as the earliest time is read from the least text. -/
theorem earliest?_eq_read?_min? (times : List Instant) :
    earliest? times = (times.map Instant.stored).min?.bind Instant.read? := by
  cases hearliest : earliest? times with
  | none =>
    cases times with
    | nil => rfl
    | cons first rest => cases hearliest
  | some time =>
    -- The earliest time has the least text, and is read back from it.
    obtain ⟨hmem, hleast⟩ := earliest?_eq_some_iff.1 hearliest
    have hle : ∀ other ∈ times, time.stored ≤ other.stored := by
      intro other hother
      have hisLE := hleast other hother
      rwa [Instant.compareStored, Text.isLE_compare] at hisLE
    have hmin : (times.map Instant.stored).min? = some time.stored :=
      List.min?_eq_some_iff.2 ⟨List.mem_map_of_mem hmem, List.forall_mem_map.2 hle⟩
    rw [hmin, Option.bind_some, Instant.read?_stored]

section Answers

variable {records : List RunRecord}
  (hyears : ∀ time ∈ timesOf records, time.date.FourDigitYear)

include hyears

theorem compareStored_eq_of_mem {a b : Instant} (ha : a ∈ timesOf records)
    (hb : b ∈ timesOf records) : a.compareStored b = a.compareTime b :=
  Instant.compareStored_eq_compareTime (hyears a ha) (hyears b hb)

/-- The time with the least text is the earliest. -/
theorem earliestOf_earliest? {times : List Instant}
    (htimes : ∀ time ∈ times, time ∈ timesOf records) :
    Instant.EarliestOf times (earliest? times) where
  read := (earliest?_eq_read?_min? times).symm
  isNone_iff := by cases times <;> simp [earliest?]
  least time htime := by
    obtain ⟨hmem, hleast⟩ := earliest?_eq_some_iff.1 htime
    refine ⟨hmem, fun other hother => ?_⟩
    -- Texts are only compared here, and they order like the times.
    rw [← compareStored_eq_of_mem hyears (htimes time hmem) (htimes other hother)]
    exact hleast other hother

section Holds

variable {s : Store} (h : s.Holds records)

include h

theorem Store.Holds.pairwise_findRuns {filter : CompiledFilter} {found : List Run}
    (hfound : s.findRuns filter = .ok found) :
    (found.Pairwise fun a b => a.compareTime b = .lt) ∧
      ∀ run ∈ found, ∃ record ∈ records,
        run.id = record.run.id ∧ run.datetime = record.run.datetime := by
  -- Loading a run leaves its id and its time alone.
  have hstored : ∀ run ∈ found, ∃ record ∈ records, run = record.run.loaded := by
    intro run hrun
    obtain ⟨⟨stored, hstored, hread, -⟩, -⟩ := (mem_findRuns_iff h.tables hfound).1 hrun
    obtain ⟨record, hrecord, rfl⟩ := List.mem_map.1 hstored
    exact ⟨record, hrecord, (Run.loaded?_eq_some_iff.1 hread).2⟩
  have htime : ∀ run ∈ found, run.datetime ∈ timesOf records := by
    intro run hrun
    obtain ⟨record, hrecord, rfl⟩ := hstored run hrun
    exact datetime_mem_timesOf hrecord
  have hids : ((Tables.ofRecords records).runs.map Run.id).Nodup := by
    rw [Tables.ofRecords, List.map_map]
    exact h.ids
  refine ⟨?_, fun run hrun => ?_⟩
  · refine (Store.pairwise_findRuns hids h.tables hfound).imp_of_mem fun ha hb hlt => ?_
    rwa [Run.compareStored, compareStored_eq_of_mem hyears (htime _ ha) (htime _ hb)] at hlt
  · obtain ⟨record, hrecord, rfl⟩ := hstored run hrun
    exact ⟨record, hrecord, rfl, rfl⟩

theorem Store.Holds.firstBucketTime_earliestOf {record : RunRecord} (hrecord : record ∈ records) :
    ∃ first, s.firstBucketTime record.run.id = .ok first ∧
      Instant.EarliestOf (record.buckets.map Bucket.datetime) first := by
  refine ⟨earliest? (record.buckets.map Bucket.datetime), ?_, ?_⟩
  -- The buckets that the store has for the run are those of its record.
  · have hbuckets : Tables.ownedBy (Tables.ofRecords records).buckets record.run.id =
        record.buckets := Tables.ownedBy_rowsOf RunRecord.buckets h.ids hrecord
    rw [Store.firstBucketTime, query_of_tables h.tables, hbuckets]
  · refine earliestOf_earliest? hyears fun time htime => ?_
    obtain ⟨b, hb, rfl⟩ := List.mem_map.1 htime
    exact bucket_mem_timesOf hrecord hb

theorem Store.Holds.wallClockTime_earliestOf {record : RunRecord} (hrecord : record ∈ records)
    {source : SeriesSource} {w : SeriesWindow} {points : List SeriesPoint}
    (hpoints : source.query s record.run.id w = .ok points) {p : SeriesPoint} (hp : p ∈ points) :
    Instant.EarliestOf (record.sampleTimes w p.offset source) (some p.wallClockTime) := by
  obtain ⟨samples, hsamples, hseries⟩ :=
    (SeriesSource.query_eq_ok_iff h.tables (SeriesSource.addressable_of_query hpoints)).1 hpoints
  have hdraws := (seriesPoints?_eq_some_iff_drawsGroups.1 hseries).draws p hp
  -- The samples of a point have the times that the record brought to its bucket.
  have hmem := SeriesSource.mem_times_iff h hrecord hsamples p.offset
  have hearliest : earliest? (record.sampleTimes w p.offset source) = some p.wallClockTime := by
    refine earliest?_eq_some_iff.2
      ⟨(hmem p.wallClockTime).1 hdraws.time_mem, fun other hother => ?_⟩
    obtain ⟨x, hx, rfl⟩ := List.mem_map.1 ((hmem other).2 hother)
    exact hdraws.time_le x hx
  rw [← hearliest]
  exact earliestOf_earliest? hyears fun time => mem_timesOf_of_mem_sampleTimes hrecord

omit hyears in
theorem Store.Holds.ownedBy_events {record : RunRecord} (hrecord : record ∈ records) :
    Tables.ownedBy (Tables.ofRecords records).events record.run.id = record.events :=
  Tables.ownedBy_rowsOf RunRecord.events h.ids hrecord

theorem Store.Holds.runEvents_sorted {record : RunRecord} (hrecord : record ∈ records)
    (hread : record.EventsReadable) (eventTypes : List String) :
    ∃ events : List RunEvent, s.runEvents record.run.id eventTypes =
        .ok (events.map RunEvent.loaded) ∧
      events.Perm (record.eventsOf eventTypes) ∧
      (events.Pairwise fun a b => (a.datetime.compareTime b.datetime).isLE = true) ∧
      ∀ time, events.filter (·.datetime = time) =
        (record.eventsOf eventTypes).filter (·.datetime = time) := by
  have : Std.TransCmp fun a b : RunEvent => a.datetime.compareStored b.datetime :=
    transCmp_key Instant.compareStored RunEvent.datetime
  have hevents := h.ownedBy_events hrecord
  let events := stableSort (fun a b : RunEvent => a.datetime.compareStored b.datetime)
    (record.eventsOf eventTypes)
  have htime : ∀ e ∈ events, e.datetime ∈ timesOf records := fun e he =>
    event_mem_timesOf hrecord (List.mem_filter.1 (mem_stableSort.1 he)).1
  refine ⟨events, ?_, stableSort_perm _ _, ?_, fun time => ?_⟩
  -- Leaving out types and sorting can be done the other way round.
  · refine (runEvents_eq_ok_iff h.tables).2 ⟨hevents ▸ hread, ?_⟩
    rw [hevents]
    exact congrArg (List.map RunEvent.loaded) (filter_stableSort _ record.events).symm
  · refine (pairwise_stableSort (record.eventsOf eventTypes)).imp_of_mem fun ha hb hle => ?_
    rwa [compareStored_eq_of_mem hyears (htime _ ha) (htime _ hb)] at hle
  · rw [filter_stableSort]
    -- Events of one time tie, so none of them is moved.
    refine stableSort_eq_self (List.pairwise_of_forall_mem_list fun a ha b hb => ?_)
    have hsame : a.datetime = b.datetime :=
      (of_decide_eq_true (List.mem_filter.1 ha).2).trans
        (of_decide_eq_true (List.mem_filter.1 hb).2).symm
    have htie : b.datetime.compareStored b.datetime = .eq := Std.ReflCmp.compare_self
    rw [hsame, htie]
    exact Ordering.noConfusion

/-- **A store that holds records with years of four digits answers in the order of time.** -/
theorem Store.Holds.chronological : s.Chronological records where
  texts a ha b hb := compareStored_eq_of_mem hyears ha hb
  readBack time _ := Instant.read?_stored time
  run record hrecord hread := by
    refine ⟨record.run.loaded, ?_, rfl⟩
    rw [h.run?_eq_answer hrecord, Run.loaded?_eq_some_iff.2 ⟨hread, rfl⟩]
    rfl
  unreadableRun record hrecord hread := by
    rw [h.run?_eq_answer hrecord, Run.loaded?, if_neg (by simp [hread])]
    rfl
  runs _ _ hfound := h.pairwise_findRuns hyears hfound
  firstBucket _ hrecord := h.firstBucketTime_earliestOf hyears hrecord
  series _ hrecord _ _ _ hpoints _ hp := h.wallClockTime_earliestOf hyears hrecord hpoints hp
  events _ hrecord hread eventTypes := h.runEvents_sorted hyears hrecord hread eventTypes
  unreadableEvents record hrecord hread eventTypes := by
    refine runEvents_eq_error h.tables ?_
    rwa [h.ownedBy_events hrecord]

end Holds

end Answers

namespace Store

/-- Without tables there is no answer, and nothing has been inserted. -/
theorem chronological_nil {s : Store} (hs : s.tables = none) : s.Chronological [] where
  texts _ ha := by cases ha
  readBack _ htime := by cases htime
  run _ hrecord := by cases hrecord
  unreadableRun _ hrecord := by cases hrecord
  runs _ _ hfound := by
    rw [findRuns, query, hs] at hfound
    cases hfound
  firstBucket _ hrecord := by cases hrecord
  series _ hrecord := by cases hrecord
  events _ hrecord := by cases hrecord
  unreadableEvents _ hrecord := by cases hrecord

/-- **The stored texts of times order like time.** After any calls on a fresh store, if all times
that were inserted have a year of four digits, with any fraction or in a leap second, then runs are
found in the order of time with ties by id, the time of the first bucket of a run and that of each
point of a series are the earliest of theirs, and events are in the order of time with ties as they
were inserted; and each time is read back as it was inserted. A run is answered if its parameters
can be read, and events if the details of all of them can. -/
theorem chronological_afterAll (calls : List StoreCall)
    (hyears : ∀ time ∈ timesOf (fresh.accepted calls), time.date.FourDigitYear) :
    (fresh.afterAll calls).Chronological (fresh.accepted calls) := by
  by_cases hschema : StoreCall.initSchema ∈ calls
  · exact (holds_afterAll_of_mem rfl hschema).chronological hyears
  -- Without a schema nothing is ever inserted.
  · have hfresh : fresh.tables = none := rfl
    obtain ⟨hafter, hnone⟩ := afterAll_of_no_tables hfresh hschema
    rw [hafter, hnone]
    exact chronological_nil rfl

/-- A time on the last day of 2024. -/
def lastDay (second nano : Nat) (h : Instant.Valid second nano) : Instant :=
  ⟨⟨2024, 12, 31, by decide⟩, second, nano, h⟩

/-- A record with a run at a time, buckets and events at some times. -/
def recordAt (id : String) (time : Instant) (buckets events : List Instant) : RunRecord where
  run := ⟨id, time, []⟩
  buckets := buckets.map fun time => { Bucket.ofTotal 0 1 with datetime := time }
  metrics := []
  events := events.map fun time => ⟨time, "e", none, []⟩

/-- Two runs at one time and one at another, which has two buckets and three events. -/
def callsAt (noon half last leap : Instant) : List StoreCall :=
  [.initSchema, .insertRuns [recordAt "b" half [leap, last] [leap, half, noon],
    recordAt "c" noon [] [], recordAt "a" noon [] []]]

/-- Whole seconds come before their fractions, and leap seconds last. -/
theorem chronological_afterAll_lastDay :
    let calls := callsAt (lastDay 43200 0 (by decide)) (lastDay 43200 500000000 (by decide))
      (lastDay 86399 999999000 (by decide)) (lastDay 86399 1250000000 (by decide))
    (∀ time ∈ timesOf (fresh.accepted calls), time.date.FourDigitYear) ∧
      (fresh.afterAll calls).Chronological (fresh.accepted calls) ∧
      ((fresh.afterAll calls).findRuns ⟨[], [], []⟩).map (·.map Run.id) = .ok ["a", "c", "b"] ∧
      ((fresh.afterAll calls).firstBucketTime "b").map (·.map Instant.stored) =
        .ok (some "2024-12-31 23:59:59.999999+00:00") ∧
      ((fresh.afterAll calls).runEvents "b" []).map (·.map (·.datetime.stored)) =
        .ok ["2024-12-31 12:00:00+00:00", "2024-12-31 12:00:00.500+00:00",
          "2024-12-31 23:59:60.250+00:00"] := by
  intro calls
  have hyears : ∀ time ∈ timesOf (fresh.accepted calls), time.date.FourDigitYear := by
    decide
  exact ⟨hyears, chronological_afterAll calls hyears, by cbv, by cbv, by cbv⟩

end Store

end BenchCharts

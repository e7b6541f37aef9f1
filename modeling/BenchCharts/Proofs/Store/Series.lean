import BenchCharts.Proofs.Dashboard
import BenchCharts.Proofs.Time.Reader

/-!
# What series show

A series puts each sample at a start, and a point stands for the samples that are put at its start:
its value is what these are merged to, and its time the least of theirs, in the order of the store.
Points are the answer of a query if and only if there is one for each start that the samples are put
at (`seriesPoints?_eq_some_iff_drawsGroups`).

Offsets are cut by a division that drops the fraction. For offsets that are not negative this is
rounding down (`SeriesWindow.covers_iff`), so that the time after the warm-up is cut into buckets of
one width, and as no sample counts before a warm-up that is not negative, no other offsets come in.
The points then are `DrawsSamples` of the samples: each sample is in the bucket of exactly one of
them, and each of them stands for the samples in its bucket (`seriesPoints?_eq_some_iff`).
-/

namespace BenchCharts

open Json

/-! ### The order of stored times -/

namespace Instant

instance : Std.TransCmp Instant.compareStored :=
  transCmp_key (compare : String → String → Ordering) Instant.stored

instance : Std.LawfulEqCmp Instant.compareStored where
  compare_self := Std.ReflCmp.compare_self
  eq_of_compare h := stored_inj.1 (Std.LawfulEqCmp.eq_of_compare h)

end Instant

theorem earliestFrom_mem_and_isLE (best : Instant) (times : List Instant) :
    earliestFrom best times ∈ best :: times ∧
      ∀ time ∈ best :: times, ((earliestFrom best times).compareStored time).isLE = true := by
  -- The best time so far is carried along, and only gets earlier.
  induction times generalizing best with
  | nil =>
    refine ⟨List.mem_singleton_self _, fun time htime => ?_⟩
    rw [List.mem_singleton.1 htime]
    exact Std.ReflCmp.isLE_rfl
  | cons first rest ih =>
    rw [earliestFrom]
    split
    -- The next time is the best one so far, and precedes the one before.
    · next hlt =>
      obtain ⟨hmem, hle⟩ := ih first
      refine ⟨List.mem_cons_of_mem _ hmem, List.forall_mem_cons.2 ⟨?_, hle⟩⟩
      refine Std.TransCmp.isLE_trans (hle first (List.mem_cons_self ..)) ?_
      rw [hlt]
      rfl
    · next hge =>
      obtain ⟨hmem, hle⟩ := ih best
      obtain ⟨hbest, hrest⟩ := List.forall_mem_cons.1 hle
      refine ⟨?_, List.forall_mem_cons.2 ⟨hbest, List.forall_mem_cons.2 ⟨?_, hrest⟩⟩⟩
      · rcases List.mem_cons.1 hmem with heq | hmem
        · rw [heq]
          exact List.mem_cons_self ..
        · exact List.mem_cons_of_mem _ (List.mem_cons_of_mem _ hmem)
      · refine Std.TransCmp.isLE_trans hbest ?_
        have hswap : best.compareStored first = (first.compareStored best).swap :=
          Std.OrientedCmp.eq_swap
        rw [hswap]
        cases hcmp : first.compareStored best <;> simp_all

/-- The earliest of some times is the one of them that no other precedes. -/
theorem earliest?_eq_some_iff {times : List Instant} {time : Instant} :
    earliest? times = some time ↔
      time ∈ times ∧ ∀ other ∈ times, (time.compareStored other).isLE = true := by
  cases times with
  | nil => simp [earliest?]
  | cons first rest =>
    obtain ⟨hmem, hle⟩ := earliestFrom_mem_and_isLE first rest
    rw [earliest?, Option.some.injEq]
    constructor
    · rintro rfl
      exact ⟨hmem, hle⟩
    · rintro ⟨htime, hleast⟩
      exact Std.LawfulEqCmp.eq_of_compare
        (Std.OrientedCmp.isLE_antisymm (hle time htime) (hleast _ hmem))

/-! ### Buckets -/

namespace SeriesWindow

variable {w : SeriesWindow} {start offset : Int}

/-- The bucket with a start is one of those that time is cut into, and has an offset in it. -/
def Covers (w : SeriesWindow) (start offset : Int) : Prop :=
  w.width ∣ start ∧ start ≤ offset ∧ offset < start + w.width

instance (w : SeriesWindow) (start offset : Int) : Decidable (w.Covers start offset) :=
  inferInstanceAs (Decidable (_ ∧ _))

/-- The samples in the bucket with a start. -/
def samplesIn (w : SeriesWindow) (start : Int) (samples : List Sample) : List Sample :=
  samples.filter fun s => w.Covers start s.offset

/-- Dropping the fraction rounds down as long as nothing is negative. -/
theorem bucketStart_eq (h : 0 ≤ offset) : w.bucketStart offset = offset - offset % w.width := by
  have hdivision := Int.mul_ediv_add_emod offset w.width
  rw [bucketStart, Int.tdiv_eq_ediv_of_nonneg h, Int.mul_comm]
  omega

/-- **The bucket that an offset is put into is the one that has it.** -/
theorem covers_iff (h : 0 ≤ offset) : w.Covers start offset ↔ w.bucketStart offset = start := by
  have hlow := Int.emod_nonneg offset (Int.ne_of_gt w.width_pos)
  have hhigh := Int.emod_lt_of_pos offset w.width_pos
  have hdvd : w.width ∣ w.bucketStart offset := Int.dvd_mul_left ..
  have hstart := bucketStart_eq (w := w) h
  constructor
  · rintro ⟨hmultiple, hle, hlt⟩
    -- Both starts are multiples of the width, and they differ by less than it.
    have hdifference : w.width ∣ w.bucketStart offset - start := Int.dvd_sub hdvd hmultiple
    have hzero := Int.eq_zero_of_abs_lt_dvd hdifference (abs_lt.2 ⟨by omega, by omega⟩)
    omega
  · rintro rfl
    exact ⟨hdvd, by omega, by omega⟩

/-- The samples that are put into a bucket are those in it. -/
theorem filter_bucketStart {samples : List Sample} (h : ∀ s ∈ samples, 0 ≤ s.offset) :
    samples.filter (fun s => w.bucketStart s.offset = start) = w.samplesIn start samples :=
  List.filter_congr fun s hs => decide_eq_decide.2 (covers_iff (h s hs)).symm

/-- **No step of cutting leaves 64 bits.** -/
theorem fits_bucketStart (h : Text.fitsSigned64 offset = true) :
    Text.fitsSigned64 (Int.tdiv offset w.width) = true ∧
      Text.fitsSigned64 (w.bucketStart offset) = true := by
  have hpos := w.width_pos
  have hstart : w.bucketStart offset = offset - Int.tmod offset w.width := by
    have hdivision := Int.tdiv_mul_add_tmod offset w.width
    rw [bucketStart]
    omega
  have hquotient := Int.natAbs_tdiv_le_natAbs offset w.width
  have hremainder : (Int.tmod offset w.width).natAbs ≤ offset.natAbs := by
    rw [Int.natAbs_tmod]
    exact Nat.mod_le _ _
  rw [Text.fitsSigned64_iff] at h ⊢
  rw [Text.fitsSigned64_iff]
  -- Quotient and remainder have the sign of the offset, so both stay between it and zero.
  rcases Int.le_total 0 offset with hsign | hsign
  · have hq := Int.tdiv_nonneg hsign (Int.le_of_lt hpos)
    have hr := Int.tmod_nonneg w.width hsign
    omega
  · have hq := Int.tdiv_nonneg (Int.neg_nonneg_of_nonpos hsign) (Int.le_of_lt hpos)
    have hr := Int.tmod_nonneg w.width (Int.neg_nonneg_of_nonpos hsign)
    rw [Int.neg_tdiv] at hq
    rw [Int.neg_tmod] at hr
    omega

/-- The width fits if the one that is asked for does. -/
theorem fits_width (h : ∀ n, w.bucketiseSeconds = some n → Text.fitsSigned64 n = true) :
    Text.fitsSigned64 w.width = true := by
  rw [Text.fitsSigned64_iff, width]
  cases hwidth : w.bucketiseSeconds with
  | none => simp
  | some n =>
    have hn := Text.fitsSigned64_iff.1 (h n hwidth)
    rw [Option.getD_some]
    omega

end SeriesWindow

/-! ### Points -/

/-- A point stands for some samples of a run, of which there is at least one. -/
structure SeriesPoint.Draws (p : SeriesPoint) (merge : Aggregation) (runId : String)
    (samples : List Sample) : Prop where
  /-- It belongs to the run. -/
  runId : p.runId = runId
  /-- There are samples. -/
  nonempty : samples ≠ []
  /-- The value is what their cells are merged to. -/
  value : ∃ cell, merge.reduce? (samples.map Sample.cell) = some cell ∧ cell.float? = some p.value
  /-- The time is that of a sample. -/
  time_mem : p.wallClockTime ∈ samples.map Sample.time
  /-- No sample has a time before it. -/
  time_le : ∀ s ∈ samples, (p.wallClockTime.compareStored s.time).isLE = true

/-- A point is made of samples if it stands for them. -/
theorem SeriesPoint.of?_eq_some_iff {merge : Aggregation} {runId : String} {start : Int}
    {samples : List Sample} {p : SeriesPoint} :
    of? merge runId start samples = some p ↔
      p.offset = start ∧ p.Draws merge runId samples := by
  simp only [of?, Option.bind_eq_bind, Option.bind_eq_some_iff, earliest?_eq_some_iff,
    Option.pure_def, Option.some.injEq, List.forall_mem_map]
  constructor
  -- No time is the earliest of none, so there are samples where there is a point.
  · rintro ⟨cell, hcell, value, hvalue, time, ⟨hmem, hle⟩, rfl⟩
    exact ⟨rfl, rfl, fun hnil => by simp [hnil] at hmem, ⟨cell, hcell, hvalue⟩, hmem, hle⟩
  · rintro ⟨rfl, rfl, -, ⟨cell, hcell, hvalue⟩, hmem, hle⟩
    exact ⟨cell, hcell, p.value, hvalue, p.wallClockTime, ⟨hmem, hle⟩, rfl⟩

/-- The points of a series stand for all samples that are put at a start, for each start that there
is. -/
structure DrawsGroups (w : SeriesWindow) (runId : String) (samples : List Sample)
    (points : List SeriesPoint) : Prop where
  /-- The points are in order of time, one for each start. -/
  ascending : (points.map SeriesPoint.offset).Pairwise (· < ·)
  /-- They start where samples are put. -/
  starts : ∀ start, start ∈ points.map SeriesPoint.offset ↔
    ∃ s ∈ samples, w.bucketStart s.offset = start
  /-- Each stands for the samples that are put there. -/
  draws : ∀ p ∈ points,
    p.Draws w.merge runId (samples.filter fun s => w.bucketStart s.offset = p.offset)

/-- The points of a series show all of some samples, each in the bucket that it belongs to. -/
structure DrawsSamples (w : SeriesWindow) (runId : String) (samples : List Sample)
    (points : List SeriesPoint) : Prop where
  /-- The points are in order of time, one for each start. -/
  ascending : (points.map SeriesPoint.offset).Pairwise (· < ·)
  /-- Each starts at a multiple of the width and stands for the samples from there to the next
  multiple. -/
  draws : ∀ p ∈ points, w.width ∣ p.offset ∧
    p.Draws w.merge runId (w.samplesIn p.offset samples)
  /-- Each sample is in the bucket of one point and no other. -/
  unique : ∀ s ∈ samples, ∃ p ∈ points, w.Covers p.offset s.offset ∧
    ∀ q ∈ points, w.Covers q.offset s.offset → q = p
  /-- The points together stand for every sample once. -/
  perm : (points.flatMap fun p => w.samplesIn p.offset samples).Perm samples

section Points

variable {w : SeriesWindow} {runId : String} {samples : List Sample} {points : List SeriesPoint}

/-- The starts of the points are those of the buckets with samples. -/
theorem map_offset_of_seriesPoints? (h : seriesPoints? w runId samples = some points) :
    points.map SeriesPoint.offset =
      (groupBy compare (fun s => w.bucketStart s.offset) samples).map Prod.fst :=
  map_eq_map_of_mapM_eq_some Prod.fst SeriesPoint.offset h fun _ _ _ hp =>
    (SeriesPoint.of?_eq_some_iff.1 hp).1

theorem mem_map_fst_groupBy_iff {start : Int} :
    start ∈ (groupBy compare (fun s => w.bucketStart s.offset) samples).map Prod.fst ↔
      ∃ s ∈ samples, w.bucketStart s.offset = start := by
  rw [map_fst_groupBy, mem_stableSort, mem_distinct, List.mem_map]

/-- **Points are what a series answers if and only if they draw the groups of its samples.** -/
theorem seriesPoints?_eq_some_iff_drawsGroups :
    seriesPoints? w runId samples = some points ↔ DrawsGroups w runId samples points := by
  constructor
  · intro h
    have hoffsets := map_offset_of_seriesPoints? h
    refine ⟨?_, fun start => ?_, fun p hp => ?_⟩
    · rw [hoffsets]
      exact (pairwise_lt_groupBy samples).imp fun hlt => Int.compare_eq_lt.1 hlt
    · rw [hoffsets]
      exact mem_map_fst_groupBy_iff
    -- A point is made of one group, and the group of the samples with one start.
    · have hsome : some p ∈ (groupBy compare (fun s => w.bucketStart s.offset) samples).map
          fun group => SeriesPoint.of? w.merge runId group.1 group.2 :=
        mapM_eq_some_iff.1 h ▸ List.mem_map_of_mem hp
      obtain ⟨⟨start, group⟩, hgroup, hof⟩ := List.mem_map.1 hsome
      obtain ⟨-, rfl⟩ := mem_groupBy_iff.1 hgroup
      obtain ⟨rfl, hdraws⟩ := SeriesPoint.of?_eq_some_iff.1 hof
      exact hdraws
  · intro h
    -- The starts of the points and those of the groups both ascend, and are the same.
    have hstarts : (groupBy compare (fun s => w.bucketStart s.offset) samples).map Prod.fst =
        points.map SeriesPoint.offset :=
      eq_of_pairwise_lt (pairwise_lt_groupBy samples)
        (h.ascending.imp fun hlt => Int.compare_eq_lt.2 hlt) fun start =>
          mem_map_fst_groupBy_iff.trans (h.starts start).symm
    rw [seriesPoints?, groupBy_eq_map, hstarts, List.map_map, mapM_eq_some_iff, List.map_map]
    exact List.map_congr_left fun p hp => SeriesPoint.of?_eq_some_iff.2 ⟨rfl, h.draws p hp⟩

/-- All points of a series belong to its run. -/
theorem runId_of_seriesPoints? (h : seriesPoints? w runId samples = some points) :
    ∀ p ∈ points, p.runId = runId := fun p hp =>
  ((seriesPoints?_eq_some_iff_drawsGroups.1 h).draws p hp).runId

/-- Points in strictly ascending order are told apart by their starts. -/
theorem eq_of_offset_eq (hasc : (points.map SeriesPoint.offset).Pairwise (· < ·))
    {p q : SeriesPoint} (hp : p ∈ points) (hq : q ∈ points) (heq : p.offset = q.offset) :
    p = q :=
  List.inj_on_of_nodup_map (hasc.imp fun hlt => Int.ne_of_lt hlt) hp hq heq

section NonNegative

variable (hoffsets : ∀ s ∈ samples, 0 ≤ s.offset)

include hoffsets

/-- Without negative offsets the samples that are put at a start are those of one bucket, and no
sample is in two buckets. -/
theorem DrawsGroups.drawsSamples (h : DrawsGroups w runId samples points) :
    DrawsSamples w runId samples points := by
  have hstart : ∀ s ∈ samples, w.bucketStart s.offset ∈ points.map SeriesPoint.offset :=
    fun s hs => (h.starts _).2 ⟨s, hs, rfl⟩
  refine ⟨h.ascending, fun p hp => ?_, fun s hs => ?_, ?_⟩
  -- A point has samples, and these are put at a multiple of the width.
  · obtain ⟨s, hs, hput⟩ := (h.starts _).1 (List.mem_map_of_mem hp)
    rw [← SeriesWindow.filter_bucketStart hoffsets]
    exact ⟨((SeriesWindow.covers_iff (hoffsets s hs)).2 hput).1, h.draws p hp⟩
  -- Another point with the sample in its bucket would have the same start.
  · obtain ⟨p, hp, hoffset⟩ := List.mem_map.1 (hstart s hs)
    refine ⟨p, hp, (SeriesWindow.covers_iff (hoffsets s hs)).2 hoffset.symm,
      fun q hq hcovers => ?_⟩
    have hq' := (SeriesWindow.covers_iff (hoffsets s hs)).1 hcovers
    exact eq_of_offset_eq h.ascending hq hp (hq'.symm.trans hoffset.symm)
  -- The groups of different starts together are all samples.
  · have hperm := flatMap_filter_perm (h.ascending.imp fun hlt => Int.ne_of_lt hlt) hstart
    rw [List.flatMap_map] at hperm
    simpa only [SeriesWindow.filter_bucketStart hoffsets] using hperm

theorem DrawsSamples.drawsGroups (h : DrawsSamples w runId samples points) :
    DrawsGroups w runId samples points := by
  refine ⟨h.ascending, fun start => ?_, fun p hp => ?_⟩
  -- No bucket is drawn without a sample, and no sample without its bucket.
  · rw [List.mem_map]
    constructor
    · rintro ⟨p, hp, rfl⟩
      obtain ⟨s, hs⟩ := List.exists_mem_of_ne_nil _ (h.draws p hp).2.nonempty
      obtain ⟨hmem, hcovers⟩ := List.mem_filter.1 hs
      exact ⟨s, hmem, (SeriesWindow.covers_iff (hoffsets s hmem)).1 (of_decide_eq_true hcovers)⟩
    · rintro ⟨s, hs, rfl⟩
      obtain ⟨p, hp, hcovers, -⟩ := h.unique s hs
      exact ⟨p, hp, ((SeriesWindow.covers_iff (hoffsets s hs)).1 hcovers).symm⟩
  · rw [SeriesWindow.filter_bucketStart hoffsets]
    exact (h.draws p hp).2

/-- **Points are what a series answers if and only if they draw its samples.** -/
theorem seriesPoints?_eq_some_iff :
    seriesPoints? w runId samples = some points ↔ DrawsSamples w runId samples points :=
  seriesPoints?_eq_some_iff_drawsGroups.trans
    ⟨DrawsGroups.drawsSamples hoffsets, DrawsSamples.drawsGroups hoffsets⟩

end NonNegative

end Points

/-! ### What the store reads -/

/-- What a series can be made of. -/
inductive SeriesSource where
  /-- A column of the time buckets. -/
  | column (column : BucketColumn)
  /-- The metric at a path. -/
  | metric (path : String)
  /-- The errors of each bucket. -/
  | errors

/-- Samples in order of their offsets. -/
def Sample.inOrder (samples : List Sample) : List Sample :=
  stableSort (fun a b => compare a.offset b.offset) samples

namespace SeriesSource

/-- The series of a run. -/
def query (s : Store) (runId : String) (w : SeriesWindow) :
    SeriesSource → Except ChartError (List SeriesPoint)
  | .column c => s.bucketSeries runId c w
  | .metric path => s.metricSeries runId path w
  | .errors => s.errorSeries runId w

/-- Whether there can be such a source: the path of a metric has to be one. -/
def Addressable : SeriesSource → Prop
  | .metric path => FieldPath.check path = .ok (FieldPath.keys path)
  | _ => True

/-- The store finds a metric where its path says if no key of the path has a backslash or a NUL, and
the samples can be searched and have no name with a NUL. -/
def Legible (samples : List MetricSample) : SeriesSource → Prop
  | .metric path => (∀ key ∈ FieldPath.keys path, StoredKey.Plain key) ∧
      ∀ m ∈ samples, m.metrics.Legible
  | _ => True

/-- The store reads the numbers of a metric as they are. -/
def ReadAsIs (samples : List MetricSample) : SeriesSource → Prop
  | .metric path => ∀ m ∈ samples, ∀ n, m.metrics.at? path = some (.num n) →
      Json.numberCell n = n.cell
  | _ => True

/-- The samples of a run that the store reads, in order of their offsets. -/
def samples? (t : Tables) (trimming : Int) (runId : String) : SeriesSource → Option (List Sample)
  | .column c => some (t.columnSamples c trimming runId)
  | .metric path => t.metricSamples? (FieldPath.keys path) trimming runId
  | .errors => t.errorSamples? trimming runId

/-- The samples of a run that are usable, in the order in which they were recorded: those after the
warm-up with a value in the column, with a number at the path, or all of them. There are none if the
errors of a bucket cannot be added. A number is turned into a cell. -/
def samples (cell : Number → Cell) (t : Tables) (trimming : Int) (runId : String) :
    SeriesSource → Option (List Sample)
  | .column c =>
    some (usable (((Tables.ownedBy t.buckets runId).filter (trimming ≤ ·.offset)).map
      (·.sample c)))
  | .metric path =>
    some (usable (((Tables.ownedBy t.metrics runId).filter (trimming ≤ ·.offset)).map
      (·.sampleAt cell path)))
  | .errors =>
    ((Tables.ownedBy t.buckets runId).filter (trimming ≤ ·.offset)).mapM Bucket.errorSample?

/-- The usable samples with the numbers as they are. -/
def usable? (t : Tables) (trimming : Int) (runId : String) : SeriesSource → Option (List Sample) :=
  samples Number.cell t trimming runId

end SeriesSource

theorem Bucket.offset_errorSample? {b : Bucket} {sample : Sample}
    (h : b.errorSample? = some sample) : sample.offset = b.offset := by
  obtain ⟨cell, -, rfl⟩ := Option.map_eq_some_iff.1 h
  rfl

theorem MetricSample.offset_sample? {keys : List String} {m : MetricSample} {sample : Sample}
    (h : m.sample? keys = some sample) : sample.offset = m.offset := by
  obtain ⟨found, -, rfl⟩ := Option.map_eq_some_iff.1 h
  rfl

/-! ### Sorting samples -/

section AfterWarmUp

variable {α : Type} (offset : α → Int) (trimming : Int) (items : List α)

/-- Items are sorted by their offsets, and so are the samples made of them. -/
theorem mapM_afterWarmUp {f : α → Option Sample}
    (hoffset : ∀ a sample, f a = some sample → sample.offset = offset a) :
    (afterWarmUp offset trimming items).mapM f =
      ((items.filter (trimming ≤ offset ·)).mapM f).map Sample.inOrder := by
  cases h : (items.filter (trimming ≤ offset ·)).mapM f with
  | some samples =>
    refine mapM_stableSort (fun a b a' b' hb hb' => ?_) h
    rw [hoffset a b hb, hoffset a' b' hb']
  | none =>
    -- If some item gives no sample, it is there after sorting too.
    rw [Option.map_none, ← Option.not_isSome_iff_eq_none, isSome_mapM_iff]
    intro hall
    have hsome : ((items.filter (trimming ≤ offset ·)).mapM f).isSome = true :=
      isSome_mapM_iff.2 fun a ha => hall a (mem_stableSort.2 ha)
    rw [h] at hsome
    cases hsome

theorem map_afterWarmUp {f : α → Sample} (hoffset : ∀ a, (f a).offset = offset a) :
    (afterWarmUp offset trimming items).map f =
      Sample.inOrder ((items.filter (trimming ≤ offset ·)).map f) := by
  simp only [afterWarmUp, Sample.inOrder, ← hoffset]
  exact map_stableSort (fun a b : Sample => compare a.offset b.offset) f _

theorem usable_inOrder (samples : List Sample) :
    usable (Sample.inOrder samples) = Sample.inOrder (usable samples) :=
  have : Std.TransCmp fun a b : Sample => compare a.offset b.offset :=
    transCmp_key (compare : Int → Int → Ordering) Sample.offset
  filter_stableSort _ samples

variable {offset trimming items} in
theorem mem_afterWarmUp_iff {a : α} :
    a ∈ afterWarmUp offset trimming items ↔ a ∈ items ∧ trimming ≤ offset a := by
  rw [afterWarmUp, mem_stableSort, List.mem_filter, decide_eq_true_iff]

end AfterWarmUp

namespace SeriesSource

variable {t : Tables} {trimming : Int} {runId : String} {source : SeriesSource}

/-- **The store reads the usable samples**, in order of their offsets. -/
theorem samples?_eq (h : source.Legible (Tables.ownedBy t.metrics runId)) :
    source.samples? t trimming runId =
      (source.samples Json.numberCell t trimming runId).map Sample.inOrder := by
  cases source with
  | column c =>
    rw [samples?, samples, Option.map_some, Tables.columnSamples,
      map_afterWarmUp Bucket.offset trimming _ fun _ => rfl, usable_inOrder]
  -- Legible metrics are found where their path leads to.
  | metric path =>
    obtain ⟨hplain, hobjects⟩ := h
    have hread : ∀ m ∈ Tables.ownedBy t.metrics runId,
        m.sample? (FieldPath.keys path) = some (m.sampleAt Json.numberCell path) := fun m hm =>
      MetricSample.sample?_of_legible hplain (hobjects m hm)
    rw [samples?, samples, Option.map_some, Tables.metricSamples?_eq hread,
      map_afterWarmUp MetricSample.offset trimming _ fun _ => rfl, usable_inOrder]
  | errors => exact mapM_afterWarmUp Bucket.offset trimming _ fun _ _ => Bucket.offset_errorSample?

/-- If each number is read as it is, then so are the samples. -/
theorem samples_eq_usable? (h : source.ReadAsIs (Tables.ownedBy t.metrics runId)) :
    source.samples Json.numberCell t trimming runId = source.usable? t trimming runId := by
  cases source with
  | metric path =>
    refine congrArg (fun list => some (usable list)) (List.map_congr_left fun m hm => ?_)
    exact m.sampleAt_congr (h m (List.mem_filter.1 hm).1)
  | _ => rfl

/-- A sample has the offset of the row that it was made from, and is not in the warm-up. -/
theorem exists_row_of_mem_samples? {samples : List Sample}
    (h : source.samples? t trimming runId = some samples) {s : Sample} (hs : s ∈ samples) :
    trimming ≤ s.offset ∧ ((∃ b ∈ Tables.ownedBy t.buckets runId, b.offset = s.offset) ∨
      ∃ m ∈ Tables.ownedBy t.metrics runId, m.offset = s.offset) := by
  cases source with
  | column c =>
    cases h
    obtain ⟨b, hb, rfl⟩ := List.mem_map.1 (List.mem_filter.1 hs).1
    obtain ⟨hrow, hle⟩ := mem_afterWarmUp_iff.1 hb
    exact ⟨hle, .inl ⟨b, hrow, rfl⟩⟩
  -- Samples of metrics and errors have the offsets of the rows that they were made from.
  | metric path =>
    obtain ⟨all, hall, rfl⟩ := Option.map_eq_some_iff.1 h
    have hoffsets : all.map Sample.offset = _ :=
      map_eq_map_of_mapM_eq_some MetricSample.offset _ hall fun _ _ _ =>
        MetricSample.offset_sample?
    have hmem : s.offset ∈ all.map Sample.offset := List.mem_map_of_mem (List.mem_filter.1 hs).1
    rw [hoffsets] at hmem
    obtain ⟨m, hm, hoffset⟩ := List.mem_map.1 hmem
    obtain ⟨hrow, hle⟩ := mem_afterWarmUp_iff.1 hm
    exact ⟨hoffset ▸ hle, .inr ⟨m, hrow, hoffset⟩⟩
  | errors =>
    have hoffsets : samples.map Sample.offset = _ :=
      map_eq_map_of_mapM_eq_some Bucket.offset _ h fun _ _ _ => Bucket.offset_errorSample?
    have hmem : s.offset ∈ samples.map Sample.offset := List.mem_map_of_mem hs
    rw [hoffsets] at hmem
    obtain ⟨b, hb, hoffset⟩ := List.mem_map.1 hmem
    obtain ⟨hrow, hle⟩ := mem_afterWarmUp_iff.1 hb
    exact ⟨hoffset ▸ hle, .inl ⟨b, hrow, hoffset⟩⟩

/-- No sample is read from the warm-up. -/
theorem trimming_le_offset {samples : List Sample}
    (h : source.samples? t trimming runId = some samples) :
    ∀ s ∈ samples, trimming ≤ s.offset := fun _ hs => (exists_row_of_mem_samples? h hs).1

/-- The store answers the points of what it reads. -/
theorem query_eq_ok_iff {s : Store} (ht : s.tables = some t) (h : source.Addressable)
    {w : SeriesWindow} {points : List SeriesPoint} :
    source.query s runId w = .ok points ↔
      ∃ samples, source.samples? t w.trimmingSeconds runId = some samples ∧
        seriesPoints? w runId samples = some points := by
  cases source with
  | column c =>
    simp [query, Store.bucketSeries, Store.query_of_tables ht, answer_eq_ok_iff, samples?]
  | metric path =>
    simp only [query, Store.metricSeries, show FieldPath.check path = _ from h,
      Store.query_of_tables ht, answer_eq_ok_iff, samples?, Option.bind_eq_some_iff]
  | errors =>
    simp only [query, Store.errorSeries, Store.query_of_tables ht, answer_eq_ok_iff, samples?,
      Option.bind_eq_some_iff]

/-- A query that is answered has a source that there can be. -/
theorem addressable_of_query {s : Store} {w : SeriesWindow} {points : List SeriesPoint}
    (h : source.query s runId w = .ok points) : source.Addressable := by
  cases source with
  | column c => trivial
  | metric path =>
    rw [query, Store.metricSeries] at h
    -- A path is taken apart before the store is asked.
    split at h
    · cases h
    · next keys hkeys => rw [Addressable, hkeys, FieldPath.keys_of_check hkeys]
  | errors => trivial

/-- Whatever a series is made of, its points belong to the run that was asked for. -/
theorem runId_of_query {s : Store} {w : SeriesWindow} {points : List SeriesPoint}
    (h : source.query s runId w = .ok points) : ∀ p ∈ points, p.runId = runId := by
  cases source with
  | column c =>
    obtain ⟨t, -, hanswer⟩ := Store.query_eq_ok_iff.1 h
    exact runId_of_seriesPoints? (answer_eq_ok_iff.1 hanswer)
  | metric path =>
    rw [query, Store.metricSeries] at h
    split at h
    · cases h
    · obtain ⟨t, -, hanswer⟩ := Store.query_eq_ok_iff.1 h
      obtain ⟨samples, -, hpoints⟩ := Option.bind_eq_some_iff.1 (answer_eq_ok_iff.1 hanswer)
      exact runId_of_seriesPoints? hpoints
  | errors =>
    obtain ⟨t, -, hanswer⟩ := Store.query_eq_ok_iff.1 h
    obtain ⟨samples, -, hpoints⟩ := Option.bind_eq_some_iff.1 (answer_eq_ok_iff.1 hanswer)
    exact runId_of_seriesPoints? hpoints

end SeriesSource

namespace Store

/-- **A series shows every usable sample once.** Over stored runs, with a warm-up that is not
negative: the points that the store answers draw what it reads, and nothing else does; what it reads
are the usable samples, unless it looks for a metric elsewhere than its path says, and with their
own numbers if it reads each of these as it is; and time is cut without leaving 64 bits, if the
width that is asked for has them. -/
theorem series_draw_samples {s : Store} {t : Tables} (ht : s.tables = some t)
    {w : SeriesWindow} (htrimming : 0 ≤ w.trimmingSeconds) (runId : String) :
    (∀ source : SeriesSource, source.Addressable → ∀ points,
      source.query s runId w = .ok points ↔
        ∃ samples, source.samples? t w.trimmingSeconds runId = some samples ∧
          DrawsSamples w runId samples points) ∧
      (∀ source : SeriesSource, source.Legible (Tables.ownedBy t.metrics runId) →
        source.samples? t w.trimmingSeconds runId =
          (source.samples Json.numberCell t w.trimmingSeconds runId).map Sample.inOrder ∧
        (source.ReadAsIs (Tables.ownedBy t.metrics runId) →
          source.samples? t w.trimmingSeconds runId =
            (source.usable? t w.trimmingSeconds runId).map Sample.inOrder)) ∧
      1 ≤ w.width ∧
      ((∀ n, w.bucketiseSeconds = some n → Text.fitsSigned64 n = true) →
        Text.fitsSigned64 w.width = true) ∧
      ∀ offset, Text.fitsSigned64 offset = true →
        Text.fitsSigned64 (Int.tdiv offset w.width) = true ∧
          Text.fitsSigned64 (w.bucketStart offset) = true := by
  refine ⟨fun source haddressable points => ?_, fun source hlegible => ⟨?_, fun hread => ?_⟩,
    w.width_pos, SeriesWindow.fits_width, fun offset => SeriesWindow.fits_bucketStart⟩
  -- The warm-up ends at zero or later, so no sample has a negative offset.
  · rw [SeriesSource.query_eq_ok_iff ht haddressable]
    refine exists_congr fun samples => and_congr_right fun hsamples => ?_
    exact seriesPoints?_eq_some_iff fun s hs =>
      Int.le_trans htrimming (SeriesSource.trimming_le_offset hsamples s hs)
  · exact SeriesSource.samples?_eq hlegible
  · rw [← SeriesSource.samples_eq_usable? hread]
    exact SeriesSource.samples?_eq hlegible

/-- Three buckets, one of them in the warm-up, and the two points of the others. -/
theorem series_draw_samples_totals :
    ∃ t points samples, (single (.ofTotals "run" "x" [(0, 1), (1, 2), (5, 4)])).tables = some t ∧
      (0 : Int) ≤ (⟨1, some 2, .maximum⟩ : SeriesWindow).trimmingSeconds ∧
      (single (.ofTotals "run" "x" [(0, 1), (1, 2), (5, 4)])).bucketSeries "run" .operationsTotal
        ⟨1, some 2, .maximum⟩ = .ok points ∧
      points.map SeriesPoint.offset = [0, 4] ∧
      (SeriesSource.column .operationsTotal).usable? t 1 "run" = some samples ∧
      samples.map Sample.cell = [.int 2, .int 4] ∧
      DrawsSamples ⟨1, some 2, .maximum⟩ "run" (Sample.inOrder samples) points := by
  obtain ⟨hpoints, hread, -⟩ := series_draw_samples (w := ⟨1, some 2, .maximum⟩)
    (s := single (.ofTotals "run" "x" [(0, 1), (1, 2), (5, 4)])) rfl (by decide) "run"
  have hseries : ∀ a b, (single (.ofTotals "run" "x" [(0, 1), (1, a), (5, b)])).bucketSeries "run"
      .operationsTotal ⟨1, some 2, .maximum⟩ = .ok
        [⟨0, Float.ofInt a, "run", (Bucket.ofTotal 1 a).datetime⟩,
          ⟨4, Float.ofInt b, "run", (Bucket.ofTotal 5 b).datetime⟩] := fun a b => by cbv
  have husable : (SeriesSource.column .operationsTotal).usable?
      (Tables.empty.append (.ofTotals "run" "x" [(0, 1), (1, 2), (5, 4)])) 1 "run" =
        some [(Bucket.ofTotal 1 2).sample .operationsTotal,
          (Bucket.ofTotal 5 4).sample .operationsTotal] := by cbv
  refine ⟨_, _, _, rfl, by decide, hseries 2 4, rfl, husable, rfl, ?_⟩
  obtain ⟨samples, hsamples, hdraws⟩ :=
    (hpoints (.column .operationsTotal) trivial _).1 (hseries 2 4)
  rw [(hread (.column .operationsTotal) trivial).2 trivial, husable] at hsamples
  obtain rfl := Option.some.inj hsamples
  exact hdraws

/-- A metric whose name has a backslash, and a series without a point for its only sample. -/
theorem not_draws_backslashMetric :
    ∃ t sample, (single (.ofMetric "a\\b" 5)).Reachable ∧
      (single (.ofMetric "a\\b" 5)).tables = some t ∧
      (SeriesSource.metric "a\\b").Addressable ∧
      (SeriesSource.metric "a\\b").usable? t 0 "run" = some [sample] ∧
      sample.offset = 0 ∧ sample.cell = .real 5 ∧
      (single (.ofMetric "a\\b" 5)).metricSeries "run" "a\\b" ⟨0, none, .maximum⟩ = .ok [] ∧
      ¬ DrawsSamples ⟨0, none, .maximum⟩ "run" [sample] [] := by
  have husable : ∀ value, (SeriesSource.metric "a\\b").usable?
      (Tables.empty.append (.ofMetric "a\\b" value)) 0 "run" =
        some [⟨0, (RunRecord.ofMetric "a\\b" value).run.datetime, .real value⟩] :=
    fun value => by cbv
  have hseries : (single (.ofMetric "a\\b" 5)).metricSeries "run" "a\\b" ⟨0, none, .maximum⟩ =
      .ok [] := by cbv
  refine ⟨_, _, Reachable.single (RunRecord.normal_ofMetric ..), rfl, ?_, husable 5, rfl, rfl,
    hseries, fun hdraws => ?_⟩
  · have hcheck : FieldPath.check "a\\b" = .ok (FieldPath.keys "a\\b") := by cbv
    exact hcheck
  · -- No point has the sample in its bucket, as there is no point at all.
    obtain ⟨p, hp, -⟩ := hdraws.unique _ (List.mem_singleton_self _)
    cases hp

end Store

end BenchCharts

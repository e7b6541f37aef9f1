import BenchCharts.Chart.RequestCodec
import BenchCharts.Chart.ResponseCodec
import BenchCharts.Proofs.Run.Codec

/-!
# Requests and charts that are read from JSON

Whatever request or chart is read is read again from what is written for it. The parts of requests
that are choices or texts are read back whatever they are. For a whole request, and for the parts of
a chart, `decode?_eq_some_iff` says which fields it is read from; each field that was read is then
read again from the written one, and a missing field from its default.

`restores_all` is the summary for requests, records and charts.
-/

namespace BenchCharts

open Json

/-! ### Parts of requests -/

theorem HorizontalAxis.restores : Restores decode? encode :=
  .of_forall fun a => by
    obtain ⟨field, resultType⟩ := a
    cases resultType <;> rfl

theorem VerticalAxis.restores : Restores decode? encode := .of_forall fun a => by cases a <;> rfl

/-- Short names are replaced by the long ones, which name the same aggregations. -/
theorem Aggregation.restores : Restores decode? encode := .of_forall fun a => by cases a <;> rfl

theorem ChartMode.restores : Restores decode? encode := .of_forall fun m => by cases m <;> rfl

theorem RunFilterMode.restores : Restores decode? encode := .of_forall fun m => by cases m <;> rfl

theorem AnnotationRequest.restores : Restores decode? encode :=
  .of_forall fun a => by
    obtain ⟨eventTypes⟩ := a
    have htypes : list? text? (ofList .str eventTypes) = some eventTypes :=
      list?_ofList fun _ _ => rfl
    change ((list? text? (ofList .str eventTypes)).bind fun types => some (runEvents types)) = _
    rw [htypes, Option.bind_some]

/-! ### Requests -/

/-- The width of the buckets may be `null`. -/
theorem restores_width : Restores (nullable? int64?) (ofOption ofInt) :=
  restores_int64.nullable fun _ => Json.noConfusion

namespace ChartRequest

theorem decode?_eq_some_iff {j : Json} {r : ChartRequest} :
    decode? j = some r ↔
      ∃ horizontalAxis verticalAxes filter mode policy algorithm trimming width snapshots gerrit
          runs annotations,
        j.record? fieldNames =
          some [horizontalAxis, verticalAxes, filter, mode, policy, algorithm, trimming, width,
            snapshots, gerrit, runs, annotations] ∧
        required HorizontalAxis.decode? horizontalAxis = some r.horizontalAxis ∧
        required (list? VerticalAxis.decode?) verticalAxes = some r.verticalAxes ∧
        optional [] map? filter = some r.comparisonFilter ∧
        required ChartMode.decode? mode = some r.chartMode ∧
        optional .average Aggregation.decode? policy = some r.mergePolicy ∧
        optional .average Aggregation.decode? algorithm = some r.mergeAlgorithm ∧
        optional 0 int64? trimming = some r.trimmingSeconds ∧
        optional none (nullable? int64?) width = some r.bucketiseSeconds ∧
        optional false bool? snapshots = some r.excludeSnapshots ∧
        optional false bool? gerrit = some r.excludeGerrit ∧
        optional .all RunFilterMode.decode? runs = some r.runFilterMode ∧
        optional [] (list? AnnotationRequest.decode?) annotations = some r.annotations := by
  unfold decode?
  constructor
  · intro h
    split at h
    · next hfields =>
      -- Twelve fields are read in the order in which they are declared, and the request is made of
      -- what they are read as.
      simp only [bind, pure, Option.bind_eq_some_iff] at h
      obtain ⟨_, hhorizontal, _, hvertical, _, hfilter, _, hmode, _, hpolicy, _, halgorithm, _,
        htrimming, _, hwidth, _, hsnapshots, _, hgerrit, _, hruns, _, hannotations, heq⟩ := h
      cases heq
      exact ⟨_, _, _, _, _, _, _, _, _, _, _, _, hfields, hhorizontal, hvertical, hfilter, hmode,
        hpolicy, halgorithm, htrimming, hwidth, hsnapshots, hgerrit, hruns, hannotations⟩
    · cases h
  · rintro ⟨_, _, _, _, _, _, _, _, _, _, _, _, hfields, hhorizontal, hvertical, hfilter, hmode,
      hpolicy, halgorithm, htrimming, hwidth, hsnapshots, hgerrit, hruns, hannotations⟩
    -- The other way round, no field stands in the way of the next one.
    rw [hfields]
    simp only [bind, pure, hhorizontal, hvertical, hfilter, hmode, hpolicy, halgorithm, htrimming,
      hwidth, hsnapshots, hgerrit, hruns, hannotations, Option.bind_some]

theorem restores : Restores decode? encode := by
  intro j r h
  -- The fields as they were read, defaults filled in.
  obtain ⟨_, _, _, _, _, _, _, _, _, _, _, _, -, hhorizontal, hvertical, hfilter, hmode, hpolicy,
    halgorithm, htrimming, hwidth, hsnapshots, hgerrit, hruns, hannotations⟩ :=
    decode?_eq_some_iff.1 h
  -- All of them are written, so each is read again from a field that is there.
  exact decode?_eq_some_iff.2 ⟨_, _, _, _, _, _, _, _, _, _, _, _, rfl,
    HorizontalAxis.restores.required_field hhorizontal,
    VerticalAxis.restores.list.required_field hvertical,
    restores_map.optional_field rfl hfilter,
    ChartMode.restores.required_field hmode,
    Aggregation.restores.optional_field rfl hpolicy,
    Aggregation.restores.optional_field rfl halgorithm,
    restores_int64.optional_field rfl htrimming,
    restores_width.optional_field rfl hwidth,
    restores_bool.optional_field rfl hsnapshots,
    restores_bool.optional_field rfl hgerrit,
    RunFilterMode.restores.optional_field rfl hruns,
    AnnotationRequest.restores.optional_list hannotations⟩

end ChartRequest

namespace RunChartRequest

theorem decode?_eq_some_iff {j : Json} {r : RunChartRequest} :
    decode? j = some r ↔
      ∃ runId verticalAxes algorithm trimming width annotations,
        j.record? fieldNames =
          some [runId, verticalAxes, algorithm, trimming, width, annotations] ∧
        required text? runId = some r.runId ∧
        required (list? VerticalAxis.decode?) verticalAxes = some r.verticalAxes ∧
        optional .average Aggregation.decode? algorithm = some r.mergeAlgorithm ∧
        optional 0 int64? trimming = some r.trimmingSeconds ∧
        optional none (nullable? int64?) width = some r.bucketiseSeconds ∧
        optional [] (list? AnnotationRequest.decode?) annotations = some r.annotations := by
  unfold decode?
  constructor
  · intro h
    split at h
    · next hfields =>
      -- Six fields are read, of which the first two have to be there.
      simp only [bind, pure, Option.bind_eq_some_iff] at h
      obtain ⟨_, hid, _, hvertical, _, halgorithm, _, htrimming, _, hwidth, _, hannotations,
        heq⟩ := h
      cases heq
      exact ⟨_, _, _, _, _, _, hfields, hid, hvertical, halgorithm, htrimming, hwidth,
        hannotations⟩
    · cases h
  · rintro ⟨_, _, _, _, _, _, hfields, hid, hvertical, halgorithm, htrimming, hwidth,
      hannotations⟩
    rw [hfields]
    simp only [bind, pure, hid, hvertical, halgorithm, htrimming, hwidth, hannotations,
      Option.bind_some]

theorem restores : Restores decode? encode := by
  intro j r h
  obtain ⟨_, _, _, _, _, _, -, hid, hvertical, halgorithm, htrimming, hwidth, hannotations⟩ :=
    decode?_eq_some_iff.1 h
  -- The fields that both kinds of request have are read and written in the same way.
  exact decode?_eq_some_iff.2 ⟨_, _, _, _, _, _, rfl,
    restores_text.required_field hid,
    VerticalAxis.restores.list.required_field hvertical,
    Aggregation.restores.optional_field rfl halgorithm,
    restores_int64.optional_field rfl htrimming,
    restores_width.optional_field rfl hwidth,
    AnnotationRequest.restores.optional_list hannotations⟩

end RunChartRequest

/-! ### Charts -/

namespace SeriesPoint

theorem decode?_eq_some_iff {j : Json} {p : SeriesPoint} :
    decode? j = some p ↔
      ∃ offset value runId time,
        j.record? ["offsetSeconds", "value", "runId", "wallClockTime"] =
          some [offset, value, runId, time] ∧
        required int64? offset = some p.offset ∧ required float? value = some p.value ∧
        required text? runId = some p.runId ∧ required instant? time = some p.wallClockTime := by
  unfold decode?
  constructor
  · intro h
    split at h
    · next hfields =>
      -- No field of a point may be missing.
      simp only [bind, pure, Option.bind_eq_some_iff] at h
      obtain ⟨_, hoffset, _, hvalue, _, hid, _, htime, heq⟩ := h
      cases heq
      exact ⟨_, _, _, _, hfields, hoffset, hvalue, hid, htime⟩
    · cases h
  · rintro ⟨_, _, _, _, hfields, hoffset, hvalue, hid, htime⟩
    rw [hfields]
    simp only [bind, pure, hoffset, hvalue, hid, htime, Option.bind_some]

theorem restores : Restores decode? encode := by
  intro j p h
  obtain ⟨_, _, _, _, -, hoffset, hvalue, hid, htime⟩ := decode?_eq_some_iff.1 h
  exact decode?_eq_some_iff.2 ⟨_, _, _, _, rfl, restores_int64.required_field hoffset,
    restores_float.required_field hvalue, restores_text.required_field hid,
    restores_instant.required_field htime⟩

/-- A point is read back if its offset has 64 bits. -/
theorem decode?_encode {p : SeriesPoint} (h : Text.fitsSigned64 p.offset = true) :
    decode? p.encode = some p :=
  decode?_eq_some_iff.2 ⟨_, _, _, _, rfl, if_pos h, rfl, rfl, Instant.read?_spell _⟩

end SeriesPoint

namespace Series

theorem decode?_eq_some_iff {j : Json} {s : Series} :
    decode? j = some s ↔
      ∃ axisId label color runId points,
        j.record? ["axisId", "label", "color", "runId", "points"] =
          some [axisId, label, color, runId, points] ∧
        required text? axisId = some s.axisId ∧ required text? label = some s.label ∧
        required text? color = some s.color ∧ required text? runId = some s.runId ∧
        required (list? SeriesPoint.decode?) points = some s.points := by
  unfold decode?
  constructor
  · intro h
    split at h
    · next hfields =>
      -- Four texts and a list of points are read, and none of them may be missing.
      simp only [bind, pure, Option.bind_eq_some_iff] at h
      obtain ⟨_, haxis, _, hlabel, _, hcolor, _, hid, _, hpoints, heq⟩ := h
      cases heq
      exact ⟨_, _, _, _, _, hfields, haxis, hlabel, hcolor, hid, hpoints⟩
    · cases h
  · rintro ⟨_, _, _, _, _, hfields, haxis, hlabel, hcolor, hid, hpoints⟩
    rw [hfields]
    simp only [bind, pure, haxis, hlabel, hcolor, hid, hpoints, Option.bind_some]

theorem restores : Restores decode? encode := by
  intro j s h
  obtain ⟨_, _, _, _, _, -, haxis, hlabel, hcolor, hid, hpoints⟩ := decode?_eq_some_iff.1 h
  exact decode?_eq_some_iff.2 ⟨_, _, _, _, _, rfl, restores_text.required_field haxis,
    restores_text.required_field hlabel, restores_text.required_field hcolor,
    restores_text.required_field hid, SeriesPoint.restores.list.required_field hpoints⟩

theorem decode?_encode {s : Series} (h : ∀ p ∈ s.points, Text.fitsSigned64 p.offset = true) :
    decode? s.encode = some s :=
  decode?_eq_some_iff.2 ⟨_, _, _, _, _, rfl, rfl, rfl, rfl, rfl,
    list?_ofList fun p hp => SeriesPoint.decode?_encode (h p hp)⟩

end Series

namespace Annotation

theorem decode?_eq_some_iff {j : Json} {a : Annotation} :
    decode? j = some a ↔
      ∃ id runId offset time label eventType yOffset,
        j.record? ["id", "runId", "offsetSeconds", "wallClockTime", "label", "eventType",
            "yOffset"] =
          some [id, runId, offset, time, label, eventType, yOffset] ∧
        required text? id = some a.id ∧ required text? runId = some a.runId ∧
        required int64? offset = some a.offset ∧
        required instant? time = some a.wallClockTime ∧
        required text? label = some a.label ∧ required text? eventType = some a.eventType ∧
        required int32? yOffset = some a.yOffset := by
  unfold decode?
  constructor
  · intro h
    split at h
    · next hfields =>
      -- No field of an annotation may be missing.
      simp only [bind, pure, Option.bind_eq_some_iff] at h
      obtain ⟨_, hid, _, hrun, _, hoffset, _, htime, _, hlabel, _, htype, _, hraised, heq⟩ := h
      cases heq
      exact ⟨_, _, _, _, _, _, _, hfields, hid, hrun, hoffset, htime, hlabel, htype, hraised⟩
    · cases h
  · rintro ⟨_, _, _, _, _, _, _, hfields, hid, hrun, hoffset, htime, hlabel, htype, hraised⟩
    rw [hfields]
    simp only [bind, pure, hid, hrun, hoffset, htime, hlabel, htype, hraised, Option.bind_some]

theorem restores : Restores decode? encode := by
  intro j a h
  obtain ⟨_, _, _, _, _, _, _, -, hid, hrun, hoffset, htime, hlabel, htype, hraised⟩ :=
    decode?_eq_some_iff.1 h
  exact decode?_eq_some_iff.2 ⟨_, _, _, _, _, _, _, rfl, restores_text.required_field hid,
    restores_text.required_field hrun, restores_int64.required_field hoffset,
    restores_instant.required_field htime, restores_text.required_field hlabel,
    restores_text.required_field htype, restores_int32.required_field hraised⟩

/-- The offset of an annotation has 64 bits, and its place above the line has 32. -/
def Regular (a : Annotation) : Prop :=
  Text.fitsSigned64 a.offset = true ∧ -2147483648 ≤ a.yOffset ∧ a.yOffset < 2147483648

theorem decode?_encode {a : Annotation} (h : a.Regular) : decode? a.encode = some a :=
  decode?_eq_some_iff.2 ⟨_, _, _, _, _, _, _, rfl, rfl, rfl, if_pos h.1, Instant.read?_spell _,
    rfl, rfl, if_pos h.2⟩

end Annotation

namespace BarChart

theorem decode?_eq_some_iff {j : Json} {c : BarChart} :
    decode? j = some c ↔
      ∃ runs labels values runIds,
        j.record? ["runs", "labels", "values", "runIdsPerLabel"] =
          some [runs, labels, values, runIds] ∧
        required (list? Run.decode?) runs = some c.runs ∧
        required (list? text?) labels = some c.labels ∧
        required (list? float?) values = some c.values ∧
        required (list? (list? text?)) runIds = some c.runIdsPerLabel := by
  unfold decode?
  constructor
  · intro h
    split at h
    · next hfields =>
      -- Four lists are read, whose lengths nobody compares.
      simp only [bind, pure, Option.bind_eq_some_iff] at h
      obtain ⟨_, hruns, _, hlabels, _, hvalues, _, hids, heq⟩ := h
      cases heq
      exact ⟨_, _, _, _, hfields, hruns, hlabels, hvalues, hids⟩
    · cases h
  · rintro ⟨_, _, _, _, hfields, hruns, hlabels, hvalues, hids⟩
    rw [hfields]
    simp only [bind, pure, hruns, hlabels, hvalues, hids, Option.bind_some]

theorem restores : Restores decode? fun c => .obj c.encodeFields := by
  intro j c h
  obtain ⟨_, _, _, _, -, hruns, hlabels, hvalues, hids⟩ := decode?_eq_some_iff.1 h
  -- Runs have a form of their own; the rest are texts and floats.
  exact decode?_eq_some_iff.2 ⟨_, _, _, _, rfl, Run.restores.list.required_field hruns,
    restores_text.list.required_field hlabels, restores_float.list.required_field hvalues,
    restores_text.list.list.required_field hids⟩

theorem decode?_encode {c : BarChart} (h : ∀ run ∈ c.runs, (Json.obj run.params).Normal) :
    decode? (.obj c.encodeFields) = some c :=
  decode?_eq_some_iff.2 ⟨_, _, _, _, rfl,
    list?_ofList fun run hrun => Run.decode?_encode (h run hrun), list?_ofList fun _ _ => rfl,
    list?_ofList fun _ _ => rfl, list?_ofList fun _ _ => list?_ofList fun _ _ => rfl⟩

end BarChart

namespace LineChart

theorem decode?_eq_some_iff {j : Json} {c : LineChart} :
    decode? j = some c ↔
      ∃ runs series annotations,
        j.record? ["runs", "series", "annotations"] = some [runs, series, annotations] ∧
        required (list? Run.decode?) runs = some c.runs ∧
        required (list? Series.decode?) series = some c.series ∧
        optional [] (list? Annotation.decode?) annotations = some c.annotations := by
  unfold decode?
  constructor
  · intro h
    split at h
    · next hfields =>
      -- Only the annotations may be missing.
      simp only [bind, pure, Option.bind_eq_some_iff] at h
      obtain ⟨_, hruns, _, hseries, _, hannotations, heq⟩ := h
      cases heq
      exact ⟨_, _, _, hfields, hruns, hseries, hannotations⟩
    · cases h
  · rintro ⟨_, _, _, hfields, hruns, hseries, hannotations⟩
    rw [hfields]
    simp only [bind, pure, hruns, hseries, hannotations, Option.bind_some]

theorem restores : Restores decode? encode := by
  intro j c h
  obtain ⟨_, _, _, -, hruns, hseries, hannotations⟩ := decode?_eq_some_iff.1 h
  exact decode?_eq_some_iff.2 ⟨_, _, _, rfl, Run.restores.list.required_field hruns,
    Series.restores.list.required_field hseries, Annotation.restores.optional_list hannotations⟩

/-- The parameters of the runs of a chart are normal, and its integers have the sizes with which
they are read. -/
structure Regular (c : LineChart) : Prop where
  /-- The parameters of the runs. -/
  runs : ∀ run ∈ c.runs, (Json.obj run.params).Normal
  /-- The offsets of the points. -/
  points : ∀ s ∈ c.series, ∀ p ∈ s.points, Text.fitsSigned64 p.offset = true
  /-- The offsets and places of the annotations. -/
  annotations : ∀ a ∈ c.annotations, a.Regular

theorem decode?_encode {c : LineChart} (h : c.Regular) : decode? c.encode = some c :=
  decode?_eq_some_iff.2 ⟨_, _, _, rfl,
    list?_ofList fun run hrun => Run.decode?_encode (h.runs run hrun),
    list?_ofList fun s hs => Series.decode?_encode (h.points s hs),
    list?_ofList fun a ha => Annotation.decode?_encode (h.annotations a ha)⟩

end LineChart

namespace Chart

theorem decode?_eq_some_iff {j : Json} {c : Chart} :
    decode? j = some c ↔
      ∃ kind rest, j.tagged? "mode" = some (kind, rest) ∧
        (kind = "bar" ∧ (∃ bars, BarChart.decode? rest = some bars ∧ c = .bar bars) ∨
          kind = "line" ∧ ∃ lines, LineChart.decode? rest = some lines ∧ c = .line lines) := by
  simp only [decode?, bind, Option.bind_eq_some_iff]
  constructor
  · rintro ⟨⟨kind, rest⟩, htag, h⟩
    refine ⟨kind, rest, htag, ?_⟩
    -- The tag says which kind of chart the other fields make up.
    split at h
    · next heq =>
      cases heq
      obtain ⟨bars, hbars, rfl⟩ := Option.map_eq_some_iff.1 h
      exact .inl ⟨rfl, bars, hbars, rfl⟩
    · next heq =>
      cases heq
      obtain ⟨lines, hlines, rfl⟩ := Option.map_eq_some_iff.1 h
      exact .inr ⟨rfl, lines, hlines, rfl⟩
    -- No other tag is known.
    · cases h
  · rintro ⟨_, rest, htag, ⟨rfl, bars, hbars, rfl⟩ | ⟨rfl, lines, hlines, rfl⟩⟩
    · exact ⟨_, htag, Option.map_eq_some_iff.2 ⟨bars, hbars, rfl⟩⟩
    · exact ⟨_, htag, Option.map_eq_some_iff.2 ⟨lines, hlines, rfl⟩⟩

/-- The tag is no field of either kind of chart, so the rest is what is written for the kind. -/
theorem restores : Restores decode? encode := by
  intro j c h
  obtain ⟨_, rest, -, ⟨-, bars, hbars, rfl⟩ | ⟨-, lines, hlines, rfl⟩⟩ := decode?_eq_some_iff.1 h
  -- The tag that is written first is the only one.
  · exact decode?_eq_some_iff.2
      ⟨_, _, rfl, .inl ⟨rfl, bars, BarChart.restores rest bars hbars, rfl⟩⟩
  · exact decode?_eq_some_iff.2
      ⟨_, _, rfl, .inr ⟨rfl, lines, LineChart.restores rest lines hlines, rfl⟩⟩

/-- A chart that can be read back. -/
def Regular : Chart → Prop
  | .bar c => ∀ run ∈ c.runs, (Json.obj run.params).Normal
  | .line c => c.Regular

/-- **A chart is read back** from its JSON form. -/
theorem decode?_encode {c : Chart} (h : c.Regular) : decode? c.encode = some c := by
  cases c with
  | bar c =>
    exact decode?_eq_some_iff.2 ⟨_, _, rfl, .inl ⟨rfl, c, BarChart.decode?_encode h, rfl⟩⟩
  | line c =>
    exact decode?_eq_some_iff.2 ⟨_, _, rfl, .inr ⟨rfl, c, LineChart.decode?_encode h, rfl⟩⟩

end Chart

namespace SdkInfo

/-- An SDK is read back. -/
theorem decode?_encode (s : SdkInfo) : decode? s.encode = some s := by
  have hversions : list? text? (ofList .str s.versions) = some s.versions :=
    list?_ofList fun _ _ => rfl
  change (do
    let language ← some s.language
    let versions ← list? text? (ofList .str s.versions)
    return (⟨language, versions⟩ : SdkInfo)) = some s
  rw [hversions]
  rfl

end SdkInfo

/-! ### Everything that is exchanged -/

/-- **Reading undoes writing on everything that is read.** For requests and their parts, filters,
runs and all that is recorded for them, and charts: whatever a JSON value is read as, the JSON that
is written for it is read as the same. -/
theorem restores_all :
    Restores ChartRequest.decode? ChartRequest.encode ∧
      Restores RunChartRequest.decode? RunChartRequest.encode ∧
      Restores VerticalAxis.decode? VerticalAxis.encode ∧
      Restores AnnotationRequest.decode? AnnotationRequest.encode ∧
      Restores map? .obj ∧
      Restores Run.decode? Run.encode ∧
      Restores RunRecord.decode? RunRecord.encode ∧
      Restores Bucket.decode? Bucket.encode ∧
      Restores MetricSample.decode? MetricSample.encode ∧
      Restores RunEvent.decode? RunEvent.encode ∧
      Restores Chart.decode? Chart.encode :=
  ⟨ChartRequest.restores, RunChartRequest.restores, VerticalAxis.restores,
    AnnotationRequest.restores, restores_map, Run.restores, RunRecord.restores, Bucket.restores,
    MetricSample.restores, RunEvent.restores, Chart.restores⟩

/-- A bucket whose time is given with an offset, which leaves out all it can and has a duration that
is written as an integer. -/
theorem restores_all_leanBucket :
    let given : Json := .obj [("durationMinUs", .num (.int 7)), ("timeOffsetSecs", .num (.int 3)),
      ("datetime", .str "2024-03-01 13:00:00+0100")]
    let bucket : Bucket :=
      { offset := 3
        datetime := ⟨⟨2024, 3, 1, by decide⟩, 43200, 0, by decide⟩
        operationsTotal := 0
        operationsSuccess := 0
        operationsFailed := 0
        durationMin := some (Float.ofInt 7)
        durationMax := none
        durationAverage := none
        durationP50 := none
        durationP95 := none
        durationP99 := none
        errors := [] }
    Bucket.decode? given = some bucket ∧ Bucket.decode? bucket.encode = some bucket := by
  intro given bucket
  have htime : Instant.read? "2024-03-01 13:00:00+0100" = some bucket.datetime := by
    decide +kernel
  have hread : Bucket.decode? given = some bucket :=
    Bucket.decode?_eq_some_iff.2 ⟨_, _, _, _, _, _, _, _, _, _, _, _, rfl, rfl, htime,
      rfl, rfl, rfl, rfl, rfl, rfl, rfl, rfl, rfl, rfl⟩
  exact ⟨hread, restores_all.2.2.2.2.2.2.2.1 _ _ hread⟩

end BenchCharts

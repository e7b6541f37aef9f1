import BenchCharts.Proofs.Json.Codec
import BenchCharts.Proofs.Json.Depth
import BenchCharts.Run.Codec

/-!
# Runs and records that are read from JSON

For each kind of record `decode?_eq_some_iff` says which fields it is read from and how. Two facts
follow from it.

Parameters, errors, metrics and details are objects of any form, and a record is `Normal` if all of
them are. Every record that is read from JSON is (`RunRecord.normal_of_decode?`), so this is what
may be taken for granted of a record that is inserted into a store.

And whatever is read is read again from what is written for it (`RunRecord.restores`): a default
that was filled in is read back as a value, and empty errors and details, which are not written, are
the default of the missing field.
-/

namespace BenchCharts

open Json

/-- All objects of a record are normal. -/
structure RunRecord.Normal (r : RunRecord) : Prop where
  /-- The parameters of the run. -/
  params : (Json.obj r.run.params).Normal
  /-- The errors of each bucket. -/
  errors : ∀ bucket ∈ r.buckets, (Json.obj bucket.errors).Normal
  /-- The metrics of each sample. -/
  metrics : ∀ sample ∈ r.metrics, (Json.obj sample.metrics).Normal
  /-- The details of each event. -/
  details : ∀ event ∈ r.events, (Json.obj event.params).Normal

/-- All offsets of a record have 64 bits. -/
structure RunRecord.OffsetsFit (r : RunRecord) : Prop where
  /-- Those of the buckets. -/
  buckets : ∀ bucket ∈ r.buckets, Text.fitsSigned64 bucket.offset = true
  /-- Those of the samples. -/
  metrics : ∀ sample ∈ r.metrics, Text.fitsSigned64 sample.offset = true

/-! ### Runs -/

namespace Run

theorem decode?_eq_some_iff {j : Json} {run : Run} :
    decode? j = some run ↔
      ∃ id datetime params, j.record? ["id", "datetime", "params"] = some [id, datetime, params] ∧
        required text? id = some run.id ∧ required instant? datetime = some run.datetime ∧
        required map? params = some run.params := by
  unfold decode?
  constructor
  · intro h
    split at h
    · next hfields =>
      -- The fields are there, and the run is made of what is read from each.
      simp only [bind, pure, Option.bind_eq_some_iff] at h
      obtain ⟨_, hid, _, hdatetime, _, hparams, heq⟩ := h
      cases heq
      exact ⟨_, _, _, hfields, hid, hdatetime, hparams⟩
    · cases h
  · rintro ⟨_, _, _, hfields, hid, hdatetime, hparams⟩
    -- Where every field can be read, so can the run.
    rw [hfields]
    simp only [bind, pure, hid, hdatetime, hparams, Option.bind_some]

theorem normal_of_decode? {j : Json} {run : Run} (h : decode? j = some run) :
    (Json.obj run.params).Normal := by
  obtain ⟨_, _, _, -, -, -, hparams⟩ := decode?_eq_some_iff.1 h
  exact normal_of_required_map? hparams

theorem restores : Restores decode? encode := by
  intro j run h
  obtain ⟨_, _, _, -, hid, hdatetime, hparams⟩ := decode?_eq_some_iff.1 h
  exact decode?_eq_some_iff.2 ⟨_, _, _, rfl, restores_text.required_field hid,
    restores_instant.required_field hdatetime, restores_map.required_field hparams⟩

/-- A run with normal parameters is read back. -/
theorem decode?_encode {run : Run} (h : (Json.obj run.params).Normal) :
    decode? run.encode = some run :=
  decode?_eq_some_iff.2 ⟨_, _, _, rfl, rfl, Instant.read?_spell _, map?_of_normal h⟩

end Run

/-! ### Buckets, samples and events -/

namespace Bucket

theorem decode?_eq_some_iff {j : Json} {b : Bucket} :
    decode? j = some b ↔
      ∃ offset datetime total success failed least greatest average p50 p95 p99 errors,
        j.record? fieldNames =
          some [offset, datetime, total, success, failed, least, greatest, average, p50, p95, p99,
            errors] ∧
        required int64? offset = some b.offset ∧ required instant? datetime = some b.datetime ∧
        optional 0 int64? total = some b.operationsTotal ∧
        optional 0 int64? success = some b.operationsSuccess ∧
        optional 0 int64? failed = some b.operationsFailed ∧
        optional none (nullable? float?) least = some b.durationMin ∧
        optional none (nullable? float?) greatest = some b.durationMax ∧
        optional none (nullable? float?) average = some b.durationAverage ∧
        optional none (nullable? float?) p50 = some b.durationP50 ∧
        optional none (nullable? float?) p95 = some b.durationP95 ∧
        optional none (nullable? float?) p99 = some b.durationP99 ∧
        optional [] map? errors = some b.errors := by
  unfold decode?
  constructor
  · intro h
    split at h
    · next hfields =>
      -- Twelve fields are read in the order in which they are declared; the first two have to be
      -- there.
      simp only [bind, pure, Option.bind_eq_some_iff] at h
      obtain ⟨_, hoffset, _, hdatetime, _, htotal, _, hsuccess, _, hfailed, _, hleast, _, hgreatest,
        _, haverage, _, hp50, _, hp95, _, hp99, _, herrors, heq⟩ := h
      cases heq
      exact ⟨_, _, _, _, _, _, _, _, _, _, _, _, hfields, hoffset, hdatetime, htotal, hsuccess,
        hfailed, hleast, hgreatest, haverage, hp50, hp95, hp99, herrors⟩
    · cases h
  · rintro ⟨_, _, _, _, _, _, _, _, _, _, _, _, hfields, hoffset, hdatetime, htotal, hsuccess,
      hfailed, hleast, hgreatest, haverage, hp50, hp95, hp99, herrors⟩
    -- The other way round, no field stands in the way of the next one.
    rw [hfields]
    simp only [bind, pure, hoffset, hdatetime, htotal, hsuccess, hfailed, hleast, hgreatest,
      haverage, hp50, hp95, hp99, herrors, Option.bind_some]

theorem normal_of_decode? {j : Json} {bucket : Bucket} (h : decode? j = some bucket) :
    (Json.obj bucket.errors).Normal := by
  obtain ⟨_, _, _, _, _, _, _, _, _, _, _, _, -, -, -, -, -, -, -, -, -, -, -, -, herrors⟩ :=
    decode?_eq_some_iff.1 h
  exact normal_of_optional_map? herrors

theorem record?_encode (b : Bucket) :
    b.encode.record? fieldNames =
      some [some (ofInt b.offset), some (ofInstant b.datetime), some (ofInt b.operationsTotal),
        some (ofInt b.operationsSuccess), some (ofInt b.operationsFailed),
        some (ofOption ofFloat b.durationMin), some (ofOption ofFloat b.durationMax),
        some (ofOption ofFloat b.durationAverage), some (ofOption ofFloat b.durationP50),
        some (ofOption ofFloat b.durationP95), some (ofOption ofFloat b.durationP99),
        if b.errors.isEmpty then none else some (.obj b.errors)] := by
  unfold encode
  -- With or without errors, the other fields stand in front.
  split <;> rfl

theorem restores : Restores decode? encode := by
  intro j b h
  have hduration : Restores (nullable? float?) (ofOption ofFloat) :=
    restores_float.nullable fun _ => Json.noConfusion
  -- What was read for each field, and then the same from the field that is written for it.
  obtain ⟨_, _, _, _, _, _, _, _, _, _, _, _, -, hoffset, hdatetime, htotal, hsuccess, hfailed,
    hleast, hgreatest, haverage, hp50, hp95, hp99, herrors⟩ := decode?_eq_some_iff.1 h
  exact decode?_eq_some_iff.2 ⟨_, _, _, _, _, _, _, _, _, _, _, _, record?_encode b,
    restores_int64.required_field hoffset, restores_instant.required_field hdatetime,
    restores_int64.optional_field rfl htotal, restores_int64.optional_field rfl hsuccess,
    restores_int64.optional_field rfl hfailed, hduration.optional_field rfl hleast,
    hduration.optional_field rfl hgreatest, hduration.optional_field rfl haverage,
    hduration.optional_field rfl hp50, hduration.optional_field rfl hp95,
    hduration.optional_field rfl hp99, optional_map?_of_isEmpty herrors⟩

end Bucket

namespace MetricSample

theorem decode?_eq_some_iff {j : Json} {s : MetricSample} :
    decode? j = some s ↔
      ∃ offset initiated metrics,
        j.record? ["timeOffsetSecs", "initiated", "metrics"] = some [offset, initiated, metrics] ∧
        required int64? offset = some s.offset ∧ required instant? initiated = some s.initiated ∧
        required map? metrics = some s.metrics := by
  unfold decode?
  constructor
  · intro h
    split at h
    · next hfields =>
      simp only [bind, pure, Option.bind_eq_some_iff] at h
      obtain ⟨_, hoffset, _, hinitiated, _, hmetrics, heq⟩ := h
      cases heq
      exact ⟨_, _, _, hfields, hoffset, hinitiated, hmetrics⟩
    · cases h
  · rintro ⟨_, _, _, hfields, hoffset, hinitiated, hmetrics⟩
    rw [hfields]
    simp only [bind, pure, hoffset, hinitiated, hmetrics, Option.bind_some]

theorem normal_of_decode? {j : Json} {sample : MetricSample} (h : decode? j = some sample) :
    (Json.obj sample.metrics).Normal := by
  obtain ⟨_, _, _, -, -, -, hmetrics⟩ := decode?_eq_some_iff.1 h
  exact normal_of_required_map? hmetrics

theorem restores : Restores decode? encode := by
  intro j s h
  obtain ⟨_, _, _, -, hoffset, hinitiated, hmetrics⟩ := decode?_eq_some_iff.1 h
  exact decode?_eq_some_iff.2 ⟨_, _, _, rfl, restores_int64.required_field hoffset,
    restores_instant.required_field hinitiated, restores_map.required_field hmetrics⟩

end MetricSample

namespace RunEvent

theorem decode?_eq_some_iff {j : Json} {e : RunEvent} :
    decode? j = some e ↔
      ∃ datetime eventType description params,
        j.record? ["datetime", "eventType", "description", "params"] =
          some [datetime, eventType, description, params] ∧
        required instant? datetime = some e.datetime ∧ required text? eventType = some e.eventType ∧
        optional none (nullable? text?) description = some e.description ∧
        optional [] map? params = some e.params := by
  unfold decode?
  constructor
  · intro h
    split at h
    · next hfields =>
      simp only [bind, pure, Option.bind_eq_some_iff] at h
      obtain ⟨_, hdatetime, _, heventType, _, hdescription, _, hparams, heq⟩ := h
      cases heq
      exact ⟨_, _, _, _, hfields, hdatetime, heventType, hdescription, hparams⟩
    · cases h
  · rintro ⟨_, _, _, _, hfields, hdatetime, heventType, hdescription, hparams⟩
    rw [hfields]
    simp only [bind, pure, hdatetime, heventType, hdescription, hparams, Option.bind_some]

theorem normal_of_decode? {j : Json} {event : RunEvent} (h : decode? j = some event) :
    (Json.obj event.params).Normal := by
  obtain ⟨_, _, _, _, -, -, -, -, hparams⟩ := decode?_eq_some_iff.1 h
  exact normal_of_optional_map? hparams

theorem record?_encode (e : RunEvent) :
    e.encode.record? ["datetime", "eventType", "description", "params"] =
      some [some (ofInstant e.datetime), some (.str e.eventType),
        some (ofOption .str e.description),
        if e.params.isEmpty then none else some (.obj e.params)] := by
  unfold encode
  split <;> rfl

theorem restores : Restores decode? encode := by
  intro j e h
  have hwords : Restores (nullable? text?) (ofOption .str) :=
    restores_text.nullable fun _ => Json.noConfusion
  -- A description that is `null` is written as `null`.
  obtain ⟨_, _, _, _, -, hdatetime, heventType, hdescription, hparams⟩ := decode?_eq_some_iff.1 h
  exact decode?_eq_some_iff.2 ⟨_, _, _, _, record?_encode e,
    restores_instant.required_field hdatetime, restores_text.required_field heventType,
    hwords.optional_field rfl hdescription, optional_map?_of_isEmpty hparams⟩

end RunEvent

/-! ### Records -/

namespace RunRecord

theorem decode?_eq_some_iff {j : Json} {r : RunRecord} :
    decode? j = some r ↔
      j.isObject = true ∧ Run.decode? j = some r.run ∧
        ∃ buckets metrics events,
          j.record? ["buckets", "metrics", "events"] = some [buckets, metrics, events] ∧
          optional [] (list? Bucket.decode?) buckets = some r.buckets ∧
          optional [] (list? MetricSample.decode?) metrics = some r.metrics ∧
          optional [] (list? RunEvent.decode?) events = some r.events := by
  unfold decode?
  constructor
  · intro h
    -- An array is refused before anything is read from it.
    split at h
    · next hobject =>
      split at h
      · next hfields =>
        -- The run is read from the whole object, the lists from fields of their own.
        simp only [bind, pure, Option.bind_eq_some_iff] at h
        obtain ⟨_, hrun, _, hbuckets, _, hmetrics, _, hevents, heq⟩ := h
        cases heq
        exact ⟨hobject, hrun, _, _, _, hfields, hbuckets, hmetrics, hevents⟩
      · cases h
    · cases h
  · rintro ⟨hobject, hrun, _, _, _, hfields, hbuckets, hmetrics, hevents⟩
    rw [if_pos hobject, hfields]
    simp only [bind, pure, hrun, hbuckets, hmetrics, hevents, Option.bind_some]

/-- **Records that are read from JSON are normal.** -/
theorem normal_of_decode? {j : Json} {r : RunRecord} (h : decode? j = some r) : r.Normal := by
  obtain ⟨-, hrun, _, _, _, -, hbuckets, hmetrics, hevents⟩ := decode?_eq_some_iff.1 h
  -- Each list is normal because each of its items was read as a normal one.
  refine ⟨Run.normal_of_decode? hrun, ?_, ?_, ?_⟩
  · exact forall_of_optional_list? (fun j bucket => Bucket.normal_of_decode?) hbuckets
  · exact forall_of_optional_list? (fun j sample => MetricSample.normal_of_decode?) hmetrics
  · exact forall_of_optional_list? (fun j event => RunEvent.normal_of_decode?) hevents

/-- **The parameters of a record are less deep than what it is read from.** -/
theorem depth_params_le {j : Json} {r : RunRecord} (h : decode? j = some r) :
    (Json.obj r.run.params).depth ≤ j.depth := by
  obtain ⟨-, hrun, -⟩ := decode?_eq_some_iff.1 h
  obtain ⟨_, _, params, hfields, -, -, hparams⟩ := Run.decode?_eq_some_iff.1 hrun
  -- The parameters are a field of the object, which is deeper by one.
  cases params with
  | none => cases hparams
  | some value =>
    have hlt := depth_lt_of_record? hfields (by simp : some value ∈ _)
    exact Nat.le_trans (depth_le_of_map? hparams) (Nat.le_of_lt hlt)

/-- **The offsets of a record that is read have 64 bits.** -/
theorem offsetsFit_of_decode? {j : Json} {r : RunRecord} (h : decode? j = some r) :
    r.OffsetsFit := by
  obtain ⟨-, -, _, _, _, -, hbuckets, hmetrics, -⟩ := decode?_eq_some_iff.1 h
  refine ⟨?_, ?_⟩
  · refine forall_of_optional_list? (fun j bucket hbucket => ?_) hbuckets
    obtain ⟨_, _, _, _, _, _, _, _, _, _, _, _, -, hoffset, -⟩ :=
      Bucket.decode?_eq_some_iff.1 hbucket
    exact fits_of_required_int64? hoffset
  · refine forall_of_optional_list? (fun j sample hsample => ?_) hmetrics
    obtain ⟨_, _, _, -, hoffset, -⟩ := MetricSample.decode?_eq_some_iff.1 hsample
    exact fits_of_required_int64? hoffset

/-- The fields of the run stand beside those of the record, where both find their own. -/
theorem restores : Restores decode? encode := by
  intro j r h
  obtain ⟨-, hrun, _, _, _, -, hbuckets, hmetrics, hevents⟩ := decode?_eq_some_iff.1 h
  -- The lists are fields that a run does not have, so the run finds the same fields as before.
  have hrunBack : Run.decode? r.encode = some r.run := Run.restores j r.run hrun
  exact decode?_eq_some_iff.2 ⟨rfl, hrunBack, _, _, _, rfl, Bucket.restores.optional_list hbuckets,
    MetricSample.restores.optional_list hmetrics, RunEvent.restores.optional_list hevents⟩

end RunRecord

end BenchCharts

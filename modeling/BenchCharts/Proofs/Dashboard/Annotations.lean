import BenchCharts.Proofs.Chart.Lines
import BenchCharts.Proofs.Dashboard
import BenchCharts.Proofs.Store.Series
import BenchCharts.Proofs.Text.Numeral

/-!
# The annotations of a line chart

The annotations of a line chart are one flat list, run by run as the runs stand in the chart. What a
run has in it is told by its stored events alone (`Tables.Annotates`): those that some request is
for are put in the order of their times, with those of one time as they were inserted, and are
numbered after that. So the numbers of a run have no gaps, whatever is left out.

Requests are taken together before the store is asked, as one list of types, which is empty if all
types are asked for. What the list lets through is what some request is for
(`requestedEventTypes_lets_iff`).

The id of an annotation is made of the id of the run and of the number. Any text can be the id of a
run, also one that looks like the id of an annotation; but the number is written in digits and comes
last, after something that is no digit, so both can be read back (`annotationId_inj`), and no two
annotations of a chart share an id.
-/

namespace BenchCharts

/-! ### The types that are asked for -/

/-- A request is for events of a type. One that names no type is for all of them. -/
def AnnotationRequest.Matches (eventType : String) : AnnotationRequest → Prop
  | .runEvents types => types = [] ∨ eventType ∈ types

instance (eventType : String) : DecidablePred (AnnotationRequest.Matches eventType) :=
  fun | .runEvents types => inferInstanceAs (Decidable (types = [] ∨ eventType ∈ types))

section Requests

variable {requests : List AnnotationRequest}

theorem requestedEventTypes_eq_none_iff : requestedEventTypes requests = none ↔ requests = [] := by
  rw [requestedEventTypes]
  split
  · next h => exact iff_of_true rfl (List.isEmpty_iff.1 h)
  · next h =>
    refine iff_of_false ?_ fun hnil => h (List.isEmpty_iff.2 hnil)
    split <;> exact Option.some_ne_none _

/-- **The list of types lets a type through if some request is for it.** -/
theorem requestedEventTypes_lets_iff {types : List String}
    (h : requestedEventTypes requests = some types) (eventType : String) :
    (types.isEmpty || types.contains eventType) = true ↔
      ∃ request ∈ requests, request.Matches eventType := by
  rw [requestedEventTypes] at h
  split at h
  · cases h
  · next hne =>
    split at h
    -- One request for all events lets every type through.
    · next hall =>
      obtain rfl := Option.some.inj h
      obtain ⟨⟨none⟩, hrequest, hempty⟩ := List.any_eq_true.1 hall
      exact iff_of_true rfl ⟨_, hrequest, .inl (List.isEmpty_iff.1 hempty)⟩
    -- Every request names a type, so the list is not empty.
    · next hnamed =>
      obtain rfl := Option.some.inj h
      have hnamed : ∀ types, .runEvents types ∈ requests → types ≠ [] := by
        rintro types hrequest rfl
        exact hnamed (List.any_eq_true.2 ⟨_, hrequest, rfl⟩)
      have hfilled : (distinct (requests.flatMap fun | .runEvents types => types)).isEmpty =
          false := by
        obtain ⟨⟨types⟩, hrequest⟩ := List.exists_mem_of_ne_nil _ (mt List.isEmpty_iff.2 hne)
        obtain ⟨first, hfirst⟩ := List.exists_mem_of_ne_nil _ (hnamed types hrequest)
        refine List.isEmpty_eq_false_iff_exists_mem.2 ⟨first, mem_distinct.2 ?_⟩
        exact List.mem_flatMap.2 ⟨_, hrequest, hfirst⟩
      rw [hfilled, Bool.false_or, List.contains_iff_mem, mem_distinct, List.mem_flatMap]
      refine exists_congr fun ⟨types⟩ => and_congr_right fun hrequest => ?_
      exact (or_iff_right (hnamed types hrequest)).symm

end Requests

/-! ### Whole seconds -/

namespace Instant

/-- The nanoseconds up to an instant, with no leap second counted before it. -/
def nanoseconds (t : Instant) : Int :=
  (t.date.number * secondsPerDay + t.second) * nanosPerSecond + t.nano

/-- Rounding down makes a negative span with a fraction one too long. -/
theorem tdiv_nanosPerSecond (seconds nanos : Int) :
    Int.tdiv (seconds * nanosPerSecond + nanos) nanosPerSecond =
      if seconds + nanos / nanosPerSecond < 0 ∧ nanos % nanosPerSecond > 0 then
        seconds + nanos / nanosPerSecond + 1
      else seconds + nanos / nanosPerSecond := by
  have hsign : (nanosPerSecond : Int).sign = 1 := rfl
  rw [Int.tdiv_eq_ediv, hsign, nanosPerSecond]
  split <;> split <;> omega

/-- Between instants outside of leap seconds, whole seconds are what is left of the time between
them when the fraction is dropped. -/
theorem secondsSince_eq_tdiv {later earlier : Instant} (hlater : later.nano < nanosPerSecond)
    (hearlier : earlier.nano < nanosPerSecond) :
    later.secondsSince earlier =
      Int.tdiv (later.nanoseconds - earlier.nanoseconds) nanosPerSecond := by
  -- No leap second is passed, so none is counted.
  have hleap : ¬ (later.second > earlier.second ∧ earlier.nano ≥ nanosPerSecond) := by omega
  have hleap' : ¬ (later.second < earlier.second ∧ later.nano ≥ nanosPerSecond) := by omega
  have hspan : later.nanoseconds - earlier.nanoseconds =
      ((later.date.number - earlier.date.number) * secondsPerDay +
        ((later.second : Int) - earlier.second)) * nanosPerSecond +
          ((later.nano : Int) - earlier.nano) := by
    rw [nanoseconds, nanoseconds]
    ring
  rw [hspan, tdiv_nanosPerSecond]
  simp only [secondsSince, if_neg hleap, if_neg hleap', add_zero]

end Instant

/-! ### The ids -/

/-- The id of the annotation of a run with a number. -/
def annotationId (runId : String) (number : Nat) : String :=
  runId ++ "-event-" ++ toString number

/-- **The run and the number can be read back from an id.** -/
theorem annotationId_inj {runId runId' : String} {number number' : Nat} :
    annotationId runId number = annotationId runId' number' ↔
      runId = runId' ∧ number = number' := by
  refine ⟨fun h => ?_, fun ⟨hrun, hnumber⟩ => by rw [hrun, hnumber]⟩
  have hlist : ∀ runId number, (annotationId runId number).toList =
      (runId ++ "-event-").toList ++ Nat.toDigits 10 number := by
    intro runId number
    rw [annotationId, String.toList_append, Nat.toString_eq_repr, Nat.repr_eq_ofList_toDigits,
      String.toList_ofList]
  -- The digits at the end of an id are those of the number: a hyphen stands in front of them.
  have hfront : ∀ (runId : String) c, (runId ++ "-event-").toList.getLast? = some c →
      Text.isDigit c = false := by
    intro runId c hc
    obtain rfl : '-' = c := by simpa using hc
    rfl
  have hlists := (hlist runId number).symm.trans ((congrArg String.toList h).trans (hlist ..))
  obtain ⟨hfronts, hdigits⟩ := (Text.append_digits_inj (hfront runId) (hfront runId')
    (fun c => Text.isDigit_of_mem_toDigits) fun c => Text.isDigit_of_mem_toDigits).1 hlists
  refine ⟨?_, ?_⟩
  · rw [String.toList_append, String.toList_append] at hfronts
    exact String.toList_inj.1 (List.append_cancel_right hfronts)
  · have hvalues := congrArg (fun digits => Nat.ofDigitChars 10 digits 0) hdigits
    simpa only [Nat.ofDigitChars_ten_toDigits] using hvalues

/-! ### The annotations of a run -/

/-- An annotation stands for an event of a run, as the one with a number. -/
structure Annotation.Marks (a : Annotation) (e : RunEvent) (runId : String) (anchor : Instant)
    (number : Nat) : Prop where
  /-- The id of the annotation tells the run and the number. -/
  id : a.id = annotationId runId number
  /-- The id of the run. -/
  runId : a.runId = runId
  /-- The time of the event. -/
  wallClockTime : a.wallClockTime = e.datetime
  /-- The whole seconds from the anchor to it. -/
  offset : a.offset = e.datetime.secondsSince anchor
  /-- They are the time between the two with the fraction dropped, if neither is in a leap
  second. -/
  wholeSeconds : e.datetime.nano < nanosPerSecond → anchor.nano < nanosPerSecond →
    a.offset = Int.tdiv (e.datetime.nanoseconds - anchor.nanoseconds) nanosPerSecond
  /-- What happened, or the type of the event if nothing is said about it. -/
  label : a.label = e.description.getD e.eventType
  /-- The type of the event. -/
  eventType : a.eventType = e.eventType
  /-- Four levels in turn. -/
  yOffset : a.yOffset = 20 * (number % 4 : Nat)

namespace Tables

/-- The time from which the annotations of a run are counted. -/
inductive Anchors (t : Tables) (run : Run) : Instant → Prop
  /-- The least time of a bucket of the run, in the warm-up or after it. -/
  | bucket {b : Bucket} (hb : b ∈ ownedBy t.buckets run.id)
      (hleast : ∀ other ∈ ownedBy t.buckets run.id,
        (b.datetime.compareStored other.datetime).isLE = true) : Anchors t run b.datetime
  /-- The time of the run, if it has no buckets. -/
  | noBuckets (h : ownedBy t.buckets run.id = []) : Anchors t run run.datetime

/-- The events of a run that some request is for, each with its place among the events that were
inserted with the run. -/
def requestedEvents (t : Tables) (requests : List AnnotationRequest) (runId : String) :
    List (RunEvent × Nat) :=
  (ownedBy t.events runId).zipIdx.filter fun row =>
    ∃ request ∈ requests, request.Matches row.1.eventType

/-- An event comes before another one by its stored time, and by its place if the times are the
same. -/
def RowPrecedes (x y : RunEvent × Nat) : Prop :=
  x.1.datetime.compareStored y.1.datetime = .lt ∨
    x.1.datetime.compareStored y.1.datetime = .eq ∧ x.2 < y.2

/-- Annotations are those of a run: they stand for the rows of its requested events, and have the
numbers of the rows when these are in order. -/
structure Annotates (t : Tables) (requests : List AnnotationRequest) (run : Run)
    (annotations : List Annotation) (anchor : Instant) (rows : List (RunEvent × Nat)) : Prop where
  /-- The time from which the annotations are counted. -/
  counted : t.Anchors run anchor
  /-- The rows are those of the requested events, each of them once. -/
  perm : rows.Perm (t.requestedEvents requests run.id)
  /-- The rows are in order. -/
  ordered : rows.Pairwise RowPrecedes
  /-- There is an annotation for each row. -/
  length : annotations.length = rows.length
  /-- The annotation has the number of its row. -/
  marks : ∀ (number : Nat) (a : Annotation) (row : RunEvent × Nat),
    annotations[number]? = some a → rows[number]? = some row →
      a.Marks row.1 run.id anchor number

/-- Without requests there is nothing to stand for. -/
theorem Annotates.eq_nil {t : Tables} {run : Run} {annotations : List Annotation}
    {anchor : Instant} {rows : List (RunEvent × Nat)}
    (h : t.Annotates [] run annotations anchor rows) : annotations = [] := by
  have hrows : rows = [] := by
    have hnone : t.requestedEvents [] run.id = [] := by simp [requestedEvents]
    exact (hnone ▸ h.perm).eq_nil
  exact List.eq_nil_of_length_eq_zero (h.length.trans (by rw [hrows, List.length_nil]))

/-- The annotations of a run have ids of their own, and each of them tells the run. -/
theorem Annotates.ids {t : Tables} {requests : List AnnotationRequest} {run : Run}
    {annotations : List Annotation} {anchor : Instant} {rows : List (RunEvent × Nat)}
    (h : t.Annotates requests run annotations anchor rows) :
    annotations.Pairwise (fun a b => a.id ≠ b.id) ∧
      ∀ a ∈ annotations, ∃ number, a.id = annotationId run.id number := by
  -- The marks say that the annotation in each place has the id with the number of the place.
  have hid : ∀ number (hlt : number < annotations.length),
      annotations[number].id = annotationId run.id number := by
    intro number hlt
    have hrow : number < rows.length := h.length ▸ hlt
    exact (h.marks number _ _ (List.getElem?_eq_getElem hlt) (List.getElem?_eq_getElem hrow)).id
  refine ⟨List.pairwise_iff_getElem.2 fun i j hi hj hlt heq => ?_, fun a ha => ?_⟩
  · rw [hid i hi, hid j hj] at heq
    exact Nat.ne_of_lt hlt (annotationId_inj.1 heq).2
  · obtain ⟨number, hlt, rfl⟩ := List.getElem_of_mem ha
    exact ⟨number, hid number hlt⟩

/-! ### What is drawn for a run -/

/-- The time from which annotations are counted, as it is looked up. -/
def anchor (t : Tables) (run : Run) : Instant :=
  (earliest? ((ownedBy t.buckets run.id).map Bucket.datetime)).getD run.datetime

theorem anchors_anchor (t : Tables) (run : Run) : t.Anchors run (t.anchor run) := by
  rw [anchor]
  cases hearliest : earliest? ((ownedBy t.buckets run.id).map Bucket.datetime) with
  | none =>
    -- Only of no times there is no earliest.
    refine .noBuckets ?_
    cases hbuckets : ownedBy t.buckets run.id with
    | nil => rfl
    | cons b rest =>
      rw [hbuckets] at hearliest
      cases hearliest
  | some time =>
    obtain ⟨hmem, hleast⟩ := earliest?_eq_some_iff.1 hearliest
    obtain ⟨b, hb, rfl⟩ := List.mem_map.1 hmem
    exact .bucket hb fun other hother => hleast _ (List.mem_map_of_mem hother)

/-- The requested events of a run in order. -/
def orderedEvents (t : Tables) (requests : List AnnotationRequest) (runId : String) :
    List (RunEvent × Nat) :=
  stableSort (fun x y => x.1.datetime.compareStored y.1.datetime)
    (t.requestedEvents requests runId)

section Ordered

variable (t : Tables) (requests : List AnnotationRequest) (runId : String)

theorem pairwise_orderedEvents : (t.orderedEvents requests runId).Pairwise RowPrecedes := by
  have : Std.TransCmp fun x y : RunEvent × Nat => x.1.datetime.compareStored y.1.datetime :=
    transCmp_key Instant.compareStored fun row : RunEvent × Nat => row.1.datetime
  have hplaces : ((ownedBy t.events runId).zipIdx.map Prod.snd).Pairwise (· < ·) := by
    rw [List.zipIdx_map_snd]
    exact List.pairwise_lt_range'
  have hrequested := (List.pairwise_map.1 hplaces).filter fun row =>
    ∃ request ∈ requests, request.Matches row.1.eventType
  -- Sorting makes the times ascend, and where they are the same the places still do.
  refine (pairwise_stableSort _).imp₂ (fun x y hle htie => ?_)
    (pairwise_of_eq_stableSort hrequested)
  cases hcmp : x.1.datetime.compareStored y.1.datetime with
  | lt => exact .inl hcmp
  | eq => exact .inr ⟨hcmp, htie hcmp⟩
  | gt => rw [hcmp] at hle; cases hle

/-- Leaving out events and putting them in order can be done the other way round. -/
theorem map_fst_orderedEvents :
    (t.orderedEvents requests runId).map Prod.fst =
      (stableSort (fun a b : RunEvent => a.datetime.compareStored b.datetime)
        (ownedBy t.events runId)).filter fun e =>
          ∃ request ∈ requests, request.Matches e.eventType := by
  have : Std.TransCmp fun a b : RunEvent => a.datetime.compareStored b.datetime :=
    transCmp_key Instant.compareStored RunEvent.datetime
  have hrequested : (t.requestedEvents requests runId).map Prod.fst =
      (ownedBy t.events runId).filter fun e =>
        ∃ request ∈ requests, request.Matches e.eventType := by
    have hevents : ownedBy t.events runId = (ownedBy t.events runId).zipIdx.map Prod.fst :=
      (List.zipIdx_map_fst 0 _).symm
    rw [requestedEvents]
    conv_rhs => rw [hevents, List.filter_map]
    rfl
  rw [orderedEvents, map_stableSort fun a b : RunEvent => a.datetime.compareStored b.datetime,
    hrequested, filter_stableSort]

end Ordered

/-- The annotations of a run, as they are drawn. -/
def annotationsOf (t : Tables) (requests : List AnnotationRequest) (run : Run) :
    List Annotation :=
  annotate run.id (t.anchor run) 0
    ((t.orderedEvents requests run.id).map fun row => row.1.loaded)

end Tables

theorem length_annotate (runId : String) (anchor : Instant) (index : Nat)
    (events : List RunEvent) : (annotate runId anchor index events).length = events.length := by
  induction events generalizing index with
  | nil => rfl
  | cons e rest ih => rw [annotate, List.length_cons, List.length_cons, ih]

/-- **Annotations are numbered from the given number on.** -/
theorem marks_of_annotate {runId : String} {anchor : Instant} {index : Nat}
    {rows : List (RunEvent × Nat)} {i : Nat} {a : Annotation} {row : RunEvent × Nat}
    (ha : (annotate runId anchor index (rows.map fun row => row.1.loaded))[i]? = some a)
    (hrow : rows[i]? = some row) : a.Marks row.1 runId anchor (index + i) := by
  -- The number goes up by one from row to row.
  induction rows generalizing index i with
  | nil => cases hrow
  | cons first rest ih =>
    cases i with
    | zero =>
      cases ha
      cases hrow
      refine ⟨rfl, rfl, rfl, rfl, fun hevent hanchor => ?_, rfl, rfl, ?_⟩
      · exact Instant.secondsSince_eq_tdiv hevent hanchor
      · simp only [annotationLevels, annotationStep, Nat.add_zero]
        omega
    | succ i =>
      have hnext : a.Marks row.1 runId anchor (index + 1 + i) := ih ha hrow
      rwa [Nat.add_right_comm, Nat.add_assoc] at hnext

/-- **What is drawn are the annotations of the run.** -/
theorem Tables.annotates_annotationsOf (t : Tables) (requests : List AnnotationRequest)
    (run : Run) :
    t.Annotates requests run (t.annotationsOf requests run) (t.anchor run)
      (t.orderedEvents requests run.id) where
  counted := t.anchors_anchor run
  perm := stableSort_perm _ _
  ordered := t.pairwise_orderedEvents requests run.id
  length := by rw [annotationsOf, length_annotate, List.length_map]
  marks number a row ha hrow := Nat.zero_add number ▸ marks_of_annotate ha hrow

section Store

variable {store : Store} {t : Tables} (ht : store.tables = some t)
  {requests : List AnnotationRequest}

include ht

/-- The events that the store finds are the requested ones in order. -/
theorem Store.eq_orderedEvents_of_runEvents {types : List String}
    (htypes : requestedEventTypes requests = some types) {runId : String} {found : List RunEvent}
    (hfound : store.runEvents runId types = .ok found) :
    found = (t.orderedEvents requests runId).map fun row => row.1.loaded := by
  -- The store is asked for types, and lets the same events through as the requests.
  have hlets : ∀ e : RunEvent, (types.isEmpty || types.contains e.eventType) =
      decide (∃ request ∈ requests, request.Matches e.eventType) := by
    intro e
    rw [Bool.eq_iff_iff, decide_eq_true_iff]
    exact requestedEventTypes_lets_iff htypes e.eventType
  rw [((Store.runEvents_eq_ok_iff ht).1 hfound).2]
  simp only [hlets]
  rw [← Tables.map_fst_orderedEvents, List.map_map]
  rfl

theorem StyledRun.eq_annotationsOf_of_marks {s : StyledRun} {annotations : List Annotation}
    (h : s.marks store requests = .ok annotations) :
    annotations = t.annotationsOf requests s.run := by
  rw [marks] at h
  -- Without requests the store is not asked at all.
  cases htypes : requestedEventTypes requests with
  | none =>
    obtain rfl := requestedEventTypes_eq_none_iff.1 htypes
    rw [htypes] at h
    rw [(t.annotates_annotationsOf [] s.run).eq_nil]
    exact (Except.ok.inj h).symm
  | some types =>
    rw [htypes] at h
    have hfirst : store.firstBucketTime s.run.id = .ok
        (earliest? ((Tables.ownedBy t.buckets s.run.id).map Bucket.datetime)) := by
      rw [Store.firstBucketTime, Store.query_of_tables ht]
    obtain ⟨found, hfound, hannotate⟩ := bind_eq_ok_iff.1 h
    obtain rfl := Store.eq_orderedEvents_of_runEvents ht htypes hfound
    rw [hfirst] at hannotate
    rw [Tables.annotationsOf]
    -- Without events the first bucket is not looked for.
    revert hannotate
    cases (t.orderedEvents requests s.run.id).map fun row => row.1.loaded <;>
      exact fun hannotate => (Except.ok.inj hannotate).symm

end Store

/-! ### The annotations of a chart -/

namespace LineChart

/-- The annotations of a chart are those of its runs, in the order of the runs. -/
def Annotated (line : LineChart) (t : Tables) (requests : List AnnotationRequest) : Prop :=
  ∃ block : Run → List Annotation, line.annotations = line.runs.flatMap block ∧
    ∀ run ∈ line.runs, ∃ anchor rows, t.Annotates requests run (block run) anchor rows

/-- **A chart that is drawn has the annotations of its runs.** -/
theorem annotated_of_build {store : Store} {t : Tables} (ht : store.tables = some t)
    {r : ChartRequest} {runs : List Run} {line : LineChart} (h : build store r runs = .ok line) :
    line.Annotated t r.annotations := by
  obtain ⟨-, styled, -, hruns, -, hmarks⟩ := build_eq_ok_iff.1 h
  obtain ⟨hall, hannotations⟩ := collect_eq_ok_iff.1 hmarks
  refine ⟨t.annotationsOf r.annotations, ?_, fun run _ =>
    ⟨_, _, t.annotates_annotationsOf r.annotations run⟩⟩
  -- The blocks of the runs are drawn one after the other.
  rw [hannotations, hruns, List.flatMap_map]
  exact List.flatMap_congr fun s hs => StyledRun.eq_annotationsOf_of_marks ht (hall s hs)

variable {line : LineChart} {t : Tables}

theorem Annotated.eq_nil (h : line.Annotated t []) : line.annotations = [] := by
  obtain ⟨block, hannotations, hruns⟩ := h
  rw [hannotations]
  refine List.flatMap_eq_nil_iff.2 fun run hrun => ?_
  obtain ⟨anchor, rows, hrun⟩ := hruns run hrun
  exact hrun.eq_nil

/-- **No two annotations of a chart share an id**, if no two of its runs do. -/
theorem Annotated.nodup_ids {requests : List AnnotationRequest} (h : line.Annotated t requests)
    (hids : (line.runs.map Run.id).Nodup) : (line.annotations.map Annotation.id).Nodup := by
  obtain ⟨block, hannotations, hruns⟩ := h
  have hblock : ∀ run ∈ line.runs, (block run).Pairwise (fun a b => a.id ≠ b.id) ∧
      ∀ a ∈ block run, ∃ number, a.id = annotationId run.id number := by
    intro run hrun
    obtain ⟨anchor, rows, hannotates⟩ := hruns run hrun
    exact hannotates.ids
  rw [hannotations]
  refine List.pairwise_map.2 (List.pairwise_flatMap.2 ⟨fun run hrun => (hblock run hrun).1, ?_⟩)
  -- Equal ids would belong to equal runs.
  refine (List.pairwise_map.1 hids).imp_of_mem fun {run other} hrun hother hne a ha b hb heq => ?_
  obtain ⟨number, hnumber⟩ := (hblock run hrun).2 a ha
  obtain ⟨number', hnumber'⟩ := (hblock other hother).2 b hb
  rw [hnumber, hnumber'] at heq
  exact hne (annotationId_inj.1 heq).1

end LineChart

namespace Store

/-- **The annotations of a full chart.** They are, run by run as the runs stand in the chart, the
stored events of the run that some request is for, in the order of their stored times and then of
their insertion, numbered after that, and counted from the first bucket of the run or else from the
time of the run. Without requests there are none; and no two of them share an id. -/
theorem chart_annotates_events {s : Store} (hs : s.Reachable) {gerritPrefix : String}
    {r : ChartRequest} (hfull : r.chartMode = .full) {chart : Chart}
    (h : s.chart gerritPrefix r = .ok chart) :
    ∃ t line, s.tables = some t ∧ chart = .line line ∧
      (r.annotations = [] → line.annotations = []) ∧ line.Annotated t r.annotations ∧
      (line.annotations.map Annotation.id).Nodup := by
  obtain ⟨-, -, runs, line, hruns, hline, rfl⟩ := (chart_eq_ok_of_full hfull).1 h
  obtain ⟨t, ht, hids⟩ := nodup_ids_resolve hs hruns
  have hannotated : line.Annotated t r.annotations := LineChart.annotated_of_build ht hline
  -- The runs of the chart are those of the store, in another order.
  have hnodup : (line.runs.map Run.id).Nodup :=
    ((LineChart.perm_runs_of_build hline).map Run.id).nodup_iff.2 hids
  refine ⟨t, line, ht, rfl, fun hnone => ?_, hannotated, hannotated.nodup_ids hnodup⟩
  rw [hnone] at hannotated
  exact hannotated.eq_nil

end Store

theorem Instant.valid_afterNoon (minute : Fin 60) : Valid (43200 + 60 * minute) 0 :=
  ⟨by omega, by omega, by omega⟩

/-- An event of a type, some minutes after noon. -/
def RunEvent.ofType (minute : Fin 60) (eventType : String) : RunEvent where
  datetime :=
    { (RunRecord.ofParams []).run.datetime with
      second := 43200 + 60 * minute
      nano := 0
      valid := Instant.valid_afterNoon minute }
  eventType := eventType
  description := none
  params := []

/-- A record of a run with some buckets at noon and some events after it. -/
def RunRecord.ofEvents (id : String) (totals : List (Int × Int))
    (events : List (Fin 60 × String)) : RunRecord :=
  { RunRecord.ofTotals id "x" totals with
    events := events.map fun (minute, eventType) => .ofType minute eventType }

theorem RunRecord.normal_ofEvents (id : String) (totals : List (Int × Int))
    (events : List (Fin 60 × String)) : (ofEvents id totals events).Normal := by
  have hrecord := normal_ofTotals id "x" totals
  refine ⟨hrecord.params, hrecord.errors, hrecord.metrics, fun e he => ?_⟩
  obtain ⟨pair, -, rfl⟩ := List.mem_map.1 he
  simp [RunEvent.ofType, Json.Normal, Json.NormalFields, Json.Fields.Ascending]

namespace Store

/-- A store with two runs, where the id of one looks like that of an annotation of the other. -/
def lookalikes : Store :=
  ⟨some (.ofRecords [.ofEvents "a" [(0, 1)] [(5, "stop"), (1, "start"), (3, "pause")],
    .ofEvents "a-event-0" [] [(2, "start"), (2, "stop")]])⟩

/-- Of the first run one event is left out, and the others change places; those of the second run
are at one time and stay as they are. -/
theorem chart_annotates_events_lookalikes :
    let r : ChartRequest := { ChartRequest.greatest "cpu" with
      chartMode := .full
      annotations := [.runEvents ["start"], .runEvents ["stop", "start"]] }
    ∃ t line, lookalikes.tables = some t ∧ lookalikes.chart "" r = .ok (.line line) ∧
      line.annotations.map (fun a => (a.id, a.label, a.offset, a.yOffset)) =
        [("a-event-0", "start", 60, 0), ("a-event-1", "stop", 300, 20),
          ("a-event-0-event-0", "start", 120, 0), ("a-event-0-event-1", "stop", 120, 20)] ∧
      line.Annotated t r.annotations ∧ (line.annotations.map Annotation.id).Nodup := by
  intro r
  have hs : lookalikes.Reachable := .ofRecords (by decide) (by simp [RunRecord.normal_ofEvents])
  have hchart : ∃ line, lookalikes.chart "" r = .ok (.line line) ∧
      line.annotations.map (fun a => (a.id, a.label, a.offset, a.yOffset)) =
        [("a-event-0", "start", 60, 0), ("a-event-1", "stop", 300, 20),
          ("a-event-0-event-0", "start", 120, 0), ("a-event-0-event-1", "stop", 120, 20)] :=
    ⟨⟨_, _, _⟩, by cbv, rfl⟩
  obtain ⟨line, hchart, hannotations⟩ := hchart
  -- The ids of both runs are as different as the theorem says.
  obtain ⟨t, _, ht, heq, -, hannotated, hnodup⟩ := chart_annotates_events hs rfl hchart
  cases heq
  exact ⟨t, line, ht, hchart, hannotations, hannotated, hnodup⟩

end Store

end BenchCharts

import BenchCharts.Proofs.Chart.Lines
import BenchCharts.Proofs.Dashboard
import BenchCharts.Proofs.Filter.Compiling
import BenchCharts.Proofs.Text.Order

/-!
# Requests that are refused

A request is checked in three steps: the window and the horizontal field, then the vertical axes,
which bar charts and line charts check in their own ways, then the filter. `RefusedWith` says that
the first of these steps that fails does so with a given error, and `Accepted` that none of them
does.

`chart_eq` puts the checks in front: they are over before the store is asked for anything. So a
refusal has nothing to do with the store (`chart_of_refusedWith`, `runChart_of_refusedWith`). That
is not the only thing that the checks are good for: what comes after them cannot refuse the request
any more, unless some run gives it a reason to (`chart_of_no_runs`).
-/

namespace BenchCharts

namespace ChartRequest

/-- Refuses vertical axes that the kind of chart cannot draw. -/
def checkAxes (r : ChartRequest) : Except RequestError Unit :=
  match r.chartMode with
  | .simplified => r.measure.map fun _ => ()
  | .full => checkLineAxes r.verticalAxes

/-- The first check that fails does so with an error. -/
inductive RefusedWith (r : ChartRequest) (cause : RequestError) : Prop where
  /-- The window makes no sense, or the horizontal field cannot be addressed. -/
  | window (h : r.validate = .error cause)
  /-- A vertical axis cannot be drawn. -/
  | axes (hvalid : r.validate = .ok ()) (h : r.checkAxes = .error cause)
  /-- A key of the filter cannot be addressed. -/
  | filter (hvalid : r.validate = .ok ()) (haxes : r.checkAxes = .ok ())
      (h : CompiledFilter.compile r.comparisonFilter = .error cause)

/-- No check fails. -/
structure Accepted (r : ChartRequest) : Prop where
  /-- The window makes sense, and the horizontal field can be addressed. -/
  valid : r.validate = .ok ()
  /-- The vertical axes can be drawn. -/
  axes : r.checkAxes = .ok ()
  /-- The filter can be taken apart. -/
  filter : ∃ compiled, CompiledFilter.compile r.comparisonFilter = .ok compiled

/-- A request is refused with one error, or it is accepted. -/
theorem refusedWith_or_accepted (r : ChartRequest) :
    (∃ cause, r.RefusedWith cause) ∨ r.Accepted := by
  cases hvalid : r.validate with
  | error cause => exact .inl ⟨cause, .window hvalid⟩
  | ok valid =>
    cases haxes : r.checkAxes with
    | error cause => exact .inl ⟨cause, .axes hvalid haxes⟩
    | ok checked =>
      cases hfilter : CompiledFilter.compile r.comparisonFilter with
      | error cause => exact .inl ⟨cause, .filter hvalid haxes hfilter⟩
      | ok compiled => exact .inr ⟨hvalid, haxes, compiled, hfilter⟩

end ChartRequest

/-- A chart without runs. -/
def Chart.empty : ChartMode → Chart
  | .simplified => .bar ⟨[], [], [], []⟩
  | .full => .line ⟨[], [], []⟩

namespace Store

variable {s : Store} {gerritPrefix : String} {r : ChartRequest}

/-- The chart of a request that has been checked, over some runs. -/
def draw (s : Store) (r : ChartRequest) (runs : List Run) : Except ChartError Chart :=
  match r.chartMode with
  | .simplified => do return .bar (← BarChart.build s r runs)
  | .full => do return .line (← LineChart.build s r runs)

/-- **All checks come first.** Only after them is the store asked for runs, and then for what is
drawn of these. -/
theorem chart_eq (s : Store) (gerritPrefix : String) (r : ChartRequest) :
    s.chart gerritPrefix r = (do
      r.validate.mapError .invalid
      r.checkAxes.mapError .invalid
      let runs ← s.resolve gerritPrefix r
      s.draw r runs) := by
  rw [chart]
  cases r.validate with
  | error cause => rfl
  | ok valid =>
    -- The window is accepted, and the mode says how the axes are checked.
    unfold ChartRequest.checkAxes draw
    cases r.chartMode with
    | simplified =>
      simp only
      cases r.measure with
      | error cause => rfl
      | ok measure => rfl
    | full => rfl

/-! ### Refusals -/

/-- **A refusal has nothing to do with the store**, which need not even have a schema. -/
theorem chart_of_refusedWith {cause : RequestError} (h : r.RefusedWith cause) :
    s.chart gerritPrefix r = .error (.invalid cause) := by
  rw [chart_eq]
  cases h with
  | window h =>
    rw [h]
    rfl
  | axes hvalid h =>
    rw [hvalid, h]
    rfl
  | filter hvalid haxes h =>
    rw [hvalid, haxes, resolve, runs, h]
    rfl

/-- The filter of a request for one run is empty, so that only two checks are left. They come before
the run is looked up. -/
theorem runChart_of_refusedWith {request : RunChartRequest} {cause : RequestError}
    (h : request.toChartRequest.RefusedWith cause) :
    s.runChart request = .error (.invalid cause) := by
  rw [runChart]
  cases h with
  | window h =>
    rw [h]
    rfl
  | axes hvalid h =>
    have haxes : checkLineAxes request.toChartRequest.verticalAxes = .error cause := h
    rw [hvalid, haxes]
    rfl
  -- An empty filter is never refused.
  | filter hvalid haxes h => cases CompiledFilter.compile_nil.symm.trans h

/-! ### Requests without runs -/

/-- Where there are no runs, a search finds none, if the store takes the clauses at all. -/
theorem findRuns_of_no_runs {t : Tables} (ht : s.tables = some t) (hnone : t.runs = [])
    (filter : CompiledFilter) :
    s.findRuns filter =
      if filter.clauses.length ≤ clauseLimit then .ok [] else .error (.store .findRuns) := by
  rw [findRuns, query_of_tables ht, hnone, search?]
  -- No clause is looked at, but they are counted.
  split <;> rfl

/-- Without runs the store is not asked for bars. -/
theorem barChart_nil {measure : BarMeasure} (hmeasure : r.measure = .ok measure) :
    BarChart.build s r [] = .ok ⟨[], [], [], []⟩ := by
  -- No runs have no bars, which are in order.
  have hbars : measure.bars s (r.aggregateQuery []) = .ok [] := by
    cases measure <;> rfl
  have hsorted : sortByLabel r.horizontalAxis.resultType Bar.label [] = .ok [] :=
    sortByLabel_eq_ok_iff.2 ⟨fun _ => rfl, rfl⟩
  rw [BarChart.build, hmeasure]
  change (measure.bars s (r.aggregateQuery []) >>= _) = _
  rw [hbars]
  change ((sortByLabel r.horizontalAxis.resultType Bar.label []).mapError _ >>= _) = _
  rw [hsorted]
  rfl

/-- Without runs no axis has anything to draw. -/
theorem lineChart_nil (hcheck : checkLineAxes r.verticalAxes = .ok ()) :
    LineChart.build s r [] = .ok ⟨[], [], []⟩ := by
  have hstyled : styleRuns r.horizontalAxis [] = .ok [] := by
    have hsorted : sortByLabel r.horizontalAxis.resultType Prod.fst
        (runsWithLabel r.horizontalAxis.field []) = .ok [] :=
      sortByLabel_eq_ok_iff.2 ⟨fun _ => rfl, rfl⟩
    rw [styleRuns, hsorted]
    rfl
  -- Each axis is asked for every run, so no axis is asked for anything.
  refine LineChart.build_eq_ok_iff.2 ⟨hcheck, [], hstyled, rfl, ?_, rfl⟩
  refine allSeries_eq_ok_iff.2 ⟨fun axis _ s hs => absurd hs List.not_mem_nil, ?_⟩
  simp

/-- **An accepted request is answered where there are no runs**, with an empty chart. The search for
the runs comes first, and it fails if the filter has too many clauses. -/
theorem chart_of_no_runs {t : Tables} (ht : s.tables = some t) (hnone : t.runs = [])
    (h : r.Accepted) {compiled : CompiledFilter}
    (hcompile : CompiledFilter.compile r.comparisonFilter = .ok compiled) :
    s.chart gerritPrefix r =
      if compiled.clauses.length ≤ clauseLimit then .ok (.empty r.chartMode)
      else .error (.store .findRuns) := by
  rw [chart_eq, h.valid, h.axes, resolve, runs_of_compile s hcompile,
    findRuns_of_no_runs ht hnone]
  split
  -- The search finds no runs, and the chart is drawn without them.
  · change s.draw r [] = _
    have haxes := h.axes
    unfold draw
    unfold ChartRequest.checkAxes at haxes
    cases hmode : r.chartMode with
    | simplified =>
      simp only [hmode] at haxes ⊢
      cases hmeasure : r.measure with
      | error cause => simp [hmeasure, Except.map] at haxes
      | ok measure =>
        rw [barChart_nil hmeasure]
        rfl
    | full =>
      simp only [hmode] at haxes ⊢
      rw [lineChart_nil haxes]
      rfl
  · rfl

/-- An accepted request is one that a store without a schema fails to answer. -/
theorem chart_of_no_tables (hs : s.tables = none) (h : r.Accepted) :
    s.chart gerritPrefix r = .error (.store .findRuns) := by
  obtain ⟨compiled, hcompile⟩ := h.filter
  have hfailed : s.findRuns compiled = .error (.store .findRuns) := by
    rw [findRuns, query, hs]
  rw [chart_eq, h.valid, h.axes, resolve, runs_of_compile s hcompile, hfailed]
  rfl

/-- **Checks decide what they can without the store.** The first of them that fails settles the
answer, for a chart of many runs as for a chart of one, whether or not the run exists and even if no
query of the store would succeed. If none fails, all that is left to go wrong lies with the store
and its runs: without a schema the search fails, and without runs the chart is empty, unless the
filter has more clauses than the store takes. -/
theorem chart_settled_by_checks (r : ChartRequest) :
    (∀ cause, r.RefusedWith cause →
      ∀ (s : Store) gerritPrefix, s.chart gerritPrefix r = .error (.invalid cause)) ∧
    (∀ (request : RunChartRequest) cause, request.toChartRequest.RefusedWith cause →
      ∀ s : Store, s.runChart request = .error (.invalid cause)) ∧
    (r.Accepted → ∀ (s : Store) gerritPrefix,
      (s.tables = none → s.chart gerritPrefix r = .error (.store .findRuns)) ∧
      ∀ t compiled, s.tables = some t → t.runs = [] →
        CompiledFilter.compile r.comparisonFilter = .ok compiled →
        s.chart gerritPrefix r =
          if compiled.clauses.length ≤ clauseLimit then .ok (.empty r.chartMode)
          else .error (.store .findRuns)) ∧
    ((∃ cause, r.RefusedWith cause) ∨ r.Accepted) := by
  refine ⟨?_, ?_, ?_, r.refusedWith_or_accepted⟩
  · intro cause h s gerritPrefix
    exact chart_of_refusedWith h
  · intro request cause h s
    exact runChart_of_refusedWith h
  · intro h s gerritPrefix
    refine ⟨fun hs => chart_of_no_tables hs h, ?_⟩
    intro t compiled ht hnone hcompile
    exact chart_of_no_runs ht hnone h hcompile

/-- A request for bars on two axes, and the request for one of them. -/
theorem chart_settled_by_checks_twoAxes :
    let one := ChartRequest.greatest "cpu"
    let two := { one with verticalAxes := [.metric "cpu" "y", .errors "y"] }
    two.RefusedWith (.barAxisCount 2) ∧
      fresh.chart "" two = .error (.invalid (.barAxisCount 2)) ∧
      one.Accepted ∧ fresh.initSchema.chart "" one = .ok (.bar ⟨[], [], [], []⟩) := by
  intro one two
  -- The second axis is what the first chart is refused for.
  have hrefused : two.RefusedWith (.barAxisCount 2) := .axes (by cbv) (by cbv)
  have haccepted : one.Accepted := ⟨by cbv, by cbv, _, CompiledFilter.compile_nil⟩
  refine ⟨hrefused, ?_, haccepted, ?_⟩
  · exact (chart_settled_by_checks two).1 _ hrefused fresh ""
  · exact ((chart_settled_by_checks one).2.2.1 haccepted fresh.initSchema "").2 _ _ rfl rfl
      CompiledFilter.compile_nil

/-! ### A filter with too many clauses -/

/-- A key with a number of three digits at its end. -/
def numberedKey (n : Nat) : String := String.ofList ('k' :: Text.padded 3 n)

/-- So many flags, under keys that ascend. -/
def numberedFlags (count : Nat) : Json.Fields :=
  (List.range count).map fun n => (numberedKey n, .bool true)

theorem mem_numberedFlags_iff {count : Nat} {member : String × Json} :
    member ∈ numberedFlags count ↔ ∃ n < count, member = (numberedKey n, .bool true) := by
  simp [numberedFlags, eq_comm]

theorem normal_numberedFlags {count : Nat} (hcount : count ≤ 10 ^ 3) :
    (Json.obj (numberedFlags count)).Normal := by
  have hvalues : ∀ members : List Nat,
      Json.NormalFields (members.map fun n => (numberedKey n, .bool true)) := by
    intro members
    induction members with
    | nil => trivial
    | cons n more ih => exact ⟨trivial, ih⟩
  refine ⟨hvalues _, ?_⟩
  rw [Json.Fields.Ascending, numberedFlags, List.map_map, List.pairwise_map]
  -- The digits of the numbers have one length, so they are in the order of the numbers.
  refine List.pairwise_lt_range.imp_of_mem fun {n m} hn hm hlt => ?_
  have hn : n < 10 ^ 3 := (List.mem_range.1 hn).trans_le hcount
  have hm : m < 10 ^ 3 := (List.mem_range.1 hm).trans_le hcount
  have hdigits := Text.compare_padded_append (by decide) hn hm [] []
  rw [List.append_nil, List.append_nil] at hdigits
  change compare (numberedKey n) (numberedKey m) = .lt
  rw [numberedKey, numberedKey, Text.compare_ofList, Text.compare_cons_self, hdigits,
    Nat.compare_eq_lt.2 hlt]
  rfl

/-- A key with a number can be addressed, and stands on its own as a path. -/
theorem addressableKey_numberedKey (n : Nat) :
    Json.Fields.addressableKey (numberedKey n) = true ∧ ¬ FieldPath.Blank (numberedKey n) := by
  have hmem : ∀ c, c ∈ (numberedKey n).toList → c = 'k' ∨ Text.isDigit c = true := by
    intro c hc
    rw [numberedKey, String.toList_ofList] at hc
    exact (List.mem_cons.1 hc).imp_right Text.isDigit_of_mem_padded
  have hk : 'k' ∈ (numberedKey n).toList := by simp [numberedKey]
  -- The key begins with a letter, and goes on with digits.
  refine ⟨Json.Fields.addressableKey_iff.2 ⟨?_, ?_, ?_⟩, ?_⟩
  · intro hempty
    rw [hempty] at hk
    cases hk
  · intro hpoint
    rcases hmem _ hpoint with h | h <;> exact absurd h (by decide)
  · intro hquote
    rcases hmem _ hquote with h | h <;> exact absurd h (by decide)
  · intro hblank
    exact absurd (hblank 'k' hk) (by decide)

theorem compile_numberedFlags (count : Nat) :
    CompiledFilter.compile (numberedFlags count) = .ok ⟨numberedFlags count,
      (numberedFlags count).map fun member => ⟨member.1, [member.1], member.2⟩, []⟩ := by
  refine CompiledFilter.compile_of_scalars ?_ ?_
  · intro member hmember
    obtain ⟨n, -, rfl⟩ := mem_numberedFlags_iff.1 hmember
    rfl
  · intro member hmember
    obtain ⟨n, -, rfl⟩ := mem_numberedFlags_iff.1 hmember
    exact addressableKey_numberedKey n

/-- A request with more flags in its filter than the store takes clauses is accepted, but a store
without runs does not answer it. -/
theorem chart_of_numberedFlags {count : Nat} (hmany : clauseLimit < count)
    (hcount : count ≤ 10 ^ 3) :
    let request := { ChartRequest.greatest "cpu" with comparisonFilter := numberedFlags count }
    (Json.obj request.comparisonFilter).Normal ∧ request.Accepted ∧
      fresh.initSchema.chart "" request = .error (.store .findRuns) := by
  intro request
  have hcompile := compile_numberedFlags count
  have haccepted : request.Accepted := ⟨by cbv, by cbv, _, hcompile⟩
  refine ⟨normal_numberedFlags hcount, haccepted, ?_⟩
  have hchart : fresh.initSchema.chart "" request = _ :=
    chart_of_no_runs (t := .empty) rfl rfl haccepted hcompile
  -- Each flag is a clause.
  rw [hchart, if_neg]
  simpa [numberedFlags] using hmany

/-- The least number of flags for which there is no empty chart. -/
theorem chart_not_empty_manyClauses :
    let request := { ChartRequest.greatest "cpu" with comparisonFilter := numberedFlags 998 }
    (Json.obj request.comparisonFilter).Normal ∧ request.Accepted ∧
      fresh.initSchema.chart "" request = .error (.store .findRuns) :=
  chart_of_numberedFlags (by decide) (by decide)

end Store

end BenchCharts

import BenchCharts.CommandLine.Execution
import BenchCharts.Proofs.Dashboard.Regular
import BenchCharts.Proofs.Json.RoundTrip
import BenchCharts.ReferenceCache

/-!
# Questions and what is printed for them

What a command that only reads asks of the library is a `Question`, and what a new engine says to it
an `Answer`. A text `Shows` an answer if the JSON form of the answer is read from the text, and the
answer is decoded from that. For the first half, every reader gets back what was written
(`readsAs_printJson`), except that it makes its own floats of the digits, which stand for the floats
that were written (`Number.KeepsValue`). For the second, the decoder of the kind of question gets
back what was encoded (`Question.decode?_encode`).
-/

namespace BenchCharts.CommandLine

/-! ### Reading what is printed -/

/-- A text is read as some value: by every rule for floats and to every depth, what is read is the
value but for what numbers lose. -/
def ReadsAs (text : String) (j : Json) : Prop :=
  ∀ rule depth, Json.readBy? rule depth .any text = j.readBack? rule depth

/-- **A value that is printed is read back.** -/
theorem readsAs_printJson (j : Json) : ReadsAs (printJson j) j := by
  intro rule depth
  have hblank : Json.Reader.IsBlank ['\n'] := fun c hc => .inr (.inl (List.mem_singleton.1 hc))
  -- The text ends with a line feed, which is a blank like those between the parts.
  have hread := Json.Reader.readBy?_chars Json.Reader.isSpacing_lines rule depth 0 j hblank
  rwa [String.ofList_append] at hread

/-- A value without numbers is read as it is, unless it is too deep. -/
theorem ReadsAs.read?_eq {text : String} {j : Json} (h : ReadsAs text j)
    (hnumbers : ∀ n, n ∉ j.numbers) (hdepth : j.depth ≤ Json.depthLimit) :
    Json.read? text = some j := by
  have hwritten : ∀ n ∈ j.numbers, n.Written := fun n hn => absurd hn (hnumbers n)
  have hread : ∀ n ∈ j.numbers, n.reread?.isSome = true := fun n hn => absurd hn (hnumbers n)
  -- What is kept in texts differs in its numbers only, and there are none.
  rw [Json.read?, Json.readAs?, h, Json.readBack?_of_written _ hwritten, if_pos ⟨hdepth, hread⟩,
    Json.reread_eq_self_iff.2 fun n hn => absurd hn (hnumbers n)]

/-! ### Questions -/

/-- A question to the library, with all that was read from files. -/
inductive Question where
  /-- What a chart looks like. -/
  | chart (request : ChartRequest)
  /-- What the chart of one run looks like. -/
  | run (request : RunChartRequest)
  /-- Which runs match a filter. -/
  | runs (filter : Json.Fields) (mode : RunFilterMode) (excludeSnapshots excludeGerrit : Bool)
  /-- Which cluster versions and SDKs there are. -/
  | versions

/-- What the library says to a question. -/
inductive Answer where
  /-- A chart. -/
  | chart (chart : Chart)
  /-- The chart of one run. -/
  | run (chart : LineChart)
  /-- Runs. -/
  | runs (runs : List Run)
  /-- Cluster versions and SDKs. -/
  | versions (clusterVersions : List String) (sdks : List SdkInfo)

/-- An answer in JSON. -/
def Answer.encode : Answer → Json
  | .chart c => c.encode
  | .run c => c.encode
  | .runs l => Json.ofList Run.encode l
  | .versions clusterVersions sdks => encodeReference (clusterVersions, sdks)

/-- Cluster versions and SDKs, from JSON. -/
def decodeReference? (j : Json) : Option Answer :=
  match j.record? ["clusterVersions", "sdks"] with
  | some [clusterVersions, sdks] => do
    return .versions (← Json.required (Json.list? Json.text?) clusterVersions)
      (← Json.required (Json.list? SdkInfo.decode?) sdks)
  | _ => none

namespace Question

/-- What a new engine over a store answers. -/
def answer (gerritPrefix : String) (store : Store) : Question → Except ChartError Answer
  | .chart request => (store.chart gerritPrefix request).map .chart
  | .run request => (store.runChart request).map .run
  | .runs filter mode excludeSnapshots excludeGerrit =>
    (store.runs filter { mode, excludeSnapshots, excludeGerrit, gerritPrefix }).map .runs
  | .versions => do
    let first := ReferenceCache.empty.clusterVersions fun _ => store.clusterVersions
    let second := first.cache.sdks fun _ => store.sdks
    return .versions (← first.result) (← second.result)

/-- The answer to a question that is decoded from a JSON value. -/
def decode? (j : Json) : Question → Option Answer
  | .chart _ => (Chart.decode? j).map .chart
  | .run _ => (LineChart.decode? j).map .run
  | .runs .. => (Json.list? Run.decode? j).map .runs
  | .versions => decodeReference? j

/-- A text shows an answer to a question. -/
structure Shows (q : Question) (text : String) (a : Answer) : Prop where
  /-- It is read as the JSON form of the answer. -/
  readsAs : ReadsAs text a.encode
  /-- None of its numbers loses its value in the text. -/
  numbers : ∀ n ∈ a.encode.numbers, n.KeepsValue
  /-- From the JSON form the answer is decoded. -/
  decode? : q.decode? a.encode = some a

/-- With an empty cache both lists are loaded. -/
theorem answer_versions (gerritPrefix : String) (store : Store) :
    versions.answer gerritPrefix store =
      (do return .versions (← store.clusterVersions) (← store.sdks)) := by
  rw [answer, ReferenceCache.clusterVersions, ReferenceCache.sdks]
  cases store.clusterVersions <;> cases store.sdks <;> rfl

end Question

theorem decodeReference?_encode (clusterVersions : List String) (sdks : List SdkInfo) :
    decodeReference? (encodeReference (clusterVersions, sdks)) =
      some (.versions clusterVersions sdks) := by
  have hversions : Json.list? Json.text? (Json.ofList .str clusterVersions) =
      some clusterVersions := Json.list?_ofList fun _ _ => rfl
  have hsdks : Json.list? SdkInfo.decode? (Json.ofList SdkInfo.encode sdks) = some sdks :=
    Json.list?_ofList fun sdk _ => sdk.decode?_encode
  -- Both fields are found, so it is left to decode the two lists.
  change (do
    let clusterVersions ← Json.list? Json.text? (Json.ofList .str clusterVersions)
    let sdks ← Json.list? SdkInfo.decode? (Json.ofList SdkInfo.encode sdks)
    return Answer.versions clusterVersions sdks) = _
  rw [hversions, hsdks]
  rfl

/-- Lists of versions have no numbers in them. -/
theorem not_mem_numbers_encodeReference (lists : List String × List SdkInfo) (n : Number) :
    n ∉ (encodeReference lists).numbers := by
  simp [encodeReference, Json.ofList, SdkInfo.encode, Json.numbers, Json.mem_numbersOfFields_iff,
    Json.mem_numbersOfItems_iff]

theorem depth_encodeReference_le (lists : List String × List SdkInfo) :
    (encodeReference lists).depth ≤ 4 := by
  have htexts : ∀ texts : List String, (Json.ofList .str texts).depth ≤ 1 :=
    fun texts => Json.depth_ofList_le fun _ _ => Nat.le_refl _
  have hsdk : ∀ sdk : SdkInfo, sdk.encode.depth ≤ 2 := fun sdk => Json.depth_obj_le fun
    | _, .head _ => Nat.zero_le _
    | _, .tail _ (.head _) => htexts sdk.versions
  -- The lists of an SDK are the deepest part.
  exact Json.depth_obj_le fun
    | _, .head _ => Nat.le_trans (htexts lists.1) (by decide)
    | _, .tail _ (.head _) => Json.depth_ofList_le fun sdk _ => hsdk sdk

/-- **An answer is decoded from its JSON form**, if the store only has offsets of 64 bits. -/
theorem Question.decode?_encode {store : Store} (hs : store.Reachable)
    (hfit : ∀ t, store.tables = some t → t.OffsetsFit) {q : Question} {gerritPrefix : String}
    {a : Answer} (h : q.answer gerritPrefix store = .ok a) : q.decode? a.encode = some a := by
  cases q with
  | chart request =>
    obtain ⟨chart, hchart, rfl⟩ := map_eq_ok_iff.1 h
    exact congrArg (Option.map Answer.chart)
      (Chart.decode?_encode (Store.chart_regular hs hfit hchart))
  | run request =>
    obtain ⟨chart, hchart, rfl⟩ := map_eq_ok_iff.1 h
    exact congrArg (Option.map Answer.run)
      (LineChart.decode?_encode (Store.runChart_regular hs hfit hchart))
  | runs filter mode excludeSnapshots excludeGerrit =>
    obtain ⟨runs, hruns, rfl⟩ := map_eq_ok_iff.1 h
    exact congrArg (Option.map Answer.runs) (Json.list?_ofList fun run hrun =>
      Run.decode?_encode (Store.normal_of_runs hs hruns run hrun))
  | versions =>
    rw [answer_versions] at h
    -- The lists are there together or not at all.
    obtain ⟨clusterVersions, -, hrest⟩ := bind_eq_ok_iff.1 h
    obtain ⟨sdks, -, hpure⟩ := bind_eq_ok_iff.1 hrest
    obtain rfl := pure_eq_ok_iff.1 hpure
    exact decodeReference?_encode clusterVersions sdks

/-- What is printed for an answer shows it. -/
theorem Question.shows_printJson {store : Store} (hs : store.Reachable)
    (hfit : ∀ t, store.tables = some t → t.OffsetsFit) {q : Question} {gerritPrefix : String}
    {a : Answer} (h : q.answer gerritPrefix store = .ok a) : q.Shows (printJson a.encode) a :=
  ⟨readsAs_printJson _, fun n _ => n.keepsValue, decode?_encode hs hfit h⟩

end BenchCharts.CommandLine

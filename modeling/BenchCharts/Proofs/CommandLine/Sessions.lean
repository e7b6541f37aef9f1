import BenchCharts.Proofs.CommandLine.Answers
import BenchCharts.Proofs.CommandLine.Directory
import BenchCharts.Proofs.Store.Calls
import BenchCharts.Proofs.Store.Listings

/-!
# Sessions on the command line

In a session, command lines for one database file are carried out one after the other, and other
files are written in between. Nothing is kept from one command line to the next but the files. An
address may be spelled in different ways as long as it leads to the place of the file. A spelling
may stop working, for instance if a folder on its way is gone, and start working again: a command
line only does something while its spelling can be opened.

What a session does to the database is what the calls of it do to a fresh store: `init` applies the
schema, and an import applies the schema and inserts the records of its file, if it can be read.
`represents_execute` is one command line, and `Represents.afterEvents` the whole session. What is
asked in between is answered from that store by a new engine, whose cache is empty, and the answer
is shown by the text that is printed (`reports_execute`). So the lists of versions are never older
than the last import. They never fail either, since records that come from files are not too deep to
be searched (`FromFile`).
-/

namespace BenchCharts.CommandLine

open Directory

/-! ### What a command asks and does -/

namespace Command

/-- The format of what is asked; other commands print nothing. -/
def format? : Command → Option Format
  | .init => none
  | .importRuns _ => none
  | .chart _ format => some format
  | .run _ format => some format
  | .runs _ _ _ _ format => some format
  | .versions format => some format

/-- What is asked, unless the file with it cannot be read or parsed. -/
def question? (h : Host) (d : Directory) : Command → Option Question
  | .init => none
  | .importRuns _ => none
  | .chart path _ =>
    (d.readJson h ChartRequest.shape ChartRequest.decode? path).toOption.map .chart
  | .run request _ => some (.run request)
  | .runs none mode excludeSnapshots excludeGerrit _ =>
    some (.runs [] mode excludeSnapshots excludeGerrit)
  | .runs (some path) mode excludeSnapshots excludeGerrit _ =>
    (d.readJson h .any Json.map? path).toOption.map (.runs · mode excludeSnapshots excludeGerrit)
  | .versions _ => some .versions

/-- The calls with which a command changes a store. -/
def calls (h : Host) (d : Directory) : Command → List StoreCall
  | .init => [.initSchema]
  | .importRuns path =>
    match (d.readJson h .any records? path).toOption with
    | some records => [.initSchema, .insertRuns records]
    | none => []
  | _ => []

end Command

/-- A command line that is accepted, about the store that is kept in one file. -/
structure Line (h : Host) (path : String) where
  /-- What the environment says. -/
  environment : Option String
  /-- The arguments. -/
  args : List String
  /-- What they say. -/
  invocation : Invocation
  /-- The arguments are read as that. -/
  accepted : Invocation.read environment args = .ok invocation
  /-- There may be connections. -/
  connected : invocation.poolSize ≠ 0
  /-- The file that the address stands for. -/
  file : String
  /-- It does. -/
  located : h.address invocation.database = .file file
  /-- The store is the one in the file. -/
  place : h.place file = h.place path

/-- What happens in a session about the store in one file. -/
inductive Event (h : Host) (path : String) where
  /-- A command line is carried out. -/
  | line (l : Line h path)
  /-- Another file is written. -/
  | write (file : String) (content : Content) (other : h.place file ≠ h.place path)

variable {h : Host} {path : String}

/-- The directory after a command line, and the outcome. -/
def Line.execute (l : Line h path) (d : Directory) : Directory × Outcome :=
  CommandLine.execute l.environment l.args d h

/-- The directory after something happened. -/
def Directory.afterEvent (d : Directory) : Event h path → Directory
  | .line l => (l.execute d).1
  | .write file content _ => d.put h file content

/-- The directory after a session. -/
def Directory.afterEvents (d : Directory) (events : List (Event h path)) : Directory :=
  events.foldl afterEvent d

/-- The calls with which something that happens changes the store. -/
def Event.calls (d : Directory) : Event h path → List StoreCall
  | .line l => if d.canOpen h l.file then l.invocation.command.calls h d else []
  | .write _ _ _ => []

/-- The calls with which a session changes the store. -/
def Directory.callsOf (d : Directory) : List (Event h path) → List StoreCall
  | [] => []
  | event :: rest => event.calls d ++ (d.afterEvent event).callsOf rest

/-- Lists of cluster versions and SDKs that show what some records have, and nothing else. -/
structure ListsVersions (records : List RunRecord) (versions : List String) (sdks : List SdkInfo) :
    Prop where
  /-- The cluster versions are those that the store finds in the records. -/
  clusterVersions : ∀ version, version ∈ versions ↔
    ∃ record ∈ records, record.run.storedText? clusterVersionPath = some version
  /-- So are the SDKs. -/
  sdkVersions : ∀ language version, version ∈ versionsOf sdks language ↔
    ∃ record ∈ records, record.run.storedSdk? = some (language, version)
  /-- No cluster version is missing. -/
  clusterVersion_mem : ∀ record ∈ records, ∀ version,
    record.run.params.textAt? clusterVersionPath = some version → version ∈ versions
  /-- No SDK is missing. -/
  sdk_mem : ∀ record ∈ records, ∀ language version, record.run.language? = some language →
    record.run.version? = some version → version ∈ versionsOf sdks language

/-- An outcome reports the answer to a question if it prints a text that shows it, and fails exactly
if there is no question or no answer. -/
structure Outcome.Reports (outcome : Outcome) (question : Option Question)
    (answer : Question → Except ChartError Answer) : Prop where
  /-- An answer is shown. -/
  printed : ∀ q a, question = some q → answer q = .ok a →
    ∃ text, outcome = .printed text ∧ q.Shows text a
  /-- The failure is shown by the exit code. -/
  failed : outcome.exitCode = 1 ↔ ∀ q a, question = some q → answer q ≠ .ok a

/-! ### One command line -/

theorem toOption_during {α : Type} (task : Task) (x : Except ChartError α) :
    (during task x).toOption = x.toOption := by
  cases x <;> rfl

theorem Outcome.reports_of {x : Except CommandError String} {question : Option Question}
    {answer : Question → Except ChartError Answer}
    (hx : x.toOption = (question.bind fun q => (answer q).toOption).map fun a => printJson a.encode)
    (hshows : ∀ q a, answer q = .ok a → q.Shows (printJson a.encode) a) :
    (Outcome.of x).Reports question answer := by
  cases x with
  -- A failure means that some step on the way to the answer failed.
  | error e =>
    have hnone : ∀ q a, question = some q → answer q ≠ .ok a := by
      rintro q a rfl ha
      simp [ha, Except.toOption] at hx
    exact ⟨fun q a hq ha => absurd ha (hnone q a hq), iff_of_true rfl hnone⟩
  | ok text =>
    -- A text is that of the only answer that there can be.
    obtain ⟨a, ha, rfl⟩ := Option.map_eq_some_iff.1 hx.symm
    obtain ⟨q, rfl, ha⟩ := Option.bind_eq_some_iff.1 ha
    cases hanswer : answer q with
    | error e => simp [hanswer, Except.toOption] at ha
    | ok a' =>
      obtain rfl : a' = a := by simpa [hanswer, Except.toOption] using ha
      refine ⟨?_, iff_of_false (by simp [Outcome.of, Outcome.exitCode]) fun hnone => ?_⟩
      · rintro q' a hq ha
        cases hq
        obtain rfl := Except.ok.inj (hanswer.symm.trans ha)
        exact ⟨_, rfl, hshows q a' ha⟩
      · exact hnone q a' rfl hanswer

namespace Invocation

variable {inv : Invocation} {d : Directory} {store : Store}

/-- What is asked for in JSON is answered by the library, if the files can be read. -/
theorem toOption_answer (hformat : inv.command.format? = some .json) :
    (inv.answer h d store).toOption =
      ((inv.command.question? h d).bind fun question =>
        (question.answer inv.gerritPrefix store).toOption).map fun a => printJson a.encode := by
  cases hcommand : inv.command with
  -- Neither of these two prints anything in JSON.
  | init => simp [hcommand, Command.format?] at hformat
  | importRuns file => simp [hcommand, Command.format?] at hformat
  | chart file format =>
    obtain rfl : format = .json := by simpa [hcommand, Command.format?] using hformat
    simp only [answer, hcommand, toOption_bind, toOption_during, Command.question?]
    cases (d.readJson h ChartRequest.shape ChartRequest.decode? file).toOption with
    | none => rfl
    | some request =>
      simp only [Option.bind_some, Option.map_some, Question.answer, toOption_map]
      cases (store.chart inv.gerritPrefix request).toOption <;> rfl
  | run request format =>
    obtain rfl : format = .json := by simpa [hcommand, Command.format?] using hformat
    simp only [answer, hcommand, toOption_bind, toOption_during, Command.question?,
      Option.bind_some, Question.answer, toOption_map]
    cases (store.runChart request).toOption <;> rfl
  | runs file mode excludeSnapshots excludeGerrit format =>
    obtain rfl : format = .json := by simpa [hcommand, Command.format?] using hformat
    cases file with
    -- Without a file the filter is empty, and there is nothing to read.
    | none =>
      simp only [answer, hcommand, toOption_bind, toOption_during, Command.question?,
        toOption_ok, Option.bind_some, Question.answer, toOption_map]
      cases (store.runs [] _).toOption <;> rfl
    | some file =>
      simp only [answer, hcommand, toOption_bind, toOption_during, Command.question?]
      cases (d.readJson h .any Json.map? file).toOption with
      | none => rfl
      | some filter =>
        simp only [Option.bind_some, Option.map_some, Question.answer, toOption_map]
        cases (store.runs filter _).toOption <;> rfl
  | versions format =>
    obtain rfl : format = .json := by simpa [hcommand, Command.format?] using hformat
    simp only [answer, hcommand, toOption_bind, toOption_during, Command.question?,
      Option.bind_some, Question.answer_versions]
    cases store.clusterVersions.toOption with
    | none => rfl
    | some clusterVersions =>
      simp only [Option.bind_some]
      cases store.sdks.toOption <;> rfl

variable {file : String}

/-- What is asked is the same after the store was opened. -/
theorem question?_openStore (hopen : d.canOpen h file = true) (command : Command) :
    command.question? h (d.openStore h file) = command.question? h d := by
  cases command with
  | chart path format => rw [Command.question?, readJson_openStore hopen]; rfl
  | runs path mode excludeSnapshots excludeGerrit format =>
    cases path with
    | none => rfl
    | some path => rw [Command.question?, readJson_openStore hopen]; rfl
  | _ => rfl

section Located

variable (hconnected : inv.poolSize ≠ 0) (hlocated : h.address inv.database = .file file)

include hconnected hlocated

theorem execute_of_canOpen (hopen : d.canOpen h file = true) :
    inv.execute h d = inv.carryOut h (some file) (d.openStore h file) := by
  simp only [execute, if_neg hconnected, Directory.database, hlocated, if_pos hopen]

/-- What cannot be opened is left alone. -/
theorem execute_of_not_canOpen (hopen : d.canOpen h file = false) :
    ∃ reason, inv.execute h d = (d, .failed (.unopened inv.database reason)) := by
  have hnot : ¬ d.canOpen h file = true := by simp [hopen]
  refine ⟨"unable to open database file: " ++ inv.database, ?_⟩
  simp only [execute, if_neg hconnected, Directory.database, hlocated, if_neg hnot]

/-- **A command changes a store by its calls.** -/
theorem represents_execute (hopen : d.canOpen h file = true) (hs : d.Represents h file store) :
    (inv.execute h d).1.Represents h file (store.afterAll (inv.command.calls h d)) := by
  have hopened := hs.openStore
  have hschema := hopened.withSchema
  rw [execute_of_canOpen hconnected hlocated hopen, carryOut]
  cases hcommand : inv.command with
  | init =>
    -- The schema is applied to the store that the file was opened as.
    simp only [createSchema, hschema, during, Except.mapError]
    exact represents_putStore
  | importRuns path =>
    have hfile := readJson_openStore hopen .any records? path
    simp only [importRuns, Command.calls, ← hfile]
    cases (d.openStore h file).readJson h .any records? path with
    -- The file was opened before the records were read, which leaves its store alone.
    | error e => exact hopened
    | ok records =>
      simp only [hschema, during, Except.mapError, toOption_ok]
      exact represents_putStore
  | _ => exact hopened

/-- **What is asked is answered by a new engine over the store.** -/
theorem reports_execute (hopen : d.canOpen h file = true) (hs : d.Represents h file store)
    (hreachable : store.Reachable) (hfit : ∀ t, store.tables = some t → t.OffsetsFit)
    (hformat : inv.command.format? = some .json) :
    (inv.execute h d).2.Reports (inv.command.question? h d)
      fun question => question.answer inv.gerritPrefix store := by
  have hopened := hs.openStore
  have hexecute : (inv.execute h d).2 = .of (inv.answer h (d.openStore h file) store) := by
    rw [execute_of_canOpen hconnected hlocated hopen, carryOut]
    cases hcommand : inv.command with
    | init => simp [hcommand, Command.format?] at hformat
    | importRuns path => simp [hcommand, Command.format?] at hformat
    | _ => simp only [hopened.holds]
  have hanswer : (inv.answer h (d.openStore h file) store).toOption = _ := toOption_answer hformat
  -- The file with the question is read after the database is opened, and still has the same text.
  rw [question?_openStore hopen] at hanswer
  rw [hexecute]
  exact Outcome.reports_of hanswer fun q a ha => q.shows_printJson hreachable hfit ha

end Located

end Invocation

/-! ### Records from files -/

/-- What holds of a record that was read from a file. -/
structure FromFile (record : RunRecord) : Prop where
  /-- Its objects are in order. -/
  normal : record.Normal
  /-- Its offsets have 64 bits. -/
  offsetsFit : record.OffsetsFit
  /-- The parameters of its run are no deeper than a reader goes. -/
  depth : (Json.obj record.run.params).depth ≤ Json.depthLimit

theorem fromFile_of_decode? {j : Json} (hdepth : j.depth ≤ Json.depthLimit) {record : RunRecord}
    (hdecode : RunRecord.decode? j = some record) : FromFile record where
  normal := RunRecord.normal_of_decode? hdecode
  offsetsFit := RunRecord.offsetsFit_of_decode? hdecode
  depth := Nat.le_trans (RunRecord.depth_params_le hdecode) hdepth

/-- A file holds a list of records or a single one. -/
theorem fromFile_of_records? {j : Json} (hdepth : j.depth ≤ Json.depthLimit)
    {records : List RunRecord} (hrecords : records? j = some records) :
    ∀ record ∈ records, FromFile record := by
  rw [records?, Option.or_eq_some_iff] at hrecords
  intro record hmem
  -- A list is tried first; an item is less deep than the list.
  rcases hrecords with hmany | ⟨-, hone⟩
  · cases j with
    | arr items =>
      obtain ⟨item, hitem, hdecode⟩ := (mem_iff_of_mapM_eq_some hmany).1 hmem
      have hle : item.depth ≤ _ := Json.depthOfItems_le_iff.1 (Nat.le_refl _) item hitem
      exact fromFile_of_decode? (Nat.le_trans hle (Nat.le_of_succ_le hdepth)) hdecode
    | _ => cases hmany
  · obtain ⟨given, hgiven, rfl⟩ := Option.map_eq_some_iff.1 hone
    rw [List.mem_singleton.1 hmem]
    exact fromFile_of_decode? hdepth hgiven

theorem Command.fromFile_of_mem_calls {d : Directory} {command : Command} {call : StoreCall}
    (hcall : call ∈ command.calls h d) : ∀ record ∈ call.records, FromFile record := by
  have hnone : ∀ record ∈ StoreCall.initSchema.records, FromFile record := fun _ h => by cases h
  cases command with
  | init =>
    rw [List.mem_singleton.1 hcall]
    exact hnone
  | importRuns path =>
    rw [calls] at hcall
    cases hfile : d.readJson h .any records? path with
    | error e => simp [hfile, Except.toOption] at hcall
    | ok records =>
      -- The records were decoded from a value that a reader had gone through.
      obtain ⟨text, j, hj, hrecords⟩ := exists_of_readJson hfile
      simp only [hfile, toOption_ok, List.mem_cons, List.not_mem_nil, or_false] at hcall
      rcases hcall with rfl | rfl
      · exact hnone
      · exact fromFile_of_records? (Json.depth_le_of_readBy? hj) hrecords
  | _ => cases hcall

theorem fromFile_of_mem_callsOf {d : Directory} {events : List (Event h path)} {call : StoreCall}
    (hcall : call ∈ d.callsOf events) : ∀ record ∈ call.records, FromFile record := by
  induction events generalizing d with
  | nil => cases hcall
  | cons event rest ih =>
    rcases List.mem_append.1 hcall with hcall | hcall
    -- Only command lines make calls, and only if the database can be opened.
    · cases event with
      | line l =>
        rw [Event.calls] at hcall
        split at hcall
        · exact Command.fromFile_of_mem_calls hcall
        · cases hcall
      | write file content other => cases hcall
    · exact ih hcall

/-! ### Whole sessions -/

theorem Line.execute_eq (l : Line h path) (d : Directory) :
    l.execute d = l.invocation.execute h d := by
  rw [execute, CommandLine.execute, l.accepted]

namespace Directory.Represents

variable {d : Directory} {store : Store}

theorem afterEvent (hs : d.Represents h path store) (event : Event h path) :
    (d.afterEvent event).Represents h path (store.afterAll (event.calls d)) := by
  cases event with
  | line l =>
    rw [Directory.afterEvent, l.execute_eq, Event.calls]
    split
    · next hopen =>
      -- The line may spell the path of the database in its own way, as long as the place is the
      -- same.
      have hdone := Invocation.represents_execute l.connected l.located hopen (hs.congr l.place)
      exact hdone.congr l.place.symm
    -- Nothing happens to a database that is not opened.
    · next hopen =>
      obtain ⟨reason, hexecute⟩ := Invocation.execute_of_not_canOpen l.connected l.located
        (Bool.eq_false_iff.2 hopen)
      rw [hexecute]
      exact hs
  | write file content other => exact hs.put other content

/-- **A session changes a store by its calls.** -/
theorem afterEvents (hs : d.Represents h path store) (events : List (Event h path)) :
    (d.afterEvents events).Represents h path (store.afterAll (d.callsOf events)) := by
  induction events generalizing d store with
  | nil => exact hs
  | cons event rest ih =>
    rw [callsOf, Store.afterAll_append]
    exact ih (hs.afterEvent event)

end Directory.Represents

section Calls

variable {calls : List StoreCall}
  (hcalls : ∀ call ∈ calls, ∀ record ∈ call.records, FromFile record)

include hcalls

theorem fromFile_of_mem_accepted : ∀ record ∈ Store.fresh.accepted calls, FromFile record := by
  intro record hrecord
  obtain ⟨call, hcall, hmem⟩ := Store.exists_call_of_mem_accepted hrecord
  exact hcalls call hcall record hmem

/-- A store made of records from files can come about, and its offsets have 64 bits. -/
theorem reachable_afterAll : (Store.fresh.afterAll calls).Reachable ∧
    ∀ t, (Store.fresh.afterAll calls).tables = some t → t.OffsetsFit := by
  have hrecords := fromFile_of_mem_accepted hcalls
  by_cases hschema : StoreCall.initSchema ∈ calls
  -- With a schema the store holds just the records that were accepted.
  · have hholds : (Store.fresh.afterAll calls).Holds (Store.fresh.accepted calls) :=
      Store.holds_afterAll_of_mem rfl hschema
    have hstore : Store.fresh.afterAll calls = ⟨some (.ofRecords (Store.fresh.accepted calls))⟩ :=
      congrArg Store.mk hholds.tables
    refine ⟨?_, fun t ht => ?_⟩
    · rw [hstore]
      exact .ofRecords hholds.ids fun record hrecord => (hrecords record hrecord).normal
    · rw [hholds.tables] at ht
      cases ht
      exact .ofRecords fun record hrecord => (hrecords record hrecord).offsetsFit
  · have hfresh : Store.fresh.afterAll calls = .fresh :=
      (Store.afterAll_of_no_tables rfl hschema).1
    rw [hfresh]
    refine ⟨.fresh, fun t ht => ?_⟩
    cases ht

end Calls

/-- A store with records from files lists the versions of the records. -/
theorem listsVersions_of_holds {store : Store} {records : List RunRecord}
    (hs : store.Holds records) (hrecords : ∀ record ∈ records, FromFile record) :
    ∃ versions sdks, store.clusterVersions = .ok versions ∧ store.sdks = .ok sdks ∧
      ListsVersions records versions sdks := by
  -- Nothing is so deep that it could not be searched.
  have hsearch : (Tables.ofRecords records).searchable = true := by
    refine List.all_eq_true.2 fun run hrun => decide_eq_true ?_
    obtain ⟨record, hrecord, rfl⟩ := List.mem_map.1 hrun
    exact Nat.le_trans (hrecords record hrecord).depth (by decide)
  -- What is listed is what the store finds, and it finds at least what the records have.
  have hversions : ∀ version, version ∈ stableSort Version.compare
      (distinct ((Tables.ofRecords records).runs.filterMap (·.storedText? clusterVersionPath))) ↔
        ∃ record ∈ records, record.run.storedText? clusterVersionPath = some version := by
    intro version
    simp only [mem_stableSort, mem_distinct, List.mem_filterMap, Tables.ofRecords, List.mem_map,
      exists_exists_and_eq_and]
  have hsdks : ∀ language version, version ∈ versionsOf
      (sdksOf ((Tables.ofRecords records).runs.filterMap Run.storedSdk?)) language ↔
        ∃ record ∈ records, record.run.storedSdk? = some (language, version) := by
    intro language version
    simp only [mem_versionsOf_sdksOf, List.mem_filterMap, Tables.ofRecords, List.mem_map,
      exists_exists_and_eq_and]
  refine ⟨_, _, (Store.query_of_tables hs.tables _ _).trans (if_pos hsearch),
    (Store.query_of_tables hs.tables _ _).trans (if_pos hsearch), hversions, hsdks, ?_, ?_⟩
  · intro record hrecord version hversion
    have hplain : ∀ key ∈ FieldPath.keys clusterVersionPath, StoredKey.Plain key := by decide
    exact (hversions version).2 ⟨record, hrecord,
      Run.storedText?_of_textAt? (hrecords record hrecord).normal.params hplain hversion⟩
  · intro record hrecord language version hlanguage hversion
    exact (hsdks language version).2 ⟨record, hrecord,
      Run.storedSdk?_of_sdk (hrecords record hrecord).normal.params hlanguage hversion⟩

/-- **A session is answered as the library would answer it.** After a session that began without a
store, the file holds what the calls of the session make of a fresh store. As long as it can be
opened, whatever is asked for in JSON is answered by a new engine over that store, and the text that
is printed shows the answer; or the command fails, because there is no answer or because a file
cannot be read. The lists of versions are read from the text as they are. Once there are tables they
never fail, and show every record that was imported. A command fails as well if the file cannot be
opened, and then changes nothing. -/
theorem session_answers {d : Directory} (hs : d.Represents h path .fresh)
    (events : List (Event h path)) :
    (d.afterEvents events).Represents h path (Store.fresh.afterAll (d.callsOf events)) ∧
      (∀ l : Line h path, (d.afterEvents events).canOpen h l.file = true →
        l.invocation.command.format? = some .json →
          (l.execute (d.afterEvents events)).2.Reports
            (l.invocation.command.question? h (d.afterEvents events)) fun question =>
              question.answer l.invocation.gerritPrefix
                (Store.fresh.afterAll (d.callsOf events))) ∧
      (StoreCall.initSchema ∈ d.callsOf events →
        ∀ l : Line h path, (d.afterEvents events).canOpen h l.file = true →
          l.invocation.command = .versions .json →
            ∃ text versions sdks, (l.execute (d.afterEvents events)).2 = .printed text ∧
              (Json.read? text).bind decodeReference? = some (.versions versions sdks) ∧
              ListsVersions (Store.fresh.accepted (d.callsOf events)) versions sdks) ∧
      ∀ l : Line h path, (d.afterEvents events).canOpen h l.file = false →
        ∃ reason, l.execute (d.afterEvents events) =
          (d.afterEvents events, .failed (.unopened l.invocation.database reason)) := by
  have hafter := hs.afterEvents events
  have hfiles : ∀ call ∈ d.callsOf events, ∀ record ∈ call.records, FromFile record :=
    fun call => fromFile_of_mem_callsOf
  obtain ⟨hreachable, hfit⟩ := reachable_afterAll hfiles
  have hreports : ∀ l : Line h path, (d.afterEvents events).canOpen h l.file = true →
      l.invocation.command.format? = some .json →
        (l.execute (d.afterEvents events)).2.Reports
          (l.invocation.command.question? h (d.afterEvents events)) fun question =>
            question.answer l.invocation.gerritPrefix
              (Store.fresh.afterAll (d.callsOf events)) := by
    intro l hopen hformat
    rw [l.execute_eq]
    exact Invocation.reports_execute l.connected l.located hopen (hafter.congr l.place)
      hreachable hfit hformat
  refine ⟨hafter, hreports, fun hschema l hopen hcommand => ?_, fun l hopen => ?_⟩
  · have hholds : (Store.fresh.afterAll (d.callsOf events)).Holds
        (Store.fresh.accepted (d.callsOf events)) := Store.holds_afterAll_of_mem rfl hschema
    obtain ⟨versions, sdks, hversions, hsdks, hlists⟩ :=
      listsVersions_of_holds hholds (fromFile_of_mem_accepted hfiles)
    have hquestion : l.invocation.command.question? h (d.afterEvents events) = some .versions := by
      rw [hcommand]
      rfl
    have hanswer : Question.versions.answer l.invocation.gerritPrefix
        (Store.fresh.afterAll (d.callsOf events)) = .ok (.versions versions sdks) := by
      rw [Question.answer_versions, hversions, hsdks]
      rfl
    obtain ⟨text, hprinted, hshows⟩ :=
      (hreports l hopen (by rw [hcommand]; rfl)).printed _ _ hquestion hanswer
    refine ⟨text, versions, sdks, hprinted, ?_, hlists⟩
    have hread : Json.read? text = some (encodeReference (versions, sdks)) :=
      hshows.readsAs.read?_eq (not_mem_numbers_encodeReference _)
        (Nat.le_trans (depth_encodeReference_le _) (by decide))
    rw [hread]
    exact decodeReference?_encode versions sdks
  · rw [l.execute_eq]
    exact Invocation.execute_of_not_canOpen l.connected l.located hopen

/-- After the import of one record, its cluster version is listed. The lists are asked for with
another spelling of the address. -/
theorem session_answers_imported :
    let d : Directory := ⟨[("runs.json", .text ("\x7b\"id\": \"run\", "
      ++ "\"datetime\": \"2024-03-01T12:00:00Z\", "
      ++ "\"params\": \x7b\"cluster\": \x7b\"version\": \"7.6\"\x7d\x7d\x7d"))]⟩
    let imports : Line .plain "perf-dashboard.db" :=
      { environment := none
        args := ["import", "--file", "runs.json"]
        invocation := ⟨"perf-dashboard.db", 8, defaultGerritPrefix, .importRuns "runs.json"⟩
        accepted := rfl
        connected := by decide
        file := "perf-dashboard.db"
        located := by decide +kernel
        place := rfl }
    let lists : Line .plain "perf-dashboard.db" :=
      { environment := some "file:./perf-dashboard.db"
        args := ["versions", "--format=json"]
        invocation := ⟨"file:./perf-dashboard.db", 8, defaultGerritPrefix, .versions .json⟩
        accepted := rfl
        connected := by decide
        file := "./perf-dashboard.db"
        located := by decide +kernel
        place := by decide +kernel }
    d.Represents .plain "perf-dashboard.db" .fresh ∧
      ∃ text versions sdks, (lists.execute (d.afterEvents [.line imports])).2 = .printed text ∧
        (Json.read? text).bind decodeReference? = some (.versions versions sdks) ∧
        "7.6" ∈ versions := by
  intro d imports lists
  have hmissing : (d.content? .plain (Host.plain.place "perf-dashboard.db")).isNone = true := by
    decide +kernel
  have hfresh := represents_fresh (Option.isNone_iff_eq_none.1 hmissing)
  have hopen : (d.afterEvents [.line imports]).canOpen .plain lists.file = true := by
    decide +kernel
  have hfound : (Store.fresh.accepted (d.callsOf [.line imports])).any
      (fun record => record.run.storedText? clusterVersionPath = some "7.6") = true := by
    decide +kernel
  obtain ⟨record, hrecord, hversion⟩ := List.any_eq_true.1 hfound
  have hschema : StoreCall.initSchema ∈ d.callsOf [.line imports] := by
    by_contra hno
    have hnone : Store.fresh.accepted (d.callsOf [.line imports]) = [] :=
      (Store.afterAll_of_no_tables rfl hno).2
    rw [hnone] at hrecord
    cases hrecord
  obtain ⟨text, versions, sdks, hprinted, hread, hlists⟩ :=
    (session_answers hfresh [.line imports]).2.2.1 hschema lists hopen rfl
  exact ⟨hfresh, text, versions, sdks, hprinted, hread,
    (hlists.clusterVersions "7.6").2 ⟨record, hrecord, of_decide_eq_true hversion⟩⟩

end BenchCharts.CommandLine

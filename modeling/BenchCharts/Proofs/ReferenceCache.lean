import Mathlib.Data.List.DropRight
import BenchCharts.ReferenceCache

/-!
# What a cache answers over time

Calls for either list and resets come in any order, and each call brings a function of its own to
load the list with. What is seen of the calls is a log, and the log settles what the cache holds:
for each list the value of the first load since the last reset that succeeded. This is the invariant
`Remembers`; `Remembers.call` is one call, and `Remembers.run` any number of them.

From it `run_loadsOnce` reads off when a call loads its list and what it answers. That the two lists
never get into each other's way is `run_filter`: the log of one of them is what it would be without
the calls for the other.
-/

namespace BenchCharts

/-! ### Lists, calls and logs -/

/-- The lists that are kept in a cache. -/
inductive ReferenceList where
  /-- The cluster versions. -/
  | clusterVersions
  /-- The SDKs. -/
  | sdks
deriving DecidableEq

/-- What a list is. -/
abbrev ReferenceList.Value : ReferenceList → Type
  | .clusterVersions => List String
  | .sdks => List SdkInfo

/-- What is done with a cache; a list that has to be loaded may fail to, with an error in `ε`. -/
inductive CacheCall (ε : Type) where
  /-- A list is asked for, and can be loaded if it is not there. -/
  | fetch (list : ReferenceList) (load : Unit → Except ε list.Value)
  /-- Both lists are dropped. -/
  | reset

/-- What is seen of a call. -/
inductive CacheEvent (ε : Type) where
  /-- A list was asked for: whether it was loaded, and what the answer was. -/
  | fetched (list : ReferenceList) (loaded : Bool) (result : Except ε list.Value)
  /-- Both lists were dropped. -/
  | reset

variable {ε : Type}

/-- Whether a call is about a list; a reset is about both. -/
def CacheCall.concerns (list : ReferenceList) : CacheCall ε → Bool
  | .fetch other _ => other = list
  | .reset => true

namespace CacheEvent

/-- Whether an event is about a list; a reset is about both. -/
def concerns (list : ReferenceList) : CacheEvent ε → Bool
  | .fetched other _ _ => other = list
  | .reset => true

/-- Whether an event drops the lists. -/
def isReset : CacheEvent ε → Bool
  | .fetched _ _ _ => false
  | .reset => true

/-- The value with which a list was loaded. -/
def loadedValue? : (list : ReferenceList) → CacheEvent ε → Option list.Value
  | .clusterVersions, .fetched .clusterVersions true (.ok value) => some value
  | .sdks, .fetched .sdks true (.ok value) => some value
  | _, _ => none

/-- The events since the last reset, or since the cache was created. -/
def sinceReset (log : List (CacheEvent ε)) : List (CacheEvent ε) :=
  log.rtakeWhile fun event => !event.isReset

/-- The value of the first load of a list that succeeded. -/
def firstLoaded? (list : ReferenceList) (log : List (CacheEvent ε)) : Option list.Value :=
  log.findSome? (loadedValue? list)

/-- A call for a list had an answer. -/
def Answered (list : ReferenceList) (log : List (CacheEvent ε)) : Prop :=
  ∃ loaded value, fetched list loaded (.ok value) ∈ log

end CacheEvent

open CacheEvent

namespace ReferenceCache

/-- A list, if the cache has it. -/
def get? (c : ReferenceCache) : (list : ReferenceList) → Option list.Value
  | .clusterVersions => c.versions
  | .sdks => c.sdkInfos

/-- The cache with a list in it. -/
def put (c : ReferenceCache) : (list : ReferenceList) → list.Value → ReferenceCache
  | .clusterVersions, value => { c with versions := some value }
  | .sdks, value => { c with sdkInfos := some value }

/-- Asks for a list. -/
def fetch (c : ReferenceCache) :
    (list : ReferenceList) → (Unit → Except ε list.Value) → Fetched ε list.Value
  | .clusterVersions, load => c.clusterVersions load
  | .sdks, load => c.sdks load

/-- What is seen of a call, and the cache after it. -/
def call (c : ReferenceCache) : CacheCall ε → CacheEvent ε × ReferenceCache
  | .fetch list load => (.fetched list (c.fetch list load).loaded (c.fetch list load).result,
      (c.fetch list load).cache)
  | .reset => (.reset, .empty)

/-- The log of some calls, and the cache after them. -/
def run (c : ReferenceCache) : List (CacheCall ε) → List (CacheEvent ε) × ReferenceCache
  | [] => ([], c)
  | first :: rest =>
    let next := (c.call first).2.run rest
    ((c.call first).1 :: next.1, next.2)

/-! ### One call -/

@[simp] theorem get?_empty (list : ReferenceList) : empty.get? list = none := by
  cases list <;> rfl

@[simp] theorem get?_put_self (c : ReferenceCache) (list : ReferenceList) (value : list.Value) :
    (c.put list value).get? list = some value := by
  cases list <;> rfl

theorem get?_put_of_ne (c : ReferenceCache) {list other : ReferenceList} (hne : other ≠ list)
    (value : list.Value) : (c.put list value).get? other = c.get? other := by
  cases list <;> cases other <;> first | rfl | exact absurd rfl hne

/-- Both lists are asked for in the same way. -/
theorem fetch_eq (c : ReferenceCache) (list : ReferenceList)
    (load : Unit → Except ε list.Value) :
    c.fetch list load =
      match c.get? list with
      | some value => ⟨.ok value, false, c⟩
      | none =>
        match load () with
        | .ok value => ⟨.ok value, true, c.put list value⟩
        | .error e => ⟨.error e, true, c⟩ := by
  cases list with
  | clusterVersions =>
    rw [fetch, clusterVersions, get?]
    cases c.versions with
    | some value => rfl
    | none => cases load () <;> rfl
  | sdks =>
    rw [fetch, sdks, get?]
    cases c.sdkInfos with
    | some value => rfl
    | none => cases load () <;> rfl

/-- **All that asking for a list can do.** -/
theorem fetch_cases (c : ReferenceCache) (list : ReferenceList)
    (load : Unit → Except ε list.Value) :
    (∃ value, c.get? list = some value ∧ c.fetch list load = ⟨.ok value, false, c⟩) ∨
    (∃ value, c.get? list = none ∧ load () = .ok value ∧
      c.fetch list load = ⟨.ok value, true, c.put list value⟩) ∨
    ∃ e, c.get? list = none ∧ load () = .error e ∧ c.fetch list load = ⟨.error e, true, c⟩ := by
  rw [fetch_eq]
  cases hkept : c.get? list with
  | some value => exact .inl ⟨value, rfl, rfl⟩
  | none =>
    cases hload : load () with
    | ok value => exact .inr (.inl ⟨value, rfl, rfl, rfl⟩)
    | error e => exact .inr (.inr ⟨e, rfl, rfl, rfl⟩)

/-- Asking for a list leaves the other one as it was. -/
theorem get?_fetch_of_ne (c : ReferenceCache) {list other : ReferenceList} (hne : other ≠ list)
    (load : Unit → Except ε list.Value) : (c.fetch list load).cache.get? other = c.get? other := by
  -- Only a load that succeeds changes the cache, and it puts in the list that was asked for.
  rcases fetch_cases c list load with ⟨value, -, hfetch⟩ | ⟨value, -, -, hfetch⟩ | ⟨e, -, -, hfetch⟩
  · rw [hfetch]
  · rw [hfetch]
    exact get?_put_of_ne c hne value
  · rw [hfetch]

section Fetch

variable {c : ReferenceCache} {list : ReferenceList} {load : Unit → Except ε list.Value}

theorem loaded_fetch_iff : (c.fetch list load).loaded = true ↔ c.get? list = none := by
  rcases fetch_cases c list load with
    ⟨value, hkept, hfetch⟩ | ⟨value, hkept, -, hfetch⟩ | ⟨e, hkept, -, hfetch⟩
  · simp [hfetch, hkept]
  · simp [hfetch, hkept]
  · simp [hfetch, hkept]

theorem result_fetch_of_loaded (h : (c.fetch list load).loaded = true) :
    (c.fetch list load).result = load () := by
  rcases fetch_cases c list load with
    ⟨value, -, hfetch⟩ | ⟨value, -, hload, hfetch⟩ | ⟨e, -, hload, hfetch⟩
  -- A list that is there is not loaded.
  · rw [hfetch] at h
    cases h
  · rw [hfetch, hload]
  · rw [hfetch, hload]

/-- What is there is answered whatever loading it would give. -/
theorem fetch_eq_of_not_loaded (h : (c.fetch list load).loaded = false)
    (load' : Unit → Except ε list.Value) : c.fetch list load' = c.fetch list load := by
  rw [← Bool.not_eq_true, loaded_fetch_iff, ← ne_eq, Option.ne_none_iff_exists'] at h
  -- The list was there, and then the function to load it with is not called.
  obtain ⟨value, hkept⟩ := h
  rw [fetch_eq, fetch_eq, hkept]

/-- What is answered is in the cache afterwards. -/
theorem get?_fetch_of_ok {value : list.Value} (h : (c.fetch list load).result = .ok value) :
    (c.fetch list load).cache.get? list = some value := by
  rcases fetch_cases c list load with
    ⟨found, hkept, hfetch⟩ | ⟨found, -, -, hfetch⟩ | ⟨e, -, -, hfetch⟩
  -- The answer was there before, or it has been put there.
  · rw [hfetch] at h ⊢
    cases h
    exact hkept
  · rw [hfetch] at h ⊢
    cases h
    exact get?_put_self c list _
  · rw [hfetch] at h
    cases h

/-- A failure is that of the load, and leaves the cache as it was. -/
theorem fetch_of_error {e : ε} (h : (c.fetch list load).result = .error e) :
    load () = .error e ∧ (c.fetch list load).cache = c := by
  rcases fetch_cases c list load with
    ⟨found, -, hfetch⟩ | ⟨found, -, -, hfetch⟩ | ⟨e', -, hload, hfetch⟩
  · rw [hfetch] at h
    cases h
  · rw [hfetch] at h
    cases h
  · rw [hfetch] at h ⊢
    cases h
    exact ⟨hload, rfl⟩

end Fetch

/-- What is seen of a call for a list, and what becomes of the list, is settled by the list. -/
theorem fetch_congr {c c' : ReferenceCache} {list : ReferenceList}
    (h : c.get? list = c'.get? list) (load : Unit → Except ε list.Value) :
    (c.fetch list load).loaded = (c'.fetch list load).loaded ∧
      (c.fetch list load).result = (c'.fetch list load).result ∧
      (c.fetch list load).cache.get? list = (c'.fetch list load).cache.get? list := by
  rw [fetch_eq, fetch_eq, ← h]
  cases hkept : c.get? list with
  | some value => exact ⟨rfl, rfl, h⟩
  -- Neither cache has the list, so both load it.
  | none =>
    cases load () with
    | ok value => exact ⟨rfl, rfl, by rw [get?_put_self, get?_put_self]⟩
    | error e => exact ⟨rfl, rfl, h⟩

theorem isPopulated_iff {c : ReferenceCache} :
    c.isPopulated = true ↔ ∀ list, (c.get? list).isSome = true := by
  rw [isPopulated, Bool.and_eq_true]
  constructor
  · rintro ⟨hversions, hsdks⟩ list
    cases list with
    | clusterVersions => exact hversions
    | sdks => exact hsdks
  · intro h
    exact ⟨h .clusterVersions, h .sdks⟩

end ReferenceCache

/-! ### Logs that get longer -/

namespace CacheEvent

variable {log : List (CacheEvent ε)} {list : ReferenceList}

theorem sinceReset_append_fetched (list : ReferenceList) (loaded : Bool)
    (result : Except ε list.Value) :
    sinceReset (log ++ [fetched list loaded result]) =
      sinceReset log ++ [fetched list loaded result] :=
  List.rtakeWhile_concat_pos _ _ _ rfl

@[simp] theorem sinceReset_append_reset : sinceReset (log ++ [.reset]) = [] :=
  List.rtakeWhile_concat_neg _ _ _ (by simp [isReset])

theorem firstLoaded?_append (event : CacheEvent ε) :
    firstLoaded? list (log ++ [event]) = (firstLoaded? list log).or (loadedValue? list event) := by
  rw [firstLoaded?, List.findSome?_append]
  cases h : loadedValue? list event <;> simp [firstLoaded?, h]

@[simp] theorem loadedValue?_loaded (value : list.Value) :
    loadedValue? list (fetched (ε := ε) list true (.ok value)) = some value := by
  cases list <;> rfl

theorem loadedValue?_of_error (loaded : Bool) (e : ε) :
    loadedValue? list (fetched list loaded (.error e)) = none := by
  cases list <;> cases loaded <;> rfl

theorem loadedValue?_of_ne {other : ReferenceList} (hne : other ≠ list) (loaded : Bool)
    (result : Except ε list.Value) :
    loadedValue? other (fetched list loaded result) = none := by
  cases list <;> cases other <;> first | rfl | exact absurd rfl hne

theorem answered_append {event : CacheEvent ε} :
    Answered list (log ++ [event]) ↔
      Answered list log ∨ ∃ loaded value, event = fetched list loaded (.ok value) := by
  simp only [Answered, List.mem_append, List.mem_singleton, exists_or, eq_comm]

end CacheEvent

namespace ReferenceCache

/-! ### The invariant -/

/-- What a cache holds is what the log since the last reset says. -/
structure Remembers (c : ReferenceCache) (log : List (CacheEvent ε)) : Prop where
  /-- A list is the value of the first load of it that succeeded. -/
  kept : ∀ list, c.get? list = firstLoaded? list (sinceReset log)
  /-- A list is there exactly if a call for it had an answer. -/
  answered : ∀ list, Answered list (sinceReset log) ↔ (c.get? list).isSome = true

theorem remembers_empty : empty.Remembers ([] : List (CacheEvent ε)) := by
  refine ⟨fun list => ?_, fun list => ?_⟩
  · rw [get?_empty]
    rfl
  · rw [get?_empty]
    refine iff_of_false ?_ (by simp)
    rintro ⟨loaded, value, hmem⟩
    cases hmem

/-- **A call keeps the cache in step with the log.** -/
theorem Remembers.call {c : ReferenceCache} {log : List (CacheEvent ε)} (h : c.Remembers log)
    (call : CacheCall ε) : (c.call call).2.Remembers (log ++ [(c.call call).1]) := by
  cases call with
  | reset =>
    rw [ReferenceCache.call]
    refine ⟨fun list => ?_, fun list => ?_⟩
    -- After a reset the log starts anew, and so does the cache.
    · rw [sinceReset_append_reset]
      exact remembers_empty.kept list
    · rw [sinceReset_append_reset]
      exact remembers_empty.answered list
  | fetch list load =>
    rw [ReferenceCache.call]
    refine ⟨fun other => ?_, fun other => ?_⟩
    · rw [sinceReset_append_fetched, firstLoaded?_append, ← h.kept]
      by_cases hother : other = list
      -- The list was there, or it has been loaded, or loading it has failed.
      · subst hother
        rcases fetch_cases c other load with
          ⟨value, hkept, hfetch⟩ | ⟨value, hkept, -, hfetch⟩ | ⟨e, hkept, -, hfetch⟩
        · rw [hfetch, hkept, Option.some_or]
        · rw [hfetch, hkept, Option.none_or, loadedValue?_loaded, get?_put_self]
        · rw [hfetch, hkept, Option.none_or, loadedValue?_of_error]
      · rw [get?_fetch_of_ne c hother, loadedValue?_of_ne hother, Option.or_none]
    · rw [sinceReset_append_fetched, answered_append, h.answered]
      by_cases hother : other = list
      · subst hother
        rcases fetch_cases c other load with
          ⟨value, hkept, hfetch⟩ | ⟨value, hkept, -, hfetch⟩ | ⟨e, hkept, -, hfetch⟩
        · rw [hfetch, hkept]
          simp
        · rw [hfetch, hkept, get?_put_self]
          simp
        · rw [hfetch, hkept]
          simp
      -- The new event is about another list.
      · rw [get?_fetch_of_ne c hother]
        refine or_iff_left ?_
        rintro ⟨loaded, value, heq⟩
        exact hother (CacheEvent.fetched.inj heq).1.symm

/-- **So do all calls of a run.** -/
theorem Remembers.run {c : ReferenceCache} {log : List (CacheEvent ε)} (h : c.Remembers log)
    (calls : List (CacheCall ε)) : (c.run calls).2.Remembers (log ++ (c.run calls).1) := by
  induction calls generalizing c log with
  | nil => rwa [ReferenceCache.run, List.append_nil]
  | cons first rest ih =>
    -- The first call adds its event to the log, and the others go on from there.
    have hrest := ih (h.call first)
    rwa [List.append_assoc, List.singleton_append] at hrest

/-- The calls for the other list do not show in the log of a list. -/
theorem run_filter {c c' : ReferenceCache} {list : ReferenceList} (h : c.get? list = c'.get? list)
    (calls : List (CacheCall ε)) :
    (c.run calls).1.filter (·.concerns list) = (c'.run (calls.filter (·.concerns list))).1 := by
  induction calls generalizing c c' with
  | nil => rfl
  | cons first rest ih =>
    cases first with
    | reset =>
      -- A reset concerns both lists, and leaves both caches empty.
      rw [List.filter_cons_of_pos rfl, ReferenceCache.run, ReferenceCache.run,
        List.filter_cons_of_pos rfl]
      exact congrArg (CacheEvent.reset :: ·) (ih rfl)
    | fetch other load =>
      by_cases hother : other = list
      -- The call is in both runs, and answered alike since the caches agree on the list.
      · subst hother
        obtain ⟨hloaded, hresult, hkept⟩ := fetch_congr h load
        rw [List.filter_cons_of_pos (by simp [CacheCall.concerns]), ReferenceCache.run,
          ReferenceCache.run, List.filter_cons_of_pos (by simp [call, concerns])]
        simp only [call, hloaded, hresult]
        exact congrArg _ (ih hkept)
      -- The call is in one run only, but leaves the list as it is.
      · rw [List.filter_cons_of_neg (by simp [CacheCall.concerns, hother]), ReferenceCache.run,
          List.filter_cons_of_neg (by simp [call, concerns, hother])]
        refine ih ?_
        rw [call, get?_fetch_of_ne c (Ne.symm hother), h]

/-! ### Any calls on a new cache -/

/-- What a call for a list does, given the log of the calls before it. -/
structure LoadsOnce (log : List (CacheEvent ε)) (c : ReferenceCache) (list : ReferenceList)
    (load : Unit → Except ε list.Value) : Prop where
  /-- The list is loaded exactly if no call for it had an answer since the last reset. -/
  loaded_iff : (c.fetch list load).loaded = true ↔ ¬ Answered list (sinceReset log)
  /-- If it is loaded, the answer is that of the load. -/
  result_of_loaded : (c.fetch list load).loaded = true → (c.fetch list load).result = load ()
  /-- If it is not, it does not matter what the load would have been. -/
  fetch_of_not_loaded : (c.fetch list load).loaded = false →
    ∀ load', c.fetch list load' = c.fetch list load
  /-- What is answered is the value of the first load since the last reset that succeeded. -/
  first : ∀ value, (c.fetch list load).result = .ok value →
    firstLoaded? list (sinceReset
      (log ++ [fetched list (c.fetch list load).loaded (c.fetch list load).result])) = some value
  /-- A failure is that of the load and leaves both lists as they were. -/
  failed : ∀ e, (c.fetch list load).result = .error e →
    load () = .error e ∧ (c.fetch list load).cache = c
  /-- The other list is left as it was in any case. -/
  other : ∀ other ≠ list, (c.fetch list load).cache.get? other = c.get? other

theorem Remembers.loadsOnce {c : ReferenceCache} {log : List (CacheEvent ε)}
    (h : c.Remembers log) (list : ReferenceList) (load : Unit → Except ε list.Value) :
    LoadsOnce log c list load where
  loaded_iff := by
    rw [loaded_fetch_iff, h.answered, ← Option.not_isSome_iff_eq_none]
  result_of_loaded := result_fetch_of_loaded
  fetch_of_not_loaded := fetch_eq_of_not_loaded
  first value hvalue := by
    -- After this call the cache remembers the log with it, and the answer is in the cache.
    have hkept := (h.call (.fetch list load)).kept list
    rw [ReferenceCache.call] at hkept
    rw [← hkept]
    exact get?_fetch_of_ok hvalue
  failed e := fetch_of_error
  other other hne := get?_fetch_of_ne c hne load

/-- **Each list is loaded once between resets**, whatever the calls are and however their loads
answer. The cache is populated exactly if both lists were loaded since the last reset, and the calls
for one list do not show in the log of the other. -/
theorem run_loadsOnce (calls : List (CacheCall ε)) :
    (∀ list load, LoadsOnce (empty.run calls).1 (empty.run calls).2 list load) ∧
    ((empty.run calls).2.isPopulated = true ↔
      ∀ list, ∃ value, firstLoaded? list (sinceReset (empty.run calls).1) = some value) ∧
    ∀ list, (empty.run calls).1.filter (·.concerns list) =
      (empty.run (calls.filter (·.concerns list))).1 := by
  have h : (empty.run calls).2.Remembers (empty.run calls).1 := remembers_empty.run calls
  refine ⟨h.loadsOnce, ?_, fun list => run_filter rfl calls⟩
  -- Both lists are there if the log has a load of each that succeeded.
  rw [isPopulated_iff]
  refine forall_congr' fun list => ?_
  rw [h.kept, Option.isSome_iff_exists]

end ReferenceCache

end BenchCharts

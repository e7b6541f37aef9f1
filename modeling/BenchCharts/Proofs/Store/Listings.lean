import Mathlib.Data.List.Nodup
import BenchCharts.Proofs.Json.Reread
import BenchCharts.Proofs.Sorting
import BenchCharts.Proofs.Store.Lookup
import BenchCharts.Proofs.Version.Order
import BenchCharts.Store.Listings
import BenchCharts.Store.Search

/-!
# What the list of SDKs holds

The list has an entry for each language that the store finds in some run, with the versions that it
finds together with that language. They are there once each and in ascending order
(`mem_versionsOf_sdksOf` and `pairwise_versionsOf_sdksOf`).

What the store finds is not always what a run has. It looks up language and version in its own way,
while the fields of a run are read as they are. In normal parameters it finds what is there
(`Run.storedSdk?_of_sdk`); that it finds nothing else takes names without NUL
(`Run.storedSdk?_eq_some_iff_of_legible`).
-/

namespace BenchCharts

open StoredKey (Plain NamesLegible)

/-! ### Language and version of a run -/

theorem plain_of_mem_languagePath : ∀ key ∈ FieldPath.keys languagePath, Plain key := by decide

theorem plain_of_mem_versionPath : ∀ key ∈ FieldPath.keys versionPath, Plain key := by decide

namespace Json

theorem text?_reread (j : Json) : j.reread.text? = j.text? := by
  cases j <;> rfl

/-- Texts stay as they are when an object is kept as text. -/
theorem Fields.textAt?_rereadFields (fields : Fields) (path : String) :
    Fields.textAt? (rereadFields fields) path = fields.textAt? path := by
  rw [Fields.textAt?, Fields.at?_eq_getKeys?, Fields.getKeys?_rereadFields, Option.bind_map,
    ← Fields.at?_eq_getKeys?]
  exact Option.bind_congr fun value _ => text?_reread value

end Json

namespace Run

variable {run : Run}

theorem language?_loaded (run : Run) : run.loaded.language? = run.language? :=
  Json.Fields.textAt?_rereadFields run.params languagePath

theorem version?_loaded (run : Run) : run.loaded.version? = run.version? :=
  Json.Fields.textAt?_rereadFields run.params versionPath

/-- A text at plain keys is found. -/
theorem storedText?_of_textAt? (hnormal : (Json.obj run.params).Normal) {path text : String}
    (hplain : ∀ key ∈ FieldPath.keys path, Plain key)
    (htext : run.params.textAt? path = some text) : run.storedText? path = some text := by
  -- The text is read from a value, and that is what the store finds.
  obtain ⟨value, hvalue, hread⟩ := Option.bind_eq_some_iff.1 htext
  rw [← Json.Fields.getKeys?_keys] at hvalue
  rw [storedText?, StoredKey.lookup?_of_getKeys? hnormal hplain hvalue]
  exact hread

/-- In an object with legible names, no other text is found at plain keys. -/
theorem storedText?_eq_textAt? (hnames : NamesLegible (.obj run.params)) {path : String}
    (hplain : ∀ key ∈ FieldPath.keys path, Plain key) :
    run.storedText? path = run.params.textAt? path := by
  rw [storedText?, StoredKey.lookup?_eq_getKeys? hnames hplain, Json.Fields.getKeys?_keys]
  rfl

theorem storedSdk?_eq_some_iff {language version : String} :
    run.storedSdk? = some (language, version) ↔
      run.storedText? languagePath = some language ∧
        run.storedText? versionPath = some version := by
  rw [storedSdk?]
  -- Both have to be there.
  cases run.storedText? languagePath <;> cases run.storedText? versionPath <;> simp

/-- **The SDK of a run is found** as what it is. -/
theorem storedSdk?_of_sdk (hnormal : (Json.obj run.params).Normal) {language version : String}
    (hlanguage : run.language? = some language) (hversion : run.version? = some version) :
    run.storedSdk? = some (language, version) :=
  storedSdk?_eq_some_iff.2 ⟨storedText?_of_textAt? hnormal plain_of_mem_languagePath hlanguage,
    storedText?_of_textAt? hnormal plain_of_mem_versionPath hversion⟩

/-- **No other SDK is found** if all names are legible. -/
theorem storedSdk?_eq_some_iff_of_legible (hnames : NamesLegible (.obj run.params))
    {language version : String} :
    run.storedSdk? = some (language, version) ↔
      run.language? = some language ∧ run.version? = some version := by
  rw [storedSdk?_eq_some_iff, storedText?_eq_textAt? hnames plain_of_mem_languagePath,
    storedText?_eq_textAt? hnames plain_of_mem_versionPath, language?, version?]

end Run

/-! ### The versions of a language -/

/-- The versions of a language in a list of SDKs; a language that is not there has none. -/
def versionsOf (infos : List SdkInfo) (language : String) : List String :=
  ((infos.find? (·.language = language)).map SdkInfo.versions).getD []

/-- The versions that occur together with a language, in their order of appearance. -/
def versionsIn (pairs : List (String × String)) (language : String) : List String :=
  ((distinct pairs).filter (Prod.fst · = language)).map Prod.snd

theorem mem_versionsIn {pairs : List (String × String)} {language version : String} :
    version ∈ versionsIn pairs language ↔ (language, version) ∈ pairs := by
  simp [versionsIn]

/-- The versions of one language are distinct, since the pairs are. -/
theorem nodup_versionsIn (pairs : List (String × String)) (language : String) :
    (versionsIn pairs language).Nodup := by
  refine ((nodup_distinct pairs).filter _).map_on fun p hp q hq hversion => ?_
  -- Two pairs with one language are told apart by their versions.
  have hp1 : p.1 = language := of_decide_eq_true (List.mem_filter.1 hp).2
  have hq1 : q.1 = language := of_decide_eq_true (List.mem_filter.1 hq).2
  exact Prod.ext (hp1.trans hq1.symm) hversion

theorem pairwise_versionsIn (pairs : List (String × String)) (language : String) :
    (versionsIn pairs language).Pairwise fun a b => Version.compare a b ≠ .eq :=
  (nodup_versionsIn pairs language).imp fun hne heq => hne (Std.LawfulEqCmp.eq_of_compare heq)

theorem sdksOf_eq_map (pairs : List (String × String)) :
    sdksOf pairs = (stableSort compare (distinct ((distinct pairs).map Prod.fst))).map
      fun language => ⟨language, stableSort Version.compare (versionsIn pairs language)⟩ := by
  rw [sdksOf, groupBy, List.map_map]
  rfl

/-- Pairs of language and version make the same list of SDKs in whatever order they come. -/
theorem sdksOf_congr {pairs pairs' : List (String × String)}
    (hmem : ∀ pair, pair ∈ pairs' ↔ pair ∈ pairs) : sdksOf pairs = sdksOf pairs' := by
  -- Without repetitions the same pairs are left, in some other order.
  have hpairs : (distinct pairs').Perm (distinct pairs) := by
    rw [List.perm_ext_iff_of_nodup (nodup_distinct _) (nodup_distinct _)]
    intro pair
    rw [mem_distinct, mem_distinct, hmem]
  have hlanguages : stableSort compare (distinct ((distinct pairs).map Prod.fst)) =
      stableSort compare (distinct ((distinct pairs').map Prod.fst)) :=
    stableSort_distinct_congr fun language => ((hpairs.map Prod.fst).mem_iff).symm
  rw [sdksOf_eq_map, sdksOf_eq_map, hlanguages]
  refine List.map_congr_left fun language _ => ?_
  -- Different versions never compare as equal, so sorting undoes the order.
  have hversions : (versionsIn pairs' language).Perm (versionsIn pairs language) :=
    (hpairs.filter (Prod.fst · = language)).map Prod.snd
  have hsorted := stableSort_eq_of_perm hversions (pairwise_versionsIn pairs language)
  exact congrArg (SdkInfo.mk language) hsorted.symm

/-- The versions of a language in the list are those that occur with it, sorted. -/
theorem versionsOf_sdksOf (pairs : List (String × String)) (language : String) :
    versionsOf (sdksOf pairs) language =
      stableSort Version.compare (versionsIn pairs language) := by
  rw [versionsOf, sdksOf_eq_map]
  cases hfind : (List.map _ _).find? (SdkInfo.language · = language) with
  -- The entry that is found was made for the language.
  | some info =>
    obtain ⟨language', -, rfl⟩ := List.mem_map.1 (List.mem_of_find?_eq_some hfind)
    have hlanguage := List.find?_some hfind
    obtain rfl : language' = language := of_decide_eq_true hlanguage
    rfl
  | none =>
    -- The language does not occur, so there are no versions of it either.
    have hnil : versionsIn pairs language = [] := by
      refine List.eq_nil_iff_forall_not_mem.2 fun version hversion => ?_
      have hlanguage :
          language ∈ stableSort compare (distinct ((distinct pairs).map Prod.fst)) := by
        rw [mem_stableSort, mem_distinct]
        exact List.mem_map.2 ⟨_, mem_distinct.2 (mem_versionsIn.1 hversion), rfl⟩
      have hentry := List.find?_eq_none.1 hfind _ (List.mem_map_of_mem hlanguage)
      exact hentry (decide_eq_true rfl)
    rw [hnil]
    rfl

/-- **A version is in the list** under the languages with which it occurs. -/
theorem mem_versionsOf_sdksOf {pairs : List (String × String)} {language version : String} :
    version ∈ versionsOf (sdksOf pairs) language ↔ (language, version) ∈ pairs := by
  rw [versionsOf_sdksOf, mem_stableSort, mem_versionsIn]

/-- **The versions of a language ascend**, and none is there twice. -/
theorem pairwise_versionsOf_sdksOf (pairs : List (String × String)) (language : String) :
    (versionsOf (sdksOf pairs) language).Pairwise fun a b => Version.compare a b = .lt := by
  rw [versionsOf_sdksOf]
  exact pairwise_lt_stableSort (pairwise_versionsIn pairs language)

end BenchCharts

import BenchCharts.CommandLine.Execution
import BenchCharts.Proofs.Outcome

/-!
# The file of a store

A directory `Represents` a store at a path if the file there is a store or can become one, and holds
what the store has. What is at other places does not matter (`Represents.put`), and a file that is
created when the store is opened changes nothing about it (`Represents.openStore`).

Such a file cannot be mistaken for input either. It is created where there was nothing, inside a
folder, so all folders stay what they are (`isFolder_put`) and paths lead where they led before; and
an empty file holds no JSON. So it makes no difference to what is read from files whether the store
was opened before (`readJson_openStore`).
-/

namespace BenchCharts.CommandLine.Directory

variable {d : Directory} {h : Host} {path : String}

/-! ### What there is at a place -/

/-- What was put somewhere is there, and everything else is where it was. -/
theorem content?_put (content : Content) (place : List String) :
    (d.put h path content).content? h place =
      if h.place path = place then some content else d.content? h place := by
  rw [content?, put, List.find?_cons]
  by_cases hplace : h.place path = place
  · simp only [hplace, beq_self_eq_true, Option.map_some, if_true]
  -- At another place there is what was there, since only what was at the path has gone.
  · have hsame : (fun file : String × Content =>
        decide ((h.place file.1 != h.place path) = true ∧ (h.place file.1 == place) = true)) =
          fun file => h.place file.1 == place := by
      funext file
      by_cases hfile : h.place file.1 = place
      · simp [hfile, Ne.symm hplace]
      · simp [hfile]
    simp only [beq_eq_false_iff_ne.2 hplace, List.find?_filter, hsame, content?, if_neg hplace]

/-! ### Folders -/

theorem isInside_iff {place outer : List String} :
    isInside place outer = true ↔ outer <+: place ∧ place ≠ outer := by
  simp [isInside]

theorem isFolder_iff {place : List String} :
    d.isFolder h place = true ↔ place <+: h.home ∨ ∃ file ∈ d.files,
      isInside (h.place file.1) place = true ∨
        file.2.isFolder = true ∧ h.place file.1 = place := by
  simp [isFolder]

/-- What a folder is in is a folder. -/
theorem isFolder_of_prefix {place outer : List String} (hplace : d.isFolder h place = true)
    (houter : outer <+: place) : d.isFolder h outer = true := by
  by_cases heq : place = outer
  · rwa [← heq]
  rw [isFolder_iff] at hplace ⊢
  -- The place is around the home folder or around some file, or is a folder that was put there.
  rcases hplace with hhome | ⟨file, hfile, hinside | ⟨-, rfl⟩⟩
  · exact .inl (houter.trans hhome)
  · obtain ⟨hreaches, hne⟩ := isInside_iff.1 hinside
    refine .inr ⟨file, hfile, .inl (isInside_iff.2 ⟨houter.trans hreaches, ?_⟩)⟩
    rintro hfileOuter
    rw [hfileOuter] at hreaches
    exact heq (hreaches.eq_of_length_le houter.length_le)
  · exact .inr ⟨file, hfile, .inl (isInside_iff.2 ⟨houter, heq⟩)⟩

/-- What is around a place is around its parent, or it is the parent. -/
theorem prefix_dropLast_of_isInside {place outer : List String}
    (hinside : isInside place outer = true) : outer <+: place.dropLast := by
  obtain ⟨⟨more, rfl⟩, hne⟩ := isInside_iff.1 hinside
  have hmore : more ≠ [] := by
    rintro rfl
    exact hne (List.append_nil outer)
  -- There is at least one name more, and only the last one is dropped.
  rw [List.dropLast_append_of_ne_nil hmore]
  exact List.prefix_append ..

/-- A file that is put into a folder, where there is no folder, leaves all folders as they are. -/
theorem isFolder_put {content : Content} (hcontent : content.isFolder = false)
    (hfree : d.isFolder h (h.place path) = false)
    (hparent : d.isFolder h (h.place path).dropLast = true) (place : List String) :
    (d.put h path content).isFolder h place = d.isFolder h place := by
  rw [Bool.eq_iff_iff]
  refine ⟨fun hafter => ?_, fun hbefore => ?_⟩
  · rcases isFolder_iff.1 hafter with hhome | ⟨file, hfile, hplace⟩
    · exact isFolder_iff.2 (.inl hhome)
    · rcases List.mem_cons.1 hfile with rfl | hfile
      -- The folders around the new file were folders before.
      · rcases hplace with hinside | ⟨hfolder, -⟩
        · exact isFolder_of_prefix hparent (prefix_dropLast_of_isInside hinside)
        · rw [hcontent] at hfolder
          cases hfolder
      · exact isFolder_iff.2 (.inr ⟨file, (List.mem_filter.1 hfile).1, hplace⟩)
  · rcases isFolder_iff.1 hbefore with hhome | ⟨file, hfile, hplace⟩
    · exact isFolder_iff.2 (.inl hhome)
    · by_cases hother : h.place file.1 = h.place path
      -- Where another file was replaced, the new one is in the same folders.
      · rw [hother] at hplace
        rcases hplace with hinside | ⟨-, rfl⟩
        · exact isFolder_iff.2 (.inr ⟨_, List.mem_cons_self .., .inl hinside⟩)
        · rw [hfree] at hbefore
          cases hbefore
      · have hkept : file ∈ (d.put h path content).files :=
          List.mem_cons_of_mem _ (List.mem_filter.2 ⟨hfile, bne_iff_ne.2 hother⟩)
        exact isFolder_iff.2 (.inr ⟨file, hkept, hplace⟩)

/-! ### Stores at a path -/

/-- What is at a path is a store or can become one, and holds what a store has. -/
structure Represents (d : Directory) (h : Host) (path : String) (s : Store) : Prop where
  /-- There is nothing else at the path. -/
  keeps : d.keepsStore h (some path) = true
  /-- What it holds. -/
  holds : d.store h (some path) = s

variable {s : Store}

/-- Only what is at the place matters. -/
theorem Represents.of_content? {d' : Directory} {path' : String} (hs : d.Represents h path s)
    (hsame : d'.content? h (h.place path') = d.content? h (h.place path)) :
    d'.Represents h path' s := by
  refine ⟨?_, ?_⟩
  · rw [keepsStore, Option.bind_some, hsame]
    exact hs.keeps
  · rw [store, Option.bind_some, hsame]
    exact hs.holds

theorem Represents.congr {path' : String} (hs : d.Represents h path s)
    (hplace : h.place path' = h.place path) : d.Represents h path' s :=
  hs.of_content? (by rw [hplace])

/-- Other files can be written. -/
theorem Represents.put {path' : String} (hs : d.Represents h path s)
    (hother : h.place path' ≠ h.place path) (content : Content) :
    (d.put h path' content).Represents h path s := by
  refine hs.of_content? ?_
  rw [content?_put, if_neg hother]

/-- A store that is kept is there afterwards. -/
theorem represents_putStore : (d.putStore h (some path) s).Represents h path s := by
  have hcontent : (d.putStore h (some path) s).content? h (h.place path) = some (.store s) := by
    rw [putStore, content?_put, if_pos rfl]
  refine ⟨?_, ?_⟩
  · rw [keepsStore, Option.bind_some, hcontent]
  · rw [store, Option.bind_some, hcontent]

/-- A path that leads to nothing stands for a store without tables. -/
theorem represents_fresh (hmissing : d.content? h (h.place path) = none) :
    d.Represents h path .fresh := by
  refine ⟨?_, ?_⟩
  · rw [keepsStore, Option.bind_some, hmissing]
  · rw [store, Option.bind_some, hmissing]

/-- It does so before and after it is opened. -/
theorem Represents.openStore (hs : d.Represents h path s) :
    (d.openStore h path).Represents h path s := by
  rw [Directory.openStore]
  split
  · exact hs
  · next hnone =>
    -- There was nothing, which stands for a store without tables.
    have hmissing : d.content? h (h.place path) = none := Option.not_isSome_iff_eq_none.1 hnone
    obtain rfl : Store.fresh = s := by rw [← hs.holds, store, Option.bind_some, hmissing]
    exact represents_putStore

theorem Represents.withSchema (hs : d.Represents h path s) :
    d.withSchema h (some path) = .ok s.initSchema := by
  rw [Directory.withSchema, if_pos hs.keeps, hs.holds]

/-! ### Input -/

section Input

variable {α : Type} {shape : Json.Shape} {decode : Json → Option α}

/-- What is read from a file is decoded from the JSON value in some text. -/
theorem exists_of_readJson {a : α} (hread : d.readJson h shape decode path = .ok a) :
    ∃ text j, Json.readAs? shape text = some j ∧ decode j = some a := by
  rw [readJson] at hread
  split at hread
  · cases hread
  · next text htext =>
    split at hread
    · next hdecoded =>
      cases hread
      obtain ⟨j, hj, ha⟩ := Option.bind_eq_some_iff.1 hdecoded
      exact ⟨text, j, hj, ha⟩
    · cases hread

/-- An empty text holds no JSON. -/
theorem readAs?_empty (shape : Json.Shape) : Json.readAs? shape "" = none := by
  cases shape <;> rfl

theorem toOption_readJson (d : Directory) :
    (d.readJson h shape decode path).toOption =
      (d.readText h path).toOption.bind fun text => (Json.readAs? shape text).bind decode := by
  rw [readJson]
  cases d.readText h path with
  | error reason => rfl
  | ok text =>
    simp only [toOption_ok, Option.bind_some]
    cases (Json.readAs? shape text).bind decode <;> rfl

/-- The place where a path leads depends on folders only, as far as there is one. -/
theorem toOption_walk_congr {d' : Directory} (hfolders : ∀ place, d'.isFolder h place =
    d.isFolder h place) (names : List String) (place : List String) :
    (d'.walk h place names).toOption = (d.walk h place names).toOption := by
  induction names generalizing place with
  | nil => rfl
  | cons name rest ih =>
    rw [walk, walk, hfolders]
    -- A name is followed if the place so far is a folder.
    split
    · exact ih _
    · rfl

/-- What can be opened is in a folder and not a folder. -/
theorem canOpen_iff : d.canOpen h path = true ↔
    (∀ place ∈ h.visited path, d.isBlocked h place = false) ∧ h.place path ≠ [] ∧
      d.isFolder h (h.place path) = false ∧ d.isFolder h (h.place path).dropLast = true := by
  simp [canOpen, and_assoc]

/-- Opening a store makes no difference to what is read. -/
theorem readJson_openStore (hopen : d.canOpen h path = true) (shape : Json.Shape)
    (decode : Json → Option α) (file : String) :
    ((d.openStore h path).readJson h shape decode file).toOption =
      (d.readJson h shape decode file).toOption := by
  obtain ⟨-, -, hfree, hparent⟩ := canOpen_iff.1 hopen
  rw [openStore]
  split
  · rfl
  · next hnone =>
    have hmissing : d.content? h (h.place path) = none := Option.not_isSome_iff_eq_none.1 hnone
    have hfolders : ∀ place, (d.put h path (.store .fresh)).isFolder h place =
        d.isFolder h place := isFolder_put rfl hfree hparent
    -- The path leads to the same place, since all folders are the same.
    have hwalk := toOption_walk_congr hfolders (Host.steps file) (h.start file)
    rw [toOption_readJson, toOption_readJson]
    simp only [readText, toOption_bind, putStore, hwalk]
    cases (d.walk h (h.start file) (Host.steps file)).toOption with
    | none => rfl
    | some place =>
      simp only [Option.bind_some, textAt, hfolders, content?_put]
      split
      · rfl
      · by_cases hplace : h.place path = place
        -- The new file is empty, which is no JSON; before, there was none.
        · subst hplace
          simp only [if_true, hmissing, Store.fresh, toOption_ok, Option.bind_some, readAs?_empty]
          rfl
        · rw [if_neg hplace]

end Input

end BenchCharts.CommandLine.Directory

import BenchCharts.Proofs.Json.Reread
import BenchCharts.Store.Lookup

/-!
# Where the store finds what is there

The store reads keys in its own way. For a `Plain` key, one without a backslash and without NUL,
what it looks for is the key itself; what it finds is the first member whose name is the key up to a
NUL (`finds_iff`).

* `lookup?_of_getKeys?` — in a normal value the store finds what is at plain keys. Names that only
  agree with a key up to a NUL come after the key, so they are not in the way.
* `lookup?_eq_getKeys?` — if no name has a NUL, then it finds nothing else either.

Looking up plain keys can only fail if there are too many containers inside each other, and so not
in anything that can be read (`isSome_search?_iff`, `searchable_of_readable`).
-/

namespace BenchCharts.StoredKey

open Json

/-- A key that the store reads as it is written. -/
def Plain (key : String) : Prop := '\\' ∉ key.toList ∧ '\x00' ∉ key.toList

instance (key : String) : Decidable (Plain key) := inferInstanceAs (Decidable (_ ∧ _))

/-- No object in a value has a member with a NUL in its name. -/
def NamesLegible (j : Json) : Prop :=
  ∀ keys fields, j.getKeys? keys = some (.obj fields) →
    ∀ member ∈ fields, '\x00' ∉ member.1.toList

/-! ### Single keys -/

/-- A character that is no backslash is read as itself. -/
theorem readCode_utf8 {c : Char} (hc : c ≠ '\\') {rest : List Nat}
    (hrest : ∀ byte ∈ rest.head?, Text.isContinuation byte = false) :
    readCode (Text.utf8 c ++ rest) = (some c.toNat, rest) := by
  have hread := Text.readChar_utf8 c hrest
  obtain ⟨byte, more, hbytes⟩ := List.exists_cons_of_ne_nil (Text.utf8_ne_nil c)
  -- A byte that is the backslash is the whole character.
  have hbyte : byte ≠ '\\'.toNat := by
    rintro rfl
    have hhead : (Text.utf8 c).head? = some '\\'.toNat := by rw [hbytes, List.head?_cons]
    exact hc (Char.toNat_inj.1 (Text.toNat_eq_of_head?_utf8 (by decide) hhead))
  rw [hbytes, List.cons_append] at hread ⊢
  rw [readCode, if_neg hbyte, hread]
  rfl

/-- Without a backslash there are no escapes. -/
theorem codesFrom_bytes {cs : List Char} (h : '\\' ∉ cs) {fuel : Nat}
    (hfuel : (Text.bytes cs).length ≤ fuel) :
    codesFrom fuel (Text.bytes cs) = cs.map Char.toNat := by
  induction cs generalizing fuel with
  | nil => cases fuel <;> rfl
  | cons c rest ih =>
    obtain ⟨hc, hrest⟩ := not_or.1 (mt List.mem_cons.2 h)
    rw [Text.bytes_cons] at hfuel ⊢
    have hpos := List.length_pos_iff.2 (Text.utf8_ne_nil c)
    rw [List.length_append] at hfuel
    -- A character takes at least one byte, so fuel for all bytes is enough for all characters.
    obtain ⟨fuel, rfl⟩ := Nat.exists_eq_add_of_le' (show 1 ≤ fuel by omega)
    -- The next character does not begin with a continuation byte, so this one ends where it should.
    have hread := readCode_utf8 (Ne.symm hc) (Text.isContinuation_head?_bytes rest)
    have hempty : (Text.utf8 c ++ Text.bytes rest).isEmpty = false := by
      simp [Text.utf8_ne_nil c]
    simp only [codesFrom, hempty, hread, ih hrest (show _ ≤ fuel by omega)]
    rfl

theorem codes_eq_map {cs : List Char} (h : '\\' ∉ cs) : codes cs = cs.map Char.toNat :=
  codesFrom_bytes h (Nat.le_refl _)

/-- Reading up to the first NUL is the same for characters as for their codes. -/
theorem upToNul_map (cs : List Char) :
    upToNul (cs.map Char.toNat) = (cs.takeWhile (· ≠ '\x00')).map Char.toNat := by
  induction cs with
  | nil => rfl
  | cons c rest ih =>
    rw [upToNul] at ih ⊢
    have hzero : c.toNat = 0 ↔ c = '\x00' := by
      rw [← Char.toNat_inj]
      rfl
    by_cases hc : c = '\x00'
    · simp [hc]
    · simpa [hc, hzero] using ih

/-- What has no NUL is read to its end. -/
theorem takeWhile_of_not_mem {cs : List Char} (h : '\x00' ∉ cs) :
    cs.takeWhile (· ≠ '\x00') = cs := by
  have hall : ∀ c ∈ cs, decide (c ≠ '\x00') = true := by
    intro c hc
    simp only [decide_eq_true_eq]
    rintro rfl
    exact h hc
  have happend := @List.takeWhile_append_of_pos Char _ cs [] hall
  simpa using happend

/-- A plain key finds the members whose names are the key up to a NUL. -/
theorem finds_iff {key name : String} (hplain : Plain key) :
    finds key name = true ↔ name.toList.takeWhile (· ≠ '\x00') = key.toList := by
  rw [finds, codes_eq_map hplain.1, upToNul_map, upToNul_map, takeWhile_of_not_mem hplain.2,
    beq_iff_eq, List.map_inj_right fun c d => Char.toNat_inj.1, eq_comm]

/-- A plain key finds the member of that name. -/
theorem finds_self {key : String} (hplain : Plain key) : finds key key = true := by
  rw [finds_iff hplain, takeWhile_of_not_mem hplain.2]

/-- Among names without NUL it finds no other. -/
theorem finds_iff_eq {key name : String} (hplain : Plain key) (hname : '\x00' ∉ name.toList) :
    finds key name = true ↔ name = key := by
  rw [finds_iff hplain, takeWhile_of_not_mem hname, String.toList_inj]

/-- Other names that it finds come after the key. -/
theorem compare_of_finds {key name : String} (hplain : Plain key) (hfinds : finds key name = true)
    (hne : key ≠ name) : compare key name = .lt := by
  rw [finds_iff hplain] at hfinds
  -- The key is what the name begins with.
  obtain ⟨more, hmore⟩ : key.toList <+: name.toList := hfinds ▸ List.takeWhile_prefix _
  refine compareOfLessAndEq_eq_lt.2 ?_
  rw [String.lt_iff, ← hmore]
  cases more with
  | nil => exact absurd (String.toList_inj.1 (by simpa using hmore)) hne
  | cons c rest =>
    have hlt : key.toList ++ [] < key.toList ++ c :: rest :=
      List.append_left_lt (List.nil_lt_cons c rest)
    rwa [List.append_nil] at hlt

/-! ### Lists of keys -/

/-- The member with the name of a plain key is the first that the key finds. -/
theorem find?_of_get? {fields : Fields} (hasc : fields.Ascending) {key : String} {value : Json}
    (hplain : Plain key) (hget : fields.get? key = some value) :
    fields.find? (fun field => finds key field.1) = some (key, value) := by
  induction fields with
  | nil => simp at hget
  | cons member rest ih =>
    obtain ⟨name, first⟩ := member
    obtain ⟨hlt, hrest⟩ := Fields.ascending_cons.1 hasc
    rw [Fields.get?_cons] at hget
    split at hget
    · next heq =>
      cases hget
      subst heq
      exact List.find?_cons_of_pos (finds_self hplain)
    · next hne =>
      -- The first member comes before the key, while what the key finds would come after it.
      have hbefore : compare name key = .lt :=
        hlt key (List.mem_map_of_mem (Fields.mem_of_get?_eq_some hget))
      have hskip : finds key name = false := by
        refine Bool.eq_false_iff.2 fun hfinds => ?_
        have hafter := compare_of_finds hplain hfinds (Ne.symm hne)
        rw [Std.OrientedCmp.gt_of_lt hbefore] at hafter
        cases hafter
      simp only [List.find?_cons, hskip]
      exact ih hrest hget

/-- Looking up a plain key goes on from the member that the key finds. -/
theorem lookup?_cons {j : Json} {key : String} {more : List String} (hplain : Plain key) :
    lookup? j (key :: more) =
      match (j.fields?.getD []).find? fun field => finds key field.1 with
      | some field => lookup? field.2 more
      | none => some none := by
  have hread : unreadable key = false := by simpa [unreadable] using hplain.2
  -- Anything but an object has no members to find.
  cases j with
  | obj fields =>
    simp only [lookup?, hread, fields?, Option.getD_some, Bool.false_eq_true, if_false]
    cases fields.find? fun field => finds key field.1 <;> rfl
  | _ => simp [lookup?, hread, fields?]

/-- **The store finds what is at plain keys** in a normal value. -/
theorem lookup?_of_getKeys? {j value : Json} {keys : List String} (hnormal : j.Normal)
    (hplain : ∀ key ∈ keys, Plain key) (hget : j.getKeys? keys = some value) :
    lookup? j keys = some (some value) := by
  induction keys generalizing j with
  | nil =>
    rw [getKeys?_nil] at hget
    rw [lookup?, hget]
  | cons key more ih =>
    obtain ⟨hkey, hmore⟩ := List.forall_mem_cons.1 hplain
    obtain ⟨fields, rfl, found, hfound, hrest⟩ := getKeys?_cons_eq_some_iff.1 hget
    -- The first member that the key finds is the one with its name.
    rw [lookup?_cons hkey]
    simp only [fields?, Option.getD_some, find?_of_get? hnormal.2 hkey hfound]
    exact ih (hnormal.get? hfound) hmore hrest

/-- Looking up plain keys does not fail. -/
theorem isSome_lookup? {j : Json} {keys : List String} (hplain : ∀ key ∈ keys, Plain key) :
    (lookup? j keys).isSome = true := by
  induction keys generalizing j with
  | nil => rfl
  | cons key more ih =>
    obtain ⟨hkey, hmore⟩ := List.forall_mem_cons.1 hplain
    rw [lookup?_cons hkey]
    split
    · exact ih hmore
    · rfl

/-- The values in an object with legible names have legible names. -/
theorem NamesLegible.get? {fields : Fields} (h : NamesLegible (.obj fields)) {key : String}
    {value : Json} (hget : fields.get? key = some value) : NamesLegible value := by
  intro keys inner hinner
  refine h (key :: keys) inner ?_
  exact getKeys?_cons_eq_some_iff.2 ⟨fields, rfl, value, hget, hinner⟩

/-- Where there are no members, there are no names. -/
theorem namesLegible_of_isObject_eq_false {j : Json} (h : j.isObject = false) :
    NamesLegible j := by
  intro keys fields hfields
  cases j with
  | obj inner => cases h
  | _ => cases keys <;> cases hfields

/-- Names are legible in an object if its own names are, and those in its values. -/
theorem namesLegible_obj {fields : Fields}
    (h : ∀ member ∈ fields, '\x00' ∉ member.1.toList ∧ NamesLegible member.2) :
    NamesLegible (.obj fields) := by
  intro keys inner hinner
  -- An object inside is this one, or it is inside the value at the first key.
  cases keys with
  | nil =>
    rw [getKeys?_nil] at hinner
    cases hinner
    exact fun member hmember => (h member hmember).1
  | cons key more =>
    obtain ⟨_, heq, value, hvalue, hmore⟩ := getKeys?_cons_eq_some_iff.1 hinner
    cases heq
    exact (h _ (Fields.mem_of_get?_eq_some hvalue)).2 more inner hmore

/-- Names are legible in an object without objects in it if its own names are. -/
theorem namesLegible_of_flat {fields : Fields}
    (h : ∀ member ∈ fields, '\x00' ∉ member.1.toList ∧ member.2.isObject = false) :
    NamesLegible (.obj fields) :=
  namesLegible_obj fun member hmember =>
    ⟨(h member hmember).1, namesLegible_of_isObject_eq_false (h member hmember).2⟩

/-- A plain key finds the value of that key if all names are legible. -/
theorem find?_eq_get? {fields : Fields} (hnames : ∀ member ∈ fields, '\x00' ∉ member.1.toList)
    {key : String} (hplain : Plain key) :
    (fields.find? fun field => finds key field.1) = (fields.get? key).map fun value =>
      (key, value) := by
  induction fields with
  | nil => rfl
  | cons member rest ih =>
    obtain ⟨name, first⟩ := member
    obtain ⟨hname, hrest⟩ := List.forall_mem_cons.1 hnames
    rw [Fields.get?_cons]
    split
    · next heq =>
      subst heq
      exact List.find?_cons_of_pos (finds_self hplain)
    · next hne =>
      have hskip : finds key name = false :=
        Bool.eq_false_iff.2 (mt (finds_iff_eq hplain hname).1 hne)
      simp only [List.find?_cons, hskip]
      exact ih hrest

/-- **The store finds nothing but what is at plain keys** in a value with legible names. -/
theorem lookup?_eq_getKeys? {j : Json} {keys : List String} (hnames : NamesLegible j)
    (hplain : ∀ key ∈ keys, Plain key) : lookup? j keys = some (j.getKeys? keys) := by
  induction keys generalizing j with
  | nil => rw [lookup?, getKeys?_nil]
  | cons key more ih =>
    obtain ⟨hkey, hmore⟩ := List.forall_mem_cons.1 hplain
    rw [lookup?_cons hkey]
    -- Only an object has anything to find, and only there do the two look at names.
    cases j with
    | obj fields =>
      have hhere : ∀ member ∈ fields, '\x00' ∉ member.1.toList :=
        hnames [] fields (getKeys?_nil _)
      simp only [fields?, Option.getD_some, find?_eq_get? hhere hkey, getKeys?_obj,
        Fields.getKeys?]
      cases hfound : Fields.get? fields key with
      | none => rfl
      | some found => exact ih (hnames.get? hfound) hmore
    | _ => rfl

end BenchCharts.StoredKey

/-! ### Objects that can be searched -/

namespace BenchCharts.Json

/-- What can be read can be searched as well. -/
theorem searchable_of_readable {j : Json} (h : j.readable = true) : j.searchable = true := by
  have hdepth := (readable_iff.1 h).1
  -- The reader gives up earlier than the functions of the store.
  have hlimits : depthLimit ≤ StoredKey.depthLimit := by decide
  exact decide_eq_true (Nat.le_trans hdepth hlimits)

namespace Fields

variable {fields : Fields} {keys : List String}

theorem search?_of_searchable (h : (Json.obj fields).searchable = true) :
    fields.search? keys = StoredKey.lookup? (.obj fields) keys := if_pos h

/-- For plain keys nothing else can fail. -/
theorem isSome_search?_iff (hplain : ∀ key ∈ keys, StoredKey.Plain key) :
    (fields.search? keys).isSome = true ↔ (Json.obj fields).searchable = true := by
  rw [search?]
  split
  · next h => exact iff_of_true (StoredKey.isSome_lookup? hplain) h
  · next h => exact iff_of_false (by simp) h

/-- The members of an object that the store finds what is at plain keys in: it can be searched, and
all names in it are legible. -/
def Legible (fields : Fields) : Prop :=
  (Json.obj fields).searchable = true ∧ StoredKey.NamesLegible (.obj fields)

/-- **The store finds what is at plain keys** of legible members, no more and no less. -/
theorem search?_eq_getKeys? (h : fields.Legible) (hplain : ∀ key ∈ keys, StoredKey.Plain key) :
    fields.search? keys = some ((Json.obj fields).getKeys? keys) := by
  rw [search?_of_searchable h.1, StoredKey.lookup?_eq_getKeys? h.2 hplain]

end Fields

end BenchCharts.Json

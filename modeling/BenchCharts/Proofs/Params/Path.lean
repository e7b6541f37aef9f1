import BenchCharts.Params.Leaves
import BenchCharts.Proofs.Json.Normal

/-!
# Paths and lists of keys

A dotted path stands for the list of keys that it is cut into. `FieldPath.ofKeys` goes the other
way, and gets the keys back if there is at least one and none has a point in it
(`FieldPath.keys_ofKeys`). So a value inside an object whose keys are all addressable has one path,
and looking that up finds the value (`Fields.at?_ofKeys`).
-/

namespace BenchCharts

namespace FieldPath

/-- Every path goes through a key, if only the empty one. -/
theorem keys_ne_nil (path : String) : keys path ≠ [] := fun h =>
  Text.splitChars_ne_nil _ _ (List.map_eq_nil_iff.1 h)

/-- The path that goes through some keys. -/
def ofKeys (keys : List String) : String := Text.join "." keys

@[simp] theorem ofKeys_nil : ofKeys [] = "" := rfl

@[simp] theorem ofKeys_singleton (key : String) : ofKeys [key] = key := by
  simp [ofKeys, Text.join, Text.joinChars]

/-- Going on from a path to one more key adds the key to the list. -/
theorem ofKeys_cons_append (first : String) (outer : List String) (key : String) :
    ofKeys (first :: outer ++ [key]) = ofKeys (first :: outer) ++ "." ++ key := by
  -- The same for characters, by induction on the pieces after the first.
  have hchars : ∀ (piece : List Char) (pieces : List (List Char)) (last : List Char),
      Text.joinChars ['.'] (piece :: pieces ++ [last]) =
        Text.joinChars ['.'] (piece :: pieces) ++ '.' :: last := by
    intro piece pieces last
    induction pieces generalizing piece with
    | nil => simp [Text.joinChars]
    | cons next more ih =>
      rw [List.cons_append, List.cons_append, Text.joinChars, ← List.cons_append, ih next]
      simp [Text.joinChars]
  apply String.toList_injective
  simpa [ofKeys, Text.join] using hchars first.toList (outer.map String.toList) key.toList

/-- A path through keys that are not all empty is not empty. -/
theorem ofKeys_cons_ne_empty {first : String} (hfirst : first ≠ "") (outer : List String) :
    ofKeys (first :: outer) ≠ "" := by
  have hchars : first.toList ≠ [] := by simpa using hfirst
  intro h
  have hnil := congrArg String.toList h
  -- The first key is at the front of the path.
  cases outer with
  | nil => simp [hfirst] at h
  | cons next more => simp_all [ofKeys, Text.join, Text.joinChars]

/-- The path of a member is that of the object with the key added. -/
theorem join_ofKeys {outer : List String} (houter : ∀ key ∈ outer, key ≠ "") (key : String) :
    join (ofKeys outer) key = ofKeys (outer ++ [key]) := by
  -- The path of the object itself is empty, and nothing is put between that and the key.
  cases outer with
  | nil => simp [join]
  | cons first more =>
    rw [join, if_neg (ofKeys_cons_ne_empty (houter first (List.mem_cons_self ..)) more),
      ofKeys_cons_append]

/-- The keys of a path come back if there is one and none of them has a point. -/
theorem keys_ofKeys {keys : List String} (hne : keys ≠ []) (hdot : ∀ key ∈ keys, '.' ∉ key.toList) :
    FieldPath.keys (ofKeys keys) = keys := by
  -- Pieces without a point are found again when they are joined by points and split.
  have hsplit : Text.splitChars (· == '.') (Text.joinChars ['.'] (keys.map String.toList)) =
      keys.map String.toList :=
    Text.splitChars_joinChars (by simpa using hne) (by simpa using hdot)
  rw [FieldPath.keys, ofKeys, Text.split, Text.join, String.toList_ofList]
  change (Text.splitChars (· == '.') (Text.joinChars ['.'] (keys.map String.toList))).map
    String.ofList = keys
  rw [hsplit, List.map_map]
  simp

/-- A path that is accepted goes through its own keys. -/
theorem keys_of_check {path : String} {keys : List String}
    (h : check path = .ok keys) : keys = FieldPath.keys path := by
  unfold check at h
  split at h
  · cases h
  · split at h
    · cases h
    · cases h
      rfl

end FieldPath

namespace Json

/-! ### Looking up lists of keys -/

@[simp] theorem getKeys?_nil (j : Json) : j.getKeys? [] = some j := by
  cases j <;> rfl

theorem getKeys?_obj_of_ne_nil (fields : Fields) {keys : List String} (hne : keys ≠ []) :
    (Json.obj fields).getKeys? keys = fields.getKeys? keys := by
  obtain ⟨key, more, rfl⟩ := List.exists_cons_of_ne_nil hne
  exact getKeys?_obj fields key more

/-- Only an object has something at a list of keys that is not empty. -/
theorem getKeys?_cons_eq_some_iff {j : Json} {key : String} {keys : List String} {value : Json} :
    j.getKeys? (key :: keys) = some value ↔
      ∃ fields : Fields, j = .obj fields ∧ ∃ found, fields.get? key = some found ∧
        found.getKeys? keys = some value := by
  cases j with
  | obj fields =>
    rw [getKeys?_obj, Fields.getKeys?, Option.bind_eq_some_iff]
    simp
  | _ => simp [Json.getKeys?]

/-- A value at any keys in a normal value is normal. -/
theorem Normal.getKeys? {j : Json} (h : j.Normal) {keys : List String} {value : Json}
    (hget : j.getKeys? keys = some value) : value.Normal := by
  induction keys generalizing j with
  | nil =>
    rw [getKeys?_nil] at hget
    cases hget
    exact h
  | cons key more ih =>
    obtain ⟨fields, rfl, found, hfound, hmore⟩ := getKeys?_cons_eq_some_iff.1 hget
    -- The value of a member is normal, and the rest of the keys goes on from there.
    exact ih (h.get? hfound) hmore

namespace Fields

theorem getKeys?_cons_eq_some_iff {fields : Fields} {key : String} {keys : List String}
    {value : Json} :
    fields.getKeys? (key :: keys) = some value ↔
      ∃ found, fields.get? key = some found ∧ found.getKeys? keys = some value := by
  rw [Fields.getKeys?, Option.bind_eq_some_iff]

/-- There is nothing at any keys of an object without members. -/
@[simp] theorem getKeys?_empty (keys : List String) : getKeys? [] keys = none := by
  cases keys <;> rfl

@[simp] theorem getKeys?_singleton (fields : Fields) (key : String) :
    fields.getKeys? [key] = fields.get? key := by
  rw [Fields.getKeys?]
  cases fields.get? key <;> simp

/-- The values at nonempty lists of keys are those of the object as a value. -/
theorem getKeys?_eq_some_iff {fields : Fields} {keys : List String} {value : Json} :
    fields.getKeys? keys = some value ↔
      keys ≠ [] ∧ (Json.obj fields).getKeys? keys = some value := by
  cases keys with
  | nil => simp [Fields.getKeys?]
  | cons key more => simp [getKeys?_obj]

/-- In a normal object, a list of keys leads into the value of the first member if it starts with
the key of that, and else into the other members. -/
theorem getKeys?_member_cons_iff {name : String} {first : Json} {rest : Fields}
    (h : (Json.obj ((name, first) :: rest)).Normal) {keys : List String} {value : Json} :
    getKeys? ((name, first) :: rest) keys = some value ↔
      (∃ more, keys = name :: more ∧ first.getKeys? more = some value) ∨
        getKeys? rest keys = some value := by
  cases keys with
  | nil => simp [Fields.getKeys?]
  | cons key more =>
    rw [getKeys?_cons_eq_some_iff, getKeys?_cons_eq_some_iff, get?_cons]
    by_cases hkey : name = key
    -- The rest has no member of that name.
    · subst hkey
      simp [h.get?_tail_eq_none]
    · simp [hkey, Ne.symm hkey]

/-! ### Addressable keys -/

/-- An addressable key is not empty and has no point. -/
theorem addressableKey_iff {key : String} :
    addressableKey key = true ↔ key ≠ "" ∧ '.' ∉ key.toList ∧ '"' ∉ key.toList := by
  simp [addressableKey, and_assoc]

/-- An object is accepted if its keys are addressable and the objects in it are accepted. -/
theorem checkKeys_cons_eq_ok_iff {key : String} {value : Json} {rest : Fields} :
    checkKeys ((key, value) :: rest) = .ok () ↔
      addressableKey key = true ∧
        (∀ inner : Fields, value = .obj inner → inner.checkKeys = .ok ()) ∧
          rest.checkKeys = .ok () := by
  rw [checkKeys.eq_def]
  by_cases hkey : addressableKey key = true
  · cases value with
    | obj inner => cases hinner : checkKeys inner <;> simp [hkey, hinner]
    | _ => simp [hkey]
  · simp [hkey]

/-- A member of an accepted object has an addressable key, and if it is an object it is accepted. -/
theorem checkKeys_of_mem {fields : Fields} (hkeys : fields.checkKeys = .ok ()) {key : String}
    {value : Json} (hmem : (key, value) ∈ fields) :
    addressableKey key = true ∧
      ∀ inner : Fields, value = .obj inner → inner.checkKeys = .ok () := by
  induction fields with
  | nil => simp at hmem
  | cons member rest ih =>
    obtain ⟨hname, hfirst, hrest⟩ := checkKeys_cons_eq_ok_iff.1 hkeys
    rcases List.mem_cons.1 hmem with rfl | hmem
    · exact ⟨hname, hfirst⟩
    · exact ih hrest hmem

/-- The keys on the way to a value in an accepted object are addressable. -/
theorem addressableKey_of_getKeys? {fields : Fields} (hkeys : fields.checkKeys = .ok ())
    {keys : List String} {value : Json} (hget : fields.getKeys? keys = some value) :
    ∀ key ∈ keys, addressableKey key = true := by
  induction keys generalizing fields with
  | nil => simp
  | cons first more ih =>
    obtain ⟨found, hfound, hmore⟩ := getKeys?_cons_eq_some_iff.1 hget
    obtain ⟨hfirst, hinner⟩ := checkKeys_of_mem hkeys (mem_of_get?_eq_some hfound)
    refine List.forall_mem_cons.2 ⟨hfirst, ?_⟩
    -- If there are more keys, what is found is an object, which is accepted too.
    cases more with
    | nil => simp
    | cons second rest =>
      obtain ⟨inner, rfl, -⟩ := Json.getKeys?_cons_eq_some_iff.1 hmore
      exact ih (hinner inner rfl) (by rwa [getKeys?_obj] at hmore)

/-- **The path of a list of addressable keys looks up the list.** -/
theorem at?_ofKeys (fields : Fields) {keys : List String} (hne : keys ≠ [])
    (haddr : ∀ key ∈ keys, addressableKey key = true) :
    fields.at? (FieldPath.ofKeys keys) = fields.getKeys? keys := by
  rw [at?_eq_getKeys?,
    FieldPath.keys_ofKeys hne fun key hkey => (addressableKey_iff.1 (haddr key hkey)).2.1]

/-- Looking up a path is looking up its keys in the object as a value. -/
theorem getKeys?_keys (fields : Fields) (path : String) :
    (Json.obj fields).getKeys? (FieldPath.keys path) = fields.at? path := by
  rw [at?_eq_getKeys?, getKeys?_obj_of_ne_nil fields (FieldPath.keys_ne_nil path)]

end Fields

end Json

end BenchCharts

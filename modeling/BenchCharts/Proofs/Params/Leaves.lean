import BenchCharts.Proofs.Params.Path

/-!
# What the passes over an object find

The three passes over an object are recursions of their own that make up paths as they go. Here
each is described by looking up lists of keys in the object:

* `mem_leaves_iff` — the leaves are the values other than objects, each with the path of its keys;
* `mem_nullPaths_iff` — the null paths are the paths of the keys at which there is `null`;
* `getKeys?_dropNulls` — after dropping `null` leaves, keys lead to what is left (`kept?`) of the
  value that they led to before.

An end (`isEnd`) is a value at which every list of keys comes to a stop: anything but an object with
members. Of an end there is left either all of it or nothing (`kept?_eq_some_iff_of_isEnd`), and so
dropping `null` leaves keeps every other end at its keys (`getKeys?_dropNulls_iff`).

The descriptions need normal objects, where keys are not repeated, and the two with paths need
accepted ones, where keys are addressable.
-/

namespace BenchCharts.Json

/-- Whether a value has no members to go on to. -/
def isEnd : Json → Bool
  | .obj fields => fields.isEmpty
  | _ => true

/-- What is not an object is an end. -/
theorem isEnd_of_isObject_eq_false {j : Json} (h : j.isObject = false) : j.isEnd = true := by
  cases j <;> first | rfl | simp [isObject] at h

/-- A value other than an object is found at the empty list of keys only. -/
theorem getKeys?_eq_some_iff_of_isObject_eq_false {j : Json} (h : j.isObject = false)
    {keys : List String} {value : Json} :
    j.getKeys? keys = some value ↔ keys = [] ∧ value = j := by
  cases keys with
  | nil => simp [eq_comm]
  | cons key more =>
    rw [getKeys?_cons_eq_some_iff]
    refine ⟨?_, ?_⟩
    · rintro ⟨fields, rfl, -⟩
      simp [isObject] at h
    · simp

/-- What is found in an object and is no object is found at some key of it. -/
theorem getKeys?_obj_eq_some_iff_of_isObject_eq_false {fields : Fields} {keys : List String}
    {value : Json} (h : value.isObject = false) :
    (Json.obj fields).getKeys? keys = some value ↔ fields.getKeys? keys = some value := by
  rw [Fields.getKeys?_eq_some_iff]
  refine ⟨fun hget => ⟨?_, hget⟩, And.right⟩
  rintro rfl
  rw [getKeys?_nil] at hget
  cases hget
  simp [isObject] at h

namespace Fields

/-! ### Leaves -/

@[simp] theorem leavesBelow_nil (outer : String) : leavesBelow outer [] = [] := by
  rw [leavesBelow.eq_def]

theorem leavesBelow_leaf (outer key : String) {value : Json} (rest : Fields)
    (h : value.isObject = false) :
    leavesBelow outer ((key, value) :: rest) =
      (FieldPath.join outer key, value) :: leavesBelow outer rest := by
  rw [leavesBelow.eq_def]
  cases value <;> first | rfl | simp [isObject] at h

theorem leavesBelow_object (outer key : String) (inner rest : Fields) :
    leavesBelow outer ((key, .obj inner) :: rest) =
      leavesBelow (FieldPath.join outer key) inner ++ leavesBelow outer rest := by
  rw [leavesBelow.eq_def]

/-- The leaves below a list of keys. The induction carries the keys on the way down as a list, since
that is what a path of addressable keys can be turned back into. -/
theorem mem_leavesBelow_iff {fields : Fields} (hnormal : (Json.obj fields).Normal)
    (hkeys : fields.checkKeys = .ok ()) {outer : List String} (houter : ∀ key ∈ outer, key ≠ "")
    {path : String} {value : Json} :
    (path, value) ∈ fields.leavesBelow (FieldPath.ofKeys outer) ↔
      value.isObject = false ∧
        ∃ keys, fields.getKeys? keys = some value ∧ path = FieldPath.ofKeys (outer ++ keys) := by
  induction fields using nestedInduction generalizing outer with
  | nil =>
    rw [leavesBelow_nil]
    refine ⟨?_, ?_⟩
    · simp
    · rintro ⟨-, keys, hget, -⟩
      simp at hget
  -- Keys to a leaf end there, so it is reached by its own name and by nothing longer.
  | leaf name first rest hleaf ih =>
    obtain ⟨-, -, hrest⟩ := checkKeys_cons_eq_ok_iff.1 hkeys
    rw [leavesBelow_leaf _ _ _ hleaf, List.mem_cons, ih hnormal.tail hrest houter,
      FieldPath.join_ofKeys houter, Prod.mk.injEq]
    simp only [getKeys?_member_cons_iff hnormal,
      getKeys?_eq_some_iff_of_isObject_eq_false hleaf]
    refine ⟨?_, ?_⟩
    · rintro (⟨rfl, rfl⟩ | ⟨hvalue, keys, hget, rfl⟩)
      · exact ⟨hleaf, [name], .inl ⟨[], rfl, rfl, rfl⟩, rfl⟩
      · exact ⟨hvalue, keys, .inr hget, rfl⟩
    · rintro ⟨hvalue, keys, ⟨more, rfl, rfl, rfl⟩ | hget, rfl⟩
      · exact .inl ⟨rfl, rfl⟩
      · exact .inr ⟨hvalue, keys, hget, rfl⟩
  | object name inner rest ihinner ihrest =>
    obtain ⟨hname, hinner, hrest⟩ := checkKeys_cons_eq_ok_iff.1 hkeys
    -- The keys so far, and one more to go down by.
    have hnext : ∀ key ∈ outer ++ [name], key ≠ "" := by
      intro key hkey
      rcases List.mem_append.1 hkey with hkey | hkey
      · exact houter key hkey
      · rw [List.mem_singleton.1 hkey]
        exact (addressableKey_iff.1 hname).1
    -- A leaf is in the inner object, by one more key, or in the rest.
    rw [leavesBelow_object, List.mem_append, FieldPath.join_ofKeys houter,
      ihinner hnormal.head (hinner inner rfl) hnext, ihrest hnormal.tail hrest houter,
      ← and_or_left]
    refine and_congr_right fun hvalue => ?_
    simp only [getKeys?_member_cons_iff hnormal,
      getKeys?_obj_eq_some_iff_of_isObject_eq_false hvalue]
    refine ⟨?_, ?_⟩
    · rintro (⟨keys, hget, rfl⟩ | ⟨keys, hget, rfl⟩)
      · exact ⟨name :: keys, .inl ⟨keys, rfl, hget⟩, by simp⟩
      · exact ⟨keys, .inr hget, rfl⟩
    · rintro ⟨keys, ⟨more, rfl, hget⟩ | hget, rfl⟩
      · exact .inl ⟨more, hget, by simp⟩
      · exact .inr ⟨keys, hget, rfl⟩

/-- **The leaves of an accepted object** are the values in it that are no objects, with the paths of
their keys. -/
theorem mem_leaves_iff {fields : Fields} (hnormal : (Json.obj fields).Normal)
    (hkeys : fields.checkKeys = .ok ()) {path : String} {value : Json} :
    (path, value) ∈ fields.leaves ↔
      value.isObject = false ∧
        ∃ keys, fields.getKeys? keys = some value ∧ path = FieldPath.ofKeys keys := by
  have hnone : ∀ key ∈ ([] : List String), key ≠ "" := by simp
  exact mem_leavesBelow_iff hnormal hkeys hnone

/-! ### Null leaves -/

/-- The pass over the null leaves finds the paths of the leaves that are `null`, in order. -/
theorem nullPathsBelow_eq (outer : String) (fields : Fields) :
    fields.nullPathsBelow outer =
      ((fields.leavesBelow outer).filter fun leaf => leaf.2.isNull).map Prod.fst := by
  induction fields using nestedInduction generalizing outer with
  | nil => rw [nullPathsBelow.eq_def, leavesBelow_nil]; rfl
  | leaf name first rest hleaf ih =>
    rw [leavesBelow_leaf _ _ _ hleaf, nullPathsBelow.eq_def]
    -- Only `null` is found, and it is a leaf.
    cases first <;> simp [isObject, isNull, ih] at hleaf ⊢
  | object name inner rest ihinner ihrest =>
    rw [leavesBelow_object, nullPathsBelow.eq_def, List.filter_append, List.map_append,
      ← ihinner, ← ihrest]

/-- The null paths of an accepted object are the paths of the keys at which it has `null`. -/
theorem mem_nullPaths_iff {fields : Fields} (hnormal : (Json.obj fields).Normal)
    (hkeys : fields.checkKeys = .ok ()) {path : String} :
    path ∈ fields.nullPaths ↔
      ∃ keys, fields.getKeys? keys = some .null ∧ path = FieldPath.ofKeys keys := by
  have hnull : ∀ j : Json, j.isNull = true ↔ j = .null := fun j => by cases j <;> simp [isNull]
  rw [nullPaths, nullPathsBelow_eq, List.mem_map]
  refine ⟨?_, ?_⟩
  · rintro ⟨⟨path, value⟩, hmem, rfl⟩
    obtain ⟨hleaf, hvalue⟩ := List.mem_filter.1 hmem
    obtain rfl := (hnull value).1 hvalue
    exact ((mem_leaves_iff hnormal hkeys).1 hleaf).2
  · intro hpath
    refine ⟨(path, .null), List.mem_filter.2 ⟨?_, rfl⟩, rfl⟩
    exact (mem_leaves_iff hnormal hkeys).2 ⟨rfl, hpath⟩

/-! ### Dropping null leaves -/

/-- What is left of a value when null leaves are dropped: nothing of `null` itself, and nothing of
an object all of whose members are dropped, unless it never had any. -/
def kept? : Json → Option Json
  | .null => none
  | .obj inner =>
    if (dropNulls inner).isEmpty && !inner.isEmpty then none else some (.obj (dropNulls inner))
  | other => some other

/-- An object stays unless it had members and has none left. -/
theorem kept?_obj_eq_some_iff {inner : Fields} {kept : Json} :
    kept? (.obj inner) = some kept ↔
      (dropNulls inner = [] → inner = []) ∧ kept = .obj (dropNulls inner) := by
  simp only [kept?, Bool.and_eq_true, List.isEmpty_iff, Bool.not_eq_true',
    List.isEmpty_eq_false_iff]
  split
  · next h => simp [h.1, h.2]
  · next h =>
    rw [Option.some.injEq, eq_comm (b := kept)]
    refine (and_iff_right fun hkept => ?_).symm
    -- Without members left and with members before it would have been dropped.
    exact Classical.byContradiction fun hinner => h ⟨hkept, hinner⟩

theorem kept?_obj_eq_none_iff {inner : Fields} :
    kept? (.obj inner) = none ↔ dropNulls inner = [] ∧ inner ≠ [] := by
  simp [kept?]

@[simp] theorem dropNulls_nil : dropNulls [] = [] := by
  rw [dropNulls.eq_def]

theorem dropNulls_cons (key : String) (value : Json) (rest : Fields) :
    dropNulls ((key, value) :: rest) =
      ((kept? value).map fun kept => (key, kept)).toList ++ dropNulls rest := by
  rw [dropNulls.eq_def]
  cases value with
  | obj inner =>
    simp only [kept?]
    split <;> rfl
  | _ => rfl

theorem kept?_leaf {value : Json} (h : value.isObject = false) :
    kept? value = if value.isNull then none else some value := by
  cases value <;> first | rfl | simp [isObject] at h

/-- What is left of a value other than an object is that value. -/
theorem kept?_eq_some_of_isObject_eq_false {value kept : Json} (h : value.isObject = false)
    (hkept : kept? value = some kept) : kept = value := by
  cases value <;> simp_all [kept?, isObject]

/-- The members that are left have keys from before. -/
theorem map_fst_dropNulls_subset (fields : Fields) :
    (dropNulls fields).map Prod.fst ⊆ fields.map Prod.fst := by
  induction fields with
  | nil => simp
  | cons member rest ih =>
    obtain ⟨name, value⟩ := member
    rw [dropNulls_cons]
    -- A member is dropped or keeps its key.
    cases kept? value with
    | none => exact fun key hkey => List.mem_cons_of_mem _ (ih hkey)
    | some kept => exact List.cons_subset_cons _ ih

/-- What is left of a normal object is normal. -/
theorem normal_dropNulls {fields : Fields} (hnormal : (Json.obj fields).Normal) :
    (Json.obj (dropNulls fields)).Normal := by
  induction fields using nestedInduction with
  | nil => simpa using hnormal
  | leaf name value rest hleaf ih =>
    obtain ⟨hvalue, hlt, hrest⟩ := normal_cons_iff.1 hnormal
    rw [dropNulls_cons]
    cases hkept : kept? value with
    | none => exact ih hrest
    | some kept =>
      obtain rfl := kept?_eq_some_of_isObject_eq_false hleaf hkept
      exact normal_cons_iff.2
        ⟨hvalue, fun key hkey => hlt key (map_fst_dropNulls_subset rest hkey), ih hrest⟩
  | object name inner rest ihinner ihrest =>
    obtain ⟨hvalue, hlt, hrest⟩ := normal_cons_iff.1 hnormal
    rw [dropNulls_cons]
    -- An object that loses all of its members goes as a whole.
    cases hkept : kept? (.obj inner) with
    | none => exact ihrest hrest
    | some kept =>
      obtain ⟨-, rfl⟩ := kept?_obj_eq_some_iff.1 hkept
      exact normal_cons_iff.2 ⟨ihinner hvalue,
        fun key hkey => hlt key (map_fst_dropNulls_subset rest hkey), ihrest hrest⟩

/-- What is left of an accepted object is accepted. -/
theorem checkKeys_dropNulls {fields : Fields} (hkeys : fields.checkKeys = .ok ()) :
    (dropNulls fields).checkKeys = .ok () := by
  induction fields using nestedInduction with
  | nil => simpa using hkeys
  | leaf name value rest hleaf ih =>
    obtain ⟨hname, hvalue, hrest⟩ := checkKeys_cons_eq_ok_iff.1 hkeys
    rw [dropNulls_cons]
    cases hkept : kept? value with
    | none => exact ih hrest
    | some kept =>
      obtain rfl := kept?_eq_some_of_isObject_eq_false hleaf hkept
      exact checkKeys_cons_eq_ok_iff.2 ⟨hname, hvalue, ih hrest⟩
  | object name inner rest ihinner ihrest =>
    obtain ⟨hname, hvalue, hrest⟩ := checkKeys_cons_eq_ok_iff.1 hkeys
    rw [dropNulls_cons]
    cases hkept : kept? (.obj inner) with
    | none => exact ihrest hrest
    | some kept =>
      obtain ⟨-, rfl⟩ := kept?_obj_eq_some_iff.1 hkept
      refine checkKeys_cons_eq_ok_iff.2 ⟨hname, fun left hleft => ?_, ihrest hrest⟩
      cases hleft
      exact ihinner (hvalue inner rfl)

/-- A key leads to what is left of its value. -/
theorem get?_dropNulls {fields : Fields} (hnormal : (Json.obj fields).Normal) (key : String) :
    (dropNulls fields).get? key = (fields.get? key).bind kept? := by
  induction fields with
  | nil => simp
  | cons member rest ih =>
    obtain ⟨name, value⟩ := member
    have ih := ih hnormal.tail
    rw [dropNulls_cons, get?_cons]
    split
    · next heq =>
      subst heq
      -- Keys are distinct, so the rest has no member that could take the place of a dropped one.
      rw [hnormal.get?_tail_eq_none] at ih
      cases hkept : kept? value with
      | none => simpa [hkept] using ih
      | some kept => simp [hkept]
    · next hne =>
      cases kept? value with
      | none => simpa using ih
      | some kept => simpa [hne] using ih

theorem kept?_eq_some_iff_of_isEnd {found value : Json} (hend : value.isEnd = true) :
    kept? found = some value ↔ found = value ∧ value ≠ .null := by
  cases found with
  | null => simp +contextual [kept?]
  | obj inner =>
    rw [kept?_obj_eq_some_iff]
    constructor
    -- An object that is left without members had none before.
    · rintro ⟨hinner, rfl⟩
      have hempty : dropNulls inner = [] := by simpa [isEnd] using hend
      rw [hempty, hinner hempty]
      simp
    · rintro ⟨rfl, -⟩
      have hempty : inner = [] := by simpa [isEnd] using hend
      rw [hempty]
      simp
  | _ =>
    simp only [kept?, Option.some.injEq, iff_self_and]
    rintro rfl
    simp

/-- Keys that go on from what is left of an object go on from the members that are left. -/
theorem bind_getKeys?_kept?_obj (inner : Fields) {keys : List String} (hne : keys ≠ []) :
    (kept? (.obj inner)).bind (·.getKeys? keys) = (dropNulls inner).getKeys? keys := by
  cases hkept : kept? (.obj inner) with
  | none =>
    -- Then there are no members left, and nothing is found among them either.
    rw [(kept?_obj_eq_none_iff.1 hkept).1, getKeys?_empty]
    rfl
  | some left =>
    obtain ⟨-, rfl⟩ := kept?_obj_eq_some_iff.1 hkept
    exact getKeys?_obj_of_ne_nil _ hne

/-- Going down in what is left of a value leads to what is left of the value that is found there. -/
theorem bind_getKeys?_kept? {j : Json} (hnormal : j.Normal) (keys : List String) :
    (kept? j).bind (·.getKeys? keys) = (j.getKeys? keys).bind kept? := by
  induction keys generalizing j with
  | nil => simp
  | cons key more ih =>
    cases j with
    | obj inner =>
      -- The first key leads to what is left of its value, and the other keys go on from there.
      rw [bind_getKeys?_kept?_obj inner (List.cons_ne_nil key more), getKeys?_obj,
        Fields.getKeys?, Fields.getKeys?, get?_dropNulls hnormal]
      cases hfound : get? inner key with
      | none => rfl
      | some found => exact ih (hnormal.get? hfound)
    | _ => simp [kept?, Json.getKeys?]

/-- **Keys lead to what is left of the value at them.** -/
theorem getKeys?_dropNulls {fields : Fields} (hnormal : (Json.obj fields).Normal)
    (keys : List String) :
    (dropNulls fields).getKeys? keys = (fields.getKeys? keys).bind kept? := by
  by_cases hne : keys = []
  · subst hne
    rfl
  · rw [← bind_getKeys?_kept?_obj fields hne, bind_getKeys?_kept? hnormal,
      getKeys?_obj_of_ne_nil fields hne]

/-- No `null` is left at any keys. -/
theorem getKeys?_dropNulls_ne_null {fields : Fields} (hnormal : (Json.obj fields).Normal)
    (keys : List String) : (dropNulls fields).getKeys? keys ≠ some .null := by
  rw [getKeys?_dropNulls hnormal]
  intro hnull
  obtain ⟨found, -, hkept⟩ := Option.bind_eq_some_iff.1 hnull
  exact ((kept?_eq_some_iff_of_isEnd rfl).1 hkept).2 rfl

/-- **Dropping null leaves keeps the other ends.** Every end but `null` is found at the same keys
before and after, and so no object that was not empty before becomes one that is. -/
theorem getKeys?_dropNulls_iff {fields : Fields} (hnormal : (Json.obj fields).Normal)
    {keys : List String} {value : Json} (hend : value.isEnd = true) (hnull : value ≠ .null) :
    (dropNulls fields).getKeys? keys = some value ↔ fields.getKeys? keys = some value := by
  rw [getKeys?_dropNulls hnormal, Option.bind_eq_some_iff]
  simp [kept?_eq_some_iff_of_isEnd hend, hnull]

end Fields

end BenchCharts.Json

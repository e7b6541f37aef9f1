import BenchCharts.Proofs.Params.Path

/-!
# Taking out the value at a path

`remove` cuts its path key by key while it goes down. It does what `removeKeys` does with the whole
list of keys (`remove_eq_removeKeys`), and everything else here is about lists of keys.

What has become of an object is said by looking up other lists of keys in it. `Removed` has three
cases for them: what is at the keys or below is gone, what is apart from them is as it was, and
above them there are the same objects as before, with less in them. `Removed.erase` is the last
step of going down and `Removed.replace` any step before it; `removed_removeKeys` is the way as a
whole.
-/

namespace BenchCharts.Json

namespace Fields

variable {fields : Fields} {key : String}

/-- Keys that go on from an object lead into it. -/
theorem getKeys?_of_inner {inner : Fields} (hinner : fields.get? key = some (.obj inner))
    {keys : List String} (hne : keys ≠ []) :
    fields.getKeys? (key :: keys) = inner.getKeys? keys := by
  rw [getKeys?, hinner, Option.bind_some, getKeys?_obj_of_ne_nil inner hne]

theorem getKeys?_of_no_inner (hinner : ∀ inner : Fields, fields.get? key ≠ some (.obj inner))
    {keys : List String} (hne : keys ≠ []) : fields.getKeys? (key :: keys) = none := by
  obtain ⟨next, more, rfl⟩ := List.exists_cons_of_ne_nil hne
  rw [Option.eq_none_iff_forall_ne_some]
  intro value hvalue
  obtain ⟨found, hfound, hmore⟩ := getKeys?_cons_eq_some_iff.1 hvalue
  obtain ⟨inner, rfl, -⟩ := Json.getKeys?_cons_eq_some_iff.1 hmore
  exact hinner inner hfound

/-! ### One level -/

@[simp] theorem get?_erase (fields : Fields) (key other : String) :
    (fields.erase key).get? other = if other = key then none else fields.get? other := by
  induction fields with
  | nil => simp [erase]
  | cons member rest ih =>
    obtain ⟨name, value⟩ := member
    rw [erase] at ih ⊢
    by_cases hname : name = key
    -- The first member goes; there may be more with the key behind it.
    · subst hname
      rw [List.filter_cons_of_neg (by simp), ih]
      split
      · rfl
      · next hne => rw [get?_cons, if_neg (Ne.symm hne)]
    · rw [List.filter_cons_of_pos (by simpa using hname), get?_cons, get?_cons, ih]
      by_cases hother : name = other
      · rw [if_pos hother, if_pos hother, if_neg (hother ▸ hname)]
      · rw [if_neg hother, if_neg hother]

theorem erase_of_get?_eq_none (h : fields.get? key = none) : fields.erase key = fields := by
  refine List.filter_eq_self.2 fun member hmember => bne_iff_ne.2 fun heq => ?_
  have hne := List.lookup_eq_none_iff.1 h member hmember
  exact bne_iff_ne.1 hne heq.symm

/-- The value of one key is replaced, if there is one, and no other. -/
theorem get?_replace (fields : Fields) (key other : String) (value : Json) :
    (fields.replace key value).get? other =
      (fields.get? other).map fun found => if other = key then value else found := by
  induction fields with
  | nil => rfl
  | cons member rest ih =>
    obtain ⟨name, first⟩ := member
    rw [replace] at ih ⊢
    rw [List.map_cons, get?_cons]
    by_cases hname : name = key
    · subst hname
      rw [if_pos rfl, get?_cons, ih]
      by_cases hother : name = other
      · simp [hother]
      · rw [if_neg hother, if_neg hother]
    · rw [if_neg hname, get?_cons, ih]
      by_cases hother : name = other
      · subst hother
        simp [hname]
      · rw [if_neg hother, if_neg hother]

/-- In a normal object nothing changes when a value is replaced by itself. -/
theorem replace_self (hnormal : (Json.obj fields).Normal) {value : Json}
    (h : fields.get? key = some value) : fields.replace key value = fields := by
  refine (List.map_congr_left fun member hmember => ?_).trans (List.map_id fields)
  split
  · next heq =>
    subst heq
    -- In a normal object the key is there once, so the value is the one that is found.
    have hmem := get?_of_mem hnormal.2 hmember
    rw [hmem] at h
    cases h
    rfl
  · rfl

/-! ### Going down

One equation for each of the three ways in which `remove` goes on: it is at the last key, it is in
front of an object, or it is in front of anything else.
-/

section Descent

variable {path first rest : String} {inner : Fields}

theorem remove_of_key (h : Text.splitOnce? (· == '.') path = none) :
    fields.remove path = (fields.get? path, fields.erase path) := by
  rw [remove]
  split
  · rfl
  · simp_all

theorem remove_of_inner (h : Text.splitOnce? (· == '.') path = some (first, rest))
    (hinner : fields.get? first = some (.obj inner)) :
    fields.remove path =
      ((inner.remove rest).1, fields.replace first (.obj (inner.remove rest).2)) := by
  rw [remove]
  split
  · simp_all
  · next first' rest' h' =>
    obtain ⟨rfl, rfl⟩ : first' = first ∧ rest' = rest := by simpa [h'] using h
    rw [hinner]

theorem remove_of_no_inner (h : Text.splitOnce? (· == '.') path = some (first, rest))
    (hinner : ∀ inner : Fields, fields.get? first ≠ some (.obj inner)) :
    fields.remove path = (none, fields) := by
  rw [remove]
  split
  · simp_all
  · next first' rest' h' =>
    obtain ⟨rfl, rfl⟩ : first' = first ∧ rest' = rest := by simpa [h'] using h
    split
    · next found heq => exact absurd heq (hinner found)
    · rfl

end Descent

/-- The value at the end of a list of keys taken out, and the members that are left. -/
def removeKeys (fields : Fields) : List String → Option Json × Fields
  | [] => (none, fields)
  | [key] => (fields.get? key, fields.erase key)
  | key :: next :: more =>
    match fields.get? key with
    | some (.obj inner) =>
      let (value, left) := removeKeys inner (next :: more)
      (value, fields.replace key (.obj left))
    | _ => (none, fields)

theorem removeKeys_of_inner {inner : Fields} (h : fields.get? key = some (.obj inner))
    {keys : List String} (hne : keys ≠ []) :
    fields.removeKeys (key :: keys) =
      ((inner.removeKeys keys).1, fields.replace key (.obj (inner.removeKeys keys).2)) := by
  obtain ⟨next, more, rfl⟩ := List.exists_cons_of_ne_nil hne
  rw [removeKeys, h]

theorem removeKeys_of_no_inner (h : ∀ inner : Fields, fields.get? key ≠ some (.obj inner))
    {keys : List String} (hne : keys ≠ []) : fields.removeKeys (key :: keys) = (none, fields) := by
  obtain ⟨next, more, rfl⟩ := List.exists_cons_of_ne_nil hne
  rw [removeKeys]
  split
  · next inner heq => exact absurd heq (h inner)
  · rfl

/-- **Taking out the value at a path** is taking out the value at the end of its keys. -/
theorem remove_eq_removeKeys (fields : Fields) (path : String) :
    fields.remove path = fields.removeKeys (FieldPath.keys path) := by
  -- The keys are cut off one by one, and so are the pieces of the path.
  have hkeys := Text.split_eq (· == '.') path
  induction fields, path using remove.induct with
  -- The path has no point, so it is the last key.
  | case1 fields path h =>
    rw [h] at hkeys
    rw [remove_of_key h, FieldPath.keys, hkeys, removeKeys]
  | case2 fields path first rest h inner hinner value left hremove ih =>
    rw [h] at hkeys
    rw [remove_of_inner h hinner, FieldPath.keys, hkeys, ih (Text.split_eq _ rest)]
    exact (removeKeys_of_inner hinner (FieldPath.keys_ne_nil rest)).symm
  | case3 fields path first rest h hinner =>
    rw [h] at hkeys
    have hnone : ∀ inner : Fields, fields.get? first ≠ some (.obj inner) := hinner
    rw [remove_of_no_inner h hnone, FieldPath.keys, hkeys]
    exact (removeKeys_of_no_inner hnone (FieldPath.keys_ne_nil rest)).symm

/-! ### What is taken out -/

/-- What is taken out is what was there. -/
theorem removeKeys_fst (fields : Fields) (keys : List String) :
    (fields.removeKeys keys).1 = fields.getKeys? keys := by
  induction keys generalizing fields with
  | nil => rfl
  | cons key more ih =>
    cases more with
    | nil => rw [getKeys?_singleton, removeKeys]
    | cons next rest =>
      have hne := List.cons_ne_nil next rest
      -- Both go on into an object and into nothing else.
      by_cases hinner : ∃ inner : Fields, fields.get? key = some (.obj inner)
      · obtain ⟨inner, hinner⟩ := hinner
        rw [removeKeys_of_inner hinner hne, ih, getKeys?_of_inner hinner hne]
      · have hnone := not_exists.1 hinner
        rw [removeKeys_of_no_inner hnone hne, getKeys?_of_no_inner hnone hne]

/-- Where there is nothing to take out, an object stays as it is. -/
theorem removeKeys_snd_of_getKeys?_eq_none (hnormal : (Json.obj fields).Normal) {keys : List String}
    (h : fields.getKeys? keys = none) : (fields.removeKeys keys).2 = fields := by
  induction keys generalizing fields with
  | nil => rfl
  | cons key more ih =>
    cases more with
    | nil =>
      rw [getKeys?_singleton] at h
      rw [removeKeys, erase_of_get?_eq_none h]
    | cons next rest =>
      have hne := List.cons_ne_nil next rest
      by_cases hinner : ∃ inner : Fields, fields.get? key = some (.obj inner)
      -- The object in between is replaced, but by itself.
      · obtain ⟨inner, hinner⟩ := hinner
        rw [getKeys?_of_inner hinner hne] at h
        rw [removeKeys_of_inner hinner hne, ih (hnormal.get? hinner) h,
          replace_self hnormal hinner]
      · rw [removeKeys_of_no_inner (not_exists.1 hinner) hne]

/-! ### What is left -/

/-- What becomes of an object when the value at the end of a list of keys is taken out. -/
structure Removed (before after : Fields) (keys : List String) : Prop where
  /-- At the keys and below there is nothing any more. -/
  gone : ∀ others, keys <+: others → after.getKeys? others = none
  /-- What is neither below nor above is as it was. -/
  apart : ∀ others, ¬ keys <+: others → ¬ others <+: keys →
    after.getKeys? others = before.getKeys? others
  /-- Above the keys there are objects as before. -/
  above : ∀ others, others ≠ [] → others <+: keys → others ≠ keys →
    ∃ was left : Fields, before.getKeys? others = some (.obj was) ∧
      after.getKeys? others = some (.obj left)

/-- Taking out a member. -/
theorem Removed.erase (fields : Fields) (key : String) :
    Removed fields (fields.erase key) [key] where
  gone := by
    rintro others ⟨more, rfl⟩
    rw [List.singleton_append, getKeys?, get?_erase, if_pos rfl, Option.bind_none]
  apart := by
    intro others hbelow habove
    cases others with
    | nil => exact absurd List.nil_prefix habove
    | cons other more =>
      -- Keys that begin with this one go on from it.
      have hne : other ≠ key := by
        rintro rfl
        exact hbelow ⟨more, rfl⟩
      rw [getKeys?, getKeys?, get?_erase, if_neg hne]
  above := by
    intro others hne hprefix hproper
    cases others with
    | nil => exact absurd rfl hne
    | cons other more =>
      obtain ⟨rfl, hmore⟩ := List.cons_prefix_cons.1 hprefix
      rw [List.prefix_nil.1 hmore] at hproper
      exact absurd rfl hproper

section Replacement

variable {inner left : Fields} {more : List String}

theorem getKeys?_replace_self (hinner : fields.get? key = some (.obj inner)) (hne : more ≠ []) :
    (fields.replace key (.obj left)).getKeys? (key :: more) = left.getKeys? more := by
  refine getKeys?_of_inner ?_ hne
  rw [get?_replace, hinner, Option.map_some, if_pos rfl]

theorem getKeys?_replace_of_ne {other : String} (hne : other ≠ key) (value : Json) :
    (fields.replace key value).getKeys? (other :: more) = fields.getKeys? (other :: more) := by
  rw [getKeys?, getKeys?, get?_replace]
  simp [hne]

/-- Taking out something of the object at a key, and putting back what is left of it. -/
theorem Removed.replace {keys : List String} (hinner : fields.get? key = some (.obj inner))
    (hne : keys ≠ []) (h : Removed inner left keys) :
    Removed fields (fields.replace key (.obj left)) (key :: keys) where
  gone := by
    rintro others ⟨more, rfl⟩
    rw [List.cons_append, getKeys?_replace_self hinner (by simp [hne])]
    exact h.gone (keys ++ more) (List.prefix_append keys more)
  apart := by
    intro others hbelow habove
    cases others with
    | nil => exact absurd List.nil_prefix habove
    | cons other more =>
      by_cases hother : other = key
      -- Under the key it is the inner object that is left alone, at the keys that follow.
      · subst hother
        have hbelow : ¬ keys <+: more := fun hp => hbelow (List.cons_prefix_cons.2 ⟨rfl, hp⟩)
        have habove : ¬ more <+: keys := fun hp => habove (List.cons_prefix_cons.2 ⟨rfl, hp⟩)
        have hmore : more ≠ [] := by
          rintro rfl
          exact habove List.nil_prefix
        rw [getKeys?_replace_self hinner hmore, h.apart more hbelow habove,
          getKeys?_of_inner hinner hmore]
      · exact getKeys?_replace_of_ne hother _
  above := by
    intro others hothers hprefix hproper
    cases others with
    | nil => exact absurd rfl hothers
    | cons other more =>
      obtain ⟨rfl, hmore⟩ := List.cons_prefix_cons.1 hprefix
      by_cases hnil : more = []
      -- The object at the key itself is the one that has been replaced.
      · subst hnil
        refine ⟨inner, left, ?_, ?_⟩
        · rw [getKeys?_singleton, hinner]
        · rw [getKeys?_singleton, get?_replace, hinner, Option.map_some, if_pos rfl]
      · have hmoreProper : more ≠ keys := fun heq => hproper (heq ▸ rfl)
        obtain ⟨was, left', hwas, hleft⟩ := h.above more hnil hmore hmoreProper
        refine ⟨was, left', ?_, ?_⟩
        · rw [getKeys?_of_inner hinner hnil, hwas]
        · rw [getKeys?_replace_self hinner hnil, hleft]

end Replacement

/-- **What is left when something is taken out** differs from what there was exactly at the keys of
it, below them and above them. -/
theorem removed_removeKeys {keys : List String} {value : Json}
    (h : fields.getKeys? keys = some value) :
    Removed fields (fields.removeKeys keys).2 keys := by
  induction keys generalizing fields with
  | nil => cases h
  | cons key more ih =>
    cases more with
    | nil =>
      rw [removeKeys]
      exact Removed.erase fields key
    | cons next rest =>
      have hne := List.cons_ne_nil next rest
      by_cases hinner : ∃ inner : Fields, fields.get? key = some (.obj inner)
      -- What is taken out of the inner object is taken out of this one at one more key.
      · obtain ⟨inner, hinner⟩ := hinner
        rw [getKeys?_of_inner hinner hne] at h
        rw [removeKeys_of_inner hinner hne]
        exact Removed.replace hinner hne (ih h)
      -- Without an object at the key there would be nothing to take out.
      · rw [getKeys?_of_no_inner (not_exists.1 hinner) hne] at h
        cases h

/-! ### Paths -/

open FieldPath (keys)

/-- **Looking up a path and taking out what is there.** A path leads to the same value from an
object as from its members, and taking it out gives that value. If there is none, the object stays
as it is. Otherwise nothing is found any more at the path and at those that go on from it, what is
found at paths that neither go on from it nor lead to it stays, and a path that leads to it still
finds an object. -/
theorem remove_takes_at? (hnormal : (Json.obj fields).Normal) (path : String) :
    (Json.obj fields).get? path = fields.at? path ∧
      (fields.remove path).1 = fields.at? path ∧
      (fields.at? path = none → (fields.remove path).2 = fields) ∧
      (fields.at? path ≠ none →
        (∀ other, keys path <+: keys other → (fields.remove path).2.at? other = none) ∧
        (∀ other, ¬ keys path <+: keys other → ¬ keys other <+: keys path →
          (fields.remove path).2.at? other = fields.at? other) ∧
        (∀ other, keys other <+: keys path → keys other ≠ keys path →
          ∃ was left : Fields, fields.at? other = some (.obj was) ∧
            (fields.remove path).2.at? other = some (.obj left))) := by
  -- From here on there are only lists of keys.
  rw [remove_eq_removeKeys, removeKeys_fst]
  simp only [at?_eq_getKeys?]
  refine ⟨?_, trivial, removeKeys_snd_of_getKeys?_eq_none hnormal, fun hsome => ?_⟩
  · rw [Json.get?, getKeys?_obj_of_ne_nil fields (FieldPath.keys_ne_nil path)]
  · obtain ⟨value, hvalue⟩ := Option.ne_none_iff_exists'.1 hsome
    have hremoved := removed_removeKeys hvalue
    refine ⟨fun other => hremoved.gone (keys other), fun other => hremoved.apart (keys other), ?_⟩
    exact fun other => hremoved.above (keys other) (FieldPath.keys_ne_nil other)

/-- A member with a point in its key, beside an object that a path with the same letters leads
into. Only the value in that is taken out. -/
theorem remove_takes_at?_besideDottedKey :
    let fields : Fields :=
      [("a", .obj [("", .bool true), ("b", .obj [("c", .null)])]), ("a.b", .str "x")]
    let left := (fields.remove "a.b").2
    (Json.obj fields).Normal ∧ (fields.remove "a.b").1 = some (.obj [("c", .null)]) ∧
      left.at? "a.b" = none ∧ left.at? "a.b.c" = none ∧ left.at? "a." = some (.bool true) ∧
      (∃ inner : Fields, left.at? "a" = some (.obj inner)) ∧ (fields.remove "a.c").2 = fields := by
  intro fields left
  have hnormal : (Json.obj fields).Normal := by
    simp only [fields, Normal, NormalFields, Ascending, and_true, true_and]
    decide
  obtain ⟨-, hvalue, -, hleft⟩ := remove_takes_at? hnormal "a.b"
  have hat : fields.at? "a.b" = some (.obj [("c", .null)]) := rfl
  -- There is something at the path.
  obtain ⟨hgone, hapart, habove⟩ := hleft (by simp [hat])
  obtain ⟨-, inner, -, hinner⟩ := habove "a" (by decide) (by decide)
  refine ⟨hnormal, hvalue.trans hat, hgone "a.b" (by decide), hgone "a.b.c" (by decide), ?_,
    ⟨inner, hinner⟩, ?_⟩
  · exact (hapart "a." (by decide) (by decide)).trans rfl
  · obtain ⟨-, -, hnone, -⟩ := remove_takes_at? hnormal "a.c"
    exact hnone rfl

end Fields

end BenchCharts.Json

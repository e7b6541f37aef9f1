import BenchCharts.Json.Codec
import BenchCharts.Proofs.Json.Normal
import BenchCharts.Proofs.Outcome
import BenchCharts.Proofs.Time.Reader

/-!
# Reading back what is written

What every item of a list has that is read, the list has throughout (`forall_of_list?`), and objects
that are read are normal.

A reader `Restores` with respect to a writer if whatever it reads, it reads again from what the
writer makes of it. This is weaker than reading back every value, and has to be: an integer that
does not fit 64 bits can be written, but no reader gives it; the same holds for an object whose keys
do not ascend. What a reader has given, on the other hand, is already in its final form: it is a
default, or it went through the reader once.

The notion passes from the values to the lists of them (`Restores.list`), to values that may be
`null` (`Restores.nullable`) and to the fields of a record, those that have to be there
(`Restores.required_field`) and those with a default (`Restores.optional_field`).
-/

namespace BenchCharts.Json

variable {α : Type} {decode : Json → Option α} {encode : α → Json}

/-! ### What is read -/

/-- What every decoded item has, a decoded list has throughout. -/
theorem forall_of_list? {P : α → Prop} (hdecode : ∀ j a, decode j = some a → P a)
    {j : Json} {l : List α} (h : list? decode j = some l) : ∀ a ∈ l, P a := by
  cases j with
  | arr items =>
    -- The items are read one by one, so each item of the list has been read.
    have hmap : items.map decode = l.map some := mapM_eq_some_iff.1 h
    intro a ha
    have hsome : some a ∈ items.map decode := hmap ▸ List.mem_map_of_mem ha
    obtain ⟨item, -, hitem⟩ := List.mem_map.1 hsome
    exact hdecode item a hitem
  | _ => simp [list?] at h

/-- It has it throughout if the list may be missing too. -/
theorem forall_of_optional_list? {P : α → Prop}
    (hdecode : ∀ j a, decode j = some a → P a) {field : Option Json} {l : List α}
    (h : optional [] (list? decode) field = some l) : ∀ a ∈ l, P a := by
  cases field with
  | none =>
    cases h
    simp
  | some j => exact forall_of_list? hdecode h

/-- An object of any members that is read is normal. -/
theorem normal_of_required_map? {field : Option Json} {fields : Fields}
    (h : required map? field = some fields) : (obj fields).Normal := by
  cases field with
  | none => simp [required] at h
  | some j => exact map?_normal h

/-- An object that may be missing is normal. -/
theorem normal_of_optional_map? {field : Option Json} {fields : Fields}
    (h : optional [] map? field = some fields) : (obj fields).Normal := by
  cases field with
  | none =>
    cases h
    -- What is missing counts as the object without members.
    exact ⟨trivial, List.Pairwise.nil⟩
  | some j => exact map?_normal h

/-- An integer that is read with 64 bits has them. -/
theorem fits_of_int64? {j : Json} {n : Int} (h : int64? j = some n) :
    Text.fitsSigned64 n = true := by
  unfold int64? at h
  split at h
  · split at h
    · next hfits =>
      cases h
      exact hfits
    · cases h
  · cases h

theorem fits_of_required_int64? {field : Option Json} {n : Int}
    (h : required int64? field = some n) : Text.fitsSigned64 n = true := by
  cases field with
  | none => cases h
  | some j => exact fits_of_int64? h

/-! ### Reading again -/

/-- Whatever is read is read again from what is written for it. -/
def Restores (decode : Json → Option α) (encode : α → Json) : Prop :=
  ∀ j a, decode j = some a → decode (encode a) = some a

/-- A reader that reads back everything in particular reads back what it has read. -/
theorem Restores.of_forall (h : ∀ a, decode (encode a) = some a) : Restores decode encode :=
  fun _ a _ => h a

/-! ### Values without parts -/

theorem restores_text : Restores text? .str := .of_forall fun _ => rfl

theorem restores_bool : Restores bool? .bool := .of_forall fun _ => rfl

/-- A float is read back; an integer that was read as a float is one from then on. -/
theorem restores_float : Restores float? ofFloat := .of_forall fun _ => rfl

theorem restores_instant : Restores instant? ofInstant := .of_forall Instant.read?_spell

theorem restores_int64 : Restores int64? ofInt := fun _ _ h => if_pos (fits_of_int64? h)

theorem restores_int32 : Restores int32? ofInt := by
  intro j n h
  unfold int32? at h
  split at h
  · split at h
    · next hfits =>
      cases h
      exact if_pos hfits
    · cases h
  · cases h

/-- An object of any members comes back: reading has put its keys in order. -/
theorem restores_map : Restores map? .obj := fun _ _ h => map?_of_normal (map?_normal h)

/-! ### Lists and values that may be missing -/

/-- A list is read back if each of its items is. -/
theorem list?_ofList {items : List α} (h : ∀ a ∈ items, decode (encode a) = some a) :
    list? decode (ofList encode items) = some items := by
  refine mapM_eq_some_iff.2 ?_
  rw [List.map_map]
  exact List.map_congr_left h

theorem Restores.list (h : Restores decode encode) : Restores (list? decode) (ofList encode) :=
  fun _ _ hread => list?_ofList (forall_of_list? h hread)

/-- The writer must not write `null` for a value that is there. -/
theorem Restores.nullable (h : Restores decode encode) (hnull : ∀ a, encode a ≠ .null) :
    Restores (nullable? decode) (ofOption encode) := by
  intro j value hread
  cases value with
  | none => rfl
  | some a =>
    -- A value that is there has been read by the reader of the values.
    have hdecode : decode j = some a := by
      unfold nullable? at hread
      split at hread
      · cases hread
      · simpa using hread
    have hback := h j a hdecode
    -- It is written as such, and what is written is not taken for `null`.
    change nullable? decode (encode a) = some (some a)
    unfold nullable?
    split
    · next heq => exact absurd heq (hnull a)
    · rw [hback, Option.map_some]

/-! ### Fields -/

/-- What was read from a field is read again from a field in which it is written. -/
theorem Restores.required_field (h : Restores decode encode) {field : Option Json} {a : α}
    (hread : required decode field = some a) : required decode (some (encode a)) = some a := by
  cases field with
  | none => cases hread
  | some j => exact h j a hread

/-- The same holds for a field with a default, if the default itself is read back. -/
theorem Restores.optional_field (h : Restores decode encode) {default : α}
    (hdefault : decode (encode default) = some default) {field : Option Json} {a : α}
    (hread : optional default decode field = some a) :
    optional default decode (some (encode a)) = some a := by
  cases field with
  | none =>
    cases hread
    -- The default is written out, and then read as any other value.
    exact hdefault
  | some j => exact h j a hread

/-- A list may be missing, and is empty then. -/
theorem Restores.optional_list (h : Restores decode encode) {field : Option Json} {items : List α}
    (hread : optional [] (list? decode) field = some items) :
    optional [] (list? decode) (some (ofList encode items)) = some items :=
  h.list.optional_field rfl hread

/-- An object of any members that is left out where it is empty is read back either way. -/
theorem optional_map?_of_isEmpty {field : Option Json} {fields : Fields}
    (hread : optional [] map? field = some fields) :
    optional [] map? (if fields.isEmpty then none else some (.obj fields)) = some fields := by
  split
  · next hempty => rw [List.isEmpty_iff.1 hempty, optional]
  · exact restores_map.optional_field rfl hread

end BenchCharts.Json

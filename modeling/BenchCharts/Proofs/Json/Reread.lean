import BenchCharts.Json.Reread
import BenchCharts.Proofs.Params.Path

/-!
# Looking into values kept as text

Keeping a value as text can change floats in it but not its shape: at every list of keys there is
what was there before, after a round of its own (`getKeys?_reread`). A value comes back as it was
exactly if each number in it does (`reread_eq_self_iff`), and integers always do.

A value can be read again if it is not too deep and each number in it can (`readable_iff`).
-/

namespace BenchCharts.Json

theorem Fields.get?_rereadFields (fields : Fields) (key : String) :
    Fields.get? (rereadFields fields) key = (fields.get? key).map reread := by
  induction fields with
  | nil => simp [rereadFields]
  | cons member rest ih =>
    obtain ⟨name, value⟩ := member
    rw [rereadFields, Fields.get?_cons, Fields.get?_cons, ih]
    split <;> rfl

/-- Looking up keys and keeping as text can be done in any order. -/
theorem getKeys?_reread (j : Json) (keys : List String) :
    j.reread.getKeys? keys = (j.getKeys? keys).map reread := by
  induction keys generalizing j with
  | nil => simp
  | cons key more ih =>
    -- Only an object has something at a key, and it is an object afterwards too.
    cases j with
    | obj fields =>
      rw [reread, getKeys?_obj, getKeys?_obj, Fields.getKeys?, Fields.getKeys?,
        Fields.get?_rereadFields]
      cases Fields.get? fields key with
      | none => rfl
      | some value => exact ih value
    | _ => rfl

theorem Fields.getKeys?_rereadFields (fields : Fields) (keys : List String) :
    Fields.getKeys? (rereadFields fields) keys = (fields.getKeys? keys).map reread := by
  cases keys with
  | nil => rfl
  | cons key more =>
    rw [← getKeys?_obj, ← getKeys?_obj]
    exact getKeys?_reread (.obj fields) (key :: more)

/-! ### Values that stay in order -/

theorem rereadItems_eq_map (items : List Json) : rereadItems items = items.map reread := by
  induction items with
  | nil => rfl
  | cons item rest ih => rw [rereadItems, ih, List.map_cons]

theorem rereadFields_eq_map (fields : Fields) :
    rereadFields fields = fields.map fun member => (member.1, member.2.reread) := by
  induction fields with
  | nil => rfl
  | cons member rest ih => rw [rereadFields, ih, List.map_cons]

/-- Keys are kept as they are, so a normal value comes back normal. -/
theorem normal_reread {j : Json} (h : j.Normal) : j.reread.Normal := by
  induction j using deepInduction with
  | atom j harr hobj =>
    cases j with
    | arr items => cases harr
    | obj fields => cases hobj
    | _ => trivial
  | arr items ih =>
    refine normalItems_iff.2 fun item hitem => ?_
    rw [rereadItems_eq_map] at hitem
    obtain ⟨given, hgiven, rfl⟩ := List.mem_map.1 hitem
    exact ih given hgiven (normalItems_iff.1 h given hgiven)
  | obj fields ih =>
    refine ⟨normalFields_iff.2 fun member hmember => ?_, ?_⟩
    · rw [rereadFields_eq_map] at hmember
      obtain ⟨given, hgiven, rfl⟩ := List.mem_map.1 hmember
      exact ih given hgiven (normalFields_iff.1 h.1 given hgiven)
    -- The keys are the same.
    · rw [Fields.Ascending, rereadFields_eq_map, List.map_map]
      exact h.2

/-! ### Values that come back as they were -/

theorem mem_numbersOfItems_iff {items : List Json} {n : Number} :
    n ∈ numbersOfItems items ↔ ∃ item ∈ items, n ∈ item.numbers := by
  induction items with
  | nil => simp [numbersOfItems]
  | cons item rest ih => simp [numbersOfItems, ih]

theorem mem_numbersOfFields_iff {fields : Fields} {n : Number} :
    n ∈ numbersOfFields fields ↔ ∃ member ∈ fields, n ∈ member.2.numbers := by
  induction fields with
  | nil => simp [numbersOfFields]
  | cons member rest ih => simp [numbersOfFields, ih]

theorem rereadItems_eq_self_iff {items : List Json}
    (hitems : ∀ item ∈ items, item.reread = item ↔ ∀ n ∈ item.numbers, n.reread = n) :
    rereadItems items = items ↔ ∀ n ∈ numbersOfItems items, n.reread = n := by
  induction items with
  | nil => simp [rereadItems, numbersOfItems]
  | cons item rest ih =>
    obtain ⟨hitem, hrest⟩ := List.forall_mem_cons.1 hitems
    rw [rereadItems, List.cons.injEq, hitem, ih hrest, numbersOfItems, List.forall_mem_append]

theorem Fields.rereadFields_eq_self_iff {fields : Fields}
    (hfields : ∀ member ∈ fields,
      member.2.reread = member.2 ↔ ∀ n ∈ member.2.numbers, n.reread = n) :
    rereadFields fields = fields ↔ ∀ n ∈ numbersOfFields fields, n.reread = n := by
  induction fields with
  | nil => simp [rereadFields, numbersOfFields]
  | cons member rest ih =>
    obtain ⟨hmember, hrest⟩ := List.forall_mem_cons.1 hfields
    obtain ⟨name, value⟩ := member
    rw [rereadFields, List.cons.injEq, Prod.mk.injEq, hmember, ih hrest, numbersOfFields,
      List.forall_mem_append]
    simp

/-- **A value comes back as it was exactly if each number in it does.** -/
theorem reread_eq_self_iff {j : Json} : j.reread = j ↔ ∀ n ∈ j.numbers, n.reread = n := by
  induction j using deepInduction with
  | atom j harr hobj =>
    cases j with
    -- Numbers are the only atoms that can change.
    | num n => simp [reread, numbers]
    | arr items => cases harr
    | obj fields => cases hobj
    | _ => simp [reread, numbers]
  | arr items ih =>
    rw [reread, Json.arr.injEq, rereadItems_eq_self_iff ih, numbers]
  | obj fields ih =>
    rw [reread, Json.obj.injEq, Fields.rereadFields_eq_self_iff ih, numbers]

/-! ### Values that can be read -/

theorem readable_iff {j : Json} :
    j.readable = true ↔ j.depth ≤ depthLimit ∧ ∀ n ∈ j.numbers, n.reread?.isSome = true := by
  simp [readable]

/-- A value can be read and comes back as it was exactly if it is not too deep and each number in it
comes back. -/
theorem readable_and_reread_eq_self_iff {j : Json} :
    j.readable = true ∧ j.reread = j ↔
      j.depth ≤ depthLimit ∧ ∀ n ∈ j.numbers, n.reread? = some n := by
  -- A number that comes back can be read.
  have hone : ∀ n : Number, n.reread? = some n ↔ n.reread?.isSome = true ∧ n.reread = n := by
    intro n
    rw [Number.reread]
    cases n.reread? <;> simp
  simp only [readable_iff, reread_eq_self_iff, hone, imp_and, forall_and, and_assoc]

end BenchCharts.Json

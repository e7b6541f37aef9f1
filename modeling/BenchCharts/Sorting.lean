/-!
# Stable sorting and distinct values

Lists are sorted by insertion: each item goes in front of the first one that it does not follow.
Going through the list from its end, this leaves items that compare equal in the order in which
they came. The result is a rearrangement of the input (`stableSort_perm`).

`distinct` keeps the first occurrence of every value, and `groupBy` collects the items that share a
key, with the keys in ascending order and the items of a group as they came.
-/

namespace BenchCharts

variable {α : Type}

/-- The list with an item put in front of the first one that it does not follow. -/
def insertInOrder (cmp : α → α → Ordering) (a : α) : List α → List α
  | [] => [a]
  | b :: rest => if cmp a b = .gt then b :: insertInOrder cmp a rest else a :: b :: rest

/-- The items in ascending order, equal ones in their order of appearance. -/
def stableSort (cmp : α → α → Ordering) : List α → List α
  | [] => []
  | a :: rest => insertInOrder cmp a (stableSort cmp rest)

/-- The first occurrence of every value, in order of appearance. -/
def distinct [DecidableEq α] : List α → List α
  | [] => []
  | a :: rest => a :: (distinct rest).filter (· ≠ a)

/-- The items that share a key, for every key in ascending order. -/
def groupBy {κ : Type} [DecidableEq κ] (cmp : κ → κ → Ordering) (key : α → κ) (items : List α) :
    List (κ × List α) :=
  (stableSort cmp (distinct (items.map key))).map fun k => (k, items.filter (key · = k))

/-- Inserting adds the one item. -/
theorem insertInOrder_perm (cmp : α → α → Ordering) (a : α) (l : List α) :
    (insertInOrder cmp a l).Perm (a :: l) := by
  induction l with
  | nil => exact .refl _
  | cons b rest ih =>
    unfold insertInOrder
    split
    · exact (ih.cons b).trans (.swap a b rest)
    · exact .refl _

/-- Sorting rearranges. -/
theorem stableSort_perm (cmp : α → α → Ordering) (l : List α) : (stableSort cmp l).Perm l := by
  induction l with
  | nil => exact .refl _
  | cons a rest ih => exact (insertInOrder_perm cmp a _).trans (ih.cons a)

/-- Sorting keeps the items. -/
@[simp] theorem mem_stableSort {cmp : α → α → Ordering} {l : List α} {a : α} :
    a ∈ stableSort cmp l ↔ a ∈ l := (stableSort_perm cmp l).mem_iff

/-- Nothing is lost when repetitions are dropped. -/
@[simp] theorem mem_distinct [DecidableEq α] {l : List α} {a : α} : a ∈ distinct l ↔ a ∈ l := by
  induction l with
  | nil => simp [distinct]
  | cons b rest ih =>
    by_cases h : a = b <;> simp [distinct, h, ih]

/-- No value is left twice. -/
theorem nodup_distinct [DecidableEq α] (l : List α) : (distinct l).Nodup := by
  induction l with
  | nil => simp [distinct]
  | cons a rest ih => exact List.nodup_cons.2 ⟨by simp, ih.filter _⟩

end BenchCharts

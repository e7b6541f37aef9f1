import BenchCharts.LabelOrder
import BenchCharts.Proofs.Outcome
import BenchCharts.Proofs.Sorting
import BenchCharts.Proofs.Text.Blank
import BenchCharts.Proofs.Version.Order

/-!
# Sorting by labels

What is sorted by labels is rearranged, and then no label comes after one that it should come before
(`sortByLabel_eq_ok`), while items with equal labels stay in the order in which they came
(`pairwise_sortByLabel`). Texts and versions are in a total order. Labels that should be whole
numbers are only if they are, which is why all of them are looked at first: a label that is no
number would compare equal to every other one. Instead it is the error
(`sortByLabel_eq_error_iff`).
-/

namespace BenchCharts

/-- The number that a label spells, or zero. -/
def integerOf (label : String) : Int := (Text.signed64? (Text.trim label)).getD 0

/-- Without the blanks around it, a label spells an integer of 64 bits. -/
def SpellsNumber (label : String) (n : Int) : Prop :=
  ∃ text, Text.Trims label.toList text ∧ Text.SpellsInteger text n ∧
    -9223372036854775808 ≤ n ∧ n < 9223372036854775808

theorem signed64?_trim_eq_some_iff {label : String} {n : Int} :
    Text.signed64? (Text.trim label) = some n ↔ SpellsNumber label n := by
  rw [Text.signed64?_eq_some_iff, Text.trim, String.toList_ofList, SpellsNumber]
  simp only [← Text.trimChars_eq_iff, exists_eq_left']

instance (label : String) (n : Int) : Decidable (SpellsNumber label n) :=
  decidable_of_iff _ signed64?_trim_eq_some_iff

theorem integerLabel_eq_ok_iff {label : String} {n : Int} :
    integerLabel label = .ok n ↔ SpellsNumber label n := by
  rw [← signed64?_trim_eq_some_iff, integerLabel]
  cases Text.signed64? (Text.trim label) <;> simp

theorem SpellsNumber.integerOf_eq {label : String} {n : Int} (h : SpellsNumber label n) :
    integerOf label = n := by
  rw [integerOf, signed64?_trim_eq_some_iff.2 h, Option.getD_some]

/-- The check of labels succeeds if all of them spell numbers. -/
theorem checkIntegers_eq_ok_iff {labels : List String} :
    checkIntegers labels = .ok () ↔ ∀ label ∈ labels, ∃ n, SpellsNumber label n := by
  induction labels with
  | nil => simp [checkIntegers]
  | cons first rest ih =>
    rw [checkIntegers, List.forall_mem_cons, ← ih]
    simp only [← integerLabel_eq_ok_iff]
    cases integerLabel first <;> simp

/-- Labels that spell numbers compare as these do. -/
theorem compareLabels_integer {a b : String} {m n : Int} (ha : SpellsNumber a m)
    (hb : SpellsNumber b n) : compareLabels .integer a b = .ok (compare m n) := by
  rw [compareLabels, integerLabel_eq_ok_iff.2 ha, integerLabel_eq_ok_iff.2 hb]
  rfl

instance : Std.TransCmp (labelOrdering .string) :=
  inferInstanceAs (Std.TransCmp (compareLex (compareOn Text.lowercase) compare))

instance : Std.TransCmp (labelOrdering .version) :=
  inferInstanceAs (Std.TransCmp Version.compare)

instance : Std.LawfulEqCmp (labelOrdering .string) where
  compare_self := Std.ReflCmp.compare_self
  eq_of_compare h := Std.LawfulEqCmp.eq_of_compare (Ordering.then_eq_eq.1 h).2

instance : Std.LawfulEqCmp (labelOrdering .version) :=
  inferInstanceAs (Std.LawfulEqCmp Version.compare)

/-- Unless labels are numbers, they always have an order. -/
theorem compareLabels_eq_ok {resultType : ResultType} (h : resultType ≠ .integer) (a b : String) :
    compareLabels resultType a b = .ok (labelOrdering resultType a b) := by
  cases resultType with
  | integer => exact absurd rfl h
  | string => rfl
  | version => rfl

theorem transCmp_labelOrdering {resultType : ResultType} (h : resultType ≠ .integer) :
    Std.TransCmp (labelOrdering resultType) := by
  cases resultType with
  | integer => exact absurd rfl h
  | string => infer_instance
  | version => infer_instance

/-- Unless labels are numbers, only a label that is the same compares equal. -/
theorem labelOrdering_eq_iff {resultType : ResultType} (h : resultType ≠ .integer)
    {a b : String} : labelOrdering resultType a b = .eq ↔ a = b := by
  cases resultType with
  | integer => exact absurd rfl h
  | string => exact Std.LawfulEqCmp.compare_eq_iff_eq
  | version => exact Std.LawfulEqCmp.compare_eq_iff_eq

/-- Labels are looked at if they have to be numbers, and then the items are sorted. -/
theorem sortByLabel_eq {α : Type} (resultType : ResultType) (label : α → String)
    (items : List α) :
    sortByLabel resultType label items = do
      if resultType = .integer then checkIntegers (items.map label)
      return stableSort (fun a b => labelOrdering resultType (label a) (label b)) items := by
  unfold sortByLabel sortInPlace checkLabels
  by_cases hinteger : resultType = .integer
  · rw [if_pos hinteger, if_pos hinteger]
    cases checkIntegers (items.map label) <;> rfl
  · rw [if_neg hinteger, if_neg hinteger]
    rfl

/-- Sorting succeeds unless a label that should be a number is none. -/
theorem sortByLabel_eq_ok_iff {α : Type} {resultType : ResultType} {label : α → String}
    {items sorted : List α} :
    sortByLabel resultType label items = .ok sorted ↔
      (resultType = .integer → checkIntegers (items.map label) = .ok ()) ∧
        sorted = stableSort (fun a b => labelOrdering resultType (label a) (label b)) items := by
  rw [sortByLabel_eq]
  split
  · next hinteger =>
    rw [bind_eq_ok_iff]
    refine ⟨?_, ?_⟩
    · rintro ⟨⟨⟩, hcheck, hpure⟩
      exact ⟨fun _ => hcheck, (pure_eq_ok_iff.1 hpure).symm⟩
    · rintro ⟨hcheck, rfl⟩
      exact ⟨(), hcheck hinteger, rfl⟩
  -- Without a check nothing can fail.
  · next hother =>
    rw [pure_eq_ok_iff, and_iff_right fun heq => absurd heq hother, eq_comm]

theorem exists_sortByLabel_eq_ok {α : Type} {resultType : ResultType} (h : resultType ≠ .integer)
    (label : α → String) (items : List α) :
    ∃ sorted, sortByLabel resultType label items = .ok sorted :=
  ⟨_, sortByLabel_eq_ok_iff.2 ⟨fun heq => absurd heq h, rfl⟩⟩

/-- Where labels spell numbers, sorting is by these. -/
theorem sortByLabel_integer {α : Type} {label : α → String} {items : List α}
    (h : ∀ item ∈ items, ∃ n, SpellsNumber (label item) n) :
    sortByLabel .integer label items =
      .ok (stableSort (fun a b => compare (integerOf (label a)) (integerOf (label b))) items) := by
  refine sortByLabel_eq_ok_iff.2 ⟨fun _ => checkIntegers_eq_ok_iff.2 ?_, ?_⟩
  · simpa only [List.forall_mem_map] using h
  -- Only the labels that are there are compared, and each of them spells a number.
  · refine stableSort_congr fun a ha b hb => ?_
    obtain ⟨m, hm⟩ := h a ha
    obtain ⟨n, hn⟩ := h b hb
    rw [labelOrdering, compareLabels_integer hm hn, hm.integerOf_eq, hn.integerOf_eq]

/-- On the labels of what can be sorted there is an order, and sorting is by this order. -/
theorem exists_order_of_sortByLabel {α : Type} {resultType : ResultType} {label : α → String}
    {items sorted : List α} (h : sortByLabel resultType label items = .ok sorted) :
    ∃ cmp : α → α → Ordering, Std.TransCmp cmp ∧ sorted = stableSort cmp items ∧
      ∀ a ∈ items, ∀ b ∈ items,
        compareLabels resultType (label a) (label b) = .ok (cmp a b) := by
  obtain ⟨hcheck, rfl⟩ := sortByLabel_eq_ok_iff.1 h
  cases resultType with
  | integer =>
    have hnumbers : ∀ item ∈ items, ∃ n, SpellsNumber (label item) n := by
      simpa only [List.forall_mem_map] using checkIntegers_eq_ok_iff.1 (hcheck rfl)
    -- On these labels the order is that of their numbers, which is total unlike the one on all.
    refine ⟨_, transCmp_key (compare : Int → Int → Ordering) fun a => integerOf (label a), ?_, ?_⟩
    · exact Except.ok.inj (h.symm.trans (sortByLabel_integer hnumbers))
    · intro a ha b hb
      obtain ⟨m, hm⟩ := hnumbers a ha
      obtain ⟨n, hn⟩ := hnumbers b hb
      rw [compareLabels_integer hm hn, hm.integerOf_eq, hn.integerOf_eq]
  | string => exact ⟨_, transCmp_key (labelOrdering .string) label, rfl, fun _ _ _ _ => rfl⟩
  | version => exact ⟨_, transCmp_key (labelOrdering .version) label, rfl, fun _ _ _ _ => rfl⟩

/-- **Sorting by labels** rearranges, and puts no label after one that it comes before. -/
theorem sortByLabel_eq_ok {α : Type} {resultType : ResultType} {label : α → String}
    {items sorted : List α} (h : sortByLabel resultType label items = .ok sorted) :
    sorted.Perm items ∧
      sorted.Pairwise fun a b =>
        ∃ o, compareLabels resultType (label a) (label b) = .ok o ∧ o.isLE = true := by
  -- What was sorted has an order in which it was sorted.
  obtain ⟨cmp, htrans, rfl, hcompare⟩ := exists_order_of_sortByLabel h
  refine ⟨stableSort_perm _ _, ?_⟩
  refine (pairwise_stableSort items).imp_of_mem fun {a b} ha hb hle => ?_
  exact ⟨_, hcompare a (mem_stableSort.1 ha) b (mem_stableSort.1 hb), hle⟩

/-- Items with equal labels keep the order in which they came. -/
theorem pairwise_sortByLabel {α : Type} {resultType : ResultType} {label : α → String}
    {items sorted : List α} (h : sortByLabel resultType label items = .ok sorted)
    {R : α → α → Prop} (hR : items.Pairwise R) :
    sorted.Pairwise fun a b => compareLabels resultType (label a) (label b) = .ok .lt ∨
      compareLabels resultType (label a) (label b) = .ok .eq ∧ R a b := by
  obtain ⟨cmp, htrans, rfl, hcompare⟩ := exists_order_of_sortByLabel h
  have hstable : (stableSort cmp items).Pairwise fun x y => cmp x y = .eq → R x y :=
    pairwise_of_eq_stableSort hR
  refine ((pairwise_stableSort items).and hstable).imp_of_mem fun {a b} ha hb hab => ?_
  obtain ⟨hle, heq⟩ := hab
  have hlabels := hcompare a (mem_stableSort.1 ha) b (mem_stableSort.1 hb)
  -- A sorted pair is in ascending order or equal, and equal ones were not moved.
  cases hcmp : cmp a b with
  | lt => exact .inl (hcmp ▸ hlabels)
  | eq => exact .inr ⟨hcmp ▸ hlabels, heq hcmp⟩
  | gt =>
    rw [hcmp] at hle
    cases hle

/-- Labels the other way round compare the other way round. -/
theorem compareLabels_swap {resultType : ResultType} {a b : String} {o : Ordering}
    (h : compareLabels resultType a b = .ok o) : compareLabels resultType b a = .ok o.swap := by
  cases resultType with
  -- Both labels have been read, so it does not matter which is read first.
  | integer =>
    obtain ⟨x, hx, hrest⟩ := bind_eq_ok_iff.1 h
    obtain ⟨y, hy, hpure⟩ := bind_eq_ok_iff.1 hrest
    obtain rfl := pure_eq_ok_iff.1 hpure
    have hswap : compareLabels .integer b a = .ok (compare y x) := by
      rw [compareLabels, hx, hy]
      rfl
    have hcompare : compare y x = (compare x y).swap := Std.OrientedCmp.eq_swap
    rw [hswap, hcompare]
  -- Other labels are compared by an order, which turns round with its arguments.
  | string =>
    obtain rfl := Except.ok.inj h
    have hordering : labelOrdering .string b a = (labelOrdering .string a b).swap :=
      Std.OrientedCmp.eq_swap
    exact congrArg Except.ok hordering
  | version =>
    obtain rfl := Except.ok.inj h
    have hordering : labelOrdering .version b a = (labelOrdering .version a b).swap :=
      Std.OrientedCmp.eq_swap
    exact congrArg Except.ok hordering

/-! ### Labels that are no numbers -/

/-- The first label that spells no number. -/
def firstNoInteger? (labels : List String) : Option String :=
  labels.find? fun label => (Text.signed64? (Text.trim label)).isNone

/-- The check fails with the first label that spells no number. -/
theorem checkIntegers_eq_error_iff {labels : List String} {cause : RequestError} :
    checkIntegers labels = .error cause ↔
      ∃ label, firstNoInteger? labels = some label ∧ cause = .notAnInteger label := by
  induction labels with
  | nil => simp [checkIntegers, firstNoInteger?]
  | cons first rest ih =>
    rw [checkIntegers, firstNoInteger?, List.find?_cons, integerLabel]
    -- The check stops at the first label that is no number, as the search does.
    cases Text.signed64? (Text.trim first) with
    | some n => exact ih
    | none => simp [eq_comm]

/-- **Sorting fails with the first label that should be a number and is none.** -/
theorem sortByLabel_eq_error_iff {α : Type} {resultType : ResultType} {label : α → String}
    {items : List α} {cause : RequestError} :
    sortByLabel resultType label items = .error cause ↔
      resultType = .integer ∧
        ∃ text, firstNoInteger? (items.map label) = some text ∧ cause = .notAnInteger text := by
  rw [← checkIntegers_eq_error_iff]
  rw [sortByLabel_eq]
  split
  · next hinteger =>
    rw [bind_eq_error_iff, and_iff_right hinteger]
    -- Only the check can fail, and sorting comes after it.
    refine or_iff_left ?_
    rintro ⟨_, -, hpure⟩
    cases hpure
  · next hother =>
    constructor
    · intro hpure
      cases hpure
    · rintro ⟨hinteger, -⟩
      exact absurd hinteger hother

end BenchCharts

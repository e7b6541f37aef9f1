import Mathlib.Data.List.Nodup
import BenchCharts.Proofs.LabelOrder
import BenchCharts.Store.Bars

/-!
# Labels that tie

Two labels tie if they compare equal. Texts and versions only tie with themselves; whole numbers can
be spelt in more than one way, and all spellings of one number tie.

A list is sorted where it stands. All labels are looked at before anything is moved, so that a list
that cannot be sorted is left as it was; otherwise it is rearranged so that the labels ascend, and
items that tie stay in the order in which they came (`sortInPlace_sorts`).

The bars of a chart come from the store in no particular order, with a label to each. Where labels
only tie with themselves the order does not show after sorting. Where they are numbers it does, and
exactly among bars with different spellings of one number (`sortAlike_iff_of_perm`).
-/

namespace BenchCharts

/-! ### Sorting in place -/

section InPlace

variable {α : Type} {resultType : ResultType} {label : α → String} {items : List α}

/-- A list is another one in the order of its labels, with ties as they came. -/
structure SortedByLabel (resultType : ResultType) (label : α → String) (items sorted : List α) :
    Prop where
  /-- It has the same items. -/
  perm : sorted.Perm items
  /-- No label comes after one that it should come before. -/
  ascending : sorted.Pairwise fun a b =>
    ∃ o, compareLabels resultType (label a) (label b) = .ok o ∧ o ≠ .gt
  /-- The items that tie with an item are in the order in which they came. -/
  stable : ∀ a ∈ items,
    sorted.filter (fun b => compareLabels resultType (label a) (label b) = .ok .eq) =
      items.filter fun b => compareLabels resultType (label a) (label b) = .ok .eq

theorem SortedByLabel.of_sortByLabel {sorted : List α}
    (h : sortByLabel resultType label items = .ok sorted) :
    SortedByLabel resultType label items sorted := by
  obtain ⟨hperm, hascending⟩ := sortByLabel_eq_ok h
  refine ⟨hperm, hascending.imp fun ⟨o, ho, hle⟩ => ⟨o, ho, Ordering.isLE_iff_ne_gt.1 hle⟩, ?_⟩
  intro a ha
  obtain ⟨cmp, htrans, rfl, hcompare⟩ := exists_order_of_sortByLabel h
  -- Among the items of the list, to tie is to compare equal in the order that is sorted by.
  have hties : ∀ b ∈ items,
      decide (compareLabels resultType (label a) (label b) = .ok .eq) = decide (cmp a b = .eq) := by
    intro b hb
    refine decide_eq_decide.2 ?_
    rw [hcompare a ha b hb, Except.ok.injEq]
  -- So the ties of the sorted list are those that sorting keeps in order.
  rw [List.filter_congr hties, List.filter_congr fun b hb => hties b (mem_stableSort.1 hb)]
  exact filter_eq_stableSort a items

theorem sortByLabel_of_sortInPlace (h : (sortInPlace resultType label items).2 = .ok ()) :
    sortByLabel resultType label items = .ok (sortInPlace resultType label items).1 := by
  show (sortInPlace resultType label items).2.map _ = _
  rw [h]
  rfl

/-- Nothing has been moved when a label is found that cannot be ordered. -/
theorem sortInPlace_of_error {cause : RequestError}
    (h : (sortInPlace resultType label items).2 = .error cause) :
    (sortInPlace resultType label items).1 = items := by
  unfold sortInPlace at h ⊢
  split
  · next hcheck =>
    rw [hcheck] at h
    cases h
  · rfl

theorem exists_sortInPlace_eq_error_iff :
    (∃ cause, (sortInPlace resultType label items).2 = .error cause) ↔
      resultType = .integer ∧ ∃ item ∈ items, ∀ n, ¬ SpellsNumber (label item) n := by
  -- Sorting fails exactly if the check before it does.
  have hfails : (∃ cause, (sortInPlace resultType label items).2 = .error cause) ↔
      checkLabels resultType (items.map label) ≠ .ok () := by
    unfold sortInPlace
    cases checkLabels resultType (items.map label) <;> simp
  rw [hfails, checkLabels]
  by_cases hinteger : resultType = .integer
  · rw [if_pos hinteger, Ne, checkIntegers_eq_ok_iff, and_iff_right hinteger]
    simp only [List.forall_mem_map, not_forall, not_exists, exists_prop]
  · rw [if_neg hinteger]
    exact iff_of_false (fun hne => hne rfl) fun h => hinteger h.1

/-- **Sorting a list by its labels.** It fails exactly if labels have to be numbers and one of them
spells none, and then the list stays as it was. Otherwise the list has the same items afterwards,
with ascending labels and with ties in the order in which they came. Unless labels are numbers, a
label ties with itself alone. -/
theorem sortInPlace_sorts (resultType : ResultType) (label : α → String) (items : List α) :
    ((∃ cause, (sortInPlace resultType label items).2 = .error cause) ↔
      resultType = .integer ∧ ∃ item ∈ items, ∀ n, ¬ SpellsNumber (label item) n) ∧
    (∀ cause, (sortInPlace resultType label items).2 = .error cause →
      (sortInPlace resultType label items).1 = items) ∧
    ((sortInPlace resultType label items).2 = .ok () →
      SortedByLabel resultType label items (sortInPlace resultType label items).1) ∧
    (resultType ≠ .integer → ∀ a b, compareLabels resultType a b = .ok .eq ↔ a = b) := by
  refine ⟨exists_sortInPlace_eq_error_iff, fun _ => sortInPlace_of_error, fun hok => ?_, ?_⟩
  · exact .of_sortByLabel (sortByLabel_of_sortInPlace hok)
  · intro hother a b
    rw [compareLabels_eq_ok hother, Except.ok.injEq, labelOrdering_eq_iff hother]

/-- A list that is left as it was for its only label, a list with two spellings of one number in it,
and two spellings of one version that do not tie. -/
theorem sortInPlace_sorts_threeLists :
    (∃ cause, (sortInPlace .integer id ["many"]).2 = .error cause) ∧
      (sortInPlace .integer id ["many"]).1 = ["many"] ∧
      (sortInPlace .integer id ["16", " 2", "+16"]).2 = .ok () ∧
      SortedByLabel .integer id ["16", " 2", "+16"] [" 2", "16", "+16"] ∧
      compareLabels .version "v1" "1.0" ≠ .ok .eq := by
  obtain ⟨-, hstays, -, -⟩ := sortInPlace_sorts .integer id ["many"]
  obtain ⟨-, -, hsorted, -⟩ := sortInPlace_sorts .integer id ["16", " 2", "+16"]
  obtain ⟨-, -, -, hties⟩ := sortInPlace_sorts .version id ([] : List String)
  -- The label spells no number.
  have hmany : (sortInPlace .integer id ["many"]).2 = .error (.notAnInteger "many") := by decide
  refine ⟨⟨_, hmany⟩, hstays _ hmany, by decide, hsorted (by decide), fun htie => ?_⟩
  exact absurd ((hties (by decide) "v1" "1.0").1 htie) (by decide)

end InPlace

/-! ### The order in which bars come -/

/-- Sorting fails for both of two lists of bars, or gives the same list for both. -/
def SortAlike (resultType : ResultType) (bars bars' : List Bar) : Prop :=
  (∃ cause cause', sortByLabel resultType Bar.label bars = .error cause ∧
    sortByLabel resultType Bar.label bars' = .error cause') ∨
  ∃ sorted, sortByLabel resultType Bar.label bars = .ok sorted ∧
    sortByLabel resultType Bar.label bars' = .ok sorted

/-- The bars whose labels spell a number, as they come. -/
def barsOfNumber (n : Int) (bars : List Bar) : List Bar :=
  bars.filter fun bar => SpellsNumber bar.label n

section Bars

variable {resultType : ResultType} {bars bars' : List Bar}

/-- Different labels that are no numbers do not tie, so sorting leaves no trace of the order in
which they came. -/
theorem SortAlike.of_ne_integer (h : resultType ≠ .integer) (hlabels : (bars.map Bar.label).Nodup)
    (hperm : bars'.Perm bars) : SortAlike resultType bars bars' := by
  have := transCmp_labelOrdering h
  have := transCmp_key (labelOrdering resultType) Bar.label
  -- Different labels do not compare equal.
  have hne : bars.Pairwise fun a b => labelOrdering resultType a.label b.label ≠ .eq :=
    (List.pairwise_map.1 hlabels).imp fun hne htie => hne ((labelOrdering_eq_iff h).1 htie)
  refine .inr ⟨_, sortByLabel_eq_ok_iff.2 ⟨fun heq => absurd heq h, rfl⟩,
    sortByLabel_eq_ok_iff.2 ⟨fun heq => absurd heq h, ?_⟩⟩
  exact (stableSort_eq_of_perm hperm hne).symm

/-- A label that is no number is in the way of both lists. -/
theorem SortAlike.of_no_number {bar : Bar} (hbar : bar ∈ bars)
    (hnone : ∀ n, ¬ SpellsNumber bar.label n) (hperm : bars'.Perm bars) :
    SortAlike .integer bars bars' := by
  -- It is enough that the bar is somewhere in a list.
  have hfails : ∀ l : List Bar, bar ∈ l →
      ∃ cause, sortByLabel .integer Bar.label l = .error cause := by
    intro l hl
    obtain ⟨cause, hcause⟩ := exists_sortInPlace_eq_error_iff.2 ⟨rfl, bar, hl, hnone⟩
    exact ⟨cause, map_eq_error_iff.2 hcause⟩
  obtain ⟨cause, hcause⟩ := hfails bars hbar
  obtain ⟨cause', hcause'⟩ := hfails bars' (hperm.mem_iff.2 hbar)
  exact .inl ⟨cause, cause', hcause, hcause'⟩

section Numbers

variable (hnumbers : ∀ bar ∈ bars, ∃ n, SpellsNumber bar.label n)

include hnumbers

/-- Bars with numbers tie if these are the same. -/
theorem filter_integerOf_eq (n : Int) :
    bars.filter (fun bar => compare n (integerOf bar.label) = .eq) = barsOfNumber n bars := by
  refine List.filter_congr fun bar hbar => decide_eq_decide.2 ?_
  obtain ⟨k, hk⟩ := hnumbers bar hbar
  rw [hk.integerOf_eq, Std.LawfulEqCmp.compare_eq_iff_eq]
  constructor
  · rintro rfl
    exact hk
  · intro hn
    rw [← hn.integerOf_eq, hk.integerOf_eq]

/-- **Bars with numbers are sorted alike** if those of each number come in the same order. -/
theorem sortAlike_integer_iff (hperm : bars'.Perm bars) :
    SortAlike .integer bars bars' ↔ ∀ n, barsOfNumber n bars = barsOfNumber n bars' := by
  have hnumbers' : ∀ bar ∈ bars', ∃ n, SpellsNumber bar.label n := fun bar hbar =>
    hnumbers bar (hperm.mem_iff.1 hbar)
  have htrans : Std.TransCmp fun a b : Bar => compare (integerOf a.label) (integerOf b.label) :=
    transCmp_key (compare : Int → Int → Ordering) fun bar : Bar => integerOf bar.label
  -- Sorting fails for neither, so it is alike if it gives the same list.
  have hsorted : SortAlike .integer bars bars' ↔
      stableSort (fun a b : Bar => compare (integerOf a.label) (integerOf b.label)) bars =
        stableSort (fun a b : Bar => compare (integerOf a.label) (integerOf b.label)) bars' := by
    rw [SortAlike, sortByLabel_integer hnumbers, sortByLabel_integer hnumbers']
    simp [eq_comm]
  -- The ties of a bar are the bars with its number.
  rw [hsorted, stableSort_eq_iff]
  simp only [filter_integerOf_eq hnumbers, filter_integerOf_eq hnumbers']
  constructor
  · intro hties n
    by_cases hsome : ∃ bar ∈ bars, SpellsNumber bar.label n
    · obtain ⟨bar, -, hbar⟩ := hsome
      rw [← hbar.integerOf_eq]
      exact hties bar
    · -- No bar has the number, whatever the order.
      have hnil : ∀ l : List Bar, l.Perm bars → barsOfNumber n l = [] := fun l hl =>
        List.filter_eq_nil_iff.2 fun bar hbar hn =>
          hsome ⟨bar, hl.mem_iff.1 hbar, of_decide_eq_true hn⟩
      rw [hnil bars (.refl _), hnil bars' hperm]
  · intro hsame bar
    exact hsame _

end Numbers

/-- Different items can only be the same in reverse if there is at most one of them. -/
theorem length_le_one_of_reverse_eq {α : Type} {l : List α} (hnodup : l.Nodup)
    (hreverse : l.reverse = l) : l.length ≤ 1 := by
  cases l with
  | nil => exact Nat.zero_le 1
  | cons a rest =>
    cases hrest : rest.reverse with
    | nil => simp [List.reverse_eq_nil_iff.1 hrest]
    | cons c more =>
      rw [List.reverse_cons, hrest, List.cons_append] at hreverse
      have hmem : c ∈ rest := List.mem_reverse.1 (hrest ▸ List.mem_cons_self ..)
      exact absurd ((List.cons.inj hreverse).1 ▸ hmem) (List.nodup_cons.1 hnodup).1

/-- The bars of each number come in the same order however bars are arranged exactly if no two of
them have one number. -/
theorem forall_perm_barsOfNumber_iff (hlabels : (bars.map Bar.label).Nodup) :
    (∀ bars', bars'.Perm bars → ∀ n, barsOfNumber n bars = barsOfNumber n bars') ↔
      bars.Pairwise fun a b => ∀ n, SpellsNumber a.label n → ¬ SpellsNumber b.label n := by
  constructor
  · intro hsame
    refine List.pairwise_iff_forall_sublist.2 fun {a b} hsublist n ha hb => ?_
    -- In reverse, too, the bars of the number are the same, but there are two of them.
    have hreverse : (barsOfNumber n bars).reverse = barsOfNumber n bars := by
      rw [barsOfNumber, ← List.filter_reverse]
      exact (hsame bars.reverse (List.reverse_perm bars) n).symm
    have hnodup : (barsOfNumber n bars).Nodup := (List.Nodup.of_map _ hlabels).filter _
    have htwo : [a, b].Sublist (barsOfNumber n bars) := by
      have hfilter := hsublist.filter fun bar => decide (SpellsNumber bar.label n)
      rwa [List.filter_eq_self.2 (by simp [ha, hb])] at hfilter
    have hle := htwo.length_le
    have hone := length_le_one_of_reverse_eq hnodup hreverse
    simp only [List.length_cons, List.length_nil] at hle
    omega
  · intro hpairwise bars' hperm n
    have hclass : (barsOfNumber n bars).Pairwise fun a b =>
        ∀ n, SpellsNumber a.label n → ¬ SpellsNumber b.label n := hpairwise.filter _
    have hspells : ∀ bar ∈ barsOfNumber n bars, SpellsNumber bar.label n := fun bar hbar =>
      of_decide_eq_true (List.mem_filter.1 hbar).2
    have hperm' : (barsOfNumber n bars').Perm (barsOfNumber n bars) := hperm.filter _
    -- So at most one bar has the number.
    cases hbars : barsOfNumber n bars with
    | nil => exact ((hbars ▸ hperm').eq_nil).symm
    | cons a rest =>
      cases rest with
      | nil => exact (List.perm_singleton.1 (hbars ▸ hperm')).symm
      | cons b more =>
        rw [hbars] at hclass hspells
        have htwice := (List.pairwise_cons.1 hclass).1 b (List.mem_cons_self ..) n
        exact absurd (hspells b (by simp)) (htwice (hspells a (by simp)))

/-- **The order in which bars come** shows after sorting in one case only. Lists of the same bars
with different labels are sorted alike, or fail alike, unless the labels are numbers and bars with
different spellings of one number come in another order. So any order gives the same exactly if no
two labels spell one number. -/
theorem sortAlike_iff_of_perm (resultType : ResultType) {bars : List Bar}
    (hlabels : (bars.map Bar.label).Nodup) :
    (∀ bars', bars'.Perm bars → (SortAlike resultType bars bars' ↔
      (resultType = .integer → (∀ bar ∈ bars, ∃ n, SpellsNumber bar.label n) →
        ∀ n, barsOfNumber n bars = barsOfNumber n bars'))) ∧
    ((∀ bars', bars'.Perm bars → SortAlike resultType bars bars') ↔
      (resultType = .integer → (∀ bar ∈ bars, ∃ n, SpellsNumber bar.label n) →
        bars.Pairwise fun a b => ∀ n, SpellsNumber a.label n → ¬ SpellsNumber b.label n)) := by
  have halike : ∀ bars', bars'.Perm bars → (SortAlike resultType bars bars' ↔
      (resultType = .integer → (∀ bar ∈ bars, ∃ n, SpellsNumber bar.label n) →
        ∀ n, barsOfNumber n bars = barsOfNumber n bars')) := by
    intro bars' hperm
    by_cases hinteger : resultType = .integer
    · subst hinteger
      by_cases hnumbers : ∀ bar ∈ bars, ∃ n, SpellsNumber bar.label n
      · rw [sortAlike_integer_iff hnumbers hperm]
        exact ⟨fun hsame _ _ => hsame, fun hsame => hsame rfl hnumbers⟩
      -- Some label spells no number, so both fail and nothing is left to show.
      · refine iff_of_true ?_ fun _ hall => absurd hall hnumbers
        push Not at hnumbers
        obtain ⟨bar, hbar, hnone⟩ := hnumbers
        exact .of_no_number hbar hnone hperm
    · exact iff_of_true (.of_ne_integer hinteger hlabels hperm) fun heq => absurd heq hinteger
  refine ⟨halike, ?_⟩
  rw [← forall_perm_barsOfNumber_iff hlabels]
  constructor
  · intro hall hinteger hnumbers bars' hperm
    exact (halike bars' hperm).1 (hall bars' hperm) hinteger hnumbers
  · intro hsame bars' hperm
    exact (halike bars' hperm).2 fun hinteger hnumbers => hsame hinteger hnumbers bars' hperm

end Bars

/-- Bars with some labels. -/
def barsWithLabels (labels : List String) : List Bar := labels.map fun label => ⟨label, 1, [label]⟩

/-- With a number to each, bars can come in any order. With two spellings of one number, another bar
can still come between them. -/
theorem sortAlike_iff_of_perm_numbers :
    SortAlike .integer (barsWithLabels ["16", "2"]) (barsWithLabels ["2", "16"]) ∧
      SortAlike .integer (barsWithLabels ["1", "01", "2"]) (barsWithLabels ["1", "2", "01"]) := by
  refine ⟨?_, ?_⟩
  · have hlabels : ((barsWithLabels ["16", "2"]).map Bar.label).Nodup := by decide
    refine (sortAlike_iff_of_perm .integer hlabels).2.2 (fun _ _ => ?_) _ (List.Perm.swap ..)
    refine List.pairwise_pair.2 fun n h16 h2 => ?_
    exact absurd (h16.integerOf_eq.trans h2.integerOf_eq.symm) (by decide)
  · have hlabels : ((barsWithLabels ["1", "01", "2"]).map Bar.label).Nodup := by decide
    refine ((sortAlike_iff_of_perm .integer hlabels).1 _ ((List.Perm.swap ..).cons _)).2
      fun _ _ n => ?_
    -- The two spellings are both in front of the other bar or behind it, and keep their order.
    by_cases h2 : SpellsNumber "2" n
    · have h01 : ¬ SpellsNumber "01" n := fun h01 =>
        absurd (h01.integerOf_eq.trans h2.integerOf_eq.symm) (by decide)
      simp [barsOfNumber, barsWithLabels, List.filter_cons, h01]
    · simp [barsOfNumber, barsWithLabels, List.filter_cons, h2]

/-- Two spellings of one number stay in the order in which they come. -/
theorem not_sortAlike_twoSpellings :
    ((barsWithLabels ["1", "01"]).map Bar.label).Nodup ∧
      (barsWithLabels ["01", "1"]).Perm (barsWithLabels ["1", "01"]) ∧
      ¬ SortAlike .integer (barsWithLabels ["1", "01"]) (barsWithLabels ["01", "1"]) := by
  have hsorted : sortByLabel .integer Bar.label (barsWithLabels ["1", "01"]) =
      .ok (barsWithLabels ["1", "01"]) := rfl
  have hsorted' : sortByLabel .integer Bar.label (barsWithLabels ["01", "1"]) =
      .ok (barsWithLabels ["01", "1"]) := rfl
  refine ⟨by decide, List.Perm.swap .., ?_⟩
  -- Both lists can be sorted, and stay as they are.
  rintro (⟨cause, -, hfails, -⟩ | ⟨sorted, hsame, hsame'⟩)
  · cases hsorted.symm.trans hfails
  · have hbars := (Except.ok.inj (hsorted.symm.trans hsame)).trans
      (Except.ok.inj (hsorted'.symm.trans hsame')).symm
    exact absurd (congrArg (List.map Bar.label) hbars) (by decide)

end BenchCharts

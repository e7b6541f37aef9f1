import BenchCharts.Proofs.Sorting
import BenchCharts.Version

/-!
# Version order is a total order

`Version.compare` chains four comparisons: cores, suffixes, identifiers and, at the end, the
strings themselves. Each of the first three is only a preorder. Cores compare equal up to zeros at
their end, identifiers up to leading zeros and a plus sign, and separators between identifiers do
not count at all. It is the last comparison that tells different strings apart.

Transitivity is not proved by cases over triples. Each comparison is shown to be the order of some
key instead, since an order of keys inherits its laws:

* `compareCores_eq` — cores compare as lists without the zeros at their end (`significant`);
* `Identifier.compare` — numbers, then words, each in an order of its own;
* `compareSuffixes_eq` — suffixes compare as optional lists of identifiers.

`Version.compare_total_order` puts the laws together.
-/

namespace BenchCharts

namespace Version

/-! ### Cores -/

/-- A core without the zeros at its end. -/
def significant : List Nat → List Nat
  | [] => []
  | n :: rest => if n = 0 ∧ significant rest = [] then [] else n :: significant rest

/-- A core of zeros has nothing significant in it, and no other core has. -/
theorem significant_eq_nil_iff (core : List Nat) :
    significant core = [] ↔ core.all (· == 0) = true := by
  induction core with
  | nil => simp [significant]
  | cons n rest ih =>
    rw [significant, List.all_cons, Bool.and_eq_true, beq_iff_eq, ← ih]
    split <;> simp_all

/-- A list comes before every list that it starts, and equals only the empty one. -/
private theorem compareLex_nil_left (core : List Nat) :
    List.compareLex compare [] core = if core = [] then .eq else .lt := by
  cases core <;> rfl

/-- Cores compare as lists do that have no zeros at their end. -/
theorem compareCores_eq (a b : List Nat) :
    compareCores a b = List.compareLex compare (significant a) (significant b) := by
  induction a generalizing b with
  | nil =>
    rw [compareCores, significant, compareLex_nil_left]
    by_cases hb : b.all (· == 0) = true
    · rw [if_pos hb, if_pos ((significant_eq_nil_iff b).2 hb)]
    · rw [if_neg hb, if_neg (mt (significant_eq_nil_iff b).1 hb)]
  | cons m as ih =>
    cases b with
    | nil =>
      rw [compareCores, ih [], significant, significant]
      rcases Nat.eq_zero_or_pos m with rfl | hm
      · -- A zero counts only if something significant follows it.
        cases has : significant as with
        | nil => rfl
        | cons k ks => rfl
      · rw [if_neg (by omega), Nat.compare_eq_gt.2 hm]
        rfl
    | cons n bs =>
      rw [compareCores, ih bs, significant, significant]
      -- Whether anything significant is left decides on each side if the heads are compared.
      by_cases ha : m = 0 ∧ significant as = [] <;> by_cases hb : n = 0 ∧ significant bs = []
      · obtain ⟨rfl, ha⟩ := ha
        obtain ⟨rfl, hb⟩ := hb
        simp [ha, hb]
      · obtain ⟨rfl, ha⟩ := ha
        rw [if_pos ⟨rfl, ha⟩, if_neg hb, ha, List.compareLex_nil_cons, compareLex_nil_left]
        rcases Nat.eq_zero_or_pos n with rfl | hn
        · rw [if_neg fun hbs => hb ⟨rfl, hbs⟩]
          rfl
        · rw [Nat.compare_eq_lt.2 hn]
          rfl
      · obtain ⟨rfl, hb⟩ := hb
        rw [if_neg ha, if_pos ⟨rfl, hb⟩, hb, List.compareLex_cons_nil]
        rcases Nat.eq_zero_or_pos m with rfl | hm
        · cases has : significant as with
          | nil => exact absurd ⟨rfl, has⟩ ha
          | cons k ks => rfl
        · rw [Nat.compare_eq_gt.2 hm]
          rfl
      · rw [if_neg ha, if_neg hb, List.compareLex_cons_cons]

instance : Std.TransCmp compareCores := by
  have hkey : compareCores = fun a b => compareOn significant a b := by
    funext a b
    exact compareCores_eq a b
  rw [hkey]
  infer_instance

/-! ### Suffixes -/

instance : Std.OrientedCmp Identifier.compare where
  eq_swap {a b} := by
    cases a <;> cases b <;> first | rfl | exact Std.OrientedOrd.eq_swap

instance : Std.TransCmp Identifier.compare where
  isLE_trans {a b c} hab hbc := by
    -- A number never follows a word, which leaves the triples of one kind and two mixed ones.
    cases a <;> cases b <;> cases c <;>
      first | exact Std.TransOrd.isLE_trans hab hbc | rfl | contradiction

instance : Std.TransCmp compareSuffixes := by
  -- With the identifiers for the text, this is the order on optional lists, no list first.
  let _ : Ord (List Identifier) := ⟨List.compareLex Identifier.compare⟩
  have : Std.TransOrd (List Identifier) :=
    inferInstanceAs (Std.TransCmp (List.compareLex Identifier.compare))
  have hkey : compareSuffixes = fun a b => compareOn (Option.map identifiers) a b := by
    funext a b
    cases a <;> cases b <;> rfl
  rw [hkey]
  infer_instance

/-! ### Versions and all strings -/

instance : Std.TransCmp compareParsed := by
  have := transCmp_key compareCores Version.core
  have := transCmp_key compareSuffixes Version.suffix
  exact inferInstanceAs (Std.TransCmp (compareLex (fun a b : Version => compareCores a.core b.core)
    (fun a b : Version => compareSuffixes a.suffix b.suffix)))

instance : Std.OrientedCmp Version.compare where
  eq_swap {a b} := by
    unfold Version.compare
    cases parse? a with
    | none =>
      cases parse? b with
      | none => exact Std.OrientedOrd.eq_swap
      | some v => rfl
    | some u =>
      cases parse? b with
      | none => rfl
      | some v =>
        rw [Ordering.swap_then, ← @Std.OrientedCmp.eq_swap _ compareParsed,
          ← Std.OrientedOrd.eq_swap]

/-- Versions in their order, with equal ones told apart by how they are spelt. -/
def compareSpelt : Version × String → Version × String → Ordering :=
  compareLex (fun a b => compareParsed a.1 b.1) (compareOn Prod.snd)

instance : Std.TransCmp compareSpelt := by
  have := transCmp_key compareParsed (Prod.fst : Version × String → Version)
  exact inferInstanceAs (Std.TransCmp (compareLex
    (fun a b : Version × String => compareParsed a.1 b.1) (compareOn Prod.snd)))

/-- A string that is no version never comes before one. -/
theorem isSome_parse?_of_isLE {a b : String} (hle : (Version.compare a b).isLE)
    (hb : (parse? b).isSome) : (parse? a).isSome := by
  obtain ⟨v, hb⟩ := Option.isSome_iff_exists.1 hb
  cases ha : parse? a with
  | some u => rfl
  | none => simp [Version.compare, ha, hb] at hle

instance : Std.TransCmp Version.compare where
  isLE_trans {a b c} hab hbc := by
    cases hc : parse? c with
    | none =>
      cases ha : parse? a with
      | some u => simp [Version.compare, ha, hc]
      -- Versions that parse are below all strings that do not, so none of the three parses.
      | none =>
        have hb : parse? b = none := by
          rw [← Option.not_isSome_iff_eq_none]
          intro hb
          simpa [ha] using isSome_parse?_of_isLE hab hb
        simp only [Version.compare, ha, hb, hc] at hab hbc ⊢
        exact Std.TransOrd.isLE_trans hab hbc
    | some w =>
      obtain ⟨v, hb⟩ := Option.isSome_iff_exists.1 (isSome_parse?_of_isLE hbc (by rw [hc]; rfl))
      obtain ⟨u, ha⟩ := Option.isSome_iff_exists.1 (isSome_parse?_of_isLE hab (by rw [hb]; rfl))
      simp only [Version.compare, ha, hb, hc] at hab hbc ⊢
      exact @Std.TransCmp.isLE_trans _ compareSpelt _ (u, a) (v, b) (w, c) hab hbc

instance : Std.LawfulEqCmp Version.compare where
  eq_of_compare {a b} h := by
    unfold Version.compare at h
    cases ha : parse? a <;> cases hb : parse? b <;> simp_all [Ordering.then_eq_eq]

/-- **The order on all strings is total.** Only identical strings compare equal, exchanging two
strings reverses their order, and what does not follow a string does not follow what comes after
it either. -/
theorem compare_total_order (a b c : String) :
    (Version.compare a b = .eq ↔ a = b) ∧
      Version.compare b a = (Version.compare a b).swap ∧
      (Version.compare a b ≠ .gt → Version.compare b c ≠ .gt → Version.compare a c ≠ .gt) := by
  refine ⟨Std.LawfulEqCmp.compare_eq_iff_eq, Std.OrientedCmp.eq_swap, fun hab hbc => ?_⟩
  have hab : (Version.compare a b).isLE := Ordering.isLE_iff_ne_gt.2 hab
  have hbc : (Version.compare b c).isLE := Ordering.isLE_iff_ne_gt.2 hbc
  exact Ordering.isLE_iff_ne_gt.1 (Std.TransCmp.isLE_trans hab hbc)

-- A plus sign, leading zeros and another separator spell the same identifiers, so only the
-- strings are left to compare.
example : Version.compare "1.0-+07.a" "1-7-a" = .gt ∧ Version.compare "1-7-a" "1-10-a" = .lt := by
  cbv

end Version

end BenchCharts

import BenchCharts.Proofs.Decimal.Mean
import BenchCharts.Proofs.Store.Reduction

/-!
# Merging integers

The integers of one point are merged into its value. Nothing is rounded before the end, where the
result becomes a float and a mean is divided by the number of integers: a sum is exact or fails, the
least and the greatest are always exact, and so is what a mean is taken of, as long as no sum leaves
64 bits (`Aggregation.merges_of_reduce?`). Integers that can be added where they have to be are
always merged, since a mean of them is a number (`Aggregation.exists_float_of_canMerge`).
-/

namespace BenchCharts

namespace Aggregation

/-- A float is what some integers are merged to: their sum, their mean, or the least or greatest of
them. A sum has to fit into 64 bits, and of a mean nothing is said if its sum does not. -/
def Merges (a : Aggregation) (ns : List Int) (x : Float) : Prop :=
  match a with
  | .sum => SumsFit ns ∧ x = Float.ofInt ns.sum
  | .average => SumsFit ns → x = Float.ofInt ns.sum / Float.ofNat ns.length
  | .minimum => ∃ n, IsLeast {m | m ∈ ns} n ∧ x = Float.ofInt n
  | .maximum => ∃ n, IsGreatest {m | m ∈ ns} n ∧ x = Float.ofInt n

/-- Whether integers can be added, if merging them takes that. -/
def CanMerge (a : Aggregation) (ns : List Int) : Prop := a = .sum ∨ a = .average → SumsFit ns

/-- The mean of integers is that of their exact total. -/
theorem reduce?_average {ns : List Int} (hne : ns ≠ []) (h : SumsFit ns) :
    Aggregation.average.reduce? (ns.map .int) =
      some (.real (Float.ofInt ns.sum / Float.ofNat ns.length)) := by
  -- Sum and mean run over the integers in the same way, and the sum says that no float comes in.
  have hsum := (reduce?_sum_eq_some_iff hne).2 ⟨h, rfl⟩
  obtain ⟨n, rest, rfl⟩ := List.exists_cons_of_ne_nil hne
  rw [reduce?, filter_isNull_map_int] at hsum ⊢
  simp only [List.map_cons] at hsum ⊢
  rw [RunningSum.eq_exact_of_total? hsum, RunningSum.toFloat, List.length_map, List.length_cons,
    Cell.ofFloat, isNaN_ofInt_div_ofNat h.fits (Nat.succ_ne_zero rest.length)]
  rfl

theorem better_minimum_int {best n : Int} :
    Aggregation.minimum.better (.int best) (.int n) = true ↔ n < best := by
  simp [better, Cell.compareNumbers?, Int.compare_eq_lt]

theorem better_maximum_int {best n : Int} :
    Aggregation.maximum.better (.int best) (.int n) = true ↔ best < n := by
  simp [better, Cell.compareNumbers?, Int.compare_eq_gt]

/-- The least of some integers. -/
theorem exists_isLeast_reduce? {ns : List Int} (hne : ns ≠ []) :
    ∃ n, IsLeast {m | m ∈ ns} n ∧ Aggregation.minimum.reduce? (ns.map .int) = some (.int n) := by
  obtain ⟨first, rest, rfl⟩ := List.exists_cons_of_ne_nil hne
  refine ⟨_, ⟨bestFrom_mem .minimum .int first rest, ?_⟩, ?_⟩
  -- An integer replaces the best one exactly if it is less.
  · exact @bestFrom_le _ _ _ (· ≤ ·) _ _ (fun _ _ h => Int.le_of_lt (better_minimum_int.1 h))
      (fun _ _ h => Int.not_lt.1 fun hlt => absurd (better_minimum_int.2 hlt) (by simp [h])) _ _
  · rw [reduce?, filter_isNull_map_int]
    exact congrArg some (bestFrom_map .minimum Cell.int id first rest)

/-- The greatest of some integers. -/
theorem exists_isGreatest_reduce? {ns : List Int} (hne : ns ≠ []) :
    ∃ n, IsGreatest {m | m ∈ ns} n ∧ Aggregation.maximum.reduce? (ns.map .int) = some (.int n) := by
  obtain ⟨first, rest, rfl⟩ := List.exists_cons_of_ne_nil hne
  refine ⟨_, ⟨bestFrom_mem .maximum .int first rest, ?_⟩, ?_⟩
  -- An integer replaces the best one exactly if it is greater.
  · exact @bestFrom_le _ _ _ (· ≥ ·) _ _ (fun _ _ h => Int.le_of_lt (better_maximum_int.1 h))
      (fun _ _ h => Int.not_lt.1 fun hlt => absurd (better_maximum_int.2 hlt) (by simp [h])) _ _
  · rw [reduce?, filter_isNull_map_int]
    exact congrArg some (bestFrom_map .maximum Cell.int id first rest)

/-- **Integers that can be added are merged.** -/
theorem exists_float_of_canMerge {a : Aggregation} {ns : List Int} (hne : ns ≠ [])
    (h : a.CanMerge ns) :
    ∃ cell x, a.reduce? (ns.map .int) = some cell ∧ cell.float? = some x := by
  cases a with
  | sum => exact ⟨_, _, (reduce?_sum_eq_some_iff hne).2 ⟨h (.inl rfl), rfl⟩, rfl⟩
  | average => exact ⟨_, _, reduce?_average hne (h (.inr rfl)), rfl⟩
  -- The extremes need no sum.
  | minimum =>
    obtain ⟨n, -, hn⟩ := exists_isLeast_reduce? hne
    exact ⟨_, _, hn, rfl⟩
  | maximum =>
    obtain ⟨n, -, hn⟩ := exists_isGreatest_reduce? hne
    exact ⟨_, _, hn, rfl⟩

/-- **What integers reduce to is what they are merged to.** -/
theorem merges_of_reduce? {a : Aggregation} {ns : List Int} (hne : ns ≠ []) {cell : Cell}
    (h : a.reduce? (ns.map .int) = some cell) {x : Float} (hx : cell.float? = some x) :
    a.Merges ns x := by
  cases a with
  | sum =>
    obtain ⟨hfit, rfl⟩ := (reduce?_sum_eq_some_iff hne).1 h
    exact ⟨hfit, (Option.some.inj hx).symm⟩
  | average =>
    -- If the integers can be added, their mean is that of the exact total.
    intro hfit
    rw [reduce?_average hne hfit] at h
    obtain rfl := Option.some.inj h
    exact (Option.some.inj hx).symm
  | minimum =>
    obtain ⟨n, hleast, hn⟩ := exists_isLeast_reduce? hne
    obtain rfl := Option.some.inj (hn.symm.trans h)
    exact ⟨n, hleast, (Option.some.inj hx).symm⟩
  | maximum =>
    obtain ⟨n, hgreatest, hn⟩ := exists_isGreatest_reduce? hne
    obtain rfl := Option.some.inj (hn.symm.trans h)
    exact ⟨n, hgreatest, (Option.some.inj hx).symm⟩

end Aggregation

end BenchCharts

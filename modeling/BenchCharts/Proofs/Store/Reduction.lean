import Mathlib.Data.List.Infix
import Mathlib.Order.Defs.Unbundled
import BenchCharts.Proofs.Text.Numeral
import BenchCharts.Store.Reduction

/-!
# What reductions give

A reduction of numbers, some of which may be nothing, is a number or nothing (`reduce?_isNumeric`).
A cell of that kind has a float unless it is nothing, so nothing is all that a bar can lack.

A sum of integers is their exact total or fails (`reduce?_sum_eq_some_iff`). It fails as soon as a
sum on the way leaves 64 bits, even if the total would not, and no integer after that brings it
back.
-/

namespace BenchCharts

namespace Cell

/-- Whether a cell is a number or nothing. -/
def isNumeric : Cell → Bool
  | .text _ => false
  | _ => true

/-- A numeric cell has a float unless it is nothing. -/
theorem isSome_float?_iff {c : Cell} (h : c.isNumeric = true) :
    c.float?.isSome = true ↔ c.isNull = false := by
  cases c <;> simp_all [isNumeric, float?, isNull]

theorem isNumeric_ofFloat (x : Float) : (ofFloat x).isNumeric = true := by
  unfold ofFloat
  split <;> rfl

end Cell

/-- A total is a number or nothing. -/
theorem RunningSum.isNumeric_total? {sum : RunningSum} {c : Cell} (h : sum.total? = some c) :
    c.isNumeric = true := by
  cases sum with
  | exact total =>
    cases h
    rfl
  | rounded total lost overflowed =>
    cases overflowed with
    | true => cases h
    | false =>
      cases h
      exact Cell.isNumeric_ofFloat _

namespace Aggregation

/-- The best of some items is one of them. -/
theorem bestFrom_mem {α : Type} (a : Aggregation) (cell : α → Cell) (best : α) (items : List α) :
    a.bestFrom cell best items ∈ best :: items := by
  induction items generalizing best with
  | nil => exact List.mem_singleton.2 rfl
  | cons item rest ih =>
    rw [bestFrom]
    split
    -- Either the next item takes over as the best, or the best so far stays.
    · exact List.mem_cons_of_mem _ (ih item)
    · rcases List.mem_cons.1 (ih best) with heq | hmem
      · rw [heq]
        exact List.mem_cons_self ..
      · exact List.mem_cons_of_mem _ (List.mem_cons_of_mem _ hmem)

/-- It does not matter whether items are turned into others before or after. -/
theorem bestFrom_map {α β : Type} (a : Aggregation) (f : β → α) (cell : α → Cell) (best : β)
    (items : List β) :
    a.bestFrom cell (f best) (items.map f) = f (a.bestFrom (fun b => cell (f b)) best items) := by
  induction items generalizing best with
  | nil => rfl
  | cons item rest ih =>
    rw [List.map_cons, bestFrom, bestFrom, ← apply_ite f]
    exact ih _

/-- The best of some items comes before all of them, in an order that says what is better. -/
theorem bestFrom_le {α : Type} {a : Aggregation} {cell : α → Cell} {le : α → α → Prop}
    [Std.Refl le] [IsTrans α le]
    (hbetter : ∀ best item, a.better (cell best) (cell item) = true → le item best)
    (hworse : ∀ best item, a.better (cell best) (cell item) = false → le best item)
    (best : α) (items : List α) :
    ∀ item ∈ best :: items, le (a.bestFrom cell best items) item := by
  induction items generalizing best with
  | nil =>
    intro item hitem
    rw [List.mem_singleton.1 hitem]
    exact Std.Refl.refl best
  | cons next rest ih =>
    rw [bestFrom]
    split
    · next hcmp =>
      -- The new best comes before the rest, and the old one is behind it.
      have hrest := ih next
      refine List.forall_mem_cons.2 ⟨?_, hrest⟩
      exact trans_of le (hrest next (List.mem_cons_self ..)) (hbetter best next hcmp)
    · next hcmp =>
      obtain ⟨hbest, hrest⟩ := List.forall_mem_cons.1 (ih best)
      refine List.forall_mem_cons.2 ⟨hbest, List.forall_mem_cons.2 ⟨?_, hrest⟩⟩
      -- The item that was passed over is behind the old best, and that is behind the result.
      exact trans_of le hbest (hworse best next (Bool.eq_false_iff.2 hcmp))

/-- **Numeric cells reduce to a numeric cell.** -/
theorem reduce?_isNumeric {a : Aggregation} {cells : List Cell}
    (hcells : ∀ c ∈ cells, c.isNumeric = true) {c : Cell} (h : a.reduce? cells = some c) :
    c.isNumeric = true := by
  -- What is reduced is what is left without NULL.
  have hkept : ∀ c ∈ cells.filter fun cell => !cell.isNull, c.isNumeric = true :=
    fun c hc => hcells c (List.mem_filter.1 hc).1
  unfold reduce? at h
  split at h
  · cases h
    rfl
  · next first rest heq =>
    rw [heq] at hkept
    cases a with
    | sum => exact RunningSum.isNumeric_total? h
    | average =>
      cases h
      exact Cell.isNumeric_ofFloat _
    -- The extremes are cells that were there already.
    | minimum =>
      cases h
      exact hkept _ (bestFrom_mem ..)
    | maximum =>
      cases h
      exact hkept _ (bestFrom_mem ..)

end Aggregation

/-! ### Sums of integers -/

/-- Integers can be added one after the other: no sum on the way leaves 64 bits. -/
def SumsFit (ns : List Int) : Prop :=
  ∀ start ∈ ns.inits, Text.fitsSigned64 start.sum = true

instance (ns : List Int) : Decidable (SumsFit ns) :=
  inferInstanceAs (Decidable (∀ start ∈ ns.inits, _))

/-- The last of the sums on the way is the total. -/
theorem SumsFit.fits {ns : List Int} (h : SumsFit ns) : Text.fitsSigned64 ns.sum = true :=
  h ns ((List.mem_inits ns ns).2 (List.prefix_refl ns))

namespace RunningSum

/-- Integers do not undo an overflow. -/
theorem total?_foldl_overflowed (total lost : Float) (ns : List Int) :
    ((ns.map Cell.int).foldl add (.rounded total lost true)).total? = none := by
  induction ns generalizing total lost with
  | nil => rfl
  | cons n rest ih => exact ih ..

theorem total?_foldl_exact {total : Int} (htotal : Text.fitsSigned64 total = true) {ns : List Int}
    {c : Cell} :
    ((ns.map Cell.int).foldl add (.exact total)).total? = some c ↔
      (∀ start ∈ ns.inits, Text.fitsSigned64 (total + start.sum) = true) ∧
        c = .int (total + ns.sum) := by
  induction ns generalizing total with
  | nil =>
    rw [List.sum_nil, Int.add_zero]
    simp only [List.inits, List.forall_mem_singleton, List.sum_nil, Int.add_zero, htotal, true_and]
    exact Option.some_inj.trans eq_comm
  | cons n rest ih =>
    simp only [List.inits_cons, List.forall_mem_cons, List.forall_mem_map, List.sum_cons,
      List.sum_nil, ← Int.add_assoc, Int.add_zero, htotal, true_and]
    rw [List.map_cons, List.foldl_cons, add]
    split
    · next hfits => exact ih hfits
    -- One sum is too large, which the list of all sums on the way has at its front.
    · next hover =>
      rw [total?_foldl_overflowed]
      refine ⟨nofun, fun hall => absurd ?_ hover⟩
      simpa using hall.1 [] (by simp)

/-- A total that is an integer is exact. -/
theorem eq_exact_of_total? {sum : RunningSum} {n : Int} (h : sum.total? = some (.int n)) :
    sum = .exact n := by
  cases sum with
  | exact total =>
    cases h
    rfl
  | rounded total lost overflowed =>
    cases overflowed with
    | true => cases h
    | false =>
      rw [total?, Cell.ofFloat] at h
      split at h <;> cases h

end RunningSum

namespace Aggregation

/-- Integers are all kept. -/
theorem filter_isNull_map_int (ns : List Int) :
    (ns.map Cell.int).filter (fun cell => !cell.isNull) = ns.map .int := by
  simp [List.filter_eq_self, Cell.isNull]

/-- **Integers are added exactly or not at all.** -/
theorem reduce?_sum_eq_some_iff {ns : List Int} (hne : ns ≠ []) {c : Cell} :
    Aggregation.sum.reduce? (ns.map .int) = some c ↔ SumsFit ns ∧ c = .int ns.sum := by
  obtain ⟨n, rest, rfl⟩ := List.exists_cons_of_ne_nil hne
  rw [reduce?, filter_isNull_map_int]
  -- The sum starts at zero, which fits.
  have hzero : Text.fitsSigned64 0 = true := rfl
  have hexact := @RunningSum.total?_foldl_exact 0 hzero (n :: rest) c
  simp only [Int.zero_add] at hexact
  exact hexact

end Aggregation

end BenchCharts

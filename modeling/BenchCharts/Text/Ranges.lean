/-!
# Ranges of code points

A character property is written down as a list of closed ranges of code points, in ascending
order. `Text.Ranges.has` decides membership by going through the list; the tables of this library
are short enough for that.
-/

namespace BenchCharts.Text

/-- A set of code points, as closed ranges in ascending order. -/
abbrev Ranges := List (Nat × Nat)

namespace Ranges

/-- Whether a character lies in one of the ranges. -/
def has (ranges : Ranges) (c : Char) : Bool :=
  ranges.any fun (first, last) => first ≤ c.toNat && c.toNat ≤ last

/-- A character is in a set of ranges exactly when one of them encloses its code point. -/
theorem has_eq_true_iff {ranges : Ranges} {c : Char} :
    ranges.has c = true ↔ ∃ r ∈ ranges, r.1 ≤ c.toNat ∧ c.toNat ≤ r.2 := by
  simp [has]

end Ranges

end BenchCharts.Text

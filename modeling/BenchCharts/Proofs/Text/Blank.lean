import Mathlib.Data.List.TakeWhile
import BenchCharts.Proofs.Text.Numeral
import BenchCharts.Text.Blank

/-!
# What trimming leaves

A text is trimmed from both ends, one after the other. `Trims` says what comes out of that without
saying how: a text with only blanks around it that neither starts nor ends with one. There is no
other such text (`trimChars_eq_iff`).
-/

namespace BenchCharts.Text

theorem not_isBlank_of_isDigit {c : Char} (h : isDigit c = true) : isBlank c = false := by
  obtain ⟨hlow, hhigh⟩ := isDigit_iff.1 h
  have hlow : 48 ≤ c.toNat := hlow
  have hhigh : c.toNat ≤ 57 := hhigh
  refine Bool.eq_false_iff.2 fun hblank => ?_
  obtain ⟨range, hrange, hfirst, hlast⟩ := Ranges.has_eq_true_iff.1 hblank
  -- No range of blanks has a digit in it.
  simp only [blankRanges, List.mem_cons, List.not_mem_nil, or_false] at hrange
  rcases hrange with rfl | rfl | rfl | rfl | rfl | rfl | rfl | rfl | rfl | rfl <;>
    simp only at hfirst hlast <;> omega

theorem dropBlank_cons {c : Char} (h : isBlank c = false) (rest : List Char) :
    dropBlank (c :: rest) = c :: rest :=
  List.dropWhile_cons_of_neg (by simp [h])

/-- Blanks in front do not matter. -/
theorem dropBlank_append {front : List Char} (h : ∀ c ∈ front, isBlank c = true)
    (rest : List Char) : dropBlank (front ++ rest) = dropBlank rest :=
  List.dropWhile_append_of_pos h

theorem dropBlank_of_head? {cs : List Char} (h : ∀ c, cs.head? = some c → isBlank c = false) :
    dropBlank cs = cs := by
  cases cs with
  | nil => rfl
  | cons c rest => exact dropBlank_cons (h c rfl) rest

/-- What is dropped in front are blanks. -/
theorem exists_eq_append_dropBlank (cs : List Char) :
    ∃ front, cs = front ++ dropBlank cs ∧ ∀ c ∈ front, isBlank c = true :=
  ⟨cs.takeWhile isBlank, List.takeWhile_append_dropWhile.symm, fun _ => List.mem_takeWhile_imp⟩

/-- A text is what is left of another one without the blanks at its ends. -/
structure Trims (cs t : List Char) : Prop where
  /-- Only blanks are gone. -/
  around : ∃ front back, cs = front ++ t ++ back ∧ (∀ c ∈ front, isBlank c = true) ∧
    ∀ c ∈ back, isBlank c = true
  /-- No blank is left at the front. -/
  first : ∀ c, t.head? = some c → isBlank c = false
  /-- No blank is left at the end. -/
  last : ∀ c, t.getLast? = some c → isBlank c = false

/-- What is no blank stays. -/
theorem Trims.mem {cs t : List Char} (h : Trims cs t) {c : Char} (hc : isBlank c = false)
    (hmem : c ∈ cs) : c ∈ t := by
  obtain ⟨front, back, rfl, hfront, hback⟩ := h.around
  rcases List.mem_append.1 hmem with hmem | hmem
  · rcases List.mem_append.1 hmem with hmem | hmem
    · exact absurd (hfront c hmem) (by simp [hc])
    · exact hmem
  · exact absurd (hback c hmem) (by simp [hc])

/-- The end of a trimmed text can be changed, if no blank comes to its end. -/
theorem Trims.exists_withEnding {cs stem ending : List Char} (h : Trims cs (stem ++ ending))
    (hstem : stem ≠ []) (ending' : List Char)
    (hlast : ∀ c, (stem ++ ending').getLast? = some c → isBlank c = false) :
    ∃ front back, cs = front ++ (stem ++ ending) ++ back ∧
      Trims (front ++ (stem ++ ending')) (stem ++ ending') := by
  obtain ⟨front, back, hcs, hfront, -⟩ := h.around
  obtain ⟨first, more, rfl⟩ := List.exists_cons_of_ne_nil hstem
  refine ⟨front, back, hcs, ⟨front, [], by rw [List.append_nil], hfront, by simp⟩, ?_, hlast⟩
  exact fun c hc => h.first c hc

theorem trims_trimChars (cs : List Char) : Trims cs (trimChars cs) := by
  obtain ⟨front, hfront, hblank⟩ := exists_eq_append_dropBlank cs
  obtain ⟨back, hback, hblank'⟩ := exists_eq_append_dropBlank (dropBlank cs).reverse
  have hmiddle : dropBlank cs = trimChars cs ++ back.reverse := by
    rw [trimChars, ← List.reverse_append, ← hback, List.reverse_reverse]
  refine ⟨⟨front, back.reverse, ?_, hblank, ?_⟩, fun c hc => ?_, fun c hc => ?_⟩
  · rw [List.append_assoc, ← hmiddle, ← hfront]
  · simpa using hblank'
  -- What is at the front of the trimmed text was at the front when blanks were dropped there.
  · have hhead : (dropBlank cs).head? = some c := by
      rw [hmiddle, List.head?_append, hc]
      rfl
    exact head?_dropBlank hhead
  · rw [trimChars, List.getLast?_reverse] at hc
    exact head?_dropBlank hc

theorem trimChars_of_trims {cs t : List Char} (h : Trims cs t) : trimChars cs = t := by
  obtain ⟨⟨front, back, rfl, hfront, hback⟩, hfirst, hlast⟩ := h
  rw [trimChars, List.append_assoc, dropBlank_append hfront]
  cases t with
  -- There are only blanks, and the first pass drops all of them.
  | nil =>
    have hnil : dropBlank back = [] := by
      rw [← List.append_nil back, dropBlank_append hback]
      rfl
    rw [List.nil_append, hnil]
    rfl
  | cons c more =>
    have hreverse : ∀ d, (c :: more).reverse.head? = some d → isBlank d = false := by
      intro d hd
      rw [List.head?_reverse] at hd
      exact hlast d hd
    rw [List.cons_append, dropBlank_cons (hfirst c rfl), ← List.cons_append, List.reverse_append,
      dropBlank_append (by simpa using hback), dropBlank_of_head? hreverse, List.reverse_reverse]

/-- **Trimming drops the blanks at both ends and nothing else.** -/
theorem trimChars_eq_iff {cs t : List Char} : trimChars cs = t ↔ Trims cs t :=
  ⟨fun h => h ▸ trims_trimChars cs, trimChars_of_trims⟩

end BenchCharts.Text

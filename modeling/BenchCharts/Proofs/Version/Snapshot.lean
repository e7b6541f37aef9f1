import Mathlib.Data.List.Basic
import BenchCharts.Proofs.Version.Grammar
import BenchCharts.Proofs.Version.Order

/-!
# Releases and their snapshots

A hyphen makes a string a snapshot, wherever it stands; in the order of versions a release comes
first because it has no suffix. For a version both mean the same with one exception. There is no
hyphen in blanks, in a mark or in a core, so the hyphen of a snapshot is in what follows the core,
and then there is a suffix, unless a single hyphen is all that follows (`suffix_eq_none_iff`): that
one is dropped as a separator.

So every release of a core comes before all snapshots of it that have a suffix. A snapshot that ends
at its hyphen ties with the releases, and their texts decide (`compare_of_sameCore`). For each
such snapshot there is a release that comes after it (`exists_release_after`).
-/

namespace BenchCharts

namespace Version

/-! ### Equal cores -/

/-- Two cores have the same numbers, where a missing one counts as zero. -/
def SameCore (a b : List Nat) : Prop := ∀ i, a.getD i 0 = b.getD i 0

theorem sameCore_cons_iff {m n : Nat} {as bs : List Nat} :
    SameCore (m :: as) (n :: bs) ↔ m = n ∧ SameCore as bs := by
  constructor
  · exact fun h => ⟨h 0, fun i => h (i + 1)⟩
  · rintro ⟨hfirst, hrest⟩ (_ | i)
    · exact hfirst
    · exact hrest i

theorem sameCore_nil_cons_iff {n : Nat} {bs : List Nat} :
    SameCore [] (n :: bs) ↔ n = 0 ∧ SameCore [] bs := by
  constructor
  · exact fun h => ⟨(h 0).symm, fun i => h (i + 1)⟩
  · rintro ⟨hfirst, hrest⟩ (_ | i)
    · exact hfirst.symm
    · exact hrest i

theorem SameCore.symm {a b : List Nat} (h : SameCore a b) : SameCore b a := fun i => (h i).symm

theorem compareCores_nil_eq_eq_iff {core : List Nat} :
    compareCores [] core = .eq ↔ SameCore [] core := by
  induction core with
  | nil => exact iff_of_true rfl fun i => rfl
  | cons n rest ih =>
    rw [sameCore_nil_cons_iff, ← ih]
    simp [compareCores]

/-- Cores compare equal if they have the same numbers. -/
theorem compareCores_eq_eq_iff {a b : List Nat} : compareCores a b = .eq ↔ SameCore a b := by
  induction a generalizing b with
  -- What is missing on one side has to be zero on the other.
  | nil => exact compareCores_nil_eq_eq_iff
  | cons m as ih =>
    cases b with
    | nil =>
      rw [compareCores, Ordering.then_eq_eq, Nat.compare_eq_eq, ih]
      constructor
      · exact fun h => (sameCore_nil_cons_iff.2 ⟨h.1, h.2.symm⟩).symm
      · exact fun h => (sameCore_nil_cons_iff.1 h.symm).imp_right SameCore.symm
    | cons n bs =>
      rw [compareCores, Ordering.then_eq_eq, Nat.compare_eq_eq, ih, sameCore_cons_iff]

/-! ### What follows the core of a snapshot -/

/-- Nothing follows the core but one hyphen. -/
def EndsAtHyphen (s : String) : Prop :=
  ∃ text digits, Text.Trims s.toList text ∧ ReadsLongest text digits ['-']

/-- A hyphen in a text is in what its reading leaves. -/
theorem Reads.mem_hyphen {text rest : List Char} {digits : List (List Char)}
    (h : Reads text digits rest) (hmem : '-' ∈ text) : '-' ∈ rest := by
  obtain ⟨mark, hmark, rfl⟩ := h.parts
  -- A text is a mark, a core, and the rest.
  rcases List.mem_append.1 hmem with hmem | hmem
  · rcases List.mem_append.1 hmem with hmem | hmem
    · rcases hmark with rfl | rfl <;> simp at hmem
    -- Neither a point nor a digit is a hyphen.
    · rcases Text.mem_of_mem_joinChars hmem with hpoint | ⟨group, hgroup, hdigit⟩
      · simp at hpoint
      · exact absurd ((h.decimal group hgroup).2 '-' hdigit) (by decide)
  · exact hmem

theorem not_isBlank_hyphen : Text.isBlank '-' = false := by decide

/-- **The hyphen of a snapshot is in its suffix**, if it is not all that follows the core. -/
theorem suffix_eq_none_iff {s : String} {v : Version} (hs : parse? s = some v)
    (hsnapshot : isSnapshot s = true) : v.suffix = none ↔ EndsAtHyphen s := by
  constructor
  · intro hnone
    obtain ⟨text, digits, rest, tail, htrims, hreads, -, -, hfollows, -, hsuffix⟩ :=
      parse?_eq_some_iff_spells.1 hs
    -- The hyphen is in what follows the core, of which nothing is left as a suffix.
    have hhyphen : '-' ∈ rest :=
      hreads.mem_hyphen (htrims.mem not_isBlank_hyphen (isSnapshot_iff.1 hsnapshot))
    obtain rfl : tail = [] := by
      by_contra hne
      rw [hnone, if_neg hne] at hsuffix
      cases hsuffix
    -- So the hyphen is the separator that was dropped.
    obtain rfl : rest = ['-'] := by
      cases hfollows with
      | separator hc => rw [List.mem_singleton.1 hhyphen]
      | direct h => cases hhyphen
    exact ⟨text, digits, htrims, hreads⟩
  · rintro ⟨text, digits, htrims, hreads⟩
    obtain ⟨-, -, tail, hfollows, hsuffix⟩ := reading_of_parse? hs htrims hreads
    obtain rfl : [] = tail := follows_iff.1 hfollows
    exact hsuffix

/-! ### Releases before snapshots -/

/-- Of two versions with equal cores, a release comes before what has a suffix. Without a suffix the
texts decide. -/
theorem compare_of_sameCore {a b : String} {u v : Version} (ha : parse? a = some u)
    (hb : parse? b = some v) (hcores : SameCore u.core v.core) (hrelease : u.suffix = none) :
    Version.compare a b = if v.suffix = none then compare a b else .lt := by
  simp only [Version.compare, ha, hb, compareParsed, compareCores_eq_eq_iff.2 hcores, hrelease]
  cases v.suffix <;> rfl

/-- A string is a release of a core. -/
structure IsRelease (s : String) (core : List Nat) : Prop where
  /-- It is a version without a suffix, and its numbers are those of the core. -/
  parses : ∃ v, parse? s = some v ∧ SameCore v.core core ∧ v.suffix = none
  /-- It has no hyphen. -/
  noHyphen : isSnapshot s = false

theorem EndsAtHyphen.isSnapshot {s : String} (h : EndsAtHyphen s) : isSnapshot s = true := by
  obtain ⟨text, digits, htrims, hreads⟩ := h
  obtain ⟨front, back, hs, -⟩ := htrims.around
  obtain ⟨mark, -, rfl⟩ := hreads.parts
  rw [isSnapshot_iff, hs]
  simp

theorem sameCore_append_zero (core : List Nat) : SameCore (core ++ [0]) core := by
  intro i
  simp only [List.getD_eq_getElem?_getD]
  -- At the place of the zero the core has nothing, which counts as zero.
  rcases Nat.lt_or_ge i core.length with hi | hi
  · rw [List.getElem?_append_left hi]
  · rw [List.getElem?_append_right hi, List.getElem?_eq_none hi]
    cases i - core.length <;> rfl

/-- A core can be continued with a zero. -/
theorem Reads.append_zero {mark rest : List Char} {digits : List (List Char)}
    (hmark : mark = [] ∨ mark = ['v'])
    (h : Reads (mark ++ Text.joinChars ['.'] digits ++ rest) digits rest) :
    Reads (mark ++ Text.joinChars ['.'] digits ++ ['.', '0']) (digits ++ [['0']]) [] := by
  refine ⟨by simp, List.forall_mem_append.2 ⟨h.decimal, ?_⟩, mark, hmark, ?_⟩
  · rw [List.forall_mem_singleton, List.forall_mem_singleton]
    exact ⟨List.cons_ne_nil _ _, rfl⟩
  · rw [Text.joinChars_concat _ h.nonempty]
    simp

theorem SpellNumbers.append_zero {digits : List (List Char)} (h : SpellNumbers digits) :
    SpellNumbers (digits ++ [['0']]) := by
  refine List.forall_mem_append.2 ⟨h, ?_⟩
  rw [List.forall_mem_singleton, List.forall_mem_singleton]
  exact ⟨rfl, Nat.two_pow_pos 64⟩

/-- After a snapshot that ends at its hyphen there is a release of its core: a point is greater than
a hyphen. -/
theorem exists_release_after {b : String} {v : Version} (hb : parse? b = some v)
    (hends : EndsAtHyphen b) :
    ∃ a, IsRelease a v.core ∧ Version.compare a b = .gt := by
  have hsuffix : v.suffix = none := (suffix_eq_none_iff hb hends.isSnapshot).2 hends
  obtain ⟨text, digits, htrims, hreads⟩ := hends
  obtain ⟨hnumbers, hcore, -⟩ := reading_of_parse? hb htrims hreads
  obtain ⟨mark, hmark, rfl⟩ := hreads.parts
  -- There is a core, so blanks at the end do not reach into mark and core.
  have hstem : mark ++ Text.joinChars ['.'] digits ≠ [] := by
    obtain ⟨group, more, rfl⟩ := List.exists_cons_of_ne_nil hreads.nonempty
    have hgroup := (hreads.decimal group List.mem_cons_self).1
    cases more <;> simp [Text.joinChars, hgroup]
  -- The release has the same blanks, mark and core, and a zero after a point for the hyphen.
  obtain ⟨front, back, htext, htrims'⟩ := htrims.exists_withEnding hstem ['.', '0'] fun c hc => by
    rw [List.getLast?_append] at hc
    obtain rfl : '0' = c := Option.some.inj hc
    decide
  have hreads' := hreads.toReads.append_zero hmark
  have ha : (String.ofList (front ++ (mark ++ Text.joinChars ['.'] digits ++ ['.', '0']))).toList =
      front ++ (mark ++ Text.joinChars ['.'] digits ++ ['.', '0']) := String.toList_ofList
  rw [← ha] at htrims'
  have hparse := parse?_of_reads htrims' hreads' hnumbers.append_zero
  rw [List.map_append, ← hcore] at hparse
  have hsame : SameCore (v.core ++ [0]) v.core := sameCore_append_zero v.core
  refine ⟨_, ⟨⟨_, hparse, hsame, rfl⟩, ?_⟩, ?_⟩
  · rw [← Bool.not_eq_true, isSnapshot_iff]
    exact fun hmem => List.not_mem_nil (hreads'.mem_hyphen (htrims'.mem not_isBlank_hyphen hmem))
  -- Both have no suffix, so their texts decide, and these differ first at the hyphen.
  · rw [compare_of_sameCore hparse hb hsame rfl, if_pos hsuffix]
    refine Std.OrientedCmp.gt_of_lt (if_pos ?_)
    change b.toList < String.toList _
    rw [ha, htext]
    simp only [List.append_assoc]
    refine List.append_left_lt (List.append_left_lt (List.append_left_lt ?_))
    exact List.cons_lt_cons_iff.2 (.inl (by decide))

/-- **When the releases of a core come before a snapshot of it.** They all do, however the two are
spelt, exactly if the snapshot does not end at its hyphen. If it does, their texts decide. -/
theorem releases_precede_iff {b : String} {v : Version} (hb : parse? b = some v)
    (hsnapshot : isSnapshot b = true) :
    ((∀ a, IsRelease a v.core → Version.compare a b = .lt) ↔ ¬ EndsAtHyphen b) ∧
      (EndsAtHyphen b → ∀ a, IsRelease a v.core → Version.compare a b = compare a b) := by
  have hsuffix := suffix_eq_none_iff hb hsnapshot
  refine ⟨⟨fun hall hends => ?_, ?_⟩, ?_⟩
  -- Not all releases come first, since one comes after.
  · obtain ⟨a, ha, hgt⟩ := exists_release_after hb hends
    rw [hall a ha] at hgt
    cases hgt
  · rintro hends a ⟨⟨u, ha, hcores, hrelease⟩, -⟩
    rw [compare_of_sameCore ha hb hcores hrelease, if_neg (mt hsuffix.1 hends)]
  · rintro hends a ⟨⟨u, ha, hcores, hrelease⟩, -⟩
    rw [compare_of_sameCore ha hb hcores hrelease, if_pos (hsuffix.2 hends)]

/-- Another number of digits and a mark do not keep a release from coming first. -/
theorem releases_precede_otherSpelling :
    IsRelease "v3.0.6.0" [3, 0, 6] ∧ ¬ EndsAtHyphen "3.0.6-SNAPSHOT" ∧
      Version.compare "v3.0.6.0" "3.0.6-SNAPSHOT" = .lt := by
  have hrelease : IsRelease "v3.0.6.0" [3, 0, 6] :=
    ⟨⟨⟨[3, 0, 6, 0], none⟩, by cbv, sameCore_append_zero [3, 0, 6], rfl⟩, by decide⟩
  have hb : parse? "3.0.6-SNAPSHOT" = some ⟨[3, 0, 6], some "SNAPSHOT"⟩ := by cbv
  have hsnapshot : isSnapshot "3.0.6-SNAPSHOT" = true := by decide
  -- What follows the hyphen is a suffix.
  have hends : ¬ EndsAtHyphen "3.0.6-SNAPSHOT" := fun h => by
    cases (suffix_eq_none_iff hb hsnapshot).2 h
  exact ⟨hrelease, hends, (releases_precede_iff hb hsnapshot).1.2 hends _ hrelease⟩

/-- With nothing after its hyphen a snapshot comes before a release of the same core. -/
theorem not_releases_precede_bareHyphen :
    IsRelease "v3.0.6" [3, 0, 6] ∧ parse? "3.0.6-" = some ⟨[3, 0, 6], none⟩ ∧
      isSnapshot "3.0.6-" = true ∧ Version.compare "v3.0.6" "3.0.6-" = .gt := by
  refine ⟨⟨⟨⟨[3, 0, 6], none⟩, by cbv, fun _ => rfl, rfl⟩, by decide⟩, by cbv, by decide, by cbv⟩

end Version

end BenchCharts

import BenchCharts.Proofs.Outcome
import BenchCharts.Proofs.Text.Blank
import BenchCharts.Version

/-!
# The grammar of versions

Without the blanks around it, a version is an optional mark, groups of digits with single points
between them, and a rest (`Reads`). A text can be read in many ways, as a group may end anywhere;
what counts is the reading that leaves the least (`ReadsLongest`). It makes a version if the rest
has no line feed in it and every group spells a number below `2 ^ 64` in ASCII digits, and then the
rest without one separator at its front is the suffix (`Spells`).

`Version.groups` decides character by character where the core ends, without looking at any other
reading. Its digits and what they leave are a reading (`joinChars_groups`,
`ne_nil_of_mem_tail_groups`), and nothing that begins with digits and points leaves less
(`length_groups_le`). As groups hold no points, a reading is determined by how much it leaves, so
that this is the longest one (`readsLongest_iff`).
-/

namespace BenchCharts

namespace Version

/-! ### Readings -/

/-- A text is made up of an optional mark, groups of digits with points between them, and a rest. -/
structure Reads (text : List Char) (digits : List (List Char)) (rest : List Char) : Prop where
  /-- There is a group. -/
  nonempty : digits ≠ []
  /-- A group is made up of decimal digits, at least one. -/
  decimal : ∀ group ∈ digits, group ≠ [] ∧ ∀ c ∈ group, Text.isDecimalDigit c = true
  /-- The parts in their order are the text. -/
  parts : ∃ mark, (mark = [] ∨ mark = ['v']) ∧
    text = mark ++ Text.joinChars ['.'] digits ++ rest

/-- No other reading of the text leaves less of it. -/
structure ReadsLongest (text : List Char) (digits : List (List Char)) (rest : List Char) : Prop
    extends Reads text digits rest where
  /-- The digits are as many as can be taken. -/
  longest : ∀ digits' rest', Reads text digits' rest' → rest.length ≤ rest'.length

/-- What is left of a rest without a separator at its front. -/
inductive Follows : List Char → List Char → Prop
  /-- A separator is dropped. -/
  | separator {c : Char} (hc : c = '-' ∨ c = '+' ∨ c = '.') (tail : List Char) :
      Follows (c :: tail) tail
  /-- Without one, everything is left. -/
  | direct {tail : List Char} (h : ∀ c, tail.head? = some c → c ≠ '-' ∧ c ≠ '+' ∧ c ≠ '.') :
      Follows tail tail

/-- The groups of a reading spell numbers below `2 ^ 64`. -/
def SpellNumbers (digits : List (List Char)) : Prop :=
  ∀ group ∈ digits, (∀ c ∈ group, Text.isDigit c = true) ∧ Nat.ofDigitChars 10 group 0 < 2 ^ 64

/-- A string spells a version. -/
def Spells (s : String) (v : Version) : Prop :=
  ∃ text digits rest tail, Text.Trims s.toList text ∧ ReadsLongest text digits rest ∧
    '\n' ∉ rest ∧ SpellNumbers digits ∧ Follows rest tail ∧
    v.core = digits.map (fun group => Nat.ofDigitChars 10 group 0) ∧
    v.suffix = if tail = [] then none else some (.ofList tail)

/-! ### The groups at the front -/

theorem not_isDecimalDigit_point : Text.isDecimalDigit '.' = false := by decide

theorem not_isDecimalDigit_mark : Text.isDecimalDigit 'v' = false := by decide

/-- Characters begin with groups of digits that leave some of them. Only the first group may be
empty. -/
inductive Begins : List Char → List (List Char) → List Char → Prop
  /-- The last group ends, whatever comes next. -/
  | stop (rest : List Char) : Begins rest [[]] rest
  /-- A digit belongs to the first group. -/
  | digit {c : Char} {cs group : List Char} {more : List (List Char)} {rest : List Char}
      (hc : Text.isDecimalDigit c = true) (h : Begins cs (group :: more) rest) :
      Begins (c :: cs) ((c :: group) :: more) rest
  /-- A point ends a group, and another one with a digit in it follows. -/
  | point {c : Char} {cs group : List Char} {more : List (List Char)} {rest : List Char}
      (h : Begins cs ((c :: group) :: more) rest) :
      Begins ('.' :: cs) ([] :: (c :: group) :: more) rest

namespace Begins

variable {cs rest : List Char} {digits : List (List Char)}

theorem parts (h : Begins cs digits rest) : cs = Text.joinChars ['.'] digits ++ rest := by
  induction h with
  | stop rest => rfl
  | @digit c cs group more rest hc h ih =>
    rw [ih]
    cases more <;> rfl
  | point h ih =>
    rw [ih]
    rfl

theorem decimal (h : Begins cs digits rest) :
    ∀ group ∈ digits, ∀ c ∈ group, Text.isDecimalDigit c = true := by
  induction h with
  | stop rest => simp
  | digit hc h ih =>
    obtain ⟨hgroup, hmore⟩ := List.forall_mem_cons.1 ih
    exact List.forall_mem_cons.2 ⟨List.forall_mem_cons.2 ⟨hc, hgroup⟩, hmore⟩
  | point h ih => exact List.forall_mem_cons.2 ⟨by simp, ih⟩

/-- If there is something in the first group, there is something in all of them. -/
theorem ne_nil_of_mem (h : Begins cs digits rest) (hfirst : digits.head? ≠ some []) :
    ∀ group ∈ digits, group ≠ [] := by
  have hlater : ∀ group ∈ digits.tail, group ≠ [] := by
    clear hfirst
    induction h with
    | stop rest => simp
    | digit hc h ih => exact ih
    | point h ih => exact List.forall_mem_cons.2 ⟨List.cons_ne_nil _ _, ih⟩
  cases digits with
  | nil => simp
  | cons group more =>
    refine List.forall_mem_cons.2 ⟨?_, hlater⟩
    rintro rfl
    exact hfirst rfl

theorem not_nil (h : Begins cs digits rest) : digits ≠ [] := by
  cases h <;> exact List.cons_ne_nil _ _

/-- A point belongs to no group. -/
theorem not_mem_point (h : Begins cs digits rest) : ∀ group ∈ digits, '.' ∉ group := by
  intro group hgroup hpoint
  have hdigit := h.decimal group hgroup '.' hpoint
  rw [not_isDecimalDigit_point] at hdigit
  cases hdigit

/-- **What is left determines the groups.** -/
theorem unique {digits' : List (List Char)} {rest' : List Char} (h : Begins cs digits rest)
    (h' : Begins cs digits' rest') (hlength : rest.length = rest'.length) :
    digits = digits' ∧ rest = rest' := by
  obtain ⟨hjoin, hrest⟩ := List.append_inj' (h.parts.symm.trans h'.parts) hlength
  refine ⟨?_, hrest⟩
  rw [← Text.splitChars_joinChars h.not_nil h.not_mem_point, hjoin,
    Text.splitChars_joinChars h'.not_nil h'.not_mem_point]

end Begins

/-- Groups of digits with a point between neighbours are where a text begins that has them at its
front. -/
theorem begins_joinChars {digits : List (List Char)} (hne : digits ≠ [])
    (hdigits : ∀ group ∈ digits, group ≠ [] ∧ ∀ c ∈ group, Text.isDecimalDigit c = true)
    (rest : List Char) : Begins (Text.joinChars ['.'] digits ++ rest) digits rest := by
  -- The digits of a group go in front of what follows the group.
  have hgroup : ∀ (group : List Char) (more : List (List Char)) (cs : List Char),
      (∀ c ∈ group, Text.isDecimalDigit c = true) → Begins cs ([] :: more) rest →
        Begins (group ++ cs) (group :: more) rest := by
    intro group more cs hgroup hcs
    induction group with
    | nil => exact hcs
    | cons c group ih =>
      obtain ⟨hc, hgroup⟩ := List.forall_mem_cons.1 hgroup
      exact .digit hc (ih hgroup)
  induction digits with
  | nil => exact absurd rfl hne
  | cons group more ih =>
    obtain ⟨⟨-, hfirst⟩, hmore⟩ := List.forall_mem_cons.1 hdigits
    -- The last group is followed by the rest, and any other one by a point and a digit.
    cases more with
    | nil => exact hgroup group [] rest hfirst (.stop rest)
    | cons next more =>
      have hnext := ih (List.cons_ne_nil _ _) hmore
      obtain ⟨c, next, rfl⟩ := List.exists_cons_of_ne_nil (hmore next (List.mem_cons_self ..)).1
      rw [Text.joinChars, List.append_assoc, List.append_assoc]
      exact hgroup group _ _ hfirst (.point hnext)

/-- A digit at the front goes into the first group. -/
theorem exists_groups_of_digit {c : Char} (hc : Text.isDecimalDigit c = true) (cs : List Char) :
    ∃ group more, groups (c :: cs) = ((c :: group) :: more, (groups cs).2) := by
  rw [groups, if_pos hc]
  obtain ⟨digits, rest⟩ := groups cs
  cases digits with
  | nil => exact ⟨[], [], rfl⟩
  | cons group more => exact ⟨group, more, rfl⟩

/-- The groups are where the text begins. -/
theorem begins_groups (cs : List Char) : Begins cs (groups cs).1 (groups cs).2 := by
  fun_induction groups cs with
  | case1 => exact .stop []
  | case2 c cs hc group more rest hgroups ih =>
    rw [hgroups] at ih
    exact .digit hc ih
  | case3 c cs hc rest hgroups ih =>
    rw [hgroups] at ih
    exact absurd rfl ih.not_nil
  | case4 c cs hc hpoint more rest hgroups ih =>
    obtain ⟨rfl, hnext⟩ := hpoint
    obtain ⟨d, cs, rfl⟩ : ∃ d cs', cs = d :: cs' := by
      cases cs with
      | nil => cases hnext
      | cons d cs => exact ⟨d, cs, rfl⟩
    -- A digit follows the point, so the group after it is not empty.
    obtain ⟨group, later, hlater⟩ := exists_groups_of_digit (c := d) hnext cs
    obtain ⟨rfl, rfl⟩ := Prod.mk.inj (hgroups.symm.trans hlater)
    rw [hgroups] at ih
    exact .point ih
  | case5 c cs hc hpoint => exact .stop (c :: cs)

/-- **No groups leave less.** -/
theorem length_groups_le {cs rest : List Char} {digits : List (List Char)}
    (h : Begins cs digits rest) : (groups cs).2.length ≤ rest.length := by
  induction h with
  | stop rest =>
    have hlength := congrArg List.length (begins_groups rest).parts
    rw [List.length_append] at hlength
    omega
  | @digit c cs group more rest hc h ih =>
    obtain ⟨_, _, hgroups⟩ := exists_groups_of_digit hc cs
    rwa [hgroups]
  | @point c cs group more rest h ih =>
    -- The group after the point has a digit in it, which comes right after the point.
    cases h with
    | @digit _ cs _ _ _ hc h =>
      have hpoint : (groups ('.' :: c :: cs)).2 = (groups (c :: cs)).2 := by
        rw [groups, if_neg (by rw [not_isDecimalDigit_point]; exact Bool.false_ne_true),
          if_pos ⟨rfl, hc⟩]
      rwa [hpoint]

/-! ### The longest reading -/

theorem dropMark_of_digit {c : Char} (hc : Text.isDecimalDigit c = true) (cs : List Char) :
    dropMark (c :: cs) = c :: cs := by
  rw [dropMark, if_neg]
  rintro rfl
  rw [not_isDecimalDigit_mark] at hc
  cases hc

/-- A text is read as what begins it after an optional mark. -/
theorem reads_iff {text rest : List Char} {digits : List (List Char)} :
    Reads text digits rest ↔
      Begins (dropMark text) digits rest ∧ ∀ group ∈ digits, group ≠ [] := by
  constructor
  · rintro ⟨hne, hdecimal, mark, hmark, rfl⟩
    have hbegins := begins_joinChars hne hdecimal rest
    refine ⟨?_, fun group hgroup => (hdecimal group hgroup).1⟩
    rcases hmark with rfl | rfl
    -- Without a mark the text starts with a digit.
    · obtain ⟨group, more, rfl⟩ := List.exists_cons_of_ne_nil hne
      obtain ⟨c, group, rfl⟩ :=
        List.exists_cons_of_ne_nil (hdecimal group (List.mem_cons_self ..)).1
      rw [List.nil_append]
      generalize Text.joinChars ['.'] ((c :: group) :: more) ++ rest = text at hbegins ⊢
      cases hbegins with
      | digit hc h =>
        rw [dropMark_of_digit hc]
        exact .digit hc h
    · exact hbegins
  · rintro ⟨hbegins, hne⟩
    refine ⟨hbegins.not_nil, fun group hgroup => ⟨hne group hgroup, hbegins.decimal group hgroup⟩,
      ?_⟩
    -- Conversely, what was dropped is the mark, if it was there.
    obtain ⟨mark, hmark, htext⟩ : ∃ mark, (mark = [] ∨ mark = ['v']) ∧
        text = mark ++ dropMark text := by
      cases text with
      | nil => exact ⟨[], .inl rfl, rfl⟩
      | cons c cs =>
        by_cases hc : c = 'v'
        · exact ⟨['v'], .inr rfl, by rw [dropMark, if_pos hc, hc]; rfl⟩
        · exact ⟨[], .inl rfl, by rw [dropMark, if_neg hc]; rfl⟩
    exact ⟨mark, hmark, by rw [List.append_assoc, ← hbegins.parts, ← htext]⟩

/-- **The longest reading is made of the groups at the front**, if there is a reading at all. -/
theorem readsLongest_iff {text rest : List Char} {digits : List (List Char)} :
    ReadsLongest text digits rest ↔
      groups (dropMark text) = (digits, rest) ∧ digits.head? ≠ some [] := by
  have hgroups := begins_groups (dropMark text)
  constructor
  · rintro ⟨hreads, hlongest⟩
    obtain ⟨hbegins, hne⟩ := reads_iff.1 hreads
    -- The text starts with a digit, so the first group has one too.
    have hfirst : (groups (dropMark text)).1.head? ≠ some [] := by
      obtain ⟨group, more, rfl⟩ := List.exists_cons_of_ne_nil hbegins.not_nil
      obtain ⟨c, group, rfl⟩ := List.exists_cons_of_ne_nil (hne group (List.mem_cons_self ..))
      generalize dropMark text = cs at hbegins
      cases hbegins with
      | digit hc h =>
        obtain ⟨_, _, heq⟩ := exists_groups_of_digit hc _
        rw [heq]
        simp
    -- Of two beginnings that leave the same, the groups are the same.
    have hle := hlongest _ _ (reads_iff.2 ⟨hgroups, hgroups.ne_nil_of_mem hfirst⟩)
    obtain ⟨hdigits, hrest⟩ :=
      hgroups.unique hbegins (Nat.le_antisymm (length_groups_le hbegins) hle)
    exact ⟨Prod.ext hdigits hrest, hdigits ▸ hfirst⟩
  · rintro ⟨heq, hfirst⟩
    rw [heq] at hgroups
    refine ⟨reads_iff.2 ⟨hgroups, hgroups.ne_nil_of_mem hfirst⟩, fun digits' rest' hreads => ?_⟩
    have hle := length_groups_le (reads_iff.1 hreads).1
    rwa [heq] at hle

theorem ReadsLongest.unique {text rest rest' : List Char} {digits digits' : List (List Char)}
    (h : ReadsLongest text digits rest) (h' : ReadsLongest text digits' rest') :
    digits = digits' ∧ rest = rest' :=
  Prod.mk.inj ((readsLongest_iff.1 h).1.symm.trans (readsLongest_iff.1 h').1)

/-! ### Versions -/

/-- One separator at the front is dropped, and there is one way to do so. -/
theorem follows_iff {rest tail : List Char} : Follows rest tail ↔ dropSeparator rest = tail := by
  constructor
  · rintro (⟨hc, _⟩ | h)
    -- A separator at the front is dropped, and nothing else is.
    · rw [dropSeparator, if_pos hc]
    · cases rest with
      | nil => rfl
      | cons c more =>
        obtain ⟨hhyphen, hplus, hpoint⟩ := h c rfl
        rw [dropSeparator, if_neg (by simp [hhyphen, hplus, hpoint])]
  · rintro rfl
    cases rest with
    | nil => exact .direct (by simp)
    | cons c more =>
      rw [dropSeparator]
      split
      · next hc => exact .separator hc more
      · next hc =>
        refine .direct fun d hd => ?_
        obtain rfl := Option.some.inj hd
        simpa using hc

theorem contains_dropSeparator (rest : List Char) :
    (dropSeparator rest).contains '\n' = true ↔ '\n' ∈ rest := by
  cases rest with
  | nil => simp [dropSeparator]
  | cons c more =>
    rw [dropSeparator]
    split
    -- No separator is a line feed.
    · next hc => rcases hc with rfl | rfl | rfl <;> simp
    · simp

theorem number?_eq_some_iff {group : List Char} (hne : group ≠ []) {n : Nat} :
    number? group = some n ↔ ((∀ c ∈ group, Text.isDigit c = true) ∧
      Nat.ofDigitChars 10 group 0 < 2 ^ 64) ∧ n = Nat.ofDigitChars 10 group 0 := by
  have hsize : UInt64.size = 2 ^ 64 := rfl
  rw [number?, Option.filter_eq_some_iff, Text.natural?_eq_some_iff, decide_eq_true_eq, hsize]
  constructor
  · rintro ⟨⟨-, hdigits, rfl⟩, hlt⟩
    exact ⟨⟨hdigits, hlt⟩, rfl⟩
  · rintro ⟨⟨hdigits, hlt⟩, rfl⟩
    exact ⟨⟨hne, hdigits, rfl⟩, hlt⟩

theorem mapM_number?_eq_some_iff {digits : List (List Char)} (hne : ∀ group ∈ digits, group ≠ [])
    {core : List Nat} :
    digits.mapM number? = some core ↔
      SpellNumbers digits ∧ core = digits.map fun group => Nat.ofDigitChars 10 group 0 := by
  constructor
  · intro h
    have hsome : ∀ group ∈ digits, (number? group).isSome = true :=
      isSome_mapM_iff.1 (Option.isSome_iff_exists.2 ⟨core, h⟩)
    refine ⟨fun group hgroup => ?_, eq_map_of_mapM_eq_some h fun group hgroup n hn => ?_⟩
    · obtain ⟨n, hn⟩ := Option.isSome_iff_exists.1 (hsome group hgroup)
      exact ((number?_eq_some_iff (hne group hgroup)).1 hn).1
    · exact ((number?_eq_some_iff (hne group hgroup)).1 hn).2
  · rintro ⟨hspell, rfl⟩
    rw [mapM_eq_some_iff, List.map_map]
    refine List.map_congr_left fun group hgroup => ?_
    exact (number?_eq_some_iff (hne group hgroup)).2 ⟨hspell group hgroup, rfl⟩

/-- The steps of reading a version. -/
theorem parse?_eq_some_iff {s : String} {v : Version} :
    parse? s = some v ↔ ∃ digits rest,
      groups (dropMark (Text.trimChars s.toList)) = (digits, rest) ∧ digits.head? ≠ some [] ∧
      '\n' ∉ rest ∧ digits.mapM number? = some v.core ∧
      v.suffix = if dropSeparator rest = [] then none else some (.ofList (dropSeparator rest)) := by
  obtain ⟨digits, rest, hgroups⟩ : ∃ digits rest,
      groups (dropMark (Text.trimChars s.toList)) = (digits, rest) := ⟨_, _, rfl⟩
  have hbegins := begins_groups (dropMark (Text.trimChars s.toList))
  rw [hgroups] at hbegins
  obtain ⟨group, more, rfl⟩ := List.exists_cons_of_ne_nil hbegins.not_nil
  rw [parse?, hgroups]
  cases group with
  -- Without a first group there is no core.
  | nil =>
    refine iff_of_false (by rintro ⟨⟩) ?_
    rintro ⟨digits, tail, heq, hfirst, -⟩
    obtain ⟨rfl, rfl⟩ := Prod.mk.inj heq
    exact hfirst rfl
  | cons c group =>
    -- A line feed after the core is the one thing that can still be in the way.
    by_cases hfeed : '\n' ∈ rest
    · have hcontains := (contains_dropSeparator rest).2 hfeed
      refine iff_of_false ?_ ?_
      · intro h
        simp only [List.head?_cons, Option.all_some, List.isEmpty_cons, Bool.false_eq_true,
          if_false, hcontains, if_true] at h
        cases h
      · rintro ⟨digits, tail, heq, -, hnone, -⟩
        obtain ⟨rfl, rfl⟩ := Prod.mk.inj heq
        exact hnone hfeed
    · have hcontains := Bool.eq_false_iff.2 (mt (contains_dropSeparator rest).1 hfeed)
      simp only [List.head?_cons, Option.all_some, List.isEmpty_cons, Bool.false_eq_true,
        if_false, hcontains, Option.bind_eq_bind, Option.bind_eq_some_iff, Option.pure_def,
        Option.some.injEq, List.isEmpty_iff]
      constructor
      · rintro ⟨core, hcore, rfl⟩
        exact ⟨_, rest, rfl, by simp, hfeed, hcore, rfl⟩
      · rintro ⟨digits, tail, heq, -, -, hcore, hsuffix⟩
        obtain ⟨rfl, rfl⟩ := Prod.mk.inj heq
        exact ⟨v.core, hcore, by rw [← hsuffix]⟩

theorem parse?_eq_some_iff_spells {s : String} {v : Version} :
    parse? s = some v ↔ Spells s v := by
  rw [parse?_eq_some_iff, Spells]
  constructor
  · rintro ⟨digits, rest, hgroups, hfirst, hfeed, hcore, hsuffix⟩
    have hreads := readsLongest_iff.2 ⟨hgroups, hfirst⟩
    obtain ⟨hnumbers, hcore⟩ :=
      (mapM_number?_eq_some_iff fun group hgroup => (hreads.decimal group hgroup).1).1 hcore
    exact ⟨_, digits, rest, _, Text.trims_trimChars _, hreads, hfeed, hnumbers,
      follows_iff.2 rfl, hcore, hsuffix⟩
  · rintro ⟨text, digits, rest, tail, htrims, hreads, hfeed, hnumbers, hfollows, hcore, hsuffix⟩
    obtain rfl := Text.trimChars_eq_iff.2 htrims
    obtain rfl := follows_iff.1 hfollows
    obtain ⟨hgroups, hfirst⟩ := readsLongest_iff.1 hreads
    refine ⟨digits, rest, hgroups, hfirst, hfeed, ?_, hsuffix⟩
    exact (mapM_number?_eq_some_iff fun group hgroup => (hreads.decimal group hgroup).1).2
      ⟨hnumbers, hcore⟩

/-- A version is what its longest reading makes of it. -/
theorem reading_of_parse? {s : String} {v : Version} (hs : parse? s = some v)
    {text rest : List Char} {digits : List (List Char)} (htrims : Text.Trims s.toList text)
    (hreads : ReadsLongest text digits rest) :
    SpellNumbers digits ∧ v.core = digits.map (fun group => Nat.ofDigitChars 10 group 0) ∧
      ∃ tail, Follows rest tail ∧
        v.suffix = if tail = [] then none else some (.ofList tail) := by
  obtain ⟨text', digits', rest', tail, htrims', hreads', -, hnumbers, hfollows, hcore, hsuffix⟩ :=
    parse?_eq_some_iff_spells.1 hs
  -- There is one way to trim a string, and one longest reading of what is left.
  obtain rfl := (Text.trimChars_of_trims htrims').symm.trans (Text.trimChars_of_trims htrims)
  obtain ⟨rfl, rfl⟩ := hreads.unique hreads'
  exact ⟨hnumbers, hcore, tail, hfollows, hsuffix⟩

/-- A core alone is a version without a suffix. -/
theorem parse?_of_reads {s : String} {text : List Char} {digits : List (List Char)}
    (htrims : Text.Trims s.toList text) (hreads : Reads text digits [])
    (hnumbers : SpellNumbers digits) :
    parse? s = some ⟨digits.map fun group => Nat.ofDigitChars 10 group 0, none⟩ :=
  parse?_eq_some_iff_spells.2 ⟨text, digits, [], [], htrims, ⟨hreads, fun _ _ _ => Nat.zero_le _⟩,
    List.not_mem_nil, hnumbers, .direct (by simp), rfl, rfl⟩

/-- **A string is a version exactly if it is spelt like one**, and then it is the version that it
spells: its core are the numbers of the groups, and its suffix is what follows them. -/
theorem parse?_accepts_grammar (s : String) :
    ((parse? s).isSome = true ↔ ∃ text digits rest, Text.Trims s.toList text ∧
      ReadsLongest text digits rest ∧ '\n' ∉ rest ∧ SpellNumbers digits) ∧
      ∀ v, parse? s = some v ↔ Spells s v := by
  refine ⟨?_, fun v => parse?_eq_some_iff_spells⟩
  rw [Option.isSome_iff_exists]
  constructor
  · rintro ⟨v, hv⟩
    obtain ⟨text, digits, rest, -, htrims, hreads, hfeed, hnumbers, -⟩ :=
      parse?_eq_some_iff_spells.1 hv
    exact ⟨text, digits, rest, htrims, hreads, hfeed, hnumbers⟩
  · rintro ⟨text, digits, rest, htrims, hreads, hfeed, hnumbers⟩
    exact ⟨⟨_, _⟩, parse?_eq_some_iff_spells.2 ⟨text, digits, rest, _, htrims, hreads, hfeed,
      hnumbers, follows_iff.2 rfl, rfl, rfl⟩⟩

-- A point without a digit after it ends the core, and only one separator is dropped. Digits of
-- another script belong to the core and make it no number.
example : parse? " v1.02.+a " = some ⟨[1, 2], some "+a"⟩ ∧ parse? "1.٣" = none := by
  cbv

end Version

end BenchCharts

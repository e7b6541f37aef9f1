/-!
# Cutting a text at separators

`Text.split` cuts a text at every separator character. There is always one piece more than there
are separators, so the empty text has one empty piece, and joining the pieces of a one-character
separator gives the text back (`Text.joinChars_splitChars`). The other way round, pieces come back
from their join if none of them has the separator in it (`Text.splitChars_joinChars`).

`Text.splitOnce?` cuts at the first separator only. Going on like this with what is behind the
separator gives the pieces one by one (`Text.split_eq`).
-/

namespace BenchCharts.Text

/-- The pieces of a list of characters between separators; empty pieces count. -/
def splitChars (isSeparator : Char → Bool) : List Char → List (List Char)
  | [] => [[]]
  | c :: rest =>
    if isSeparator c then [] :: splitChars isSeparator rest
    else
      match splitChars isSeparator rest with
      | [] => [[c]]
      | piece :: pieces => (c :: piece) :: pieces

/-- The pieces of a text between separators; empty pieces count. -/
def split (isSeparator : Char → Bool) (s : String) : List String :=
  (splitChars isSeparator s.toList).map String.ofList

/-- The characters before the first separator and those behind it, if there is one. -/
def splitOnceChars (isSeparator : Char → Bool) : List Char → Option (List Char × List Char)
  | [] => none
  | c :: rest =>
    if isSeparator c then some ([], rest)
    else (splitOnceChars isSeparator rest).map fun (before, behind) => (c :: before, behind)

/-- The text before the first separator and the text behind it, if there is one. -/
def splitOnce? (isSeparator : Char → Bool) (s : String) : Option (String × String) :=
  (splitOnceChars isSeparator s.toList).map fun (before, behind) =>
    (String.ofList before, String.ofList behind)

/-- Lists of characters written one after the other with a separator between neighbours. -/
def joinChars (separator : List Char) : List (List Char) → List Char
  | [] => []
  | [piece] => piece
  | piece :: next :: pieces => piece ++ separator ++ joinChars separator (next :: pieces)

/-- Texts written one after the other with a separator between neighbours. -/
def join (separator : String) (pieces : List String) : String :=
  String.ofList (joinChars separator.toList (pieces.map String.toList))

/-- There is always a first piece. -/
theorem splitChars_ne_nil (isSeparator : Char → Bool) (cs : List Char) :
    splitChars isSeparator cs ≠ [] := by
  cases cs with
  | nil => simp [splitChars]
  | cons c rest =>
    unfold splitChars
    split
    · simp
    · split <;> simp

/-- The first piece is what is before the first separator, and the others are the pieces of what is
behind it. -/
theorem splitChars_eq (isSeparator : Char → Bool) (cs : List Char) :
    splitChars isSeparator cs =
      match splitOnceChars isSeparator cs with
      | none => [cs]
      | some (before, behind) => before :: splitChars isSeparator behind := by
  induction cs with
  | nil => rfl
  | cons c rest ih =>
    rw [splitChars, splitOnceChars]
    split
    · rfl
    · rw [ih]
      cases splitOnceChars isSeparator rest <;> rfl

/-- The pieces of a text, one by one. -/
theorem split_eq (isSeparator : Char → Bool) (s : String) :
    split isSeparator s =
      match splitOnce? isSeparator s with
      | none => [s]
      | some (before, behind) => before :: split isSeparator behind := by
  rw [split, splitChars_eq, splitOnce?]
  cases splitOnceChars isSeparator s.toList with
  | none => simp
  | some parts => simp [split]

/-- What has no separator in it is before the one that follows. -/
theorem splitOnceChars_append_cons {isSeparator : Char → Bool} {before behind : List Char}
    {separator : Char} (h : ∀ c ∈ before, isSeparator c = false)
    (hsep : isSeparator separator = true) :
    splitOnceChars isSeparator (before ++ separator :: behind) = some (before, behind) := by
  induction before with
  | nil => simp [splitOnceChars, hsep]
  | cons c more ih =>
    rw [List.forall_mem_cons] at h
    simp [splitOnceChars, h.1, ih h.2]

/-- What is behind a separator is shorter than the whole. -/
theorem length_lt_of_splitOnceChars {isSeparator : Char → Bool} {cs before behind : List Char}
    (h : splitOnceChars isSeparator cs = some (before, behind)) : behind.length < cs.length := by
  induction cs generalizing before with
  | nil => cases h
  | cons c rest ih =>
    rw [splitOnceChars] at h
    split at h
    · cases h
      exact Nat.lt_succ_self _
    · obtain ⟨parts, hparts, heq⟩ := Option.map_eq_some_iff.1 h
      cases heq
      exact Nat.lt_succ_of_lt (ih hparts)

/-- The text behind a separator is shorter than the whole. -/
theorem length_lt_of_splitOnce? {isSeparator : Char → Bool} {s before behind : String}
    (h : splitOnce? isSeparator s = some (before, behind)) : behind.length < s.length := by
  obtain ⟨parts, hparts, heq⟩ := Option.map_eq_some_iff.1 h
  cases heq
  rw [String.length_ofList, ← String.length_toList]
  exact length_lt_of_splitOnceChars hparts

/-- Without a separator there is one piece. -/
theorem splitChars_of_forall_not {isSeparator : Char → Bool} {cs : List Char}
    (h : ∀ c ∈ cs, isSeparator c = false) : splitChars isSeparator cs = [cs] := by
  induction cs with
  | nil => rfl
  | cons c rest ih =>
    rw [List.forall_mem_cons] at h
    simp [splitChars, h.1, ih h.2]

/-- No piece has a separator in it. -/
theorem not_separator_of_mem_splitChars {isSeparator : Char → Bool} {cs piece : List Char}
    (h : piece ∈ splitChars isSeparator cs) : ∀ c ∈ piece, isSeparator c = false := by
  induction cs generalizing piece with
  | nil =>
    obtain rfl : piece = [] := List.mem_singleton.1 h
    simp
  | cons c rest ih =>
    unfold splitChars at h
    split at h
    · rcases List.mem_cons.1 h with rfl | h
      · simp
      · exact ih h
    · next hc =>
      have hfirst : isSeparator c = false := by simpa using hc
      -- The character goes in front of the first piece of the rest, if there is one.
      split at h
      · obtain rfl : piece = [c] := List.mem_singleton.1 h
        simpa using hfirst
      · next first pieces hsplit =>
        rw [hsplit] at ih
        rcases List.mem_cons.1 h with rfl | h
        · exact List.forall_mem_cons.2 ⟨hfirst, ih (List.mem_cons_self ..)⟩
        · exact ih (List.mem_cons_of_mem _ h)

/-- The characters up to the first separator are the first piece. -/
theorem splitChars_append_cons {isSeparator : Char → Bool} {cs rest : List Char} {separator : Char}
    (h : ∀ c ∈ cs, isSeparator c = false) (hsep : isSeparator separator = true) :
    splitChars isSeparator (cs ++ separator :: rest) = cs :: splitChars isSeparator rest := by
  induction cs with
  | nil => simp [splitChars, hsep]
  | cons c more ih =>
    rw [List.forall_mem_cons] at h
    simp [splitChars, h.1, ih h.2]

/-- Joining pieces with a character that none of them has and cutting at it again gives the same
pieces. -/
theorem splitChars_joinChars {separator : Char} {pieces : List (List Char)} (hne : pieces ≠ [])
    (hfree : ∀ piece ∈ pieces, separator ∉ piece) :
    splitChars (· == separator) (joinChars [separator] pieces) = pieces := by
  have hnot : ∀ piece ∈ pieces, ∀ c ∈ piece, (c == separator) = false := fun piece hp c hc =>
    beq_eq_false_iff_ne.2 fun heq => hfree piece hp (heq ▸ hc)
  induction pieces with
  | nil => exact absurd rfl hne
  | cons piece more ih =>
    rw [List.forall_mem_cons] at hfree hnot
    cases more with
    | nil => exact splitChars_of_forall_not hnot.1
    | cons next rest =>
      rw [joinChars, List.append_assoc, List.singleton_append,
        splitChars_append_cons hnot.1 (beq_self_eq_true separator),
        ih (by simp) hfree.2 hnot.2]

/-- Cutting at one character and joining with it again gives the same characters. -/
theorem joinChars_splitChars (separator : Char) (cs : List Char) :
    joinChars [separator] (splitChars (· == separator) cs) = cs := by
  induction cs with
  | nil => rfl
  | cons c rest ih =>
    have hne := splitChars_ne_nil (· == separator) rest
    unfold splitChars
    cases hsplit : splitChars (· == separator) rest with
    | nil => exact absurd hsplit hne
    | cons piece pieces =>
      rw [hsplit] at ih
      by_cases hc : c = separator
      · subst hc
        simpa [joinChars] using ih
      · cases pieces with
        | nil => simpa [joinChars, hc] using ih
        | cons next more => simpa [joinChars, hc] using ih

/-- A character of a join comes from the separator or from a piece. -/
theorem mem_of_mem_joinChars {separator : List Char} {pieces : List (List Char)} {c : Char}
    (h : c ∈ joinChars separator pieces) : c ∈ separator ∨ ∃ piece ∈ pieces, c ∈ piece := by
  induction pieces with
  | nil => cases h
  | cons piece more ih =>
    cases more with
    | nil => exact .inr ⟨piece, List.mem_cons_self .., h⟩
    | cons next rest =>
      rw [joinChars, List.mem_append, List.mem_append] at h
      rcases h with (h | h) | h
      · exact .inr ⟨piece, List.mem_cons_self .., h⟩
      · exact .inl h
      · obtain h | ⟨other, hother, h⟩ := ih h
        · exact .inl h
        · exact .inr ⟨other, List.mem_cons_of_mem _ hother, h⟩

/-- One piece more at the end of a join. -/
theorem joinChars_concat (separator : List Char) {pieces : List (List Char)} (hne : pieces ≠ [])
    (last : List Char) :
    joinChars separator (pieces ++ [last]) = joinChars separator pieces ++ separator ++ last := by
  induction pieces with
  | nil => exact absurd rfl hne
  | cons piece more ih =>
    cases more with
    | nil => rfl
    | cons next rest =>
      have hrest := ih (List.cons_ne_nil _ _)
      rw [List.cons_append] at hrest
      rw [List.cons_append, List.cons_append, joinChars, joinChars, hrest]
      simp only [List.append_assoc]

end BenchCharts.Text

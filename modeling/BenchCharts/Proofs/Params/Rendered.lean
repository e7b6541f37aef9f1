import BenchCharts.Proofs.Outcome
import BenchCharts.Proofs.Params.LeafPaths
import BenchCharts.Proofs.Text.Blank

/-!
# Paths as the store writes them

`FieldPath.check` looks at the path as a whole and at its segments, while `Fields.checkKeys` has
looked at every key alone. `FieldPath.check_ofKeys` says how the two agree: the path of addressable
keys is accepted unless it is blank, and it is blank only if it is a single key with nothing but
blanks in it (`FieldPath.blank_ofKeys_iff`).

An accepted path is written with every key in quotes. No key has a quote in it, so the text says
where each key ends, and two paths are not written alike (`FieldPath.rendered_inj`).
-/

namespace BenchCharts.FieldPath

open Json.Fields (addressableKey addressableKey_iff not_mem_point_of_addressable)

variable {path : String}

/-! ### Blank paths -/

/-- A text of blanks, or of nothing at all. -/
def Blank (text : String) : Prop := ∀ c ∈ text.toList, Text.isBlank c = true

/-- Nothing is left of a blank text when it is trimmed. -/
theorem isEmpty_trimChars_iff : (Text.trimChars path.toList).isEmpty = true ↔ Blank path := by
  rw [List.isEmpty_iff, Text.trimChars_eq_iff]
  constructor
  · intro htrims c hc
    by_contra hblank
    exact List.not_mem_nil (htrims.mem (Bool.eq_false_iff.2 hblank) hc)
  · intro hblank
    exact ⟨⟨path.toList, [], by simp, hblank, by simp⟩, by simp, by simp⟩

/-- **Only a single blank key has a blank path**, since any two keys have a point between them. -/
theorem blank_ofKeys_iff {keys : List String} (hne : keys ≠ []) :
    Blank (ofKeys keys) ↔ ∃ key, keys = [key] ∧ Blank key := by
  cases keys with
  | nil => exact absurd rfl hne
  | cons first more =>
    cases more with
    | nil => simp
    | cons next rest =>
      have hpoint : '.' ∈ (ofKeys (first :: next :: rest)).toList := by
        simp [ofKeys, Text.join, Text.joinChars]
      constructor
      -- A point is no blank.
      · intro hblank
        exact absurd (hblank '.' hpoint) (by decide)
      · rintro ⟨key, hkey, -⟩
        cases hkey

/-! ### Accepted paths -/

theorem addressable_iff {segment : String} :
    addressable segment = true ↔ segment ≠ "" ∧ '"' ∉ segment.toList := by
  simp [addressable]

theorem check_eq_ok_iff {segments : List String} :
    check path = .ok segments ↔
      ¬ Blank path ∧ (∀ segment ∈ keys path, addressable segment = true) ∧
        segments = keys path := by
  rw [← isEmpty_trimChars_iff, check]
  split
  · next hblank => simp [hblank]
  · next hblank =>
    rw [and_iff_right hblank]
    split
    · next segment hfind =>
      have hrefused : addressable segment = false := by simpa using List.find?_some hfind
      have hsegment := List.mem_of_find?_eq_some hfind
      simp only [reduceCtorEq, false_iff, not_and]
      intro hall
      exact absurd (hall segment hsegment) (by simp [hrefused])
    · next hfind =>
      have hall : ∀ segment ∈ keys path, addressable segment = true := by
        simpa using List.find?_eq_none.1 hfind
      rw [and_iff_right hall, Except.ok.injEq, eq_comm]

theorem check_of_blank (h : Blank path) : check path = .error .emptyPath := by
  rw [check, if_pos (isEmpty_trimChars_iff.2 h)]

/-- The path of addressable keys is accepted if it is not blank. -/
theorem check_ofKeys {keys : List String} (hne : keys ≠ [])
    (haddr : ∀ key ∈ keys, addressableKey key = true) (hblank : ¬ Blank (ofKeys keys)) :
    check (ofKeys keys) = .ok keys := by
  have hkeys := keys_ofKeys hne (not_mem_point_of_addressable haddr)
  refine check_eq_ok_iff.2 ⟨hblank, ?_, hkeys.symm⟩
  rw [hkeys]
  intro key hkey
  obtain ⟨hempty, -, hquote⟩ := addressableKey_iff.1 (haddr key hkey)
  exact addressable_iff.2 ⟨hempty, hquote⟩

/-! ### What is written -/

/-- A key as the store writes it. -/
def quoted (key : String) : String := ".\"" ++ key ++ "\""

/-- The keys are written one after the other. -/
theorem render_eq (keys : List String) :
    render keys = "$" ++ String.join (keys.map quoted) := by
  -- For any text to start with, since it grows from key to key.
  have hfold : ∀ text : String,
      keys.foldl (fun text segment => text ++ ".\"" ++ segment ++ "\"") text =
        text ++ String.join (keys.map quoted) := by
    induction keys with
    | nil => simp
    | cons key more ih =>
      intro text
      rw [List.foldl_cons, ih]
      simp [quoted, String.append_assoc]
  exact hfold "$"

/-- The path of addressable keys is written as its keys, if it is not blank. -/
theorem rendered_ofKeys {keys : List String} (hne : keys ≠ [])
    (haddr : ∀ key ∈ keys, addressableKey key = true) (hblank : ¬ Blank (ofKeys keys)) :
    rendered (ofKeys keys) = .ok ("$" ++ String.join (keys.map quoted)) := by
  rw [rendered, check_ofKeys hne haddr hblank, ← render_eq]
  rfl

theorem rendered_of_blank (h : Blank path) : rendered path = .error .emptyPath := by
  rw [rendered, check_of_blank h]
  rfl

theorem toList_join_quoted (key : String) (more : List String) :
    (String.join ((key :: more).map quoted)).toList =
      '.' :: '"' :: (key.toList ++ '"' :: (String.join (more.map quoted)).toList) := by
  simp [quoted]

/-- Keys without quotes are written in different ways. -/
theorem render_inj {first second : List String} (h : ∀ key ∈ first, '"' ∉ key.toList)
    (h' : ∀ key ∈ second, '"' ∉ key.toList) (heq : render first = render second) :
    first = second := by
  have hjoin :
      (String.join (first.map quoted)).toList = (String.join (second.map quoted)).toList := by
    rw [render_eq, render_eq] at heq
    simpa using congrArg String.toList heq
  clear heq
  -- Key by key; a list that has ended leaves nothing to be written.
  induction first generalizing second with
  | nil =>
    cases second with
    | nil => rfl
    | cons key more =>
      rw [toList_join_quoted] at hjoin
      cases hjoin
  | cons key more ih =>
    cases second with
    | nil =>
      rw [toList_join_quoted] at hjoin
      cases hjoin
    | cons key' more' =>
      obtain ⟨hkey, hmore⟩ := List.forall_mem_cons.1 h
      obtain ⟨hkey', hmore'⟩ := List.forall_mem_cons.1 h'
      rw [toList_join_quoted, toList_join_quoted, List.cons.injEq, List.cons.injEq] at hjoin
      -- The next quote is the one behind the key, on both sides.
      have hcut := congrArg (Text.splitOnceChars (· == '"')) hjoin.2.2
      have hfree : ∀ {cs : List Char}, '"' ∉ cs → ∀ c ∈ cs, (c == '"') = false :=
        fun hquote c hc => beq_eq_false_iff_ne.2 fun heq => hquote (heq ▸ hc)
      rw [Text.splitOnceChars_append_cons (hfree hkey) (beq_self_eq_true _),
        Text.splitOnceChars_append_cons (hfree hkey') (beq_self_eq_true _), Option.some.injEq,
        Prod.mk.injEq] at hcut
      rw [String.toList_inj.1 hcut.1, ih hmore hmore' hcut.2]

/-- **No two paths are written alike.** -/
theorem rendered_inj {path' text : String} (h : rendered path = .ok text)
    (h' : rendered path' = .ok text) : path = path' := by
  obtain ⟨segments, hcheck, rfl⟩ := map_eq_ok_iff.1 h
  obtain ⟨segments', hcheck', heq⟩ := map_eq_ok_iff.1 h'
  obtain ⟨-, haddr, rfl⟩ := check_eq_ok_iff.1 hcheck
  obtain ⟨-, haddr', rfl⟩ := check_eq_ok_iff.1 hcheck'
  have hkeys := render_inj (fun key hkey => (addressable_iff.1 (haddr key hkey)).2)
    (fun key hkey => (addressable_iff.1 (haddr' key hkey)).2) heq.symm
  rw [← ofKeys_keys path, hkeys, ofKeys_keys]

end BenchCharts.FieldPath

import BenchCharts.Proofs.Filter
import BenchCharts.Proofs.Params.Rendered

/-!
# Which filters compile

A filter is looked at twice: `Fields.checkKeys` goes over its keys, and later every scalar leaf has
its path checked for a clause. The second check should not find anything that the first one has let
through, and it does so in one place only. A key of nothing but blanks is addressable, but if it is
at the top of the filter then it is a path as a whole, and a blank path counts as empty.

`compile_settled_by_checkKeys` says that this is all: what is written for the leaves of an accepted
filter, that no two are written alike, and which filters compile.
-/

namespace BenchCharts.CompiledFilter

open FieldPath (Blank quoted rendered)
open Json (Fields)

variable {filter : Fields} {cause : RequestError}

/-! ### Clauses -/

/-- Where there are clauses, the paths of all scalars have been accepted. -/
theorem check_of_clausesOf_eq_ok {leaves : List (String × Json)} {clauses : List LeafClause}
    (h : clausesOf leaves = .ok clauses) {path : String} {value : Json}
    (hleaf : (path, value) ∈ leaves) (hscalar : isScalar value = true) :
    ∃ segments, FieldPath.check path = .ok segments := by
  induction leaves generalizing clauses with
  | nil => cases hleaf
  | cons first rest ih =>
    obtain ⟨path', value'⟩ := first
    rw [clausesOf] at h
    split at h
    -- A scalar has a clause of its own, and everything else is passed over.
    · obtain ⟨segments, hcheck, hmore⟩ := bind_eq_ok_iff.1 h
      obtain ⟨more, hclauses, -⟩ := bind_eq_ok_iff.1 hmore
      rcases List.mem_cons.1 hleaf with heq | hleaf
      · cases heq
        exact ⟨segments, hcheck⟩
      · exact ih hclauses hleaf
    · next hother =>
      rcases List.mem_cons.1 hleaf with heq | hleaf
      · cases heq
        exact absurd hscalar hother
      · exact ih h hleaf

/-- Where there are none, the path of some scalar is refused. -/
theorem exists_of_clausesOf_eq_error {leaves : List (String × Json)}
    (h : clausesOf leaves = .error cause) :
    ∃ path value, (path, value) ∈ leaves ∧ isScalar value = true ∧
      FieldPath.check path = .error cause := by
  induction leaves with
  | nil => cases h
  | cons first rest ih =>
    obtain ⟨path', value'⟩ := first
    -- An error further on is passed up in either case.
    have hlater : clausesOf rest = .error cause →
        ∃ path value, (path, value) ∈ (path', value') :: rest ∧ isScalar value = true ∧
          FieldPath.check path = .error cause := by
      intro hrest
      obtain ⟨path, value, hleaf, hrefused⟩ := ih hrest
      exact ⟨path, value, List.mem_cons_of_mem _ hleaf, hrefused⟩
    rw [clausesOf] at h
    split at h
    · next hscalar =>
      rcases bind_eq_error_iff.1 h with hcheck | ⟨segments, -, hmore⟩
      · exact ⟨path', value', List.mem_cons_self .., hscalar, hcheck⟩
      · rcases bind_eq_error_iff.1 hmore with hrest | ⟨more, -, hpure⟩
        · exact hlater hrest
        · cases hpure
    · exact hlater h

/-! ### Leaves of an accepted filter -/

section Accepted

variable (hnormal : (Json.obj filter).Normal) (hkeys : filter.checkKeys = .ok ())

include hnormal hkeys

/-- What is written for a leaf are its keys, unless its path is blank. -/
theorem exists_keys_of_mem_leaves {path : String} {value : Json}
    (hleaf : (path, value) ∈ filter.leaves) :
    ∃ keys, filter.getKeys? keys = some value ∧ path = FieldPath.ofKeys keys ∧
      (¬ Blank path → rendered path = .ok ("$" ++ String.join (keys.map quoted))) ∧
      (Blank path → keys = [path] ∧ rendered path = .error .emptyPath) := by
  obtain ⟨-, keys, hget, rfl⟩ := (Fields.mem_leaves_iff hnormal hkeys).1 hleaf
  have hne := (Fields.getKeys?_eq_some_iff.1 hget).1
  have haddr := Fields.addressableKey_of_getKeys? hkeys hget
  refine ⟨keys, hget, rfl, FieldPath.rendered_ofKeys hne haddr, fun hblank => ?_⟩
  obtain ⟨key, rfl, -⟩ := (FieldPath.blank_ofKeys_iff hne).1 hblank
  exact ⟨by simp, FieldPath.rendered_of_blank hblank⟩

/-- No two leaves are written alike. -/
theorem pairwise_rendered_leaves :
    filter.leaves.Pairwise fun leaf leaf' =>
      ∀ text, rendered leaf.1 = .ok text → rendered leaf'.1 ≠ .ok text := by
  have hpaths := List.pairwise_map.1 (Fields.nodup_leaves hnormal hkeys)
  exact hpaths.imp fun hne text h h' => hne (FieldPath.rendered_inj h h')

/-- The path of a leaf is accepted, unless it is the blank key of a member. -/
theorem check_of_mem_leaves {path : String} {value : Json} (hleaf : (path, value) ∈ filter.leaves) :
    (∃ segments, FieldPath.check path = .ok segments) ∨
      Blank path ∧ filter.get? path = some value := by
  obtain ⟨keys, hget, hpath, haccepted, hblank⟩ := exists_keys_of_mem_leaves hnormal hkeys hleaf
  by_cases h : Blank path
  · rw [(hblank h).1, Fields.getKeys?_singleton] at hget
    exact .inr ⟨h, hget⟩
  · obtain ⟨segments, hcheck, -⟩ := map_eq_ok_iff.1 (haccepted h)
    exact .inl ⟨segments, hcheck⟩

end Accepted

/-! ### Compiling -/

/-- A scalar is at the top of a filter under a blank key. -/
def HasBlankScalar (filter : Fields) : Prop :=
  ∃ key value, filter.get? key = some value ∧ isScalar value = true ∧ Blank key

/-- A scalar is not `null`, so it is in the pattern where it is in the filter. -/
theorem get?_dropNulls_iff_of_isScalar (hnormal : (Json.obj filter).Normal) {key : String}
    {value : Json} (hscalar : isScalar value = true) :
    filter.dropNulls.get? key = some value ↔ filter.get? key = some value := by
  have hnull : value ≠ .null := by
    rintro rfl
    cases hscalar
  have hend := Json.isEnd_of_isObject_eq_false (isObject_of_isScalar hscalar)
  rw [← Fields.getKeys?_singleton, ← Fields.getKeys?_singleton,
    Fields.getKeys?_dropNulls_iff hnormal hend hnull]

/-- An accepted filter has no clauses exactly if a scalar is at the top of it under a blank key. -/
theorem clausesOf_eq_error_iff (hnormal : (Json.obj filter).Normal)
    (hkeys : filter.checkKeys = .ok ()) :
    clausesOf filter.dropNulls.leaves = .error cause ↔
      HasBlankScalar filter ∧ cause = .emptyPath := by
  have hnormal' := Fields.normal_dropNulls hnormal
  have hkeys' := Fields.checkKeys_dropNulls hkeys
  -- One direction for every error: it is also needed for the other one.
  have hcause : ∀ cause, clausesOf filter.dropNulls.leaves = .error cause →
      HasBlankScalar filter ∧ cause = .emptyPath := by
    intro cause herror
    obtain ⟨path, value, hleaf, hscalar, hcheck⟩ := exists_of_clausesOf_eq_error herror
    rcases check_of_mem_leaves hnormal' hkeys' hleaf with ⟨segments, haccepted⟩ | ⟨hblank, hget⟩
    · rw [haccepted] at hcheck
      cases hcheck
    · rw [FieldPath.check_of_blank hblank] at hcheck
      cases hcheck
      have hget := (get?_dropNulls_iff_of_isScalar hnormal hscalar).1 hget
      exact ⟨⟨path, value, hget, hscalar, hblank⟩, rfl⟩
  refine ⟨hcause cause, ?_⟩
  rintro ⟨⟨key, value, hget, hscalar, hblank⟩, rfl⟩
  -- The scalar is a leaf of the pattern, and its path is the blank key.
  have hleaf : (key, value) ∈ filter.dropNulls.leaves := by
    refine (Fields.mem_leaves_iff hnormal' hkeys').2 ⟨isObject_of_isScalar hscalar, [key], ?_, ?_⟩
    · rw [Fields.getKeys?_singleton, get?_dropNulls_iff_of_isScalar hnormal hscalar, hget]
    · simp
  cases hclauses : clausesOf filter.dropNulls.leaves with
  | ok clauses =>
    obtain ⟨segments, hcheck⟩ := check_of_clausesOf_eq_ok hclauses hleaf hscalar
    rw [FieldPath.check_of_blank hblank] at hcheck
    cases hcheck
  | error cause => rw [(hcause cause hclauses).2]

theorem compile_eq_error_iff :
    compile filter = .error cause ↔
      filter.checkKeys = .error cause ∨
        filter.checkKeys = .ok () ∧ clausesOf filter.dropNulls.leaves = .error cause := by
  rw [compile, bind_eq_error_iff]
  refine or_congr_right ⟨?_, ?_⟩
  · rintro ⟨⟨⟩, hkeys, hrest⟩
    rcases bind_eq_error_iff.1 hrest with hclauses | ⟨clauses, -, hpure⟩
    · exact ⟨hkeys, hclauses⟩
    · cases hpure
  · rintro ⟨hkeys, hclauses⟩
    exact ⟨(), hkeys, bind_eq_error_iff.2 (.inl hclauses)⟩

section Scalars

variable {filter : Fields} (hscalars : ∀ member ∈ filter, isScalar member.2 = true)

include hscalars

theorem dropNulls_of_scalars : filter.dropNulls = filter := by
  induction filter with
  | nil => exact Fields.dropNulls_nil
  | cons member rest ih =>
    obtain ⟨key, value⟩ := member
    obtain ⟨hscalar, hrest⟩ := List.forall_mem_cons.1 hscalars
    have hkept : Fields.kept? value = some value := by
      rw [Fields.kept?_leaf (isObject_of_isScalar hscalar),
        if_neg (by rw [isNull_of_isScalar hscalar]; exact Bool.false_ne_true)]
    rw [Fields.dropNulls_cons, hkept, ih hrest]
    rfl

theorem leaves_of_scalars : filter.leaves = filter := by
  induction filter with
  | nil => exact Fields.leavesBelow_nil ""
  | cons member rest ih =>
    obtain ⟨key, value⟩ := member
    obtain ⟨hscalar, hrest⟩ := List.forall_mem_cons.1 hscalars
    have hbelow : Fields.leavesBelow "" rest = rest := ih hrest
    rw [Fields.leaves, Fields.leavesBelow_leaf _ _ _ (isObject_of_isScalar hscalar), hbelow]
    rfl

theorem nullPaths_of_scalars : filter.nullPaths = [] := by
  have hnone : (filter.filter fun leaf => leaf.2.isNull) = [] :=
    List.filter_eq_nil_iff.2 fun member hmember => by
      simp [isNull_of_isScalar (hscalars member hmember)]
  rw [Fields.nullPaths, Fields.nullPathsBelow_eq, ← Fields.leaves, leaves_of_scalars hscalars,
    hnone]
  rfl

/-- **A filter of scalars is its own pattern**, and each of its members is a clause, if none of its
keys is blank. -/
theorem compile_of_scalars
    (hkeys : ∀ member ∈ filter, Fields.addressableKey member.1 = true ∧ ¬ Blank member.1) :
    compile filter =
      .ok ⟨filter, filter.map fun member => ⟨member.1, [member.1], member.2⟩, []⟩ := by
  -- Both checks go over the members, and accept each of them.
  have haccepted : filter.checkKeys = .ok () ∧
      clausesOf filter = .ok (filter.map fun member => ⟨member.1, [member.1], member.2⟩) := by
    induction filter with
    | nil => exact ⟨by rw [Fields.checkKeys.eq_def], rfl⟩
    | cons member rest ih =>
      obtain ⟨key, value⟩ := member
      obtain ⟨hscalar, hrest⟩ := List.forall_mem_cons.1 hscalars
      obtain ⟨⟨haddr, hblank⟩, hmore⟩ := List.forall_mem_cons.1 hkeys
      obtain ⟨hchecked, hclauses⟩ := ih hrest hmore
      have hcheck : FieldPath.check key = .ok [key] := by
        have hof := FieldPath.check_ofKeys (List.cons_ne_nil key [])
          (List.forall_mem_singleton.2 haddr)
        rw [FieldPath.ofKeys_singleton] at hof
        exact hof hblank
      refine ⟨Fields.checkKeys_cons_eq_ok_iff.2 ⟨haddr, ?_, hchecked⟩, ?_⟩
      · rintro inner rfl
        cases hscalar
      · rw [clausesOf, if_pos hscalar, hcheck, hclauses]
        rfl
  obtain ⟨hchecked, hclauses⟩ := haccepted
  rw [compile_eq_ok_iff, dropNulls_of_scalars hscalars, leaves_of_scalars hscalars,
    nullPaths_of_scalars hscalars]
  exact ⟨hchecked, _, hclauses, rfl⟩

end Scalars

/-- **What decides whether a filter compiles.** On an accepted filter, each leaf is written as its
keys, unless its path is blank and then it is a member at the top; and no two leaves are written
alike. A filter compiles exactly if its keys are accepted and no scalar is at the top under a blank
key. It is refused with the error for its keys if there is one, and else for an empty path. -/
theorem compile_settled_by_checkKeys (hnormal : (Json.obj filter).Normal) :
    (filter.checkKeys = .ok () →
      (∀ path value, (path, value) ∈ filter.leaves →
        ∃ keys, filter.getKeys? keys = some value ∧ path = FieldPath.ofKeys keys ∧
          (¬ Blank path → rendered path = .ok ("$" ++ String.join (keys.map quoted))) ∧
          (Blank path → keys = [path] ∧ rendered path = .error .emptyPath)) ∧
      filter.leaves.Pairwise fun leaf leaf' =>
        ∀ text, rendered leaf.1 = .ok text → rendered leaf'.1 ≠ .ok text) ∧
    ((∃ compiled, compile filter = .ok compiled) ↔
      filter.checkKeys = .ok () ∧ ¬ HasBlankScalar filter) ∧
    ∀ cause, compile filter = .error cause ↔
      filter.checkKeys = .error cause ∨
        filter.checkKeys = .ok () ∧ HasBlankScalar filter ∧ cause = .emptyPath := by
  have herror : ∀ cause, compile filter = .error cause ↔
      filter.checkKeys = .error cause ∨
        filter.checkKeys = .ok () ∧ HasBlankScalar filter ∧ cause = .emptyPath := by
    intro cause
    rw [compile_eq_error_iff]
    exact or_congr_right (and_congr_right fun hkeys => clausesOf_eq_error_iff hnormal hkeys)
  -- That a filter compiles is that there is no error, by what has been said of these.
  refine ⟨fun hkeys => ⟨fun path value hleaf => ?_, ?_⟩, ⟨?_, ?_⟩, herror⟩
  · exact exists_keys_of_mem_leaves hnormal hkeys hleaf
  · exact pairwise_rendered_leaves hnormal hkeys
  · rintro ⟨compiled, hcompile⟩
    have hkeys := (compile_eq_ok_iff.1 hcompile).1
    refine ⟨hkeys, fun hblank => ?_⟩
    rw [(herror .emptyPath).2 (.inr ⟨hkeys, hblank, rfl⟩)] at hcompile
    cases hcompile
  · rintro ⟨hkeys, hblank⟩
    cases hcompile : compile filter with
    | ok compiled => exact ⟨compiled, rfl⟩
    | error cause =>
      rcases (herror cause).1 hcompile with hrefused | ⟨-, hhas, -⟩
      · rw [hkeys] at hrefused
        cases hrefused
      · exact absurd hhas hblank

/-- A blank key at the top of a filter with an array, and another one further down with a scalar.
Only the first cannot be written, and the filter compiles. -/
theorem compile_settled_by_checkKeys_blankKeys :
    let filter : Fields :=
      [(" ", .arr [.bool true]), ("a", .obj [(" ", .bool true), ("b", .null)])]
    (Json.obj filter).Normal ∧ filter.checkKeys = .ok () ∧
      (∃ compiled, compile filter = .ok compiled) ∧ rendered " " = .error .emptyPath ∧
      ∃ keys, filter.getKeys? keys = some (.bool true) ∧
        rendered "a. " = .ok ("$" ++ String.join (keys.map quoted)) := by
  intro filter
  have hnormal : (Json.obj filter).Normal := by
    simp only [filter, Json.Normal, Json.NormalItems, Json.NormalFields, Fields.Ascending, and_true,
      true_and]
    decide
  have hkeys : filter.checkKeys = .ok () := by cbv
  have hspace : Text.isBlank ' ' = true := by decide
  -- There are an array and an object at the top, and no scalar.
  have hscalars : ¬ HasBlankScalar filter := by
    rintro ⟨key, value, hget, hscalar, hblank⟩
    rw [Fields.get?_cons, Fields.get?_cons, Fields.get?_nil] at hget
    split at hget
    · cases hget
      cases hscalar
    · split at hget
      · cases hget
        cases hscalar
      · cases hget
  obtain ⟨hleaves, hcompiles, -⟩ := compile_settled_by_checkKeys hnormal
  have hlist : filter.leaves =
      [(" ", .arr [.bool true]), ("a. ", .bool true), ("a.b", .null)] := by cbv
  have hleaf : (" ", .arr [.bool true]) ∈ filter.leaves := hlist ▸ by simp
  have hleaf' : ("a. ", .bool true) ∈ filter.leaves := hlist ▸ by simp
  obtain ⟨outer, -, -, -, hblank⟩ := (hleaves hkeys).1 _ _ hleaf
  obtain ⟨keys, hget, -, hwritten, -⟩ := (hleaves hkeys).1 _ _ hleaf'
  refine ⟨hnormal, hkeys, hcompiles.2 ⟨hkeys, hscalars⟩, (hblank ?_).2, keys, hget, hwritten ?_⟩
  · simp [Blank, hspace]
  · intro hblank
    exact absurd (hblank '.' (by decide)) (by decide)

/-- A scalar at the top of a filter under a blank key. The keys of the filter are accepted, but the
path of the scalar is not, and so the filter does not compile. -/
theorem not_compile_of_checkKeys_blankKey :
    let filter : Fields := [(" ", .num (.int 1))]
    (Json.obj filter).Normal ∧ filter.checkKeys = .ok () ∧
      (" ", .num (.int 1)) ∈ filter.leaves ∧ (¬ ∃ text, rendered " " = .ok text) ∧
      ¬ ∃ compiled, compile filter = .ok compiled := by
  intro filter
  have hrendered : rendered " " = .error .emptyPath := by cbv
  have hcompile : compile filter = .error .emptyPath := by cbv
  refine ⟨by simp [filter, Json.Normal, Json.NormalFields, Fields.Ascending], by cbv, ?_, ?_, ?_⟩
  · have hlist : filter.leaves = [(" ", .num (.int 1))] := by cbv
    rw [hlist, List.mem_singleton]
  · rintro ⟨text, htext⟩
    rw [hrendered] at htext
    cases htext
  · rintro ⟨compiled, hcompiled⟩
    rw [hcompile] at hcompiled
    cases hcompiled

end BenchCharts.CompiledFilter

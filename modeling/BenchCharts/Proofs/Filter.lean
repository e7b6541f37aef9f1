import Mathlib
import BenchCharts.Filter
import BenchCharts.Proofs.Outcome
import BenchCharts.Proofs.Params.Containment

/-!
# What a comparison filter means

A filter is compiled by four passes of their own, and a run is checked against what they give by
containment and by looking up dotted paths. `Meets` says what all of this amounts to, in terms of
the filter as it was given and of what is found in the parameters of a run:
`contains_and_not_isExcluded_iff` is that a run passes exactly if it meets the filter.

`mem_clauses_iff` describes the clauses of a filter, which are its scalar leaves.
-/

namespace BenchCharts.CompiledFilter

open Json

/-! ### Compiling -/

/-- What there is of a compiled filter but for its clauses comes from three passes over the given
one. -/
theorem compile_eq_ok_iff {filter : Fields} {compiled : CompiledFilter} :
    compile filter = .ok compiled ↔
      filter.checkKeys = .ok () ∧
        ∃ clauses, clausesOf filter.dropNulls.leaves = .ok clauses ∧
          compiled = ⟨filter.dropNulls, clauses, filter.nullPaths⟩ := by
  rw [compile, bind_eq_ok_iff]
  refine ⟨?_, ?_⟩
  · rintro ⟨⟨⟩, hkeys, hrest⟩
    obtain ⟨clauses, hclauses, hpure⟩ := bind_eq_ok_iff.1 hrest
    exact ⟨hkeys, clauses, hclauses, (pure_eq_ok_iff.1 hpure).symm⟩
  · rintro ⟨hkeys, clauses, hclauses, rfl⟩
    exact ⟨(), hkeys, bind_eq_ok_iff.2 ⟨clauses, hclauses, rfl⟩⟩

/-- The empty filter asks for nothing and excludes nothing. -/
theorem compile_nil : compile [] = .ok ⟨[], [], []⟩ := by cbv

/-- The clauses of leaves are those of the scalars among them. -/
theorem mem_clausesOf_iff {leaves : List (String × Json)} {clauses : List LeafClause}
    (h : clausesOf leaves = .ok clauses) {clause : LeafClause} :
    clause ∈ clauses ↔
      (clause.path, clause.value) ∈ leaves ∧ isScalar clause.value = true ∧
        clause.keys = FieldPath.keys clause.path := by
  induction leaves generalizing clauses with
  | nil =>
    cases h
    simp
  | cons leaf rest ih =>
    obtain ⟨path, value⟩ := leaf
    rw [clausesOf] at h
    split at h
    · next hscalar =>
      obtain ⟨keys, hcheck, hmore⟩ := bind_eq_ok_iff.1 h
      obtain ⟨more, hclauses, hpure⟩ := bind_eq_ok_iff.1 hmore
      obtain rfl := pure_eq_ok_iff.1 hpure
      rw [List.mem_cons, List.mem_cons, ih hclauses, or_and_right]
      refine or_congr_left ⟨?_, ?_⟩
      · rintro rfl
        exact ⟨rfl, hscalar, FieldPath.keys_of_check hcheck⟩
      · obtain ⟨p, k, v⟩ := clause
        rintro ⟨heq, -, hkeys⟩
        cases heq
        rw [FieldPath.keys_of_check hcheck, ← hkeys]
    · next hscalar =>
      -- The first leaf makes no clause, and it is no scalar either.
      rw [ih h, List.mem_cons, or_and_right]
      refine (or_iff_right ?_).symm
      rintro ⟨heq, hvalue, -⟩
      cases heq
      exact hscalar hvalue

/-- A scalar is not an object. -/
theorem isObject_of_isScalar {value : Json} (h : isScalar value = true) :
    value.isObject = false := by
  cases value <;> first | rfl | simp [isScalar] at h

/-- A scalar is not `null`. -/
theorem isNull_of_isScalar {value : Json} (h : isScalar value = true) : value.isNull = false := by
  cases value <;> first | rfl | simp [isScalar] at h

/-- **The clauses of a filter** are the scalars in its pattern, each with the keys that lead to
it. -/
theorem mem_clauses_iff {filter : Fields} {compiled : CompiledFilter}
    (hnormal : (Json.obj filter).Normal) (hcompile : compile filter = .ok compiled)
    {clause : LeafClause} :
    clause ∈ compiled.clauses ↔
      isScalar clause.value = true ∧ compiled.pattern.getKeys? clause.keys = some clause.value ∧
        clause.path = FieldPath.ofKeys clause.keys := by
  obtain ⟨hkeys, clauses, hclauses, rfl⟩ := compile_eq_ok_iff.1 hcompile
  have hkept := Fields.checkKeys_dropNulls hkeys
  change clause ∈ clauses ↔ _ ∧ filter.dropNulls.getKeys? clause.keys = _ ∧ _
  rw [mem_clausesOf_iff hclauses,
    Fields.mem_leaves_iff (Fields.normal_dropNulls hnormal) hkept]
  -- No key of the pattern has a point, so its paths are cut into the keys they were made of.
  have hback : ∀ keys value, filter.dropNulls.getKeys? keys = some value →
      FieldPath.keys (FieldPath.ofKeys keys) = keys := by
    intro keys value hget
    refine FieldPath.keys_ofKeys (Fields.getKeys?_eq_some_iff.1 hget).1 fun key hkey => ?_
    exact (Fields.addressableKey_iff.1 (Fields.addressableKey_of_getKeys? hkept hget key hkey)).2.1
  refine ⟨?_, ?_⟩
  · rintro ⟨⟨-, keys, hget, hpath⟩, hscalar, hclause⟩
    rw [hpath, hback keys _ hget] at hclause
    exact ⟨hscalar, hclause ▸ hget, hclause ▸ hpath⟩
  · rintro ⟨hscalar, hget, hpath⟩
    refine ⟨⟨isObject_of_isScalar hscalar, clause.keys, hget, hpath⟩, hscalar, ?_⟩
    rw [hpath, hback _ _ hget]

/-! ### Meaning -/

/-- What a filter asks of the parameters of a run. -/
structure Meets (filter params : Fields) : Prop where
  /-- At the path of each leaf but `null` there is something that contains the leaf. -/
  contained : ∀ keys value, filter.getKeys? keys = some value → value.isObject = false →
    value.isNull = false →
      ∃ found, params.at? (FieldPath.ofKeys keys) = some found ∧ found.contains value = true
  /-- At the path of each `null` there is nothing at all. -/
  absent : ∀ keys, filter.getKeys? keys = some .null →
    params.at? (FieldPath.ofKeys keys) = none
  /-- At the path of each empty object there is an object. -/
  object : ∀ keys, filter.getKeys? keys = some (.obj []) →
    ∃ inner : Fields, params.at? (FieldPath.ofKeys keys) = some (.obj inner)

/-- No excluded path is there exactly if there is nothing at the path of each `null`. -/
theorem any_has_nullPaths_eq_false_iff {filter params : Fields}
    (hnormal : (Json.obj filter).Normal) (hkeys : filter.checkKeys = .ok ()) :
    filter.nullPaths.any params.has = false ↔
      ∀ keys, filter.getKeys? keys = some .null → params.at? (FieldPath.ofKeys keys) = none := by
  rw [List.any_eq_false]
  -- The excluded paths are those of the keys that lead to `null`.
  refine ⟨?_, ?_⟩
  · intro h keys hget
    have hpath := h _ ((Fields.mem_nullPaths_iff hnormal hkeys).2 ⟨keys, hget, rfl⟩)
    simpa [Fields.has] using hpath
  · intro h path hpath
    obtain ⟨keys, hget, rfl⟩ := (Fields.mem_nullPaths_iff hnormal hkeys).1 hpath
    simp [Fields.has, h keys hget]

/-- The pattern is contained exactly if there is what there has to be at each leaf but `null` and at
each empty object of the filter. -/
theorem containsFields_dropNulls_iff {filter params : Fields}
    (hnormal : (Json.obj filter).Normal) (hkeys : filter.checkKeys = .ok ()) :
    containsFields params filter.dropNulls = true ↔
      ∀ keys value, filter.getKeys? keys = some value → value.isEnd = true → value ≠ .null →
        ∃ found, params.at? (FieldPath.ofKeys keys) = some found ∧
          found.contains value = true := by
  have hat : ∀ keys value, filter.getKeys? keys = some value →
      params.at? (FieldPath.ofKeys keys) = params.getKeys? keys := fun keys value hget =>
    Fields.at?_ofKeys params (Fields.getKeys?_eq_some_iff.1 hget).1
      (Fields.addressableKey_of_getKeys? hkeys hget)
  rw [Fields.containsFields_iff_ends (Fields.normal_dropNulls hnormal)]
  refine ⟨?_, ?_⟩
  · intro h keys value hget hend hnull
    rw [hat keys value hget]
    exact h keys value ((Fields.getKeys?_dropNulls_iff hnormal hend hnull).2 hget) hend
  · intro h keys value hkept hend
    -- What is left of the filter has no nulls, and at its ends it is the filter itself.
    have hnull : value ≠ .null := by
      rintro rfl
      exact Fields.getKeys?_dropNulls_ne_null hnormal keys hkept
    have hget := (Fields.getKeys?_dropNulls_iff hnormal hend hnull).1 hkept
    rw [← hat keys value hget]
    exact h keys value hget hend hnull

/-- **What it takes to pass a filter.** A run contains the pattern of a compiled filter and has
nothing that is excluded exactly if its parameters meet the filter that was given. -/
theorem contains_and_not_isExcluded_iff {filter : Fields} {compiled : CompiledFilter}
    (hnormal : (Json.obj filter).Normal) (hcompile : compile filter = .ok compiled) (run : Run) :
    (compiled.contains run = true ∧ compiled.isExcluded run = false) ↔
      Meets filter run.params := by
  obtain ⟨hkeys, clauses, -, rfl⟩ := compile_eq_ok_iff.1 hcompile
  rw [contains, isExcluded, containsFields_dropNulls_iff hnormal hkeys,
    any_has_nullPaths_eq_false_iff hnormal hkeys]
  -- The ends other than `null` are the leaves other than `null` and the empty objects.
  refine ⟨?_, ?_⟩
  · rintro ⟨hcontained, habsent⟩
    refine ⟨fun keys value hget hleaf hnull => ?_, habsent, fun keys hget => ?_⟩
    · refine hcontained keys value hget (isEnd_of_isObject_eq_false hleaf) ?_
      rintro rfl
      simp [isNull] at hnull
    · obtain ⟨found, hfound, hcontains⟩ := hcontained keys _ hget rfl (by simp)
      obtain ⟨inner, rfl⟩ := contains_obj_nil_iff.1 hcontains
      exact ⟨inner, hfound⟩
  · rintro ⟨hcontained, habsent, hobject⟩
    refine ⟨fun keys value hget hend hnull => ?_, habsent⟩
    -- An end is an empty object or a leaf.
    cases value with
    | null => exact absurd rfl hnull
    | obj fields =>
      obtain rfl : fields = [] := by simpa [isEnd] using hend
      obtain ⟨inner, hinner⟩ := hobject keys hget
      exact ⟨.obj inner, hinner, contains_obj_nil_iff.2 ⟨inner, rfl⟩⟩
    | _ => exact hcontained keys _ hget rfl rfl

/-- A filter with leaves of all kinds at two depths, and parameters that meet it. -/
theorem meets_nested :
    Meets [("a", .obj [("b", .num (.int 1)), ("c", .null)]), ("d", .obj [])]
      [("a", .obj [("b", .arr [.num (.int 1)])]), ("d", .obj [("c", .null)])] := by
  let run : Run :=
    ⟨"run", ⟨⟨2024, 3, 1, by decide⟩, 0, 0, by decide⟩,
      [("a", .obj [("b", .arr [.num (.int 1)])]), ("d", .obj [("c", .null)])]⟩
  -- The filter compiles to a pattern, a clause and an excluded path.
  have hcompile : compile [("a", .obj [("b", .num (.int 1)), ("c", .null)]), ("d", .obj [])] =
      .ok ⟨[("a", .obj [("b", .num (.int 1))]), ("d", .obj [])],
        [⟨"a.b", ["a", "b"], .num (.int 1)⟩], ["a.c"]⟩ := by cbv
  refine (contains_and_not_isExcluded_iff ?_ hcompile run).1 ⟨?_, ?_⟩
  · simp [Json.Normal, NormalFields, Fields.Ascending]
    decide
  · rw [contains]
    simp [run, containsFields, Json.contains, containsScalar, sameScalar]
  · cbv

end BenchCharts.CompiledFilter

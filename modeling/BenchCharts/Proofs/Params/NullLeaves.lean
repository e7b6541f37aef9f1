import BenchCharts.Proofs.Params.Containment

/-!
# Null leaves

The leaves of an object are shared out between two passes: what `dropNulls` leaves of the object has
the leaves other than `null`, and `nullPaths` lists the paths of the others, both in the order of
the members (`leavesBelow_dropNulls`, `nullPathsBelow_eq`). Nothing has to be known about the keys
for this, and several leaves may have one path.

An object without `null` leaves is left as it is (`dropNulls_eq_self`), so there is nothing more to
drop the second time.

Which objects are left is a matter of what is in them. One of them lasts (`Lasts`) if there is an
end other than `null` at it or below it. Then something is left of it, and else nothing is
(`isSome_kept?_iff_lasts`): ends are the values of which there is left all or nothing, and what is
left of the object is found on the way to them.
-/

namespace BenchCharts.Json

/-- There is something in a value that dropping `null` leaves does not take away: a leaf other than
`null`, or an object that was empty from the beginning. The value itself may be one of these. -/
def Lasts (j : Json) : Prop :=
  ∃ keys value, j.getKeys? keys = some value ∧
    (value.isObject = false ∧ value.isNull = false ∨ value = .obj [])

theorem isEnd_and_ne_null_iff {value : Json} :
    value.isEnd = true ∧ value ≠ .null ↔
      value.isObject = false ∧ value.isNull = false ∨ value = .obj [] := by
  cases value <;> simp [isEnd, isObject, isNull]

/-- Every value has an end in it, if only itself. -/
theorem exists_end (j : Json) :
    ∃ keys value, j.getKeys? keys = some value ∧ value.isEnd = true := by
  by_cases hend : j.isEnd = true
  · exact ⟨[], j, getKeys?_nil j, hend⟩
  · cases j with
    | obj fields =>
      have hne : fields ≠ [] := by
        rintro rfl
        exact hend rfl
      obtain ⟨keys, value, hget, hvalue⟩ := Fields.exists_end hne
      exact ⟨keys, value, (Fields.getKeys?_eq_some_iff.1 hget).2, hvalue⟩
    | _ => exact absurd rfl hend

namespace Fields

variable {fields : Fields}

/-! ### The leaves that are left -/

/-- **The leaves that are left** are those other than `null`. -/
theorem leavesBelow_dropNulls (outer : String) (fields : Fields) :
    fields.dropNulls.leavesBelow outer =
      (fields.leavesBelow outer).filter fun leaf => !leaf.2.isNull := by
  induction fields using nestedInduction generalizing outer with
  | nil => simp
  | leaf name value rest hleaf ih =>
    rw [dropNulls_cons, kept?_leaf hleaf, leavesBelow_leaf _ _ _ hleaf]
    -- A leaf other than `null` stays with its path.
    cases hnull : value.isNull with
    | true => simp [ih, hnull]
    | false => simp [ih, hnull, leavesBelow_leaf _ _ _ hleaf]
  | object name inner rest ihinner ihrest =>
    rw [dropNulls_cons, leavesBelow_object, List.filter_append, ← ihinner, ← ihrest]
    cases hkept : kept? (.obj inner) with
    | none =>
      -- The object goes because no members are left, and then no leaves are.
      rw [(kept?_obj_eq_none_iff.1 hkept).1]
      simp
    | some left =>
      obtain ⟨-, rfl⟩ := kept?_obj_eq_some_iff.1 hkept
      exact leavesBelow_object ..

/-- Where no leaf is `null` there is nothing to drop. -/
theorem dropNulls_eq_self (outer : String)
    (h : ∀ leaf ∈ fields.leavesBelow outer, leaf.2.isNull = false) : fields.dropNulls = fields := by
  induction fields using nestedInduction generalizing outer with
  | nil => simp
  | leaf name value rest hleaf ih =>
    rw [leavesBelow_leaf _ _ _ hleaf] at h
    obtain ⟨hnull, hrest⟩ := List.forall_mem_cons.1 h
    have hkept : kept? value = some value := by rw [kept?_leaf hleaf, if_neg (by simp [hnull])]
    rw [dropNulls_cons, hkept, ih outer hrest]
    rfl
  | object name inner rest ihinner ihrest =>
    rw [leavesBelow_object] at h
    obtain ⟨hinner, hrest⟩ := List.forall_mem_append.1 h
    have hsame := ihinner _ hinner
    have hkept : kept? (.obj inner) = some (.obj inner) :=
      kept?_obj_eq_some_iff.2 ⟨fun hempty => by rwa [hsame] at hempty, by rw [hsame]⟩
    rw [dropNulls_cons, hkept, ihrest outer hrest]
    rfl

/-- No leaf that is left is `null`. -/
theorem isNull_eq_false_of_mem_leaves_dropNulls {leaf : String × Json}
    (hleaf : leaf ∈ fields.dropNulls.leaves) : leaf.2.isNull = false := by
  rw [leaves, leavesBelow_dropNulls] at hleaf
  simpa using (List.mem_filter.1 hleaf).2

/-! ### The objects that are left -/

/-- **Something is left of a value exactly if it lasts.** -/
theorem isSome_kept?_iff_lasts {j : Json} (hnormal : j.Normal) :
    (kept? j).isSome = true ↔ j.Lasts := by
  simp only [Lasts, ← isEnd_and_ne_null_iff]
  constructor
  · intro hsome
    obtain ⟨left, hleft⟩ := Option.isSome_iff_exists.1 hsome
    -- An end of what is left was there before, at the same keys.
    obtain ⟨keys, value, hget, hend⟩ := left.exists_end
    have hvalue := bind_getKeys?_kept? hnormal keys
    rw [hleft, Option.bind_some, hget] at hvalue
    obtain ⟨found, hfound, hkept⟩ := Option.bind_eq_some_iff.1 hvalue.symm
    obtain ⟨rfl, hnull⟩ := (kept?_eq_some_iff_of_isEnd hend).1 hkept
    exact ⟨keys, found, hfound, hend, hnull⟩
  · rintro ⟨keys, value, hget, hend, hnull⟩
    -- An end other than `null` is left, and something leads to it.
    have hvalue := bind_getKeys?_kept? hnormal keys
    rw [hget, Option.bind_some, (kept?_eq_some_iff_of_isEnd hend).2 ⟨rfl, hnull⟩] at hvalue
    obtain ⟨left, hleft, -⟩ := Option.bind_eq_some_iff.1 hvalue
    exact Option.isSome_iff_exists.2 ⟨left, hleft⟩

theorem kept?_obj_eq_none_iff_not_lasts (hnormal : (Json.obj fields).Normal) :
    kept? (.obj fields) = none ↔ ¬ (Json.obj fields).Lasts := by
  rw [← isSome_kept?_iff_lasts hnormal, Option.not_isSome_iff_eq_none]

theorem kept?_obj_eq_some_iff_lasts (hnormal : (Json.obj fields).Normal) :
    kept? (.obj fields) = some (.obj fields.dropNulls) ↔ (Json.obj fields).Lasts := by
  rw [← isSome_kept?_iff_lasts hnormal, Option.isSome_iff_exists]
  constructor
  · exact fun hkept => ⟨_, hkept⟩
  · rintro ⟨left, hleft⟩
    obtain ⟨-, rfl⟩ := kept?_obj_eq_some_iff.1 hleft
    exact hleft

/-- **What becomes of an object when its `null` leaves are dropped.** It has the other leaves as
before, and the paths of those that are gone are the null paths, each in the order in which they
were. Dropping them again changes nothing. An object in it stays, as what is left of it, exactly if
it has in it, or is, a leaf other than `null` or an object that was empty before. The object as a
whole is never taken away, but it loses the last of its members exactly if there is nothing of this
kind in it. -/
theorem dropNulls_takes_null_leaves (hnormal : (Json.obj fields).Normal) :
    fields.dropNulls.leaves = fields.leaves.filter (fun leaf => !leaf.2.isNull) ∧
      fields.nullPaths = (fields.leaves.filter fun leaf => leaf.2.isNull).map Prod.fst ∧
      fields.dropNulls.dropNulls = fields.dropNulls ∧
      (∀ keys (inner : Fields), fields.getKeys? keys = some (.obj inner) →
        (fields.dropNulls.getKeys? keys = some (.obj inner.dropNulls) ↔ (Json.obj inner).Lasts) ∧
        (fields.dropNulls.getKeys? keys = none ↔ ¬ (Json.obj inner).Lasts)) ∧
      (fields.dropNulls = [] ∧ fields ≠ [] ↔ ¬ (Json.obj fields).Lasts) := by
  refine ⟨leavesBelow_dropNulls "" fields, nullPathsBelow_eq "" fields,
    dropNulls_eq_self "" fun leaf => isNull_eq_false_of_mem_leaves_dropNulls, ?_, ?_⟩
  -- What becomes of an object inside is what is kept of it as a value.
  · intro keys inner hget
    have hinner : (Json.obj inner).Normal := hnormal.getKeys? (getKeys?_eq_some_iff.1 hget).2
    rw [getKeys?_dropNulls hnormal, hget, Option.bind_some]
    exact ⟨kept?_obj_eq_some_iff_lasts hinner, kept?_obj_eq_none_iff_not_lasts hinner⟩
  · rw [← kept?_obj_eq_none_iff, kept?_obj_eq_none_iff_not_lasts hnormal]

/-- An empty key and one with a point, an object with nothing but `null` at two depths, one that is
kept by an empty object, and an array with `null` in it. -/
theorem dropNulls_takes_null_leaves_nested :
    let fields : Fields :=
      [("", .obj [("a", .null), ("b.c", .bool true)]),
        ("d", .obj [("e", .null), ("f", .obj [("g", .null)])]),
        ("h", .obj [("i", .obj []), ("j", .null)]), ("k", .arr [.null])]
    (Json.obj fields).Normal ∧
      fields.dropNulls.leaves = [("b.c", .bool true), ("k", .arr [.null])] ∧
      fields.nullPaths = ["a", "d.e", "d.f.g", "h.j"] ∧
      fields.dropNulls.dropNulls = fields.dropNulls ∧
      fields.dropNulls.getKeys? ["h"] = some (.obj [("i", .obj [])]) ∧
      ¬ (Json.obj [("e", .null), ("f", .obj [("g", .null)])]).Lasts ∧ fields.dropNulls ≠ [] := by
  intro fields
  have hnormal : (Json.obj fields).Normal := by
    simp only [fields, Normal, NormalItems, NormalFields, Ascending, and_true, true_and]
    decide
  obtain ⟨hleaves, hpaths, htwice, hobjects, hwhole⟩ := dropNulls_takes_null_leaves hnormal
  have hall : fields.leaves = [("a", .null), ("b.c", .bool true), ("d.e", .null), ("d.f.g", .null),
      ("h.j", .null), ("k", .arr [.null])] := by cbv
  have hleft : fields.dropNulls = [("", .obj [("b.c", .bool true)]), ("h", .obj [("i", .obj [])]),
      ("k", .arr [.null])] := by cbv
  have hinner : Fields.dropNulls [("i", .obj []), ("j", .null)] = [("i", .obj [])] := by cbv
  refine ⟨hnormal, hleaves.trans ?_, hpaths.trans ?_, htwice, ?_, ?_, fun hempty => ?_⟩
  · rw [hall]
    rfl
  · rw [hall]
    rfl
  · rw [(hobjects ["h"] _ rfl).1.2 ⟨["i"], .obj [], rfl, .inr rfl⟩, hinner]
  · refine (hobjects ["d"] _ rfl).2.1 ?_
    rw [hleft]
    rfl
  · exact hwhole.1 ⟨hempty, by simp [fields]⟩ ⟨["k"], .arr [.null], rfl, .inl ⟨rfl, rfl⟩⟩

end Fields

end BenchCharts.Json

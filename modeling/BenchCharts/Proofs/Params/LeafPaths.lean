import BenchCharts.Proofs.Params.Leaves

/-!
# The paths of leaves

The pass over the leaves makes up their paths by joining keys, and looking up a path cuts it at its
points. On an accepted object each undoes the other, since no key there is empty or has a point in
it. So the leaves list what can be looked up, each path once (`leaves_enumerate_at?`).

That no path is there twice comes down to one thing: members other than the one with a name have no
leaf whose path goes on by that name (`exists_get?_of_mem_leavesBelow`).
-/

namespace BenchCharts

namespace FieldPath

/-- A path is put together again from its keys. -/
@[simp] theorem ofKeys_keys (path : String) : ofKeys (keys path) = path := by
  have hpieces : (keys path).map String.toList = Text.splitChars (· == '.') path.toList := by
    simp [keys, Text.split, List.map_map, Function.comp_def]
  apply String.toList_injective
  rw [ofKeys, Text.join, hpieces, String.toList_ofList]
  exact Text.joinChars_splitChars '.' path.toList

/-- Lists of keys without points have paths of their own. -/
theorem ofKeys_inj {first second : List String} (hfirst : first ≠ []) (hsecond : second ≠ [])
    (hdot : ∀ key ∈ first, '.' ∉ key.toList) (hdot' : ∀ key ∈ second, '.' ∉ key.toList)
    (h : ofKeys first = ofKeys second) : first = second := by
  rw [← keys_ofKeys hfirst hdot, h, keys_ofKeys hsecond hdot']

end FieldPath

namespace Json.Fields

open FieldPath (ofKeys)

variable {fields : Fields} {outer : List String}

section Addressable

variable {keys : List String} (h : ∀ key ∈ keys, addressableKey key = true)

include h

theorem ne_empty_of_addressable : ∀ key ∈ keys, key ≠ "" := fun key hkey =>
  (addressableKey_iff.1 (h key hkey)).1

theorem not_mem_point_of_addressable : ∀ key ∈ keys, '.' ∉ key.toList := fun key hkey =>
  (addressableKey_iff.1 (h key hkey)).2.1

end Addressable

/-! ### No path is there twice -/

/-- A leaf whose path goes on by a name is in the member with that name. -/
theorem exists_get?_of_mem_leavesBelow (hnormal : (Json.obj fields).Normal)
    (hkeys : fields.checkKeys = .ok ()) (houter : ∀ key ∈ outer, addressableKey key = true)
    {name : String} {more : List String}
    (hmore : ∀ key ∈ name :: more, addressableKey key = true)
    (hmem : ofKeys (outer ++ name :: more) ∈ (fields.leavesBelow (ofKeys outer)).map Prod.fst) :
    ∃ found, fields.get? name = some found := by
  obtain ⟨⟨path, value⟩, hleaf, hpath⟩ := List.mem_map.1 hmem
  rw [mem_leavesBelow_iff hnormal hkeys (ne_empty_of_addressable houter)] at hleaf
  obtain ⟨-, keys, hget, rfl⟩ := hleaf
  have haddr : ∀ key ∈ outer ++ keys, addressableKey key = true :=
    List.forall_mem_append.2 ⟨houter, addressableKey_of_getKeys? hkeys hget⟩
  have haddr' : ∀ key ∈ outer ++ name :: more, addressableKey key = true :=
    List.forall_mem_append.2 ⟨houter, hmore⟩
  have hne : outer ++ keys ≠ [] := by simp [(getKeys?_eq_some_iff.1 hget).1]
  -- The two paths are cut into the same keys.
  have hsame := FieldPath.ofKeys_inj hne (by simp) (not_mem_point_of_addressable haddr)
    (not_mem_point_of_addressable haddr') hpath
  rw [List.append_cancel_left hsame] at hget
  obtain ⟨found, hfound, -⟩ := getKeys?_cons_eq_some_iff.1 hget
  exact ⟨found, hfound⟩

/-- The leaves below a list of keys have different paths. -/
theorem nodup_leavesBelow (hnormal : (Json.obj fields).Normal) (hkeys : fields.checkKeys = .ok ())
    (houter : ∀ key ∈ outer, addressableKey key = true) :
    ((fields.leavesBelow (ofKeys outer)).map Prod.fst).Nodup := by
  induction fields using nestedInduction generalizing outer with
  | nil => simp
  | leaf name first rest hleaf ih =>
    obtain ⟨hname, -, hrest⟩ := checkKeys_cons_eq_ok_iff.1 hkeys
    rw [leavesBelow_leaf _ _ _ hleaf, FieldPath.join_ofKeys (ne_empty_of_addressable houter),
      List.map_cons, List.nodup_cons]
    refine ⟨fun hmem => ?_, ih hnormal.tail hrest houter⟩
    -- The path of this leaf would go on by its name among the others.
    obtain ⟨found, hfound⟩ := exists_get?_of_mem_leavesBelow hnormal.tail hrest houter
      (List.forall_mem_singleton.2 hname) hmem
    rw [hnormal.get?_tail_eq_none] at hfound
    cases hfound
  | object name inner rest ihinner ihrest =>
    obtain ⟨hname, hinner, hrest⟩ := checkKeys_cons_eq_ok_iff.1 hkeys
    have hinner := hinner inner rfl
    have hnext : ∀ key ∈ outer ++ [name], addressableKey key = true :=
      List.forall_mem_append.2 ⟨houter, List.forall_mem_singleton.2 hname⟩
    rw [leavesBelow_object, FieldPath.join_ofKeys (ne_empty_of_addressable houter),
      List.map_append, List.nodup_append]
    refine ⟨ihinner hnormal.head hinner hnext, ihrest hnormal.tail hrest houter, ?_⟩
    rintro path hbelow _ hbeside rfl
    -- A path that is in both parts goes on by the name, and nothing in the rest does.
    obtain ⟨⟨path, value⟩, hmem, rfl⟩ := List.mem_map.1 hbelow
    rw [mem_leavesBelow_iff hnormal.head hinner (ne_empty_of_addressable hnext)] at hmem
    obtain ⟨-, keys, hget, rfl⟩ := hmem
    rw [List.append_assoc, List.singleton_append] at hbeside
    obtain ⟨found, hfound⟩ := exists_get?_of_mem_leavesBelow hnormal.tail hrest houter
      (List.forall_mem_cons.2 ⟨hname, addressableKey_of_getKeys? hinner hget⟩) hbeside
    rw [hnormal.get?_tail_eq_none] at hfound
    cases hfound

/-- The leaves of an accepted object have different paths. -/
theorem nodup_leaves (hnormal : (Json.obj fields).Normal) (hkeys : fields.checkKeys = .ok ()) :
    (fields.leaves.map Prod.fst).Nodup := by
  have hnone : ∀ key ∈ ([] : List String), addressableKey key = true := by simp
  exact nodup_leavesBelow hnormal hkeys hnone

/-! ### Looking up a leaf -/

/-- **The leaves of an accepted object** are what can be looked up in it and is no object, each path
once. -/
theorem leaves_enumerate_at? (hnormal : (Json.obj fields).Normal)
    (hkeys : fields.checkKeys = .ok ()) :
    (fields.leaves.map Prod.fst).Nodup ∧
      ∀ path value, (path, value) ∈ fields.leaves ↔
        value.isObject = false ∧ fields.at? path = some value := by
  refine ⟨nodup_leaves hnormal hkeys, fun path value => ?_⟩
  rw [mem_leaves_iff hnormal hkeys]
  -- Keys of a leaf are found at their path, and what is found at a path is at its keys.
  refine and_congr_right fun _ => ⟨?_, fun hat => ?_⟩
  · rintro ⟨keys, hget, rfl⟩
    rw [at?_ofKeys fields (getKeys?_eq_some_iff.1 hget).1 (addressableKey_of_getKeys? hkeys hget),
      hget]
  · exact ⟨FieldPath.keys path, by rw [← at?_eq_getKeys?, hat], (FieldPath.ofKeys_keys path).symm⟩

/-- Leaves at three depths, an array with an object in it, and an empty object. -/
theorem leaves_enumerate_at?_nested :
    let fields : Fields :=
      [("a", .obj [("b", .obj [("c", .null)]), ("bc", .arr [.obj [("d", .null)]])]), ("e", .obj [])]
    (Json.obj fields).Normal ∧ fields.checkKeys = .ok () ∧ (fields.leaves.map Prod.fst).Nodup ∧
      ("a.b.c", .null) ∈ fields.leaves ∧ ("a.bc.d", .null) ∉ fields.leaves ∧
      ("e", .obj []) ∉ fields.leaves := by
  intro fields
  have hnormal : (Json.obj fields).Normal := by
    simp only [fields, Normal, NormalItems, NormalFields, Ascending, and_true, true_and]
    decide
  have hkeys : fields.checkKeys = .ok () := by cbv
  obtain ⟨hnodup, hmem⟩ := leaves_enumerate_at? hnormal hkeys
  have hinside : fields.at? "a.bc.d" = none := rfl
  refine ⟨hnormal, hkeys, hnodup, (hmem _ _).2 ⟨rfl, rfl⟩, fun hleaf => ?_, fun hleaf => ?_⟩
  · have hat := ((hmem _ _).1 hleaf).2
    rw [hinside] at hat
    cases hat
  · exact Bool.noConfusion ((hmem _ _).1 hleaf).1

end Json.Fields

end BenchCharts

import BenchCharts.Json.Codec
import BenchCharts.Json.Reread
import BenchCharts.Proofs.Json.Normal
import BenchCharts.Proofs.Outcome

/-!
# How deep values are

A value that is read is no deeper than the reader goes (`depth_le_of_readBy?`), and none of its
parts is: not the value of a field, and not an object that is put in order (`depth_le_of_map?`).
-/

namespace BenchCharts.Json

theorem depthOfItems_le_iff {items : List Json} {n : Nat} :
    depthOfItems items ≤ n ↔ ∀ item ∈ items, item.depth ≤ n := by
  induction items with
  | nil => simp [depthOfItems]
  | cons item rest ih => rw [depthOfItems, Nat.max_le, ih, List.forall_mem_cons]

theorem depthOfFields_le_iff {fields : Fields} {n : Nat} :
    depthOfFields fields ≤ n ↔ ∀ member ∈ fields, member.2.depth ≤ n := by
  induction fields with
  | nil => simp [depthOfFields]
  | cons member rest ih => rw [depthOfFields, Nat.max_le, ih, List.forall_mem_cons]

theorem depth_ofList_le {α : Type} {encode : α → Json} {items : List α} {n : Nat}
    (h : ∀ a ∈ items, (encode a).depth ≤ n) : (ofList encode items).depth ≤ n + 1 :=
  Nat.succ_le_succ (depthOfItems_le_iff.2 (List.forall_mem_map.2 h))

theorem depth_obj_le {fields : Fields} {n : Nat} (h : ∀ member ∈ fields, member.2.depth ≤ n) :
    (obj fields).depth ≤ n + 1 := Nat.succ_le_succ (depthOfFields_le_iff.2 h)

/-! ### What is read -/

namespace Reader

/-- What values, items and members that are read with some fuel are no deeper than. -/
structure Bounded (rules : Rules) (fuel : Nat) : Prop where
  /-- A value. -/
  value : ∀ {depth cs j rest}, value? rules fuel depth cs = some (j, rest) → j.depth ≤ depth
  /-- Items. -/
  items : ∀ {depth cs items rest}, items? rules fuel depth cs = some (items, rest) →
    depthOfItems items ≤ depth
  /-- Members. -/
  members : ∀ {depth cs fields rest}, members? rules fuel depth cs = some (fields, rest) →
    depthOfFields fields ≤ depth

theorem Bounded.value_succ {rules : Rules} {fuel depth : Nat} {cs rest : List Char} {j : Json}
    (ih : Bounded rules fuel) (h : value? rules (fuel + 1) depth cs = some (j, rest)) :
    j.depth ≤ depth := by
  rw [value?] at h
  split at h
  -- A container needs a level of depth for itself; its parts are read with one less.
  · split at h
    · cases h
    · split at h
      · cases h
        exact Nat.le_add_left 1 _
      · obtain ⟨⟨fields, after⟩, hfields, heq⟩ := Option.map_eq_some_iff.1 h
        cases heq
        exact Nat.succ_le_succ (ih.members hfields)
  · split at h
    · cases h
    · split at h
      · cases h
        exact Nat.le_add_left 1 _
      · obtain ⟨⟨items, after⟩, hitems, heq⟩ := Option.map_eq_some_iff.1 h
        cases heq
        exact Nat.succ_le_succ (ih.items hitems)
  -- Everything else has no parts.
  all_goals
    obtain ⟨_, -, heq⟩ := Option.map_eq_some_iff.1 h
    cases heq
    exact Nat.zero_le _

theorem Bounded.items_succ {rules : Rules} {fuel depth : Nat} {cs rest : List Char}
    {items : List Json} (ih : Bounded rules fuel)
    (h : items? rules (fuel + 1) depth cs = some (items, rest)) : depthOfItems items ≤ depth := by
  rw [items?] at h
  obtain ⟨⟨item, after⟩, hitem, h⟩ := Option.bind_eq_some_iff.1 h
  have hbound := ih.value hitem
  dsimp only at h
  split at h
  -- After a comma there are more items.
  · obtain ⟨⟨more, after⟩, hmore, heq⟩ := Option.bind_eq_some_iff.1 h
    cases heq
    exact Nat.max_le.2 ⟨hbound, ih.items hmore⟩
  · cases h
    exact Nat.max_le.2 ⟨hbound, Nat.zero_le _⟩
  · cases h

theorem Bounded.members_succ {rules : Rules} {fuel depth : Nat} {cs rest : List Char}
    {fields : Fields} (ih : Bounded rules fuel)
    (h : members? rules (fuel + 1) depth cs = some (fields, rest)) :
    depthOfFields fields ≤ depth := by
  rw [members?] at h
  -- Key and colon are read on the way to the value.
  obtain ⟨_, -, h⟩ := Option.bind_eq_some_iff.1 h
  obtain ⟨⟨key, _⟩, -, h⟩ := Option.bind_eq_some_iff.1 h
  obtain ⟨_, -, h⟩ := Option.bind_eq_some_iff.1 h
  obtain ⟨⟨value, after⟩, hvalue, h⟩ := Option.bind_eq_some_iff.1 h
  have hbound := ih.value hvalue
  dsimp only at h
  split at h
  · obtain ⟨⟨more, after⟩, hmore, heq⟩ := Option.bind_eq_some_iff.1 h
    cases heq
    exact Nat.max_le.2 ⟨hbound, ih.members hmore⟩
  · cases h
    exact Nat.max_le.2 ⟨hbound, Nat.zero_le _⟩
  · cases h

/-- **The reader goes no deeper than it may.** -/
theorem bounded (rules : Rules) (fuel : Nat) : Bounded rules fuel := by
  induction fuel with
  -- Without fuel nothing is read.
  | zero => exact ⟨by simp [value?], by simp [items?], by simp [members?]⟩
  | succ fuel ih => exact ⟨ih.value_succ, ih.items_succ, ih.members_succ⟩

end Reader

/-- A value of any shape that is read of a text is no deeper than the reader goes. -/
theorem depth_le_of_readBy? {rule : Reader.DecimalRule} {depth : Nat} {s : String} {j : Json}
    (h : readBy? rule depth .any s = some j) : j.depth ≤ depth := by
  obtain ⟨⟨value, rest⟩, hvalue, h⟩ := Option.bind_eq_some_iff.1 h
  dsimp only at h
  -- What comes after the value has to be blank.
  split at h
  · cases h
    exact (Reader.bounded _ _).value hvalue
  · cases h

/-! ### Parts -/

/-- The value of a field is less deep than the record. -/
theorem depth_lt_of_record? {j : Json} {names : List String} {fields : List (Option Json)}
    (h : j.record? names = some fields) {value : Json} (hvalue : some value ∈ fields) :
    value.depth < j.depth := by
  cases j with
  | obj given =>
    -- The fields of a record are found by name, or are the items of a list.
    have hfields : names.map (field? given) = fields.map some := mapM_eq_some_iff.1 h
    have hmem : some (some value) ∈ names.map (field? given) :=
      hfields ▸ List.mem_map_of_mem hvalue
    obtain ⟨name, -, hname⟩ := List.mem_map.1 hmem
    rw [field?] at hname
    split at hname
    · cases hname
    · next key found hfilter =>
      cases hname
      have hmember : (key, value) ∈ given.filter (·.1 == name) := by simp [hfilter]
      exact Nat.lt_succ_of_le
        (depthOfFields_le_iff.1 (Nat.le_refl _) _ (List.mem_filter.1 hmember).1)
    · cases hname
  | arr items =>
    rw [record?] at h
    split at h
    · cases h
      have hitem : value ∈ items := by simpa using hvalue
      exact Nat.lt_succ_of_le (depthOfItems_le_iff.1 (Nat.le_refl _) _ hitem)
    · cases h
  | _ => cases h

/-- Putting keys in order makes nothing deeper. -/
theorem depth_normalize_le (j : Json) : j.normalize.depth ≤ j.depth := by
  induction j using deepInduction with
  | atom j harr hobj =>
    cases j with
    | arr items => cases harr
    | obj fields => cases hobj
    | _ => exact Nat.le_refl _
  | arr items ih =>
    refine Nat.succ_le_succ (depthOfItems_le_iff.2 fun item hitem => ?_)
    rw [normalizeItems_eq_map] at hitem
    obtain ⟨given, hgiven, rfl⟩ := List.mem_map.1 hitem
    exact Nat.le_trans (ih given hgiven) (depthOfItems_le_iff.1 (Nat.le_refl _) given hgiven)
  | obj fields ih =>
    refine Nat.succ_le_succ (depthOfFields_le_iff.2 fun member hmember => ?_)
    -- Sorting members adds none, so each is one that was there.
    have hnormalized := Fields.mem_of_mem_sort hmember
    rw [normalizeFields_eq_map] at hnormalized
    obtain ⟨given, hgiven, rfl⟩ := List.mem_map.1 hnormalized
    exact Nat.le_trans (ih given hgiven) (depthOfFields_le_iff.1 (Nat.le_refl _) given hgiven)

/-- An object that is read is no deeper than the value that it is read from. -/
theorem depth_le_of_map? {j : Json} {fields : Fields} (h : j.map? = some fields) :
    (obj fields).depth ≤ j.depth := by
  cases j with
  | obj given =>
    cases h
    exact depth_normalize_le (.obj given)
  | _ => simp [map?] at h

end BenchCharts.Json

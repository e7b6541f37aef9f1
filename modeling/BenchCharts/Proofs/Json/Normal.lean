import BenchCharts.Json.Codec
import BenchCharts.Params.Path

/-!
# Normal objects

In a normal object the keys ascend at every depth, so that no key is there twice: no other member
has the key of the first one (`Normal.get?_tail_eq_none`). Objects that are read from JSON are
normal (`map?_normal`), normal objects are read as they are (`map?_of_normal`), and every value in a
normal object is normal (`Normal.get?`).

`Fields.nestedInduction` is the induction that fits the passes over objects: they go into the
objects among the members, but not into arrays. `deepInduction` goes into both.
-/

namespace BenchCharts.Json

namespace Fields

/-- Induction over the members of an object and of the objects in it. -/
@[elab_as_elim]
theorem nestedInduction {motive : Fields → Prop} (nil : motive [])
    (leaf : ∀ key value rest, value.isObject = false → motive rest → motive ((key, value) :: rest))
    (object : ∀ key inner rest, motive inner → motive rest → motive ((key, .obj inner) :: rest)) :
    ∀ fields, motive fields
  | [] => nil
  | (key, value) :: rest => by
    have ih := nestedInduction nil leaf object rest
    cases value with
    | obj inner => exact object key inner rest (nestedInduction nil leaf object inner) ih
    | _ => exact leaf key _ rest rfl ih

/-! ### Looking up a key -/

@[simp] theorem get?_nil (key : String) : get? [] key = none := rfl

@[simp] theorem get?_cons (name key : String) (value : Json) (rest : Fields) :
    get? ((name, value) :: rest) key = if name = key then some value else get? rest key := by
  rw [get?, get?, List.lookup_cons]
  by_cases h : name = key
  · subst h
    simp
  · have hne : (key == name) = false := beq_eq_false_iff_ne.2 fun heq => h heq.symm
    rw [hne, if_neg h]

/-- What a look-up finds is a member. -/
theorem mem_of_get?_eq_some {fields : Fields} {key : String} {value : Json}
    (h : fields.get? key = some value) : (key, value) ∈ fields := by
  induction fields with
  | nil => simp at h
  | cons member rest ih =>
    obtain ⟨name, first⟩ := member
    rw [get?_cons] at h
    -- It is the first member, or it is found in the rest.
    split at h
    · next heq =>
      cases h
      exact heq ▸ List.mem_cons_self ..
    · exact List.mem_cons_of_mem _ (ih h)

/-- In an ascending object the first key comes before all others. -/
theorem ascending_cons {name : String} {value : Json} {rest : Fields} :
    Ascending ((name, value) :: rest) ↔
      (∀ key ∈ rest.map Prod.fst, compare name key = .lt) ∧ Ascending rest := by
  rw [Ascending, List.map_cons, List.pairwise_cons, Ascending]

/-- The member with a key is what a look-up of the key finds, if the keys ascend. -/
theorem get?_of_mem {fields : Fields} (hasc : fields.Ascending) {key : String}
    {value : Json} (hmem : (key, value) ∈ fields) : fields.get? key = some value := by
  induction fields with
  | nil => cases hmem
  | cons member rest ih =>
    obtain ⟨name, first⟩ := member
    obtain ⟨hlt, hrest⟩ := ascending_cons.1 hasc
    rw [get?_cons]
    rcases List.mem_cons.1 hmem with heq | hmem
    · cases heq
      rw [if_pos rfl]
    -- A later member has another key than the first one, since keys ascend.
    · have hbefore : compare name key = .lt := hlt key (List.mem_map_of_mem hmem)
      have hne : name ≠ key := by
        rintro rfl
        rw [Std.ReflOrd.compare_self] at hbefore
        cases hbefore
      rw [if_neg hne, ih hrest hmem]

end Fields

/-! ### Values inside a normal value -/

/-- Induction over a value and everything in it, in arrays too. -/
@[elab_as_elim]
theorem deepInduction {motive : Json → Prop}
    (atom : ∀ j, j.isArray = false → j.isObject = false → motive j)
    (arr : ∀ items, (∀ item ∈ items, motive item) → motive (.arr items))
    (obj : ∀ fields : Fields, (∀ member ∈ fields, motive member.2) → motive (.obj fields)) :
    ∀ j, motive j
  | .arr items => arr items fun item _ => deepInduction atom arr obj item
  | .obj fields => obj fields fun member _ => deepInduction atom arr obj member.2
  | .null => atom _ rfl rfl
  | .bool _ => atom _ rfl rfl
  | .num _ => atom _ rfl rfl
  | .str _ => atom _ rfl rfl
termination_by j => j
decreasing_by
  · have hlt := List.sizeOf_lt_of_mem ‹item ∈ items›
    simp only [Json.arr.sizeOf_spec]
    omega
  · have hlt := List.sizeOf_lt_of_mem ‹member ∈ fields›
    obtain ⟨key, value⟩ := member
    simp only [Json.obj.sizeOf_spec, Prod.mk.sizeOf_spec] at *
    omega

/-- The items of a normal array are the normal values among the items. -/
theorem normalItems_iff {items : List Json} :
    NormalItems items ↔ ∀ item ∈ items, Normal item := by
  induction items with
  | nil => simp [NormalItems]
  | cons item rest ih => rw [NormalItems, ih, List.forall_mem_cons]

/-- The values of normal members are the normal values among the members. -/
theorem normalFields_iff {fields : Fields} :
    NormalFields fields ↔ ∀ member ∈ fields, Normal member.2 := by
  induction fields with
  | nil => simp [NormalFields]
  | cons member rest ih =>
    obtain ⟨name, value⟩ := member
    rw [NormalFields, ih, List.forall_mem_cons]

/-- A value in a normal object is normal. -/
theorem Normal.get? {fields : Fields} (h : (obj fields).Normal) {key : String} {value : Json}
    (hget : fields.get? key = some value) : value.Normal :=
  normalFields_iff.1 h.1 _ (Fields.mem_of_get?_eq_some hget)

/-- The members after the first of a normal object make a normal object. -/
theorem Normal.tail {member : String × Json} {rest : Fields}
    (h : (obj (member :: rest)).Normal) : (obj rest).Normal :=
  ⟨h.1.2, (Fields.ascending_cons.1 h.2).2⟩

/-- The first value of a normal object is normal. -/
theorem Normal.head {member : String × Json} {rest : Fields}
    (h : (obj (member :: rest)).Normal) : member.2.Normal := h.1.1

/-- A member in front of a normal object makes a normal object if its value is normal and its key
comes before all others. -/
theorem normal_cons_iff {name : String} {value : Json} {rest : Fields} :
    (obj ((name, value) :: rest)).Normal ↔
      value.Normal ∧ (∀ key ∈ rest.map Prod.fst, compare name key = .lt) ∧ (obj rest).Normal := by
  simp only [Normal, NormalFields, Fields.ascending_cons]
  refine ⟨?_, ?_⟩
  · rintro ⟨⟨hvalue, hrest⟩, hlt, hasc⟩
    exact ⟨hvalue, hlt, hrest, hasc⟩
  · rintro ⟨hvalue, hlt, hrest, hasc⟩
    exact ⟨⟨hvalue, hrest⟩, hlt, hasc⟩

/-- No other member of a normal object has the key of the first one. -/
theorem Normal.get?_tail_eq_none {name : String} {value : Json} {rest : Fields}
    (h : (obj ((name, value) :: rest)).Normal) : Fields.get? rest name = none := by
  rw [Option.eq_none_iff_forall_ne_some]
  intro found hfound
  -- A member with the key would have to come after itself.
  have hlt := (Fields.ascending_cons.1 h.2).1 name
    (List.mem_map.2 ⟨_, Fields.mem_of_get?_eq_some hfound, rfl⟩)
  rw [Std.ReflOrd.compare_self] at hlt
  exact absurd hlt (by decide)

/-! ### Normalizing -/

namespace Fields

theorem mem_insert {fields : Fields} {key : String} {value : Json} {member : String × Json}
    (h : member ∈ fields.insert key value) : member = (key, value) ∨ member ∈ fields := by
  induction fields with
  | nil => simpa [insert] using h
  | cons first rest ih =>
    obtain ⟨name, other⟩ := first
    rw [insert] at h
    -- The member goes to the front, in the place of the first one, or into the rest.
    split at h
    · exact List.mem_cons.1 h
    · exact (List.mem_cons.1 h).imp_right (List.mem_cons_of_mem _)
    · rcases List.mem_cons.1 h with rfl | h
      · exact .inr (List.mem_cons_self ..)
      · exact (ih h).imp_right (List.mem_cons_of_mem _)

theorem ascending_insert {fields : Fields} (h : fields.Ascending) (key : String) (value : Json) :
    (fields.insert key value).Ascending := by
  induction fields with
  | nil => simp [insert, Ascending]
  | cons first rest ih =>
    obtain ⟨name, other⟩ := first
    have hcons := ascending_cons.1 h
    rw [insert]
    split
    -- The new key is before the first one, and so before all others.
    · next hlt =>
      refine ascending_cons.2 ⟨fun k hk => ?_, h⟩
      rcases List.mem_cons.1 hk with rfl | hk
      · exact hlt
      · exact Std.TransCmp.lt_trans hlt (hcons.1 k hk)
    -- The value of the key is replaced, and the keys are the same.
    · next heq =>
      obtain rfl := Std.LawfulEqOrd.eq_of_compare heq
      exact ascending_cons.2 hcons
    -- The new member goes into the rest, and its key is after the first one.
    · next hgt =>
      refine ascending_cons.2 ⟨fun k hk => ?_, ih hcons.2⟩
      obtain ⟨member, hmember, rfl⟩ := List.mem_map.1 hk
      rcases mem_insert hmember with rfl | hmember
      · exact Std.OrientedCmp.lt_of_gt hgt
      · exact hcons.1 _ (List.mem_map.2 ⟨_, hmember, rfl⟩)

/-- Sorting members one after the other into an ascending object keeps it ascending, and only they
are added. -/
theorem foldl_insert (fields : Fields) :
    ∀ acc : Fields, acc.Ascending →
      (fields.foldl (fun acc (key, value) => acc.insert key value) acc).Ascending ∧
        ∀ member ∈ fields.foldl (fun acc (key, value) => acc.insert key value) acc,
          member ∈ acc ∨ member ∈ fields := by
  induction fields with
  | nil => exact fun acc hacc => ⟨hacc, fun member h => .inl h⟩
  | cons first rest ih =>
    obtain ⟨key, value⟩ := first
    intro acc hacc
    obtain ⟨hasc, hmem⟩ := ih _ (ascending_insert hacc key value)
    refine ⟨hasc, fun member h => ?_⟩
    -- What is in the result was sorted in later, or just now, or was there before.
    rcases hmem member h with h | h
    · rcases mem_insert h with rfl | h
      · exact .inr (List.mem_cons_self ..)
      · exact .inl h
    · exact .inr (List.mem_cons_of_mem _ h)

theorem ascending_sort (fields : Fields) : fields.sort.Ascending :=
  (foldl_insert fields [] List.Pairwise.nil).1

theorem mem_of_mem_sort {fields : Fields} {member : String × Json} (h : member ∈ fields.sort) :
    member ∈ fields :=
  ((foldl_insert fields [] List.Pairwise.nil).2 member h).resolve_left (List.not_mem_nil)

end Fields

theorem normalizeItems_eq_map (items : List Json) : normalizeItems items = items.map normalize := by
  induction items with
  | nil => rfl
  | cons item rest ih => rw [normalizeItems, ih, List.map_cons]

theorem normalizeFields_eq_map (fields : Fields) :
    normalizeFields fields = fields.map fun member => (member.1, member.2.normalize) := by
  induction fields with
  | nil => rfl
  | cons member rest ih => rw [normalizeFields, ih, List.map_cons]

/-- A normalized value is normal. -/
theorem normal_normalize (j : Json) : j.normalize.Normal := by
  induction j using deepInduction with
  | atom j harr hobj =>
    cases j with
    | arr items => cases harr
    | obj fields => cases hobj
    | _ => trivial
  | arr items ih =>
    rw [normalize, normalizeItems_eq_map]
    refine normalItems_iff.2 fun item hitem => ?_
    obtain ⟨given, hgiven, rfl⟩ := List.mem_map.1 hitem
    exact ih given hgiven
  | obj fields ih =>
    -- Values are normalized first, and then the members are sorted.
    refine ⟨normalFields_iff.2 fun member hmember => ?_, Fields.ascending_sort _⟩
    have hnormalized := Fields.mem_of_mem_sort hmember
    rw [normalizeFields_eq_map] at hnormalized
    obtain ⟨given, hgiven, rfl⟩ := List.mem_map.1 hnormalized
    exact ih given hgiven

/-! ### Nothing is left to do -/

namespace Fields

/-- A key after all others goes to the end. -/
theorem insert_of_forall_gt {fields : Fields} {key : String} (value : Json)
    (h : ∀ name ∈ fields.map Prod.fst, compare name key = .lt) :
    fields.insert key value = fields ++ [(key, value)] := by
  induction fields with
  | nil => rfl
  | cons first rest ih =>
    obtain ⟨name, other⟩ := first
    obtain ⟨hfirst, hrest⟩ := List.forall_mem_cons.1 h
    have hgt : compare key name = .gt := Std.OrientedCmp.gt_of_lt hfirst
    rw [insert, hgt, List.cons_append, ← ih hrest]

/-- Ascending members are sorted into an object before them by writing them after it. -/
theorem foldl_insert_of_ascending (fields : Fields) :
    ∀ acc : Fields, Ascending (acc ++ fields) →
      fields.foldl (fun acc (key, value) => acc.insert key value) acc = acc ++ fields := by
  induction fields with
  | nil => exact fun acc _ => (List.append_nil acc).symm
  | cons first rest ih =>
    obtain ⟨key, value⟩ := first
    intro acc hasc
    -- The next key comes after all that are there already.
    have hbefore : ∀ name ∈ acc.map Prod.fst, compare name key = .lt := by
      intro name hname
      rw [Ascending, List.map_append, List.pairwise_append] at hasc
      exact hasc.2.2 name hname key (List.mem_cons_self ..)
    have hsplit : acc ++ (key, value) :: rest = acc ++ [(key, value)] ++ rest := by
      rw [List.append_assoc, List.singleton_append]
    rw [hsplit] at hasc ⊢
    rw [List.foldl_cons, ← ih _ hasc, ← insert_of_forall_gt value hbefore]

theorem sort_of_ascending {fields : Fields} (h : fields.Ascending) : fields.sort = fields :=
  foldl_insert_of_ascending fields [] h

end Fields

/-- A normal value is left as it is. -/
theorem normalize_of_normal {j : Json} (h : j.Normal) : j.normalize = j := by
  induction j using deepInduction with
  | atom j harr hobj =>
    cases j with
    | arr items => cases harr
    | obj fields => cases hobj
    | _ => rfl
  | arr items ih =>
    have hitems : items.map normalize = items :=
      (List.map_congr_left fun item hitem => ih item hitem (normalItems_iff.1 h item hitem)).trans
        (List.map_id items)
    rw [normalize, normalizeItems_eq_map, hitems]
  | obj fields ih =>
    -- Nothing in the values is changed, so it is left to sort members that ascend.
    have hmember : ∀ member ∈ fields, (member.1, member.2.normalize) = id member :=
      fun member hmember => Prod.ext rfl (ih member hmember (normalFields_iff.1 h.1 member hmember))
    have hfields : fields.map (fun member => (member.1, member.2.normalize)) = fields :=
      (List.map_congr_left hmember).trans (List.map_id fields)
    rw [normalize, normalizeFields_eq_map, hfields, Fields.sort_of_ascending h.2]

/-- A normal object is read as it is. -/
theorem map?_of_normal {fields : Fields} (h : (obj fields).Normal) :
    (obj fields).map? = some fields := by
  have hself : Json.obj (normalizeFields fields).sort = .obj fields := normalize_of_normal h
  rw [map?, Json.obj.inj hself]

/-- **Objects that are read from JSON are normal.** -/
theorem map?_normal {j : Json} {fields : Fields} (h : j.map? = some fields) :
    (obj fields).Normal := by
  cases j with
  | obj given =>
    cases h
    exact normal_normalize (.obj given)
  | _ => simp [map?] at h

end BenchCharts.Json

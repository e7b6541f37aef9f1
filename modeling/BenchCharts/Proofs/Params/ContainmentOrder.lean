import BenchCharts.Proofs.Params.Containment

/-!
# Containment as an order

Every value contains itself, but what contains a value need not contain everything in it. An array
contains the scalars among its items, and that rule can be used twice in a row: `[[1]]` contains
`[1]`, because the item `[1]` contains `1`, and `[1]` contains `1`. Still `[[1]]` does not contain
`1`, which is not among its own items.

This is all that goes wrong. `Json.spread` adds to each array the scalars that arrays among its
items hold. A value contains its spread (`contains_spread`), and its spread contains whatever the
value contains in two steps (`contains_of_steps`). So two steps are one step from the spread, and
they are one step from the value itself if no array is an item of an array, since then nothing is
added (`spread_of_flat`).
-/

namespace BenchCharts.Json

/-! ### Containment one level down -/

/-- Whether a value is neither an array nor an object. -/
def isAtom (j : Json) : Bool := !j.isArray && !j.isObject

theorem isAtom_iff {j : Json} : j.isAtom = true ↔ j.isArray = false ∧ j.isObject = false := by
  rw [isAtom, Bool.and_eq_true, Bool.not_eq_true', Bool.not_eq_true']

theorem sameScalar_self {j : Json} (h : j.isAtom = true) : j.sameScalar j = true := by
  cases j with
  | null => rfl
  | num n => exact Number.sameValue_refl n
  | bool b => exact beq_self_eq_true b
  | str s => exact beq_self_eq_true s
  | arr items => exact absurd h (by simp [isAtom, isArray])
  | obj fields => exact absurd h (by simp [isAtom, isObject])

theorem sameScalar_trans {a b c : Json} (hab : a.sameScalar b = true)
    (hbc : b.sameScalar c = true) : a.sameScalar c = true := by
  cases a <;> cases b <;> simp only [sameScalar, Bool.false_eq_true] at hab <;> cases c <;>
    simp only [sameScalar, Bool.false_eq_true] at hbc ⊢
  case bool.bool.bool => rw [beq_iff_eq] at *; exact hab.trans hbc
  case num.num.num => exact Number.sameValue_trans hab hbc
  case str.str.str => rw [beq_iff_eq] at *; exact hab.trans hbc

theorem isAtom_of_sameScalar {a b : Json} (h : a.sameScalar b = true) :
    a.isAtom = true ∧ b.isAtom = true := by
  cases a <;> cases b <;> first | exact ⟨rfl, rfl⟩ | simp [sameScalar] at h

/-- An atom is contained in itself and in the arrays that have it among their items. -/
theorem contains_atom_iff {whole j : Json} (h : j.isAtom = true) :
    whole.contains j = true ↔
      whole.sameScalar j = true ∨ ∃ items, whole = .arr items ∧ ∃ item ∈ items,
        item.sameScalar j = true := by
  have hcontains : whole.contains j = containsScalar whole j := by
    cases j with
    | arr items => exact absurd h (by simp [isAtom, isArray])
    | obj fields => exact absurd h (by simp [isAtom, isObject])
    | _ => rw [contains]
  rw [hcontains]
  cases whole with
  | arr items => simp [containsScalar, sameScalar]
  | _ => simp [containsScalar]

theorem containsItems_iff {whole pattern : List Json} :
    containsItems whole pattern = true ↔
      ∀ p ∈ pattern, ∃ item ∈ whole, item.contains p = true := by
  induction pattern with
  | nil => simp [containsItems]
  | cons p rest ih =>
    rw [containsItems, Bool.and_eq_true, List.any_eq_true, ih, List.forall_mem_cons]

theorem contains_arr_iff {whole : Json} {pattern : List Json} :
    whole.contains (.arr pattern) = true ↔
      ∃ items, whole = .arr items ∧ ∀ p ∈ pattern, ∃ item ∈ items, item.contains p = true := by
  rw [contains.eq_def]
  cases whole with
  | arr items => simp [containsItems_iff]
  | _ => simp

theorem containsFields_iff {whole pattern : Fields} :
    containsFields whole pattern = true ↔
      ∀ member ∈ pattern, ∃ value, whole.get? member.1 = some value ∧
        value.contains member.2 = true := by
  induction pattern with
  | nil => simp [containsFields]
  | cons member rest ih =>
    rw [Fields.containsFields_cons_iff, ih, List.forall_mem_cons]

/-- **Every value contains itself.** -/
theorem contains_self {j : Json} (h : j.Normal) : j.contains j = true := by
  induction j using deepInduction with
  | atom j harr hobj =>
    have hatom : j.isAtom = true := isAtom_iff.2 ⟨harr, hobj⟩
    exact (contains_atom_iff hatom).2 (.inl (sameScalar_self hatom))
  | arr items ih =>
    refine contains_arr_iff.2 ⟨items, rfl, fun item hitem => ⟨item, hitem, ?_⟩⟩
    exact ih item hitem (normalItems_iff.1 h item hitem)
  -- No key is there twice, so a look-up leads back to the member itself.
  | obj fields ih =>
    refine contains_obj_iff.2 ⟨fields, rfl, containsFields_iff.2 fun member hmember => ?_⟩
    refine ⟨member.2, Fields.get?_of_mem h.2 hmember, ih member hmember ?_⟩
    exact normalFields_iff.1 h.1 member hmember

/-! ### Scalars of arrays in arrays -/

/-- The atoms among the items of an array. -/
def atoms : Json → List Json
  | .arr items => items.filter isAtom
  | _ => []

mutual

/-- The value with the atoms of arrays among the items of an array added to that array, at every
depth. -/
def spread : Json → Json
  | .arr items => .arr (spreadItems items ++ items.flatMap atoms)
  | .obj fields => .obj (spreadFields fields)
  | .null => .null
  | .bool b => .bool b
  | .num n => .num n
  | .str s => .str s

def spreadItems : List Json → List Json
  | [] => []
  | item :: rest => spread item :: spreadItems rest

def spreadFields : Fields → Fields
  | [] => []
  | (key, value) :: rest => (key, spread value) :: spreadFields rest

end

theorem spreadItems_eq_map (items : List Json) : spreadItems items = items.map spread := by
  induction items with
  | nil => rfl
  | cons item rest ih => rw [spreadItems, ih, List.map_cons]

theorem spreadFields_eq_map (fields : Fields) :
    spreadFields fields = fields.map fun member => (member.1, member.2.spread) := by
  induction fields with
  | nil => rfl
  | cons member rest ih => rw [spreadFields, ih, List.map_cons]

theorem spread_atom {j : Json} (h : j.isAtom = true) : j.spread = j := by
  cases j with
  | arr items => exact absurd h (by simp [isAtom, isArray])
  | obj fields => exact absurd h (by simp [isAtom, isObject])
  | _ => rw [spread]

theorem mem_spread_arr {items : List Json} {j : Json} :
    j ∈ spreadItems items ++ items.flatMap atoms ↔
      (∃ item ∈ items, item.spread = j) ∨ ∃ item ∈ items, j ∈ item.atoms := by
  rw [List.mem_append, spreadItems_eq_map, List.mem_map, List.mem_flatMap]

theorem get?_spreadFields (fields : Fields) (key : String) :
    Fields.get? (spreadFields fields) key = (fields.get? key).map spread := by
  induction fields with
  | nil => rfl
  | cons member rest ih =>
    obtain ⟨name, value⟩ := member
    rw [spreadFields, Fields.get?_cons, Fields.get?_cons, ih]
    split <;> rfl

theorem normal_spread {j : Json} (h : j.Normal) : j.spread.Normal := by
  -- Arrays get more items, but objects keep their keys.
  induction j using deepInduction with
  | atom j harr hobj => rwa [spread_atom (isAtom_iff.2 ⟨harr, hobj⟩)]
  | arr items ih =>
    refine normalItems_iff.2 fun j hj => ?_
    rcases mem_spread_arr.1 hj with ⟨item, hitem, rfl⟩ | ⟨item, hitem, hatom⟩
    · exact ih item hitem (normalItems_iff.1 h item hitem)
    -- What is added is an atom, and atoms are normal.
    · cases item with
      | arr inner =>
        have hnormal := normalItems_iff.1 h _ hitem
        exact normalItems_iff.1 hnormal j (List.mem_filter.1 hatom).1
      | _ => cases hatom
  | obj fields ih =>
    have hkeys : (spreadFields fields).map Prod.fst = fields.map Prod.fst := by
      rw [spreadFields_eq_map, List.map_map]
      rfl
    refine ⟨normalFields_iff.2 fun member hmember => ?_, ?_⟩
    · rw [spreadFields_eq_map] at hmember
      obtain ⟨given, hgiven, rfl⟩ := List.mem_map.1 hmember
      exact ih given hgiven (normalFields_iff.1 h.1 given hgiven)
    · rw [Fields.Ascending, hkeys]
      exact h.2

/-- **A value contains its spread.** -/
theorem contains_spread {j : Json} (h : j.Normal) : j.contains j.spread = true := by
  induction j using deepInduction with
  | atom j harr hobj =>
    rw [spread_atom (isAtom_iff.2 ⟨harr, hobj⟩)]
    exact contains_self h
  | arr items ih =>
    refine contains_arr_iff.2 ⟨items, rfl, fun j hj => ?_⟩
    rcases mem_spread_arr.1 hj with ⟨item, hitem, rfl⟩ | ⟨item, hitem, hatom⟩
    · exact ⟨item, hitem, ih item hitem (normalItems_iff.1 h item hitem)⟩
    -- What is added is contained in the array that holds it.
    · refine ⟨item, hitem, ?_⟩
      cases item with
      | arr inner =>
        obtain ⟨hinner, hatom⟩ := List.mem_filter.1 hatom
        refine (contains_atom_iff hatom).2 (.inr ⟨inner, rfl, j, hinner, ?_⟩)
        exact sameScalar_self hatom
      | _ => cases hatom
  | obj fields ih =>
    refine contains_obj_iff.2 ⟨fields, rfl, containsFields_iff.2 fun member hmember => ?_⟩
    rw [spreadFields_eq_map] at hmember
    obtain ⟨given, hgiven, rfl⟩ := List.mem_map.1 hmember
    refine ⟨given.2, Fields.get?_of_mem h.2 hgiven, ih given hgiven ?_⟩
    exact normalFields_iff.1 h.1 given hgiven

theorem contains_spread_of_item {items : List Json} {item b c : Json} (hitem : item ∈ items)
    (hfirst : item.sameScalar b = true) (hsame : b.sameScalar c = true) :
    (Json.arr items).spread.contains c = true := by
  have hc : c.isAtom = true := (isAtom_of_sameScalar hsame).2
  have hmem : item ∈ spreadItems items ++ items.flatMap atoms :=
    mem_spread_arr.2 (.inl ⟨item, hitem, spread_atom (isAtom_of_sameScalar hfirst).1⟩)
  exact (contains_atom_iff hc).2 (.inr ⟨_, rfl, item, hmem, sameScalar_trans hfirst hsame⟩)

/-- **What a value contains in two steps its spread contains in one.** -/
theorem contains_of_steps {a b c : Json} (hab : a.contains b = true)
    (hbc : b.contains c = true) : a.spread.contains c = true := by
  -- Induction on the last value, which says of which kind the other two are.
  induction c using deepInduction generalizing a b with
  | atom c harr hobj =>
    have hatom : c.isAtom = true := isAtom_iff.2 ⟨harr, hobj⟩
    rcases (contains_atom_iff hatom).1 hbc with hsame | ⟨middle, rfl, d, hd, hsame⟩
    · have hb : b.isAtom = true := (isAtom_of_sameScalar hsame).1
      rcases (contains_atom_iff hb).1 hab with hfirst | ⟨items, rfl, item, hitem, hfirst⟩
      · rw [spread_atom (isAtom_of_sameScalar hfirst).1]
        exact (contains_atom_iff hatom).2 (.inl (sameScalar_trans hfirst hsame))
      · exact contains_spread_of_item hitem hfirst hsame
    -- Here the second value is an array, and one of its items is the same scalar as the third.
    · have hdatom : d.isAtom = true := (isAtom_of_sameScalar hsame).1
      obtain ⟨items, rfl, hall⟩ := contains_arr_iff.1 hab
      obtain ⟨item, hitem, hcontains⟩ := hall d hd
      rcases (contains_atom_iff hdatom).1 hcontains with hfirst | ⟨inner, rfl, x, hx, hfirst⟩
      · exact contains_spread_of_item hitem hfirst hsame
      -- An atom of an array among the items: this is what the spread adds.
      · have hxatom : x.isAtom = true := (isAtom_of_sameScalar hfirst).1
        have hmem : x ∈ (Json.arr inner).atoms := List.mem_filter.2 ⟨hx, hxatom⟩
        refine (contains_atom_iff hatom).2 (.inr ⟨_, rfl, x, ?_, sameScalar_trans hfirst hsame⟩)
        exact mem_spread_arr.2 (.inr ⟨_, hitem, hmem⟩)
  | arr pattern ih =>
    obtain ⟨middle, rfl, hmiddle⟩ := contains_arr_iff.1 hbc
    obtain ⟨items, rfl, hitems⟩ := contains_arr_iff.1 hab
    refine contains_arr_iff.2 ⟨_, rfl, fun p hp => ?_⟩
    obtain ⟨q, hq, hqp⟩ := hmiddle p hp
    obtain ⟨item, hitem, hiq⟩ := hitems q hq
    exact ⟨item.spread, mem_spread_arr.2 (.inl ⟨item, hitem, rfl⟩), ih p hp hiq hqp⟩
  | obj pattern ih =>
    obtain ⟨middle, rfl, hmiddle⟩ := contains_obj_iff.1 hbc
    obtain ⟨fields, rfl, hfields⟩ := contains_obj_iff.1 hab
    refine contains_obj_iff.2 ⟨_, rfl, containsFields_iff.2 fun member hmember => ?_⟩
    obtain ⟨q, hq, hqp⟩ := containsFields_iff.1 hmiddle member hmember
    obtain ⟨value, hvalue, hvq⟩ :=
      containsFields_iff.1 hfields _ (Fields.mem_of_get?_eq_some hq)
    refine ⟨value.spread, ?_, ih member hmember hvq hqp⟩
    rw [get?_spreadFields, hvalue, Option.map_some]

/-! ### Values without arrays in arrays -/

mutual

/-- Whether no array in the value is an item of an array. -/
def isFlat : Json → Bool
  | .arr items => areFlat items
  | .obj fields => haveFlat fields
  | .null => true
  | .bool _ => true
  | .num _ => true
  | .str _ => true

def areFlat : List Json → Bool
  | [] => true
  | item :: rest => !item.isArray && isFlat item && areFlat rest

def haveFlat : Fields → Bool
  | [] => true
  | (_, value) :: rest => isFlat value && haveFlat rest

end

theorem areFlat_iff {items : List Json} :
    areFlat items = true ↔ ∀ item ∈ items, item.isArray = false ∧ item.isFlat = true := by
  induction items with
  | nil => simp [areFlat]
  | cons item rest ih =>
    rw [areFlat, Bool.and_eq_true, Bool.and_eq_true, Bool.not_eq_true', ih, List.forall_mem_cons]

theorem haveFlat_iff {fields : Fields} :
    haveFlat fields = true ↔ ∀ member ∈ fields, member.2.isFlat = true := by
  induction fields with
  | nil => simp [haveFlat]
  | cons member rest ih => rw [haveFlat, Bool.and_eq_true, ih, List.forall_mem_cons]

/-- Nothing is added to a value without arrays in arrays. -/
theorem spread_of_isFlat {j : Json} (h : j.isFlat = true) : j.spread = j := by
  induction j using deepInduction with
  | atom j harr hobj => exact spread_atom (isAtom_iff.2 ⟨harr, hobj⟩)
  | arr items ih =>
    have hflat := areFlat_iff.1 h
    have hitems : spreadItems items = items := by
      rw [spreadItems_eq_map]
      refine Eq.trans (List.map_congr_left fun item hitem => ?_) (List.map_id items)
      exact ih item hitem (hflat item hitem).2
    -- No item is an array, so there are no atoms to be brought up from one.
    have hadded : items.flatMap atoms = [] := by
      refine List.flatMap_eq_nil_iff.2 fun item hitem => ?_
      have hitem := (hflat item hitem).1
      cases item with
      | arr inner => simp [isArray] at hitem
      | _ => rfl
    rw [spread, hitems, hadded, List.append_nil]
  | obj fields ih =>
    have hflat := haveFlat_iff.1 h
    rw [spread, spreadFields_eq_map]
    congr 1
    refine Eq.trans (List.map_congr_left fun member hmember => ?_) (List.map_id fields)
    rw [ih member hmember (hflat member hmember), id]

/-! ### Two steps -/

/-- **Containment is reflexive, and two steps of it are one step from the spread.** So a value
contains everything in all that it contains exactly if it contains everything in its spread, and a
value without arrays in arrays does. -/
theorem contains_self_and_steps {a : Json} (ha : a.Normal) :
    a.contains a = true ∧
      (∀ c, (∃ b : Json, b.Normal ∧ a.contains b = true ∧ b.contains c = true) ↔
        a.spread.contains c = true) ∧
      ((∀ b c : Json, b.Normal → c.Normal → a.contains b = true → b.contains c = true →
          a.contains c = true) ↔
        ∀ c : Json, c.Normal → a.spread.contains c = true → a.contains c = true) ∧
      (a.isFlat = true → ∀ b c : Json, a.contains b = true → b.contains c = true →
        a.contains c = true) := by
  have hsteps : ∀ c, (∃ b : Json, b.Normal ∧ a.contains b = true ∧ b.contains c = true) ↔
      a.spread.contains c = true := by
    intro c
    constructor
    · rintro ⟨b, -, hab, hbc⟩
      exact contains_of_steps hab hbc
    · intro hspread
      exact ⟨a.spread, normal_spread ha, contains_spread ha, hspread⟩
  refine ⟨contains_self ha, hsteps, ?_, ?_⟩
  · constructor
    · intro htrans c hc hspread
      obtain ⟨b, hb, hab, hbc⟩ := (hsteps c).2 hspread
      exact htrans b c hb hc hab hbc
    · intro hone b c hb hc hab hbc
      exact hone c hc ((hsteps c).1 ⟨b, hb, hab, hbc⟩)
  · intro hflat b c hab hbc
    have hspread : a.spread.contains c = true := contains_of_steps hab hbc
    rwa [spread_of_isFlat hflat] at hspread

/-- An object with an array of numbers in it contains an object with some of them, and so it
contains the one with a single number. -/
theorem contains_steps_of_numbers :
    (obj [("x", arr [num (.int 1), num (.int 2)])]).contains
      (obj [("x", num (.int 1))]) = true := by
  have hnormal : (obj [("x", arr [num (.int 1), num (.int 2)])]).Normal := by
    simp [Normal, NormalFields, NormalItems, Fields.Ascending]
  have hflat : (obj [("x", arr [num (.int 1), num (.int 2)])]).isFlat = true := by
    simp [isFlat, haveFlat, areFlat, isArray]
  refine (contains_self_and_steps hnormal).2.2.2 hflat (obj [("x", arr [num (.int 1)])]) _ ?_ ?_
  · simp [contains, containsFields, containsItems, containsScalar, sameScalar]
  · simp [contains, containsFields, containsScalar, sameScalar]

/-- `[[1]]` contains `[1]`, which contains `1`, but `[[1]]` does not contain `1`. -/
theorem not_contains_trans_arrayInArray :
    (arr [arr [num (.int 1)]]).contains (arr [num (.int 1)]) = true ∧
      (arr [num (.int 1)]).contains (num (.int 1)) = true ∧
      (arr [arr [num (.int 1)]]).contains (num (.int 1)) = false := by
  simp [contains, containsItems, containsScalar, sameScalar]

end BenchCharts.Json

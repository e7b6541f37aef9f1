import Mathlib.Data.List.Forall2
import BenchCharts.Proofs.Params.ContainmentOrder

/-!
# Arrays as sets

Containment asks of the items of an array whether there is one of some kind, or whether all are of
some kind, and so neither their order nor repetitions show. `SetEqual` relates values that differ in
nothing else, at any depth: it is made of single changes, each of one array.

Many changes one after the other are looked at through what they leave alone (`Corresponds`): arrays
keep their items up to set-equality, in any order and number, objects keep their keys, and scalars
their values. That is also all that makes values set-equal (`setEqual_iff_corresponds`). With it,
containment is carried from one pair of values to the other by one induction over the pattern
(`contains_of_setEqual`).
-/

namespace BenchCharts.Json

/-- Two values are equal up to the order and the repetition of the items of arrays, in arrays and in
objects of any depth, where numbers are equal if their values are. -/
inductive SetEqual : Json → Json → Prop
  /-- A value is as it is. -/
  | refl (j : Json) : SetEqual j j
  /-- What was changed can be changed back. -/
  | symm {a b : Json} (h : SetEqual a b) : SetEqual b a
  /-- There may be many changes. -/
  | trans {a b c : Json} (hab : SetEqual a b) (hbc : SetEqual b c) : SetEqual a c
  /-- A number may be written in another way. -/
  | number {m n : Number} (h : m.sameValue n = true) : SetEqual (.num m) (.num n)
  /-- Items may change places. -/
  | reorder {items items' : List Json} (h : items.Perm items') : SetEqual (.arr items) (.arr items')
  /-- An item may be repeated. -/
  | repeated {item : Json} {items : List Json} (h : item ∈ items) :
      SetEqual (.arr (item :: items)) (.arr items)
  /-- An item may be changed. -/
  | item (before after : List Json) {a b : Json} (h : SetEqual a b) :
      SetEqual (.arr (before ++ a :: after)) (.arr (before ++ b :: after))
  /-- The value of a member may be changed. -/
  | member (before after : Fields) (key : String) {a b : Json} (h : SetEqual a b) :
      SetEqual (.obj (before ++ (key, a) :: after)) (.obj (before ++ (key, b) :: after))

instance : Trans SetEqual SetEqual SetEqual := ⟨.trans⟩

/-! ### What set-equal values have in common -/

theorem sameScalar_comm (a b : Json) : a.sameScalar b = b.sameScalar a := by
  cases a <;> cases b <;> simp only [sameScalar, Bool.beq_comm, Number.sameValue_comm]

/-- Every item of an array has one in the other array that is set-equal to it. -/
def Represented (items items' : List Json) : Prop := ∀ a ∈ items, ∃ b ∈ items', SetEqual a b

/-- Two members have the same key, and set-equal values. -/
def SameMember (m n : String × Json) : Prop := m.1 = n.1 ∧ SetEqual m.2 n.2

/-- Two values agree at the top, and are set-equal below. -/
def Corresponds : Json → Json → Prop
  | .arr items, .arr items' => Represented items items' ∧ Represented items' items
  | .obj fields, .obj fields' => List.Forall₂ SameMember fields fields'
  | a, b => a.sameScalar b = true

theorem Represented.refl (items : List Json) : Represented items items :=
  fun a ha => ⟨a, ha, .refl a⟩

theorem Represented.trans {xs ys zs : List Json} (h : Represented xs ys)
    (h' : Represented ys zs) : Represented xs zs := by
  intro a ha
  obtain ⟨b, hb, hab⟩ := h a ha
  obtain ⟨c, hc, hbc⟩ := h' b hb
  exact ⟨c, hc, hab.trans hbc⟩

theorem Represented.of_subset {items items' : List Json} (h : items ⊆ items') :
    Represented items items' := fun a ha => ⟨a, h ha, .refl a⟩

theorem Represented.item (before after : List Json) {a b : Json} (h : SetEqual a b) :
    Represented (before ++ a :: after) (before ++ b :: after) := by
  intro x hx
  -- All other items stand for themselves.
  rcases List.mem_append.1 hx with hx | hx
  · exact ⟨x, List.mem_append_left _ hx, .refl x⟩
  · rcases List.mem_cons.1 hx with rfl | hx
    · exact ⟨b, by simp, h⟩
    · exact ⟨x, List.mem_append_right _ (List.mem_cons_of_mem _ hx), .refl x⟩

/-- Having the same members in the same places is transitive. -/
theorem forall₂_sameMember_trans {fields fields' fields'' : Fields}
    (h : List.Forall₂ SameMember fields fields')
    (h' : List.Forall₂ SameMember fields' fields'') : List.Forall₂ SameMember fields fields'' := by
  induction h generalizing fields'' with
  | nil => exact h'
  | cons hmember _ ih =>
    obtain ⟨third, rest, hmember', hrest, rfl⟩ := List.forall₂_cons_left_iff.1 h'
    exact .cons ⟨hmember.1.trans hmember'.1, hmember.2.trans hmember'.2⟩ (ih hrest)

theorem exists_sameMember {fields fields' : Fields} (h : List.Forall₂ SameMember fields fields')
    {member : String × Json} (hmember : member ∈ fields') :
    ∃ given ∈ fields, SameMember given member := by
  obtain ⟨i, hi, rfl⟩ := List.getElem_of_mem hmember
  have hlt : i < fields.length := h.length_eq ▸ hi
  exact ⟨fields[i], List.getElem_mem hlt, h.get hlt hi⟩

/-- A key that one of two objects with the same members has, the other one has too. -/
theorem exists_get?_of_forall₂ {fields fields' : Fields}
    (h : List.Forall₂ SameMember fields fields') {key : String} {value : Json}
    (hget : fields.get? key = some value) :
    ∃ value', fields'.get? key = some value' ∧ SetEqual value value' := by
  induction h with
  | nil => cases hget
  | @cons first second _ _ hmember _ ih =>
    obtain ⟨name, a⟩ := first
    obtain ⟨name', b⟩ := second
    obtain ⟨rfl, hequal⟩ : name = name' ∧ SetEqual a b := hmember
    rw [Fields.get?_cons] at hget ⊢
    -- The keys are the same in the same places, so both look-ups end at one place.
    split at hget
    · cases hget
      exact ⟨b, if_pos ‹_›, hequal⟩
    · obtain ⟨value', hvalue', h'⟩ := ih hget
      exact ⟨value', by rw [if_neg ‹_›, hvalue'], h'⟩

namespace Corresponds

theorem of_sameScalar {a b : Json} (h : a.sameScalar b = true) : Corresponds a b := by
  cases a <;> cases b <;> first | exact h | simp [sameScalar] at h

theorem refl (j : Json) : Corresponds j j := by
  cases j with
  | arr items => exact ⟨.refl items, .refl items⟩
  | obj fields => exact List.forall₂_same.2 fun member _ => ⟨rfl, .refl member.2⟩
  | _ => exact of_sameScalar (sameScalar_self rfl)

theorem symm {a b : Json} (h : Corresponds a b) : Corresponds b a := by
  cases a <;> cases b <;> try exact (sameScalar_comm _ _).trans h
  case arr.arr items items' => exact ⟨h.2, h.1⟩
  case obj.obj fields fields' =>
    exact h.flip.imp fun m n hmn => ⟨hmn.1.symm, hmn.2.symm⟩

/-- A scalar corresponds to the same scalar only. -/
theorem atom_iff {a b : Json} (ha : a.isAtom = true) :
    Corresponds a b ↔ a.sameScalar b = true := by
  refine ⟨fun h => ?_, of_sameScalar⟩
  cases a with
  | arr items => exact absurd ha (by simp [isAtom, isArray])
  | obj fields => exact absurd ha (by simp [isAtom, isObject])
  | _ => exact h

theorem arr_iff {items : List Json} {b : Json} :
    Corresponds (.arr items) b ↔
      ∃ items', b = .arr items' ∧ Represented items items' ∧ Represented items' items := by
  cases b with
  | arr items' => simp [Corresponds]
  | _ => simp [Corresponds, sameScalar]

theorem obj_iff {fields : Fields} {b : Json} :
    Corresponds (.obj fields) b ↔
      ∃ fields' : Fields, b = .obj fields' ∧ List.Forall₂ SameMember fields fields' := by
  cases b with
  | obj fields' => simp [Corresponds]
  | _ => simp [Corresponds, sameScalar]

theorem trans {a b c : Json} (hab : Corresponds a b) (hbc : Corresponds b c) :
    Corresponds a c := by
  cases a with
  | arr items =>
    obtain ⟨items', rfl, hto, hback⟩ := arr_iff.1 hab
    obtain ⟨items'', rfl, hto', hback'⟩ := arr_iff.1 hbc
    exact ⟨hto.trans hto', hback'.trans hback⟩
  | obj fields =>
    obtain ⟨fields', rfl, hmembers⟩ := obj_iff.1 hab
    obtain ⟨fields'', rfl, hmembers'⟩ := obj_iff.1 hbc
    exact forall₂_sameMember_trans hmembers hmembers'
  | _ =>
    have hsame := (atom_iff rfl).1 hab
    have hsame' := (atom_iff (isAtom_of_sameScalar hsame).2).1 hbc
    exact of_sameScalar (sameScalar_trans hsame hsame')

end Corresponds

/-- Each single change keeps what corresponds, and so any number of them does. -/
theorem SetEqual.corresponds {a b : Json} (h : SetEqual a b) : Corresponds a b := by
  induction h with
  | refl j => exact .refl j
  | symm _ ih => exact ih.symm
  | trans _ _ ihab ihbc => exact ihab.trans ihbc
  | number h => exact h
  | reorder h => exact ⟨.of_subset h.subset, .of_subset h.symm.subset⟩
  | repeated h =>
    exact ⟨.of_subset (List.cons_subset.2 ⟨h, List.Subset.refl _⟩),
      .of_subset (List.subset_cons_self _ _)⟩
  | item before after h => exact ⟨.item before after h, .item before after h.symm⟩
  | member before after key h =>
    have hrefl : ∀ fields : Fields, List.Forall₂ SameMember fields fields := fun fields =>
      List.forall₂_same.2 fun member _ => ⟨rfl, .refl member.2⟩
    exact List.rel_append (hrefl before) (.cons ⟨rfl, h⟩ (hrefl after))

/-- Items that are among those of an array up to set-equality add nothing to it. -/
theorem SetEqual.append_of_represented {items added : List Json} (h : Represented added items) :
    SetEqual (.arr (added ++ items)) (.arr items) := by
  induction added with
  | nil => exact .refl _
  | cons a added ih =>
    obtain ⟨b, hb, hab⟩ := h a List.mem_cons_self
    calc
      SetEqual (.arr (a :: (added ++ items))) (.arr (b :: (added ++ items))) :=
        .item [] (added ++ items) hab
      SetEqual _ (.arr (added ++ items)) := .repeated (List.mem_append_right added hb)
      SetEqual _ (.arr items) := ih fun c hc => h c (List.mem_cons_of_mem a hc)

/-- Objects whose members have set-equal values become each other member by member. -/
theorem SetEqual.of_forall₂ {fields fields' : Fields} (before : Fields)
    (h : List.Forall₂ SameMember fields fields') :
    SetEqual (.obj (before ++ fields)) (.obj (before ++ fields')) := by
  induction h generalizing before with
  | nil => exact .refl _
  | @cons first second rest rest' hmember _ ih =>
    obtain ⟨key, a⟩ := first
    obtain ⟨key', b⟩ := second
    obtain ⟨rfl, hequal⟩ : key = key' ∧ SetEqual a b := hmember
    have hrest := ih (before ++ [(key, b)])
    rw [List.append_assoc, List.append_assoc] at hrest
    exact (SetEqual.member before rest key hequal).trans hrest

theorem SetEqual.of_sameScalar {a b : Json} (h : a.sameScalar b = true) : SetEqual a b := by
  cases a <;> cases b <;> simp only [sameScalar, Bool.false_eq_true, beq_iff_eq] at h
  case null.null => exact .refl _
  case num.num m n => exact .number h
  case bool.bool b c => exact h ▸ .refl _
  case str.str s t => exact h ▸ .refl _

/-- **Values are set-equal exactly if they agree at the top and are set-equal below.** -/
theorem setEqual_iff_corresponds {a b : Json} : SetEqual a b ↔ Corresponds a b := by
  refine ⟨SetEqual.corresponds, fun h => ?_⟩
  cases a with
  | arr items =>
    obtain ⟨items', rfl, hto, hback⟩ := Corresponds.arr_iff.1 h
    -- Both arrays become one that has the items of both.
    calc
      SetEqual (.arr items) (.arr (items' ++ items)) := .symm (.append_of_represented hback)
      SetEqual _ (.arr (items ++ items')) := .reorder List.perm_append_comm
      SetEqual _ (.arr items') := .append_of_represented hto
  | obj fields =>
    obtain ⟨fields', rfl, hmembers⟩ := Corresponds.obj_iff.1 h
    exact .of_forall₂ [] hmembers
  | _ => exact .of_sameScalar ((Corresponds.atom_iff rfl).1 h)

/-! ### Containment -/

theorem sameScalar_of_setEqual {a a' b b' : Json} (ha : SetEqual a a') (hb : SetEqual b b')
    (h : a.sameScalar b = true) : a'.sameScalar b' = true := by
  obtain ⟨hatom, hatom'⟩ := isAtom_of_sameScalar h
  -- A scalar is set-equal to scalars of the same value only.
  have hsame : a'.sameScalar a = true := by
    rw [sameScalar_comm]
    exact (Corresponds.atom_iff hatom).1 ha.corresponds
  exact sameScalar_trans (sameScalar_trans hsame h) ((Corresponds.atom_iff hatom').1 hb.corresponds)

/-- A value contains a pattern if a set-equal value contains a set-equal pattern. -/
theorem contains_of_setEqual {whole whole' pattern pattern' : Json} (hwhole : SetEqual whole whole')
    (hpattern : SetEqual pattern pattern') (h : whole.contains pattern = true) :
    whole'.contains pattern' = true := by
  -- On the pattern: from each part of the new pattern back to one of the old, from there to the
  -- part of the value that contains it, and on to the new value.
  induction pattern using deepInduction generalizing whole whole' pattern' with
  | atom pattern harr hobj =>
    have hatom : pattern.isAtom = true := isAtom_iff.2 ⟨harr, hobj⟩
    have hatom' : pattern'.isAtom = true :=
      (isAtom_of_sameScalar ((Corresponds.atom_iff hatom).1 hpattern.corresponds)).2
    refine (contains_atom_iff hatom').2 ?_
    -- A scalar is contained in itself, and in an array that has it as an item.
    rcases (contains_atom_iff hatom).1 h with hsame | ⟨items, rfl, item, hitem, hsame⟩
    · exact .inl (sameScalar_of_setEqual hwhole hpattern hsame)
    · obtain ⟨items', rfl, hto, -⟩ := Corresponds.arr_iff.1 hwhole.corresponds
      obtain ⟨item', hitem', hequal⟩ := hto item hitem
      exact .inr ⟨items', rfl, item', hitem', sameScalar_of_setEqual hequal hpattern hsame⟩
  | arr patterns ih =>
    obtain ⟨items, rfl, hall⟩ := contains_arr_iff.1 h
    obtain ⟨items', rfl, hto, -⟩ := Corresponds.arr_iff.1 hwhole.corresponds
    obtain ⟨patterns', rfl, -, hback⟩ := Corresponds.arr_iff.1 hpattern.corresponds
    refine contains_arr_iff.2 ⟨items', rfl, fun p' hp' => ?_⟩
    obtain ⟨p, hp, hequal⟩ := hback p' hp'
    obtain ⟨item, hitem, hcontains⟩ := hall p hp
    obtain ⟨item', hitem', hitems⟩ := hto item hitem
    exact ⟨item', hitem', ih p hp hitems hequal.symm hcontains⟩
  | obj pattern ih =>
    obtain ⟨fields, rfl, hall⟩ := contains_obj_iff.1 h
    obtain ⟨fields', rfl, hfields⟩ := Corresponds.obj_iff.1 hwhole.corresponds
    obtain ⟨pattern', rfl, hmembers⟩ := Corresponds.obj_iff.1 hpattern.corresponds
    refine contains_obj_iff.2 ⟨fields', rfl, containsFields_iff.2 fun member' hmember' => ?_⟩
    obtain ⟨member, hmember, hkey, hequal⟩ := exists_sameMember hmembers hmember'
    obtain ⟨value, hvalue, hcontains⟩ := containsFields_iff.1 hall member hmember
    obtain ⟨value', hvalue', hvalues⟩ := exists_get?_of_forall₂ hfields hvalue
    rw [hkey] at hvalue'
    exact ⟨value', hvalue', ih member hmember hvalues hequal hcontains⟩

/-- **Containment takes arrays as sets, at every depth**: it does not tell a value from a set-equal
one, nor a pattern, and containment of objects by their members does not either. -/
theorem contains_congr_setEqual :
    (∀ whole whole' pattern pattern' : Json, SetEqual whole whole' → SetEqual pattern pattern' →
      whole.contains pattern = whole'.contains pattern') ∧
    ∀ whole whole' pattern pattern' : Fields, SetEqual (.obj whole) (.obj whole') →
      SetEqual (.obj pattern) (.obj pattern') →
        containsFields whole pattern = containsFields whole' pattern' := by
  have hcongr : ∀ whole whole' pattern pattern' : Json, SetEqual whole whole' →
      SetEqual pattern pattern' → whole.contains pattern = whole'.contains pattern' := by
    intro whole whole' pattern pattern' hwhole hpattern
    rw [Bool.eq_iff_iff]
    -- Changes can be undone, so one direction is enough.
    exact ⟨contains_of_setEqual hwhole hpattern, contains_of_setEqual hwhole.symm hpattern.symm⟩
  refine ⟨hcongr, fun whole whole' pattern pattern' hwhole hpattern => ?_⟩
  have hobj := hcongr _ _ _ _ hwhole hpattern
  rwa [contains, contains] at hobj

/-- `[[1, 2], [2, 1, 1]]` and `[[2, 1]]` contain the same: `[[2]]` in one is `[[2, 2]]` in the
other. -/
theorem contains_congr_setEqual_pairs :
    (arr [arr [num (.int 1), num (.int 2)],
        arr [num (.int 2), num (.int 1), num (.int 1)]]).contains (arr [arr [num (.int 2)]]) =
      (arr [arr [num (.int 2), num (.int 1)]]).contains
        (arr [arr [num (.int 2), num (.int 2)]]) := by
  have hpair : SetEqual (arr [num (.int 1), num (.int 2)]) (arr [num (.int 2), num (.int 1)]) :=
    .reorder (.swap _ _ _)
  have htriple : SetEqual (arr [num (.int 2), num (.int 1), num (.int 1)])
      (arr [num (.int 2), num (.int 1)]) :=
    setEqual_iff_corresponds.2 ⟨.of_subset (by simp), .of_subset (by simp)⟩
  have hwhole : SetEqual
      (arr [arr [num (.int 1), num (.int 2)], arr [num (.int 2), num (.int 1), num (.int 1)]])
      (arr [arr [num (.int 2), num (.int 1)]]) := by
    refine setEqual_iff_corresponds.2
      ⟨fun a ha => ⟨_, List.mem_singleton_self _, ?_⟩, fun a ha => ?_⟩
    · rcases List.mem_cons.1 ha with rfl | ha
      · exact hpair
      · exact List.mem_singleton.1 ha ▸ htriple
    · exact ⟨_, List.mem_cons_self, List.mem_singleton.1 ha ▸ hpair.symm⟩
  have hpattern : SetEqual (arr [arr [num (.int 2)]]) (arr [arr [num (.int 2), num (.int 2)]]) :=
    .item [] [] (.symm (.repeated List.mem_cons_self))
  exact contains_congr_setEqual.1 _ _ _ _ hwhole hpattern

end BenchCharts.Json

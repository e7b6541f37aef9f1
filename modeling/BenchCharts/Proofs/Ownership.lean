import Mathlib.Data.List.Nodup

/-!
# Picking out what belongs to one of many

Tables, samples and series are lists in which what belongs to one run comes after what belongs to
another one, each item with the id of its run. As long as no id is there twice, the items of a run
can be picked out again, in their order (`filter_flatMap_owner`), and nothing is picked out for an
id that is not there (`filter_flatMap_of_not_mem`). Likewise a search by key finds the only one with
that key (`find?_key_eq_some_iff`), wherever it is in the list (`find?_key_eq_of_perm`).
-/

namespace BenchCharts

variable {α β κ : Type} [DecidableEq κ] {key : α → κ} {owner : β → κ} {items : α → List β}

/-- Either all items of one belong to a key, or none of them does. -/
theorem filter_owner {a : α} (hown : ∀ b ∈ items a, owner b = key a) (k : κ) :
    (items a).filter (owner · = k) = if key a = k then items a else [] := by
  split
  · next heq =>
    refine List.filter_eq_self.2 fun b hb => ?_
    rw [hown b hb]
    exact decide_eq_true heq
  · next hne =>
    refine List.filter_eq_nil_iff.2 fun b hb => ?_
    rw [hown b hb]
    simpa using hne

theorem filter_flatMap_of_not_mem {l : List α} (hown : ∀ a ∈ l, ∀ b ∈ items a, owner b = key a)
    {k : κ} (hk : k ∉ l.map key) : (l.flatMap items).filter (owner · = k) = [] := by
  rw [List.filter_flatMap, List.flatMap_eq_nil_iff]
  intro a ha
  rw [filter_owner (hown a ha), if_neg]
  rintro rfl
  exact hk (List.mem_map_of_mem ha)

/-- **What belongs to one is what it brought**, if no key is there twice. -/
theorem filter_flatMap_owner {l : List α} (hown : ∀ a ∈ l, ∀ b ∈ items a, owner b = key a)
    (hnodup : (l.map key).Nodup) {a : α} (ha : a ∈ l) :
    (l.flatMap items).filter (owner · = key a) = items a := by
  induction l with
  | nil => cases ha
  | cons first rest ih =>
    obtain ⟨hfirst, hrest⟩ := List.nodup_cons.1 hnodup
    obtain ⟨hhead, htail⟩ := List.forall_mem_cons.1 hown
    rw [List.flatMap_cons, List.filter_append, filter_owner hhead]
    rcases List.mem_cons.1 ha with rfl | ha
    · rw [if_pos rfl, filter_flatMap_of_not_mem htail hfirst, List.append_nil]
    · have hne : key first ≠ key a := fun heq => hfirst (heq ▸ List.mem_map_of_mem ha)
      rw [if_neg hne, List.nil_append, ih htail hrest ha]

/-- Where no key is there twice, a search by key finds what has the key. -/
theorem find?_key_eq_some_iff {l : List α} (hnodup : (l.map key).Nodup) {k : κ} {a : α} :
    l.find? (key · == k) = some a ↔ a ∈ l ∧ key a = k := by
  constructor
  · intro hfind
    exact ⟨List.mem_of_find?_eq_some hfind, by simpa using List.find?_some hfind⟩
  · rintro ⟨ha, rfl⟩
    have hsome : (l.find? (key · == key a)).isSome = true := by
      rw [List.find?_isSome]
      exact ⟨a, ha, beq_self_eq_true _⟩
    obtain ⟨b, hb⟩ := Option.isSome_iff_exists.1 hsome
    have hkey : key b = key a := by simpa using List.find?_some hb
    rw [hb, List.inj_on_of_nodup_map hnodup (List.mem_of_find?_eq_some hb) ha hkey]

theorem find?_key_eq_of_perm {l l' : List α} (hperm : l'.Perm l) (hnodup : (l.map key).Nodup)
    (k : κ) : l'.find? (key · == k) = l.find? (key · == k) := by
  have hnodup' : (l'.map key).Nodup := (hperm.map key).nodup_iff.2 hnodup
  refine Option.ext fun a => ?_
  rw [find?_key_eq_some_iff hnodup', find?_key_eq_some_iff hnodup, hperm.mem_iff]

end BenchCharts

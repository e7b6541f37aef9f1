import BenchCharts.Proofs.Outcome
import BenchCharts.Sorting

/-!
# What sorting and grouping give

`stableSort` rearranges whatever the comparison does. That its result ascends takes a comparison
that is an order, which is what `Std.TransCmp` says; an order on keys is one on the items that have
the keys (`transCmp_key`).

* `pairwise_stableSort` — a sorted list ascends, neighbours and all other pairs alike;
* `pairwise_of_eq_stableSort` — items that compare equal stay in the order in which they came;
* `pairwise_lt_stableSort` — it ascends strictly if no two of its items compare equal;
* `eq_of_pairwise_lt` — a list that ascends strictly is determined by its items;
* `getLast?_eq_some_iff_of_pairwise_lt` — and its last item is the greatest;
* `stableSort_eq_of_perm` and `stableSort_distinct_congr` — so the order in which items came does
  not show after sorting if none compare equal, or if repetitions were dropped;
* `stableSort_eq_iff` — otherwise it shows among items that compare equal, and nowhere else;
* `filter_stableSort`, `map_stableSort` and `mapM_stableSort` — dropping and changing items and
  sorting can be done in any order;
* `mem_groupBy_iff` and `pairwise_lt_groupBy` — groups are the items of each key that occurs, with
  the keys in strictly ascending order;
* `flatMap_filter_perm` — and together they are all items.
-/

namespace BenchCharts

/-- An order on keys is an order on what has the keys. -/
theorem transCmp_key {α κ : Type} (cmp : κ → κ → Ordering) [Std.TransCmp cmp] (key : α → κ) :
    Std.TransCmp fun a b => cmp (key a) (key b) where
  eq_swap {a b} := @Std.OrientedCmp.eq_swap κ cmp _ (key a) (key b)
  isLE_trans {a b c} := @Std.TransCmp.isLE_trans κ cmp _ (key a) (key b) (key c)

variable {α : Type} {cmp : α → α → Ordering}

/-! ### Sorting -/

theorem mem_insertInOrder {a b : α} {l : List α} :
    b ∈ insertInOrder cmp a l ↔ b = a ∨ b ∈ l := by
  rw [(insertInOrder_perm cmp a l).mem_iff, List.mem_cons]

/-- Inserting keeps a list ascending. -/
theorem pairwise_insertInOrder [Std.TransCmp cmp] (a : α) {l : List α}
    (h : l.Pairwise fun x y => (cmp x y).isLE) :
    (insertInOrder cmp a l).Pairwise fun x y => (cmp x y).isLE := by
  induction l with
  | nil => simp [insertInOrder]
  | cons b rest ih =>
    rw [List.pairwise_cons] at h
    rw [insertInOrder]
    split
    -- The item goes into the rest, where nothing is below the first one.
    · next hgt =>
      refine List.pairwise_cons.2 ⟨fun c hc => ?_, ih h.2⟩
      rcases mem_insertInOrder.1 hc with rfl | hc
      · rw [Std.OrientedCmp.lt_of_gt hgt]
        rfl
      · exact h.1 c hc
    -- The item goes to the front, and is below all that the first one is below.
    · next hle =>
      have hab : (cmp a b).isLE := by
        cases hcmp : cmp a b <;> simp_all
      refine List.pairwise_cons.2 ⟨fun c hc => ?_, List.pairwise_cons.2 h⟩
      rcases List.mem_cons.1 hc with rfl | hc
      · exact hab
      · exact Std.TransCmp.isLE_trans hab (h.1 c hc)

/-- **A sorted list ascends.** -/
theorem pairwise_stableSort [Std.TransCmp cmp] (l : List α) :
    (stableSort cmp l).Pairwise fun x y => (cmp x y).isLE := by
  induction l with
  | nil => exact List.Pairwise.nil
  | cons a rest ih => exact pairwise_insertInOrder a ih

/-- An item that came before all others goes before those that it compares equal to. -/
theorem pairwise_of_eq_insertInOrder [Std.OrientedCmp cmp] {R : α → α → Prop} {a : α} {l : List α}
    (h : l.Pairwise fun x y => cmp x y = .eq → R x y) (ha : ∀ b ∈ l, R a b) :
    (insertInOrder cmp a l).Pairwise fun x y => cmp x y = .eq → R x y := by
  induction l with
  | nil => exact List.pairwise_singleton _ a
  | cons b rest ih =>
    obtain ⟨hfirst, hrest⟩ := List.pairwise_cons.1 h
    rw [insertInOrder]
    split
    -- The first item is below the new one, so the two do not compare equal.
    · next hgt =>
      have hinserted := ih hrest fun c hc => ha c (List.mem_cons_of_mem _ hc)
      refine List.pairwise_cons.2 ⟨fun c hc heq => ?_, hinserted⟩
      rcases mem_insertInOrder.1 hc with rfl | hc
      · rw [Std.OrientedCmp.lt_of_gt hgt] at heq
        cases heq
      · exact hfirst c hc heq
    · exact List.pairwise_cons.2 ⟨fun c hc _ => ha c hc, h⟩

/-- **Sorting is stable.** Items that compare equal keep the order in which they came, whatever it
was. -/
theorem pairwise_of_eq_stableSort [Std.OrientedCmp cmp] {R : α → α → Prop} {l : List α}
    (h : l.Pairwise R) : (stableSort cmp l).Pairwise fun x y => cmp x y = .eq → R x y := by
  induction l with
  | nil => exact List.Pairwise.nil
  | cons a rest ih =>
    obtain ⟨hfirst, hrest⟩ := List.pairwise_cons.1 h
    exact pairwise_of_eq_insertInOrder (ih hrest) fun b hb => hfirst b (mem_stableSort.1 hb)

/-- A sorted list ascends strictly if different places of it never hold items that compare
equal. -/
theorem pairwise_lt_stableSort [Std.TransCmp cmp] {l : List α}
    (h : l.Pairwise fun x y => cmp x y ≠ .eq) :
    (stableSort cmp l).Pairwise fun x y => cmp x y = .lt := by
  -- Which items compare equal does not depend on their order.
  have hne : (stableSort cmp l).Pairwise fun x y => cmp x y ≠ .eq :=
    (stableSort_perm cmp l).symm.pairwise h fun hxy hyx => hxy (Std.OrientedCmp.eq_symm hyx)
  refine (pairwise_stableSort l).imp₂ (fun x y hle hxy => ?_) hne
  cases hcmp : cmp x y <;> simp_all

/-- A list that ascends strictly is determined by its items. -/
theorem eq_of_pairwise_lt [Std.OrientedCmp cmp] {l l' : List α}
    (h : l.Pairwise fun x y => cmp x y = .lt) (h' : l'.Pairwise fun x y => cmp x y = .lt)
    (hmem : ∀ a, a ∈ l ↔ a ∈ l') : l = l' := by
  induction l generalizing l' with
  | nil =>
    cases l' with
    | nil => rfl
    | cons b rest' => exact absurd ((hmem b).2 (List.mem_cons_self ..)) List.not_mem_nil
  | cons a rest ih =>
    cases l' with
    | nil => exact absurd ((hmem a).1 (List.mem_cons_self ..)) List.not_mem_nil
    | cons b rest' =>
      rw [List.pairwise_cons] at h h'
      have hirrefl : ∀ x, cmp x x ≠ .lt := fun x hx =>
        absurd (hx.symm.trans Std.ReflCmp.compare_self) (by decide)
      -- Each of the two first items is in the other list and so not before the other one.
      have hab : a = b := by
        rcases List.mem_cons.1 ((hmem a).1 (List.mem_cons_self ..)) with hab | ha
        · exact hab
        · rcases List.mem_cons.1 ((hmem b).2 (List.mem_cons_self ..)) with hba | hb
          · exact hba.symm
          · have hba := h'.1 a ha
            rw [Std.OrientedCmp.gt_of_lt (h.1 b hb)] at hba
            cases hba
      subst hab
      rw [ih h.2 h'.2]
      intro x
      refine ⟨?_, ?_⟩
      · intro hx
        refine (List.mem_cons.1 ((hmem x).1 (List.mem_cons_of_mem _ hx))).resolve_left ?_
        rintro rfl
        exact hirrefl x (h.1 x hx)
      · intro hx
        refine (List.mem_cons.1 ((hmem x).2 (List.mem_cons_of_mem _ hx))).resolve_left ?_
        rintro rfl
        exact hirrefl x (h'.1 x hx)

/-- The last item of a list that ascends strictly is the one that no other exceeds. -/
theorem getLast?_eq_some_iff_of_pairwise_lt [Std.OrientedCmp cmp] {l : List α}
    (h : l.Pairwise fun x y => cmp x y = .lt) {a : α} :
    l.getLast? = some a ↔ a ∈ l ∧ ∀ b ∈ l, (cmp b a).isLE = true := by
  constructor
  · intro hlast
    obtain ⟨front, rfl⟩ := List.getLast?_eq_some_iff.1 hlast
    -- All other items are in front of the last one, and below it.
    have hbefore := (List.pairwise_append.1 h).2.2
    refine ⟨List.mem_append_right _ (List.mem_singleton_self a), fun b hb => ?_⟩
    rcases List.mem_append.1 hb with hb | hb
    · rw [hbefore b hb a (List.mem_singleton_self a)]
      rfl
    · rw [List.mem_singleton.1 hb]
      exact Std.ReflCmp.isLE_rfl
  · rintro ⟨hmem, hgreatest⟩
    obtain ⟨front, last, hl⟩ := (List.eq_nil_or_concat l).resolve_left (List.ne_nil_of_mem hmem)
    rw [List.concat_eq_append] at hl
    subst hl
    have hbefore := (List.pairwise_append.1 h).2.2
    rw [List.getLast?_concat]
    rcases List.mem_append.1 hmem with hfront | heq
    · -- An item in front of the last one is exceeded by it.
      have hlt := hbefore a hfront last (List.mem_singleton_self last)
      have hle := hgreatest last (List.mem_append_right _ (List.mem_singleton_self last))
      rw [Std.OrientedCmp.gt_of_lt hlt] at hle
      cases hle
    · rw [List.mem_singleton.1 heq]

/-- Sorting only depends on how the items of the list compare. -/
theorem stableSort_congr {cmp' : α → α → Ordering} {l : List α}
    (h : ∀ a ∈ l, ∀ b ∈ l, cmp a b = cmp' a b) : stableSort cmp l = stableSort cmp' l := by
  -- Inserting only compares the new item with those that are there.
  have hinsert : ∀ (a : α) (rest : List α), (∀ b ∈ rest, cmp a b = cmp' a b) →
      insertInOrder cmp a rest = insertInOrder cmp' a rest := by
    intro a rest hrest
    induction rest with
    | nil => rfl
    | cons b more ih =>
      obtain ⟨hb, hmore⟩ := List.forall_mem_cons.1 hrest
      rw [insertInOrder, insertInOrder, hb, ih hmore]
  induction l with
  | nil => rfl
  | cons a rest ih =>
    have hrest : ∀ x ∈ rest, ∀ y ∈ rest, cmp x y = cmp' x y := fun x hx y hy =>
      h x (List.mem_cons_of_mem _ hx) y (List.mem_cons_of_mem _ hy)
    rw [stableSort, stableSort, ih hrest]
    refine hinsert a _ fun b hb => ?_
    exact h a (List.mem_cons_self ..) b (List.mem_cons_of_mem _ (mem_stableSort.1 hb))

/-- Lists of the same items are the same once they are sorted, unless different items compare
equal. -/
theorem stableSort_eq_of_perm [Std.TransCmp cmp] {l l' : List α} (hperm : l'.Perm l)
    (hne : l.Pairwise fun x y => cmp x y ≠ .eq) : stableSort cmp l' = stableSort cmp l := by
  have hne' : l'.Pairwise fun x y => cmp x y ≠ .eq :=
    hperm.symm.pairwise hne fun hxy hyx => hxy (Std.OrientedCmp.eq_symm hyx)
  refine eq_of_pairwise_lt (pairwise_lt_stableSort hne') (pairwise_lt_stableSort hne) fun a => ?_
  rw [mem_stableSort, mem_stableSort, hperm.mem_iff]

/-- In a total order, the values in a list are what counts when they are sorted without
repetitions. -/
theorem stableSort_distinct_congr [DecidableEq α] [Std.TransCmp cmp] [Std.LawfulEqCmp cmp]
    {l l' : List α} (hmem : ∀ a, a ∈ l' ↔ a ∈ l) :
    stableSort cmp (distinct l') = stableSort cmp (distinct l) := by
  have hlt : ∀ l : List α, (stableSort cmp (distinct l)).Pairwise fun x y => cmp x y = .lt := by
    intro l
    refine pairwise_lt_stableSort ((nodup_distinct l).imp fun hne heq => hne ?_)
    exact Std.LawfulEqCmp.eq_of_compare heq
  refine eq_of_pairwise_lt (hlt l') (hlt l) fun a => ?_
  rw [mem_stableSort, mem_stableSort, mem_distinct, mem_distinct, hmem]

/-! ### Sorting and other passes -/

/-- What precedes or equals all items goes to the front. -/
theorem insertInOrder_of_forall_ne_gt {a : α} {l : List α} (h : ∀ b ∈ l, cmp a b ≠ .gt) :
    insertInOrder cmp a l = a :: l := by
  cases l with
  | nil => rfl
  | cons b rest => rw [insertInOrder, if_neg (h b (List.mem_cons_self ..))]

theorem filter_insertInOrder [Std.TransCmp cmp] (p : α → Bool) (a : α) {l : List α}
    (h : l.Pairwise fun x y => (cmp x y).isLE) :
    (insertInOrder cmp a l).filter p =
      if p a then insertInOrder cmp a (l.filter p) else l.filter p := by
  induction l with
  | nil => cases hp : p a <;> simp [insertInOrder, hp]
  | cons b rest ih =>
    obtain ⟨hfirst, hrest⟩ := List.pairwise_cons.1 h
    by_cases hgt : cmp a b = .gt
    · rw [insertInOrder, if_pos hgt, List.filter_cons, List.filter_cons, ih hrest]
      cases hb : p b with
      | true => cases hp : p a <;> simp [insertInOrder, hgt]
      | false => simp
    -- The item goes before all others, of which fewer are left after filtering.
    · have hle : ∀ c ∈ b :: rest, cmp a c ≠ .gt := by
        refine List.forall_mem_cons.2 ⟨hgt, fun c hc heq => ?_⟩
        have hab : (cmp a b).isLE := by cases hcmp : cmp a b <;> simp_all
        have hac := Std.TransCmp.isLE_trans hab (hfirst c hc)
        rw [heq] at hac
        cases hac
      have hfiltered : insertInOrder cmp a ((b :: rest).filter p) = a :: (b :: rest).filter p :=
        insertInOrder_of_forall_ne_gt fun c hc => hle c (List.mem_filter.1 hc).1
      rw [insertInOrder_of_forall_ne_gt hle, List.filter_cons, hfiltered]

/-- Dropping items and sorting can be done in any order. -/
theorem filter_stableSort [Std.TransCmp cmp] (p : α → Bool) (l : List α) :
    (stableSort cmp l).filter p = stableSort cmp (l.filter p) := by
  induction l with
  | nil => rfl
  | cons a rest ih =>
    -- The rest is sorted, so dropping goes through the insertion.
    rw [stableSort, filter_insertInOrder p a (pairwise_stableSort rest), ih, List.filter_cons]
    split
    · rw [stableSort]
    · rfl

/-- What ascends already stays as it is. -/
theorem stableSort_eq_self {l : List α} (h : l.Pairwise fun a b => cmp a b ≠ .gt) :
    stableSort cmp l = l := by
  induction l with
  | nil => rfl
  | cons a rest ih =>
    obtain ⟨hfirst, hrest⟩ := List.pairwise_cons.1 h
    rw [stableSort, ih hrest]
    exact insertInOrder_of_forall_ne_gt hfirst

/-- The items that tie with a given one come out of sorting as they went in. -/
theorem filter_eq_stableSort [Std.TransCmp cmp] (a : α) (l : List α) :
    (stableSort cmp l).filter (fun b => cmp a b = .eq) = l.filter fun b => cmp a b = .eq := by
  rw [filter_stableSort]
  refine stableSort_eq_self (List.pairwise_of_forall_mem_list fun b hb c hc => ?_)
  -- Items that tie with a given one tie with each other.
  have hab : cmp a b = .eq := of_decide_eq_true (List.mem_filter.1 hb).2
  have hac : cmp a c = .eq := of_decide_eq_true (List.mem_filter.1 hc).2
  rw [Std.TransCmp.eq_trans (Std.OrientedCmp.eq_symm hab) hac]
  exact Ordering.noConfusion

/-- An item ties with itself, so lists with the same ties have the same items. -/
theorem mem_iff_of_ties [Std.ReflCmp cmp] {l l' : List α}
    (hties : ∀ a, l.filter (fun b => cmp a b = .eq) = l'.filter fun b => cmp a b = .eq) (a : α) :
    a ∈ l ↔ a ∈ l' := by
  have hself : decide (cmp a a = .eq) = true := decide_eq_true Std.ReflCmp.compare_self
  have hiff : a ∈ l.filter (fun b => cmp a b = .eq) ↔ a ∈ l'.filter fun b => cmp a b = .eq := by
    rw [hties]
  simpa only [List.mem_filter, hself, and_true] using hiff

/-- An ascending list is determined by the items that tie with each of its items, in their order. -/
theorem eq_of_pairwise_isLE [Std.TransCmp cmp] {l l' : List α}
    (h : l.Pairwise fun x y => (cmp x y).isLE) (h' : l'.Pairwise fun x y => (cmp x y).isLE)
    (hties : ∀ a, l.filter (fun b => cmp a b = .eq) = l'.filter fun b => cmp a b = .eq) :
    l = l' := by
  induction l generalizing l' with
  | nil =>
    have hnil : l' = [] := List.eq_nil_iff_forall_not_mem.2 fun a ha =>
      absurd ((mem_iff_of_ties hties a).2 ha) List.not_mem_nil
    exact hnil.symm
  | cons a rest ih =>
    have ha := (mem_iff_of_ties hties a).1 (List.mem_cons_self ..)
    cases l' with
    | nil => exact absurd ha List.not_mem_nil
    | cons b rest' =>
      obtain ⟨hfirst, hrest⟩ := List.pairwise_cons.1 h
      obtain ⟨hfirst', hrest'⟩ := List.pairwise_cons.1 h'
      have hle : (cmp a b).isLE := by
        rcases List.mem_cons.1 ((mem_iff_of_ties hties b).2 (List.mem_cons_self ..)) with rfl | hb
        · exact Std.ReflCmp.isLE_rfl
        · exact hfirst b hb
      have hge : (cmp b a).isLE := by
        rcases List.mem_cons.1 ha with rfl | ha
        · exact Std.ReflCmp.isLE_rfl
        · exact hfirst' a ha
      -- So the first items tie, and both are the first of those that tie with `a`.
      have hself : cmp a a = .eq := Std.ReflCmp.compare_self
      have htie : cmp a b = .eq := Std.OrientedCmp.isLE_antisymm hle hge
      have hclass : a :: rest.filter (fun c => cmp a c = .eq) =
          b :: rest'.filter fun c => cmp a c = .eq := by
        simpa only [List.filter_cons, hself, htie, decide_true, if_true] using hties a
      obtain rfl := (List.cons.inj hclass).1
      -- Without the first item the ties of every other item are the same as well.
      refine congrArg _ (ih hrest hrest' fun c => ?_)
      have hclasses := hties c
      rw [List.filter_cons, List.filter_cons] at hclasses
      split at hclasses
      · exact (List.cons.inj hclasses).2
      · exact hclasses

/-- **What shows after sorting** is in which order items came that tie, and nothing else. -/
theorem stableSort_eq_iff [Std.TransCmp cmp] {l l' : List α} :
    stableSort cmp l = stableSort cmp l' ↔
      ∀ a, l.filter (fun b => cmp a b = .eq) = l'.filter fun b => cmp a b = .eq := by
  constructor
  -- Sorting keeps the order of ties, so what is in it can be read off the sorted list.
  · intro hsorted a
    rw [← filter_eq_stableSort a l, hsorted, filter_eq_stableSort]
  · intro hties
    refine eq_of_pairwise_isLE (pairwise_stableSort l) (pairwise_stableSort l') fun a => ?_
    rw [filter_eq_stableSort, filter_eq_stableSort, hties]

variable {β : Type} {cmp' : β → β → Ordering}

/-- A pass that may fail can be made before or after sorting, if it keeps how items compare. -/
theorem mapM_stableSort {f : α → Option β}
    (hf : ∀ a b a' b', f a = some b → f a' = some b' → cmp' b b' = cmp a a') {l : List α}
    {l' : List β} (h : l.mapM f = some l') :
    (stableSort cmp l).mapM f = some (stableSort cmp' l') := by
  -- One insertion goes to the same place on both sides; sorting is a chain of these.
  have hinsert : ∀ (a : α) (b : β), f a = some b → ∀ (rest : List α) (rest' : List β),
      rest.map f = rest'.map some →
        (insertInOrder cmp a rest).map f = (insertInOrder cmp' b rest').map some := by
    intro a b hab rest
    induction rest with
    | nil =>
      intro rest' hrest
      cases rest' with
      | nil => simp [insertInOrder, hab]
      | cons => cases hrest
    | cons c more ih =>
      intro rest' hrest
      cases rest' with
      | nil => cases hrest
      | cons d more' =>
        obtain ⟨hcd, hmore⟩ := List.cons.inj hrest
        rw [insertInOrder, insertInOrder, hf a b c d hab hcd]
        split
        · rw [List.map_cons, List.map_cons, hcd, ih more' hmore]
        · rw [List.map_cons, hab, hrest]
          rfl
  rw [mapM_eq_some_iff] at h ⊢
  induction l generalizing l' with
  | nil =>
    cases l' with
    | nil => rfl
    | cons => cases h
  | cons a rest ih =>
    cases l' with
    | nil => cases h
    | cons b rest' =>
      obtain ⟨hab, hrest⟩ := List.cons.inj h
      exact hinsert a b hab _ _ (ih hrest)

variable (cmp') in
/-- A pass that changes items can be made before or after sorting by what they are changed to. -/
theorem map_stableSort (f : α → β) (l : List α) :
    (stableSort (fun a b => cmp' (f a) (f b)) l).map f = stableSort cmp' (l.map f) := by
  -- Such a pass is one that never fails.
  have hpass : ∀ l : List α, l.mapM (fun a => some (f a)) = some (l.map f) := fun l =>
    mapM_eq_some_iff.2 (by rw [List.map_map]; rfl)
  have hkeeps : ∀ a b a' b', some (f a) = some b → some (f a') = some b' →
      cmp' b b' = cmp' (f a) (f a') := by
    rintro a b a' b' ⟨⟩ ⟨⟩
    rfl
  have hsorted := mapM_stableSort hkeeps (hpass l)
  rw [hpass] at hsorted
  exact Option.some.inj hsorted

/-! ### Grouping -/

variable {κ : Type} [DecidableEq κ] {ord : κ → κ → Ordering} {key : α → κ}

/-- The groups of a list are the items of each key that occurs in it. -/
theorem mem_groupBy_iff {items : List α} {k : κ} {group : List α} :
    (k, group) ∈ groupBy ord key items ↔
      k ∈ items.map key ∧ group = items.filter (key · = k) := by
  rw [groupBy, List.mem_map]
  refine ⟨?_, ?_⟩
  · rintro ⟨k', hk', hgroup⟩
    obtain ⟨rfl, rfl⟩ := Prod.mk.inj hgroup
    exact ⟨by simpa using hk', rfl⟩
  · rintro ⟨hk, rfl⟩
    exact ⟨k, by simpa using hk, rfl⟩

theorem map_fst_groupBy (ord : κ → κ → Ordering) (key : α → κ) (items : List α) :
    (groupBy ord key items).map Prod.fst = stableSort ord (distinct (items.map key)) := by
  rw [groupBy, List.map_map]
  exact List.map_id _

/-- The groups are determined by their keys. -/
theorem groupBy_eq_map (ord : κ → κ → Ordering) (key : α → κ) (items : List α) :
    groupBy ord key items =
      ((groupBy ord key items).map Prod.fst).map fun k => (k, items.filter (key · = k)) := by
  rw [map_fst_groupBy, groupBy]

/-- The keys of the groups ascend strictly. -/
theorem pairwise_lt_groupBy [Std.TransCmp ord] [Std.LawfulEqCmp ord] (items : List α) :
    ((groupBy ord key items).map Prod.fst).Pairwise fun k k' => ord k k' = .lt := by
  rw [map_fst_groupBy]
  refine pairwise_lt_stableSort ?_
  refine (nodup_distinct (items.map key)).imp fun hne heq => ?_
  exact hne (Std.LawfulEqCmp.eq_of_compare heq)

/-- The items of some different keys are all items, if no other key occurs. -/
theorem flatMap_filter_perm {keys : List κ} (hkeys : keys.Nodup) {items : List α}
    (hitems : ∀ a ∈ items, key a ∈ keys) :
    (keys.flatMap fun k => items.filter (key · = k)).Perm items := by
  induction keys generalizing items with
  | nil =>
    have hnil : items = [] := List.eq_nil_iff_forall_not_mem.2 fun a ha =>
      absurd (hitems a ha) List.not_mem_nil
    rw [hnil]
    rfl
  | cons k rest ih =>
    obtain ⟨hk, hrest⟩ := List.nodup_cons.1 hkeys
    -- The items of the first key are taken out, which changes nothing for the other keys.
    have hothers : rest.flatMap (fun k' => items.filter (key · = k')) =
        rest.flatMap fun k' => (items.filter fun a => !decide (key a = k)).filter (key · = k') := by
      rw [List.flatMap_def, List.flatMap_def]
      refine congrArg List.flatten (List.map_congr_left fun k' hk' => ?_)
      rw [List.filter_filter]
      refine List.filter_congr fun a _ => ?_
      by_cases ha : key a = k'
      · have hne : key a ≠ k := by
          rintro rfl
          exact hk (ha ▸ hk')
        simp [ha, show k' ≠ k from ha ▸ hne]
      · simp [ha]
    -- No item that is left has the first key.
    have hleft : ∀ a ∈ items.filter (fun a => !decide (key a = k)), key a ∈ rest := by
      intro a ha
      obtain ⟨hmem, hne⟩ := List.mem_filter.1 ha
      exact (List.mem_cons.1 (hitems a hmem)).resolve_left (by simpa using hne)
    rw [List.flatMap_cons, hothers]
    exact ((ih hrest hleft).append_left _).trans (List.filter_append_perm _ items)

end BenchCharts

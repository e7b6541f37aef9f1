/-!
# Computations that may fail

What it takes for a computation with several steps to give a result. `bind_eq_ok_iff` and
`mapError_eq_ok_iff` open the steps of a request one at a time, and `mapM_eq_some_iff` turns a pass
over a list each step of which may fail into an equation between lists.

`collect` is such a pass in which each item gives a list of its own. If it gives a result at all,
every item does, and the result is theirs one after the other (`collect_eq_ok_iff`).
-/

namespace BenchCharts

variable {α β γ ε ε' : Type}

/-- Two steps give a result if the first gives something from which the second gives it. -/
theorem bind_eq_ok_iff {x : Except ε α} {f : α → Except ε β} {b : β} :
    (x >>= f) = .ok b ↔ ∃ a, x = .ok a ∧ f a = .ok b := by
  cases x <;> simp [bind, Except.bind]

theorem pure_eq_ok_iff {a b : α} : (pure a : Except ε α) = .ok b ↔ a = b := by
  simp [pure, Except.pure]

/-- Another name for the error changes no result. -/
theorem mapError_eq_ok_iff {x : Except ε α} {f : ε → ε'} {a : α} :
    x.mapError f = .ok a ↔ x = .ok a := by
  cases x with
  | error e => constructor <;> intro h <;> cases h
  | ok b => constructor <;> intro h <;> cases h <;> rfl

theorem map_eq_ok_iff {x : Except ε α} {f : α → β} {b : β} :
    x.map f = .ok b ↔ ∃ a, x = .ok a ∧ f a = b := by
  cases x <;> simp [Except.map]

/-- Two steps fail with the error of the first that does. -/
theorem bind_eq_error_iff {x : Except ε α} {f : α → Except ε β} {e : ε} :
    (x >>= f) = .error e ↔ x = .error e ∨ ∃ a, x = .ok a ∧ f a = .error e := by
  cases x <;> simp [bind, Except.bind]

theorem mapError_eq_error_iff {x : Except ε α} {f : ε → ε'} {e : ε'} :
    x.mapError f = .error e ↔ ∃ cause, x = .error cause ∧ f cause = e := by
  cases x with
  | error cause =>
    constructor
    · intro h
      cases h
      exact ⟨cause, rfl, rfl⟩
    · rintro ⟨_, h, rfl⟩
      cases h
      rfl
  | ok a =>
    constructor
    · intro h
      cases h
    · rintro ⟨_, h, -⟩
      cases h

theorem map_eq_error_iff {x : Except ε α} {f : α → β} {e : ε} :
    x.map f = .error e ↔ x = .error e := by
  cases x <;> simp [Except.map]

theorem toOption_ok (a : α) : (Except.ok a : Except ε α).toOption = some a := rfl

theorem toOption_bind (x : Except ε α) (f : α → Except ε β) :
    (x >>= f).toOption = x.toOption.bind fun a => (f a).toOption := by
  cases x <;> rfl

theorem toOption_map (x : Except ε α) (f : α → β) : (x.map f).toOption = x.toOption.map f := by
  cases x <;> rfl

/-- What is made of a result can be changed afterwards. -/
theorem bind_pure_eq_map (x : Except ε α) {f : α → β} {f' : α → γ} {g : β → γ}
    (h : ∀ a, f' a = g (f a)) : (do return f' (← x)) = (do return f (← x)).map g := by
  cases x with
  | error e => rfl
  | ok a => exact congrArg Except.ok (h a)

/-- A pass over a list gives the list of what each item gives. -/
theorem mapM_eq_some_iff {f : α → Option β} {l : List α} {l' : List β} :
    l.mapM f = some l' ↔ l.map f = l'.map some := by
  induction l generalizing l' with
  | nil => cases l' <;> simp
  | cons a rest ih =>
    rw [List.mapM_cons, List.map_cons]
    cases hf : f a with
    | none => cases l' <;> simp
    | some b =>
      -- The pass in terms of `Option.bind`, without the monad.
      change ((rest.mapM f).bind fun more => some (b :: more)) = some l' ↔ _
      rw [Option.bind_eq_some_iff]
      cases l' with
      | nil => simp
      | cons b' more =>
        rw [List.map_cons, List.cons.injEq, ← ih]
        refine ⟨?_, ?_⟩
        · rintro ⟨found, hfound, heq⟩
          cases heq
          exact ⟨rfl, hfound⟩
        · rintro ⟨hb, hmore⟩
          cases hb
          exact ⟨more, hmore, rfl⟩

theorem mem_iff_of_mapM_eq_some {f : α → Option β} {l : List α} {l' : List β}
    (h : l.mapM f = some l') {b : β} : b ∈ l' ↔ ∃ a ∈ l, f a = some b := by
  rw [← List.mem_map, mapM_eq_some_iff.1 h, List.mem_map]
  simp

/-- A pass gives a list if each item gives something. -/
theorem mapM_congr_left {f g : α → Option β} {l : List α} (h : ∀ a ∈ l, f a = g a) :
    l.mapM f = l.mapM g :=
  Option.ext fun l' => by rw [mapM_eq_some_iff, mapM_eq_some_iff, List.map_congr_left h]

theorem isSome_mapM_iff {f : α → Option β} {l : List α} :
    (l.mapM f).isSome = true ↔ ∀ a ∈ l, (f a).isSome = true := by
  induction l with
  | nil => simp
  | cons a rest ih =>
    rw [List.mapM_cons, List.forall_mem_cons, ← ih]
    cases f a <;> cases rest.mapM f <;> simp

/-- What is known of the result of each item is known of the list that a pass gives. -/
theorem map_eq_map_of_mapM_eq_some {f : α → Option β} (g : α → γ) (k : β → γ) {l : List α}
    {l' : List β} (h : l.mapM f = some l') (hg : ∀ a ∈ l, ∀ b, f a = some b → k b = g a) :
    l'.map k = l.map g := by
  have hmap := mapM_eq_some_iff.1 h
  -- The induction is on the equation between the lists, which the pass is not needed for any more.
  clear h
  induction l generalizing l' with
  | nil => simpa using hmap.symm
  | cons a rest ih =>
    cases l' with
    | nil => cases hmap
    | cons b more =>
      obtain ⟨ha, hrest⟩ := List.cons.inj hmap
      obtain ⟨hfirst, hmore⟩ := List.forall_mem_cons.1 hg
      rw [List.map_cons, List.map_cons, ih hmore hrest, hfirst b ha]

/-- A pass that gives a list gives the one that is expected of the items. -/
theorem eq_map_of_mapM_eq_some {f : α → Option β} {g : α → β} {l : List α} {l' : List β}
    (h : l.mapM f = some l') (hg : ∀ a ∈ l, ∀ b, f a = some b → b = g a) : l' = l.map g := by
  rw [← map_eq_map_of_mapM_eq_some g id h hg, List.map_id]

/-- If only some items can be had at all, a pass gives a list if it is a list of such items. -/
theorem mapM_ite_eq_some_iff {p : α → Bool} {g : α → β} {l : List α} {l' : List β} :
    (l.mapM fun a => if p a then some (g a) else none) = some l' ↔
      (∀ a ∈ l, p a = true) ∧ l' = l.map g := by
  constructor
  · intro h
    -- Where the pass gives a list, every item passes the test, so the other branch is not taken.
    have hall := isSome_mapM_iff.1 (Option.isSome_iff_exists.2 ⟨l', h⟩)
    have hp : ∀ a ∈ l, p a = true := by simpa using hall
    refine ⟨hp, eq_map_of_mapM_eq_some h fun a ha b hb => ?_⟩
    rw [if_pos (hp a ha)] at hb
    exact (Option.some.inj hb).symm
  · rintro ⟨hp, rfl⟩
    rw [mapM_eq_some_iff, List.map_map]
    exact List.map_congr_left fun a ha => if_pos (hp a ha)

/-! ### Lists of results -/

/-- The results of all items one after the other, or the first error. -/
def collect (f : α → Except ε (List β)) : List α → Except ε (List β)
  | [] => .ok []
  | a :: rest => do
    let first ← f a
    return first ++ (← collect f rest)

/-- What an item gives, where an error gives nothing. -/
def resultsOf (f : α → Except ε (List β)) (a : α) : List β := (f a).toOption.getD []

theorem eq_ok_resultsOf {f : α → Except ε (List β)} {a : α} {l : List β} (h : f a = .ok l) :
    f a = .ok (resultsOf f a) := by
  rw [resultsOf, h]
  rfl

/-- **Results are collected item by item.** -/
theorem collect_eq_ok_iff {f : α → Except ε (List β)} {l : List α} {results : List β} :
    collect f l = .ok results ↔
      (∀ a ∈ l, f a = .ok (resultsOf f a)) ∧ results = l.flatMap (resultsOf f) := by
  induction l generalizing results with
  | nil => simp [collect, eq_comm]
  | cons a rest ih =>
    -- The first item and the rest fail or succeed apart from each other.
    rw [collect, bind_eq_ok_iff, List.forall_mem_cons, List.flatMap_cons]
    constructor
    · rintro ⟨first, hfirst, hrest⟩
      obtain ⟨more, hmore, hpure⟩ := bind_eq_ok_iff.1 hrest
      obtain rfl := pure_eq_ok_iff.1 hpure
      obtain ⟨hall, rfl⟩ := ih.1 hmore
      have hself : resultsOf f a = first := by
        rw [resultsOf, hfirst]
        rfl
      exact ⟨⟨eq_ok_resultsOf hfirst, hall⟩, by rw [hself]⟩
    · rintro ⟨⟨hfirst, hall⟩, rfl⟩
      exact ⟨_, hfirst, bind_eq_ok_iff.2 ⟨_, ih.2 ⟨hall, rfl⟩, rfl⟩⟩

/-- If results cannot be collected, some item has none. -/
theorem exists_of_collect_eq_error {f : α → Except ε (List β)} {l : List α} {e : ε}
    (h : collect f l = .error e) : ∃ a ∈ l, f a = .error e := by
  induction l with
  | nil => cases h
  | cons a rest ih =>
    rw [collect, bind_eq_error_iff] at h
    -- The error is that of the first item, or the pass over the rest stopped with it.
    rcases h with hfirst | ⟨first, -, hmore⟩
    · exact ⟨a, List.mem_cons_self .., hfirst⟩
    · rcases bind_eq_error_iff.1 hmore with hrest | ⟨more, -, hpure⟩
      · obtain ⟨b, hb, herror⟩ := ih hrest
        exact ⟨b, List.mem_cons_of_mem _ hb, herror⟩
      · cases hpure

theorem collect_congr {f g : α → Except ε (List β)} {l : List α} (h : ∀ a ∈ l, f a = g a) :
    collect f l = collect g l := by
  induction l with
  | nil => rfl
  | cons a rest ih =>
    obtain ⟨hfirst, hrest⟩ := List.forall_mem_cons.1 h
    rw [collect, collect, hfirst, ih hrest]

theorem collect_append (f : α → Except ε (List β)) (l l' : List α) :
    collect f (l ++ l') = (do return (← collect f l) ++ (← collect f l')) := by
  induction l with
  | nil =>
    rw [List.nil_append]
    cases collect f l' <;> rfl
  | cons a rest ih =>
    rw [List.cons_append, collect, collect, ih]
    -- Both sides stop at the first error in the order of the items.
    cases f a with
    | error e => rfl
    | ok first =>
      cases collect f rest with
      | error e => rfl
      | ok more =>
        cases collect f l' with
        | error e => rfl
        | ok others => exact congrArg Except.ok (List.append_assoc ..).symm

/-- A change of each result can as well be made at the end. -/
theorem collect_map (g : β → γ) (f : α → Except ε (List β)) (l : List α) :
    collect (fun a => (f a).map (List.map g)) l = (collect f l).map (List.map g) := by
  induction l with
  | nil => rfl
  | cons a rest ih =>
    rw [collect, collect, ih]
    -- An error is the same before and after the change.
    cases f a with
    | error e => rfl
    | ok first =>
      cases collect f rest with
      | error e => rfl
      | ok more => exact congrArg Except.ok (List.map_append).symm

end BenchCharts

import BenchCharts.Params.Containment
import BenchCharts.Proofs.Params.Leaves

/-!
# Containment by ends

Containment goes down a pattern member by member. For a pattern with unique keys this is the same as
asking at each end of it whether the whole has something there that contains the end
(`Fields.containsFields_iff_ends`): objects on the way are there because something in them is.
-/

namespace BenchCharts.Json

/-- Only an object contains an object. -/
theorem contains_obj_iff {whole : Json} {pattern : Fields} :
    whole.contains (.obj pattern) = true ↔
      ∃ fields : Fields, whole = .obj fields ∧ containsFields fields pattern = true := by
  rw [contains.eq_def]
  cases whole with
  | obj fields => simp
  | _ => simp

/-- Every object contains the empty object, and nothing else does. -/
theorem contains_obj_nil_iff {whole : Json} :
    whole.contains (.obj []) = true ↔ ∃ fields : Fields, whole = .obj fields := by
  simp [contains_obj_iff, containsFields]

namespace Fields

/-- A member is contained together with the others. -/
theorem containsFields_cons_iff {whole rest : Fields} {key : String} {pattern : Json} :
    containsFields whole ((key, pattern) :: rest) = true ↔
      (∃ value, whole.get? key = some value ∧ value.contains pattern = true) ∧
        containsFields whole rest = true := by
  rw [containsFields, Bool.and_eq_true]
  refine and_congr_left' ?_
  cases whole.get? key <;> simp

/-- An object with members has an end. -/
theorem exists_end {fields : Fields} (hne : fields ≠ []) :
    ∃ keys value, fields.getKeys? keys = some value ∧ value.isEnd = true := by
  induction fields using nestedInduction with
  | nil => exact absurd rfl hne
  | leaf name value rest hleaf =>
    exact ⟨[name], value, by simp, isEnd_of_isObject_eq_false hleaf⟩
  | object name inner rest ih =>
    have hname : get? ((name, .obj inner) :: rest) name = some (.obj inner) := by simp
    -- An empty object is an end itself; any other one has an end in it.
    by_cases hinner : inner = []
    · subst hinner
      exact ⟨[name], .obj [], by rw [getKeys?_singleton, hname], rfl⟩
    · obtain ⟨keys, value, hget, hend⟩ := ih hinner
      refine ⟨name :: keys, value, getKeys?_cons_eq_some_iff.2 ⟨_, hname, ?_⟩, hend⟩
      exact (Fields.getKeys?_eq_some_iff.1 hget).2

/-- An object that has something at the keys of every end of another one, below some value, has an
object there. -/
theorem exists_obj_of_ends {whole inner : Fields} {name : String} (hne : inner ≠ [])
    (hends : ∀ keys value, inner.getKeys? keys = some value → value.isEnd = true →
      ∃ found, whole.getKeys? (name :: keys) = some found ∧ found.contains value = true) :
    ∃ fields : Fields, whole.get? name = some (.obj fields) := by
  obtain ⟨keys, value, hget, hend⟩ := exists_end hne
  obtain ⟨found, hfound, -⟩ := hends keys value hget hend
  obtain ⟨first, hfirst, hmore⟩ := getKeys?_cons_eq_some_iff.1 hfound
  -- An end is reached by some key, so what is on the way there is an object.
  cases keys with
  | nil => simp [Fields.getKeys?] at hget
  | cons key more =>
    obtain ⟨fields, rfl, -⟩ := Json.getKeys?_cons_eq_some_iff.1 hmore
    exact ⟨fields, hfirst⟩

/-- **Containment is decided at the ends of the pattern.** -/
theorem containsFields_iff_ends {pattern : Fields} (hnormal : (Json.obj pattern).Normal)
    {whole : Fields} :
    containsFields whole pattern = true ↔
      ∀ keys value, pattern.getKeys? keys = some value → value.isEnd = true →
        ∃ found, whole.getKeys? keys = some found ∧ found.contains value = true := by
  induction pattern using nestedInduction generalizing whole with
  | nil =>
    refine iff_of_true (by rw [containsFields]) fun keys value hget => ?_
    simp at hget
  | leaf name first rest hleaf ih =>
    rw [containsFields_cons_iff, ih hnormal.tail]
    simp only [getKeys?_member_cons_iff hnormal, getKeys?_eq_some_iff_of_isObject_eq_false hleaf]
    refine ⟨?_, ?_⟩
    · rintro ⟨⟨found, hfound, hcontains⟩, hrest⟩ keys value (⟨more, rfl, rfl, rfl⟩ | hget) hend
      · exact ⟨found, by rw [getKeys?_singleton, hfound], hcontains⟩
      · exact hrest keys value hget hend
    · refine fun hends => ⟨?_, fun keys value hget => hends keys value (.inr hget)⟩
      obtain ⟨found, hfound, hcontains⟩ :=
        hends [name] first (.inl ⟨[], rfl, rfl, rfl⟩) (isEnd_of_isObject_eq_false hleaf)
      rw [getKeys?_singleton] at hfound
      exact ⟨found, hfound, hcontains⟩
  | object name inner rest ihinner ihrest =>
    rw [containsFields_cons_iff, ihrest hnormal.tail]
    simp only [getKeys?_member_cons_iff hnormal, contains_obj_iff, ihinner hnormal.head]
    refine ⟨?_, ?_⟩
    · rintro ⟨⟨-, hfields, fields, rfl, hinner⟩, hrest⟩ keys value (⟨more, rfl, hget⟩ | hget) hend
      · cases more with
        | nil =>
          -- The member itself is an end: it is the empty object.
          cases hget
          obtain rfl : inner = [] := by simpa [isEnd] using hend
          refine ⟨.obj fields, by rw [getKeys?_singleton, hfields], ?_⟩
          exact contains_obj_nil_iff.2 ⟨fields, rfl⟩
        | cons key more =>
          rw [getKeys?_obj] at hget
          obtain ⟨found, hfound, hcontains⟩ := hinner _ value hget hend
          refine ⟨found, getKeys?_cons_eq_some_iff.2 ⟨_, hfields, ?_⟩, hcontains⟩
          rw [getKeys?_obj, hfound]
      · exact hrest keys value hget hend
    · refine fun hends => ⟨?_, fun keys value hget => hends keys value (.inr hget)⟩
      -- Every end of the inner object is one of the whole pattern, at one more key.
      have hbelow : ∀ keys value, inner.getKeys? keys = some value → value.isEnd = true →
          ∃ found, whole.getKeys? (name :: keys) = some found ∧ found.contains value = true :=
        fun keys value hget hend =>
          hends (name :: keys) value
            (.inl ⟨keys, rfl, (Fields.getKeys?_eq_some_iff.1 hget).2⟩) hend
      -- Without members the inner object is an end, and with members it has ends below it.
      by_cases hempty : inner = []
      · subst hempty
        obtain ⟨found, hfound, hcontains⟩ := hends [name] (.obj []) (.inl ⟨[], rfl, rfl⟩) rfl
        obtain ⟨fields, rfl⟩ := contains_obj_nil_iff.1 hcontains
        rw [getKeys?_singleton] at hfound
        refine ⟨.obj fields, hfound, fields, rfl, fun keys value hget => ?_⟩
        simp at hget
      · obtain ⟨fields, hfields⟩ := exists_obj_of_ends hempty hbelow
        refine ⟨.obj fields, hfields, fields, rfl, fun keys value hget hend => ?_⟩
        obtain ⟨found, hfound, hcontains⟩ := hbelow keys value hget hend
        obtain ⟨first, hfirst, hmore⟩ := getKeys?_cons_eq_some_iff.1 hfound
        obtain rfl : Json.obj fields = first := by simpa [hfields] using hfirst
        refine ⟨found, Fields.getKeys?_eq_some_iff.2 ⟨?_, hmore⟩, hcontains⟩
        exact (Fields.getKeys?_eq_some_iff.1 hget).1

end Fields

end BenchCharts.Json

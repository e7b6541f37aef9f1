import BenchCharts.Proofs.Json.Numerals
import BenchCharts.Proofs.Json.Reread

/-!
# Values that are written and read

A value can be written with or without blanks, and read again either way. Nothing is lost but what
numbers lose: the value of a float is made of its digits by the rule of the reader, and a float that
is not finite has been written as `null`. `Json.readBack?` is a value after that, and none if some
number is out of the range of the rule or if containers are nested too deeply.

`readBy?_chars` says that this is what is read of the whole text. The parts of it are read in the
same way wherever they stand: texts because of their closing quotes (`text?_escaped`), numbers as
long as what follows does not go on with them (`value?_spell`), and containers by induction on the
value (`readsBack`).

How much numbers lose is settled by `Number.keepsValue`: an integer of 64 bits nothing, and a float
no more than the rule of the reader makes of a decimal that rounds to it. For the rule that texts in
a store are read by, `read?_compact` says that `Json.readable` and `Json.reread` are what becomes of
a value that is kept in one.
-/

namespace BenchCharts

open Json Json.Reader

/-- What is read where a number was written. -/
def Number.readBack? (rule : DecimalRule) (n : Number) : Option Json :=
  (value? (.strict rule) 1 0 n.spell.toList).map Prod.fst

/-- A number that every reader gets back as far as its rule for floats allows: an integer of 64 bits
as it is, with or without a sign, and a finite float as what the rule makes of the digits of a
decimal that rounds to the float. -/
def Number.KeepsValue : Number → Prop
  | .int n => -9223372036854775808 ≤ n → n < 18446744073709551616 →
    ∀ rule, (Number.int n).readBack? rule = some (.num (.int n))
  | .float x =>
    (Binary.ofFloat? x = none → ∀ rule, (Number.float x).readBack? rule = some .null) ∧
      ∀ b, Binary.ofFloat? x = some b →
        ∃ whole places power, Decimal.RoundsTo (Decimal.ofDigits whole places power).toRat b ∧
          ∀ rule, (Number.float x).readBack? rule =
            (rule b.negative whole places power).map fun y => .num (.float y)

namespace Json

mutual

/-- What is read where a value was written, by a reader that goes into `depth` containers. -/
def readBack? (rule : DecimalRule) : Nat → Json → Option Json
  | _, .null => some .null
  | _, .bool b => some (.bool b)
  | _, .num n => n.readBack? rule
  | _, .str s => some (.str s)
  | 0, .arr _ => none
  | 0, .obj _ => none
  | depth + 1, .arr items => (readItemsBack? rule depth items).map .arr
  | depth + 1, .obj fields => (readMembersBack? rule depth fields).map .obj

/-- What is read where items were written. -/
def readItemsBack? (rule : DecimalRule) (depth : Nat) : List Json → Option (List Json)
  | [] => some []
  | item :: rest => do return (← readBack? rule depth item) :: (← readItemsBack? rule depth rest)

/-- What is read where members were written. -/
def readMembersBack? (rule : DecimalRule) (depth : Nat) : Fields → Option Fields
  | [] => some []
  | (key, value) :: rest => do
    return (key, ← readBack? rule depth value) :: (← readMembersBack? rule depth rest)

end

namespace Reader

/-! ### Blanks -/

/-- Characters that are passed over between the parts of a value. -/
def IsBlank (cs : List Char) : Prop := ∀ c ∈ cs, c = ' ' ∨ c = '\n' ∨ c = '\t' ∨ c = '\r'

theorem dropSpace_append {blanks : List Char} (h : IsBlank blanks) (cs : List Char) :
    dropSpace (blanks ++ cs) = dropSpace cs := by
  refine List.dropWhile_append_of_pos fun c hc => ?_
  rcases h c hc with rfl | rfl | rfl | rfl <;> rfl

/-- A value begins where the blanks in front of it end. -/
theorem value?_append {blanks : List Char} (h : IsBlank blanks) (rules : Rules) (fuel depth : Nat)
    (cs : List Char) : value? rules fuel depth (blanks ++ cs) = value? rules fuel depth cs := by
  cases fuel with
  | zero => rw [value?, value?]
  | succ fuel => rw [value?, value?, dropSpace_append h]

theorem items?_append {blanks : List Char} (h : IsBlank blanks) (rules : Rules) (fuel depth : Nat)
    (cs : List Char) : items? rules fuel depth (blanks ++ cs) = items? rules fuel depth cs := by
  cases fuel with
  | zero => rw [items?, items?]
  | succ fuel => rw [items?, items?, value?_append h]

theorem members?_append {blanks : List Char} (h : IsBlank blanks) (rules : Rules)
    (fuel depth : Nat) (cs : List Char) :
    members? rules fuel depth (blanks ++ cs) = members? rules fuel depth cs := by
  cases fuel with
  | zero => rw [members?, members?]
  | succ fuel => rw [members?, members?, dropSpace_append h]

/-- The spacing puts nothing but blanks between the parts. -/
structure IsSpacing (spacing : Spacing) : Prop where
  /-- In front of items, members and closing brackets. -/
  gap : ∀ level, IsBlank (spacing.gap level)
  /-- After colons. -/
  afterColon : IsBlank spacing.afterColon

theorem isSpacing_none : IsSpacing .none :=
  ⟨fun _ _ hc => absurd hc List.not_mem_nil, fun _ hc => absurd hc List.not_mem_nil⟩

theorem isSpacing_lines : IsSpacing .lines := by
  refine ⟨fun level c hc => ?_, fun c hc => .inl (List.mem_singleton.1 hc)⟩
  rcases List.mem_cons.1 hc with rfl | hc
  · exact .inr (.inl rfl)
  · exact .inl (List.eq_of_mem_replicate hc)

/-! ### Texts -/

/-- The code of a control character is read back. -/
theorem hex4?_hexDigit :
    ∀ n < 32, hex4? '0' '0' (hexDigit (n / 16)) (hexDigit (n % 16)) = some n := by
  decide

/-- A character is read back from its escape, or from itself. -/
theorem text?_escapeChar (c : Char) (rest : List Char) :
    text? (escapeChar c ++ rest) = (text? rest).map fun (cs, rest) => (c :: cs, rest) := by
  unfold escapeChar
  -- One case for each escape of its own, then the control characters, then all others.
  split_ifs with hquote hslash hb hf hn hr ht hcontrol
  · subst hquote
    rfl
  · subst hslash
    rfl
  · subst hb
    rfl
  · subst hf
    rfl
  · subst hn
    rfl
  · subst hr
    rfl
  · subst ht
    rfl
  · have hcode := hex4?_hexDigit c.toNat hcontrol
    simp only [List.cons_append, List.nil_append]
    rw [text?, hcode]
    -- The code of a control character is no half of a surrogate pair.
    simp only [show ¬ (0xD800 ≤ c.toNat ∧ c.toNat < 0xDC00) by omega,
      show ¬ (0xDC00 ≤ c.toNat ∧ c.toNat < 0xE000) by omega, if_false, Char.ofNat_toNat]
  · rw [List.singleton_append, text?, if_neg hcontrol]
    all_goals simp [hquote, hslash]

/-- **A text ends at its closing quote**, and every character before it is read back. -/
theorem text?_escaped (cs rest : List Char) :
    text? (cs.flatMap escapeChar ++ '"' :: rest) = some (cs, rest) := by
  induction cs with
  | nil => rfl
  | cons c cs ih =>
    rw [List.flatMap_cons, List.append_assoc, text?_escapeChar, ih]
    rfl

@[simp] theorem strict_text (rule : DecimalRule) : (Rules.strict rule).text = text? := rfl

/-! ### Numbers -/

theorem readBack?_of_isNumber {n : Number} {negative : Bool} {p : Numeral}
    (h : IsNumber n.spell.toList negative p) (rule : DecimalRule) :
    n.readBack? rule = (p.read? rule negative).map .num := by
  have hread := h.value?_append (.strict rule) 0 0 stops_nil
  rw [List.append_nil] at hread
  rw [Number.readBack?, hread, Option.map_map]
  rfl

/-- What is read where a number was written does not depend on what follows. -/
theorem value?_spell (rule : DecimalRule) (n : Number) {rest : List Char} (hrest : Stops rest)
    (fuel depth : Nat) :
    value? (.strict rule) (fuel + 1) depth (n.spell.toList ++ rest) =
      (n.readBack? rule).map fun j => (j, rest) := by
  -- Either the reader takes the digits, or it takes the word.
  rcases isNumber_spell n with ⟨negative, p, h⟩ | h
  · rw [h.value?_append (.strict rule) fuel depth hrest, readBack?_of_isNumber h, Option.map_map]
    rfl
  · rw [Number.readBack?, h]
    rfl

/-! ### Values -/

theorem stops_append {blanks : List Char} (h : IsBlank blanks) {rest : List Char}
    (hrest : Stops rest) : Stops (blanks ++ rest) := by
  cases blanks with
  | nil => exact hrest
  | cons c more =>
    refine stops_cons _ ?_
    rcases h c (List.mem_cons_self ..) with rfl | rfl | rfl | rfl <;> decide

/-- A value starts with neither a blank nor a closing bracket. -/
theorem exists_cons_chars (spacing : Spacing) (level : Nat) (j : Json) :
    ∃ c rest, j.chars spacing level = c :: rest ∧ c ∉ [' ', '\n', '\t', '\r', ']'] := by
  cases j with
  | null => exact ⟨'n', _, rfl, by decide⟩
  | bool b => cases b with
    | true => exact ⟨'t', _, rfl, by decide⟩
    | false => exact ⟨'f', _, rfl, by decide⟩
  | str s => exact ⟨'"', _, rfl, by decide⟩
  | arr items =>
    cases items with
    | nil => exact ⟨'[', _, rfl, by decide⟩
    | cons item rest => exact ⟨'[', _, rfl, by decide⟩
  | obj fields =>
    cases fields with
    | nil => exact ⟨'{', _, rfl, by decide⟩
    | cons member rest => exact ⟨'{', _, rfl, by decide⟩
  | num n =>
    rcases isNumber_spell n with ⟨negative, p, h⟩ | h
    · obtain ⟨c, rest, heq, hc⟩ := h.exists_cons
      refine ⟨c, rest, heq, fun hmem => ?_⟩
      have hnot : ∀ other ∈ [' ', '\n', '\t', '\r', ']'],
          ¬ (Text.isDigit other = true ∨ other = '-') := by simp [Text.isDigit, Text.digit?]
      exact hnot c hmem hc
    · refine ⟨'n', "ull".toList, ?_, by decide⟩
      change n.spell.toList = _
      rw [h]
      rfl

theorem length_chars_pos (spacing : Spacing) (level : Nat) (j : Json) :
    0 < (j.chars spacing level).length := by
  obtain ⟨c, rest, heq, -⟩ := exists_cons_chars spacing level j
  rw [heq]
  exact Nat.succ_pos _

theorem length_itemsChars_pos (spacing : Spacing) (level : Nat) (items : List Json) :
    0 < (itemsChars spacing level items).length := by
  cases items with
  | nil => simp [itemsChars]
  | cons item rest =>
    have hpos := length_chars_pos spacing (level + 1) item
    simp only [itemsChars, List.length_append]
    omega

theorem dropSpace_cons {c : Char} (hc : c ∉ [' ', '\n', '\t', '\r', ']']) (rest : List Char) :
    dropSpace (c :: rest) = c :: rest := by
  refine List.dropWhile_cons_of_neg ?_
  simp only [List.mem_cons, not_or] at hc
  obtain ⟨hspace, hline, htab, hreturn, -⟩ := hc
  simp [hspace, hline, htab, hreturn]

/-- A value is read back wherever it is written. -/
def ReadsBack (rule : DecimalRule) (spacing : Spacing) (j : Json) : Prop :=
  ∀ level fuel depth rest, Stops rest → (j.chars spacing level).length < fuel →
    value? (.strict rule) fuel depth (j.chars spacing level ++ rest) =
      (j.readBack? rule depth).map fun j => (j, rest)

section Containers

variable {rule : DecimalRule} {spacing : Spacing} (hspacing : IsSpacing spacing)

include hspacing

/-- What follows an item does not go on with it. -/
theorem stops_itemsChars (level : Nat) (more : List Json) (rest : List Char) :
    Stops ((if more.isEmpty then [] else [',']) ++ (itemsChars spacing level more ++ rest)) := by
  cases more with
  | nil =>
    rw [itemsChars, List.append_assoc]
    exact stops_append (hspacing.gap level) (stops_cons _ (by decide))
  | cons next others => exact stops_cons _ (by decide)

/-- Items up to the closing bracket, if each of them is read back. -/
theorem items?_itemsChars {items : List Json} (hitems : ∀ item ∈ items, ReadsBack rule spacing item)
    (hne : items ≠ []) (level depth : Nat) (rest : List Char) {fuel : Nat}
    (hfuel : (itemsChars spacing level items).length < fuel) :
    items? (.strict rule) fuel depth (itemsChars spacing level items ++ rest) =
      (readItemsBack? rule depth items).map fun items => (items, rest) := by
  induction items generalizing fuel with
  | nil => exact absurd rfl hne
  | cons item more ih =>
    obtain ⟨hitem, hmore⟩ := List.forall_mem_cons.1 hitems
    have hpos := length_chars_pos spacing (level + 1) item
    have hclosed := length_itemsChars_pos spacing level more
    rw [itemsChars] at hfuel ⊢
    simp only [List.length_append] at hfuel
    obtain ⟨fuel, rfl⟩ := Nat.exists_eq_add_one_of_ne_zero (Nat.ne_zero_of_lt hfuel)
    simp only [List.append_assoc]
    -- The item is read first, and stops at the comma or at the bracket.
    rw [items?, value?_append (hspacing.gap _), readItemsBack?,
      hitem _ _ _ _ (stops_itemsChars hspacing level more rest) (by omega)]
    cases item.readBack? rule depth with
    | none => rfl
    | some value =>
      simp only [Option.map_some, Option.bind_eq_bind, Option.bind_some]
      have hshorter : (itemsChars spacing level more).length < fuel := by omega
      cases more with
      | nil =>
        rw [itemsChars, List.append_assoc, List.isEmpty_nil, if_pos rfl, List.nil_append,
          dropSpace_append (hspacing.gap level)]
        rfl
      -- After a comma, the other items are read with less fuel.
      | cons next others =>
        have hread := ih hmore (List.cons_ne_nil _ _) hshorter
        have hcomma : ∀ cs, dropSpace (',' :: cs) = ',' :: cs := fun cs => rfl
        simp only [List.isEmpty_cons, Bool.false_eq_true, if_false, List.cons_append,
          List.nil_append, hcomma, hread]
        cases readItemsBack? rule depth (next :: others) <;> rfl

/-- What follows a member does not go on with it. -/
theorem stops_membersChars (level : Nat) (more : Fields) (rest : List Char) :
    Stops ((if more.isEmpty then [] else [',']) ++ (membersChars spacing level more ++ rest)) := by
  cases more with
  | nil =>
    rw [membersChars, List.append_assoc]
    exact stops_append (hspacing.gap level) (stops_cons _ (by decide))
  | cons next others => exact stops_cons _ (by decide)

/-- Members up to the closing brace, if the value of each of them is read back. -/
theorem members?_membersChars {fields : Fields}
    (hfields : ∀ member ∈ fields, ReadsBack rule spacing member.2) (hne : fields ≠ [])
    (level depth : Nat) (rest : List Char) {fuel : Nat}
    (hfuel : (membersChars spacing level fields).length < fuel) :
    members? (.strict rule) fuel depth (membersChars spacing level fields ++ rest) =
      (readMembersBack? rule depth fields).map fun fields => (fields, rest) := by
  induction fields generalizing fuel with
  | nil => exact absurd rfl hne
  | cons member more ih =>
    obtain ⟨key, value⟩ := member
    obtain ⟨hvalue, hmore⟩ := List.forall_mem_cons.1 hfields
    change ReadsBack rule spacing value at hvalue
    rw [membersChars] at hfuel ⊢
    simp only [List.length_append, List.length_cons] at hfuel
    obtain ⟨fuel, rfl⟩ := Nat.exists_eq_add_one_of_ne_zero (Nat.ne_zero_of_lt hfuel)
    -- A member is a key in quotes, a colon and a value, and each of the three begins where blanks
    -- end.
    have hquote : ∀ cs, dropSpace (quote key ++ cs) =
        '"' :: (key.toList.flatMap escapeChar ++ '"' :: cs) := by
      intro cs
      rw [quote, List.append_assoc]
      rfl
    have hafter : ∀ c cs, after? [c] (c :: cs) = some cs := by
      intro c cs
      simp [after?]
    have hcolon : ∀ cs, dropSpace (':' :: cs) = ':' :: cs := fun cs => rfl
    simp only [List.append_assoc, List.cons_append]
    rw [members?, dropSpace_append (hspacing.gap _), hquote, hafter, readMembersBack?]
    simp only [Option.bind_eq_bind, Option.bind_some, strict_text, text?_escaped, hcolon, hafter]
    rw [value?_append hspacing.afterColon,
      hvalue _ _ _ _ (stops_membersChars hspacing level more rest) (by omega), String.ofList_toList]
    cases value.readBack? rule depth with
    | none => rfl
    | some value =>
      simp only [Option.map_some, Option.bind_some]
      have hshorter : (membersChars spacing level more).length < fuel := by omega
      cases more with
      | nil =>
        rw [membersChars, List.append_assoc, List.isEmpty_nil, if_pos rfl, List.nil_append,
          dropSpace_append (hspacing.gap level)]
        rfl
      -- After a comma, the other members are read with less fuel.
      | cons next others =>
        have hread := ih hmore (List.cons_ne_nil _ _) hshorter
        have hcomma : ∀ cs, dropSpace (',' :: cs) = ',' :: cs := fun cs => rfl
        simp only [List.isEmpty_cons, Bool.false_eq_true, if_false, List.cons_append,
          List.nil_append, hcomma, hread]
        cases readMembersBack? rule depth (next :: others) <;> rfl

theorem readsBack_arr {items : List Json} (hitems : ∀ item ∈ items, ReadsBack rule spacing item) :
    ReadsBack rule spacing (.arr items) := by
  intro level fuel depth rest hrest hfuel
  obtain ⟨fuel, rfl⟩ := Nat.exists_eq_add_one_of_ne_zero (Nat.ne_zero_of_lt hfuel)
  cases items with
  -- An array without items is written without blanks.
  | nil => cases depth <;> (rw [chars]; rfl)
  | cons item more =>
    rw [chars] at hfuel ⊢
    cases depth with
    | zero => rfl
    | succ depth =>
      have hread := items?_itemsChars hspacing hitems (List.cons_ne_nil _ _) level depth rest
        (Nat.lt_of_succ_lt_succ hfuel)
      -- What follows the bracket is no bracket, so there are items to be read.
      obtain ⟨c, cs, hchars, hc⟩ := exists_cons_chars spacing (level + 1) item
      have hitemsChars : ∃ more', itemsChars spacing level (item :: more) ++ rest =
          spacing.gap (level + 1) ++ c :: more' := by
        rw [itemsChars, hchars]
        simp only [List.append_assoc, List.cons_append]
        exact ⟨_, rfl⟩
      obtain ⟨more', hitemsChars⟩ := hitemsChars
      rw [hitemsChars, items?_append (hspacing.gap _)] at hread
      have hopen : ∀ cs, dropSpace ('[' :: cs) = '[' :: cs := fun cs => rfl
      rw [List.cons_append, hitemsChars, value?, hopen]
      simp only [dropSpace_append (hspacing.gap _), dropSpace_cons hc]
      split
      · next heq =>
        cases heq
        exact absurd (by simp) hc
      · rw [hread, readBack?]
        cases readItemsBack? rule depth (item :: more) <;> rfl

theorem readsBack_obj {fields : Fields}
    (hfields : ∀ member ∈ fields, ReadsBack rule spacing member.2) :
    ReadsBack rule spacing (.obj fields) := by
  intro level fuel depth rest hrest hfuel
  obtain ⟨fuel, rfl⟩ := Nat.exists_eq_add_one_of_ne_zero (Nat.ne_zero_of_lt hfuel)
  cases fields with
  -- So is an object without members.
  | nil => cases depth <;> (rw [chars]; rfl)
  | cons member more =>
    rw [chars] at hfuel ⊢
    cases depth with
    | zero => rfl
    | succ depth =>
      have hread := members?_membersChars hspacing hfields (List.cons_ne_nil _ _) level depth rest
        (Nat.lt_of_succ_lt_succ hfuel)
      -- What follows the brace is a quote, so there are members to be read.
      have hmembersChars : ∃ more', membersChars spacing level (member :: more) ++ rest =
          spacing.gap (level + 1) ++ '"' :: more' := by
        rw [membersChars, quote]
        simp only [List.append_assoc, List.cons_append]
        exact ⟨_, rfl⟩
      obtain ⟨more', hmembersChars⟩ := hmembersChars
      rw [hmembersChars, members?_append (hspacing.gap _)] at hread
      have hopen : ∀ cs, dropSpace ('{' :: cs) = '{' :: cs := fun cs => rfl
      have hquote : ∀ cs, dropSpace ('"' :: cs) = '"' :: cs := fun cs => rfl
      rw [List.cons_append, hmembersChars, value?, hopen]
      simp only [dropSpace_append (hspacing.gap _), hquote]
      change (members? _ fuel depth ('"' :: more')).map _ = _
      rw [hread, readBack?]
      cases readMembersBack? rule depth (member :: more) <;> rfl

/-- **A value is read back wherever it is written.** -/
theorem readsBack (rule : DecimalRule) (j : Json) : ReadsBack rule spacing j := by
  -- The containers are read back because their items and members are.
  induction j using deepInduction with
  | atom j harr hobj =>
    intro level fuel depth rest hrest hfuel
    obtain ⟨fuel, rfl⟩ := Nat.exists_eq_add_one_of_ne_zero (Nat.ne_zero_of_lt hfuel)
    cases j with
    | null => rw [chars, readBack?]; rfl
    | bool b => cases b <;> (rw [chars, readBack?]; rfl)
    | num n => rw [chars, readBack?, value?_spell rule n hrest]
    | str s =>
      have hquote : ∀ cs, dropSpace ('"' :: cs) = '"' :: cs := fun cs => rfl
      rw [chars, readBack?, quote, List.append_assoc, List.cons_append, value?, hquote]
      simp only [strict_text, List.singleton_append, text?_escaped, Option.map_some,
        String.ofList_toList]
    | arr items => cases harr
    | obj fields => cases hobj
  | arr items ih => exact readsBack_arr hspacing ih
  | obj fields ih => exact readsBack_obj hspacing ih

/-- **What is read of a whole text** in which a value was written, with blanks after it. -/
theorem readBy?_chars (rule : DecimalRule) (depth level : Nat) (j : Json) {blanks : List Char}
    (hblanks : IsBlank blanks) :
    readBy? rule depth .any (.ofList (j.chars spacing level ++ blanks)) =
      j.readBack? rule depth := by
  have hstops : Stops blanks := by
    have happend := stops_append hblanks stops_nil
    rwa [List.append_nil] at happend
  have hend : dropSpace blanks = [] := by
    have happend := dropSpace_append hblanks []
    rwa [List.append_nil] at happend
  rw [readBy?, String.toList_ofList, shaped?, readsBack hspacing rule j level _ depth blanks hstops
    (by simp only [List.length_append]; omega)]
  -- Nothing but blanks is left over.
  cases j.readBack? rule depth with
  | none => rfl
  | some value => simp [hend]

end Containers

end Reader

end Json

/-! ### What is left of numbers -/

theorem Number.readBack?_int (rule : DecimalRule) {n : Int} (hlow : -9223372036854775808 ≤ n)
    (hhigh : n < 18446744073709551616) :
    (Number.int n).readBack? rule = some (.num (.int n)) := by
  rw [readBack?_of_isNumber (isNumber_spell_int n), read?_toDigits rule hlow hhigh]
  rfl

/-- **Every number keeps its value.** -/
theorem Number.keepsValue (n : Number) : n.KeepsValue := by
  cases n with
  | int n => exact fun hlow hhigh rule => Number.readBack?_int rule hlow hhigh
  | float x =>
    refine ⟨fun h rule => ?_, fun b h => ?_⟩
    -- A float that is not finite is written as `null`.
    · rw [Number.readBack?, Number.spell, Decimal.spell?, h]
      rfl
    -- Any other is written with a point or a power of ten, so the reader asks its rule.
    · obtain ⟨p, hnumber, hinteger, hrounds⟩ := exists_isNumber_spell_float h
      refine ⟨_, _, _, hrounds, fun rule => ?_⟩
      rw [readBack?_of_isNumber hnumber, Numeral.read?, if_neg hinteger, Option.map_map]
      rfl

/-- A number that is written as one and is not too long for the reader: an integer of 64 bits, with
or without a sign, or a finite float. -/
def Number.Written : Number → Prop
  | .int n => -9223372036854775808 ≤ n ∧ n < 18446744073709551616
  | .float x => (Decimal.spell? x).isSome = true

theorem Number.readBack?_of_written {n : Number} (h : n.Written) :
    n.readBack? Decimal.scaled? = n.reread?.map .num := by
  cases n with
  | int n => exact Number.readBack?_int _ h.1 h.2
  | float x =>
    have hfinite : (Binary.ofFloat? x).isSome = true := by
      rwa [Number.Written, Decimal.spell?, Option.isSome_map] at h
    obtain ⟨b, hb⟩ := Option.isSome_iff_exists.1 hfinite
    obtain ⟨p, hnumber, -⟩ := exists_isNumber_spell_float hb
    have halone := hnumber.number?_append Decimal.scaled? stops_nil
    rw [List.append_nil] at halone
    rw [readBack?_of_isNumber hnumber, Number.reread?, halone, Option.map_map]
    cases p.read? Decimal.scaled? b.negative <;> rfl

namespace Json

/-- Two values that are there under some conditions are there together under both. -/
theorem bind_ite_some {α β γ : Type} {p q : Prop} [Decidable p] [Decidable q] (a : α) (b : β)
    (f : α → β → γ) :
    ((if p then some a else none) >>= fun x =>
      (if q then some b else none) >>= fun y => pure (f x y)) =
        if p ∧ q then some (f a b) else none := by
  by_cases hp : p
  · by_cases hq : q
    · rw [if_pos hp, if_pos hq, if_pos ⟨hp, hq⟩]
      rfl
    · rw [if_pos hp, if_neg hq, if_neg fun h => hq h.2]
      rfl
  · rw [if_neg hp, if_neg fun h : p ∧ q => hp h.1]
    rfl

theorem readItemsBack?_of_written {depth : Nat} {items : List Json}
    (hitems : ∀ item ∈ items, item.readBack? Decimal.scaled? depth =
      if item.depth ≤ depth ∧ ∀ n ∈ item.numbers, n.reread?.isSome = true then some item.reread
      else none) :
    readItemsBack? Decimal.scaled? depth items =
      if depthOfItems items ≤ depth ∧ ∀ n ∈ numbersOfItems items, n.reread?.isSome = true then
        some (rereadItems items)
      else none := by
  induction items with
  | nil => simp [readItemsBack?, depthOfItems, numbersOfItems, rereadItems]
  | cons item rest ih =>
    obtain ⟨hitem, hrest⟩ := List.forall_mem_cons.1 hitems
    rw [readItemsBack?, hitem, ih hrest, depthOfItems, numbersOfItems, rereadItems]
    simp only [Nat.max_le, List.forall_mem_append]
    -- The array is as deep as its deepest item, and has the numbers of all items.
    rw [bind_ite_some]
    exact if_congr and_and_and_comm rfl rfl

theorem readMembersBack?_of_written {depth : Nat} {fields : Fields}
    (hfields : ∀ member ∈ fields, member.2.readBack? Decimal.scaled? depth =
      if member.2.depth ≤ depth ∧ ∀ n ∈ member.2.numbers, n.reread?.isSome = true then
        some member.2.reread
      else none) :
    readMembersBack? Decimal.scaled? depth fields =
      if depthOfFields fields ≤ depth ∧ ∀ n ∈ numbersOfFields fields, n.reread?.isSome = true then
        some (rereadFields fields)
      else none := by
  induction fields with
  | nil => simp [readMembersBack?, depthOfFields, numbersOfFields, rereadFields]
  | cons member rest ih =>
    obtain ⟨key, value⟩ := member
    obtain ⟨hvalue, hrest⟩ := List.forall_mem_cons.1 hfields
    rw [readMembersBack?, hvalue, ih hrest, depthOfFields, numbersOfFields, rereadFields]
    simp only [Nat.max_le, List.forall_mem_append]
    rw [bind_ite_some _ _ fun value rest => (key, value) :: rest]
    exact if_congr and_and_and_comm rfl rfl

/-- **What is read where a value was written** is the value after one round as text, if the reader
goes deep enough and each number in the value can be read. -/
theorem readBack?_of_written (depth : Nat) {j : Json} (h : ∀ n ∈ j.numbers, n.Written) :
    j.readBack? Decimal.scaled? depth =
      if j.depth ≤ depth ∧ ∀ n ∈ j.numbers, n.reread?.isSome = true then some j.reread
      else none := by
  induction j using deepInduction generalizing depth with
  | atom j harr hobj =>
    cases j with
    | num n =>
      rw [readBack?, Number.readBack?_of_written (h n (List.mem_singleton_self n))]
      cases hread : n.reread? <;> simp [Json.depth, numbers, reread, Number.reread, hread]
    | arr items => cases harr
    | obj fields => cases hobj
    | _ => simp [readBack?, Json.depth, numbers, reread]
  | arr items ih =>
    -- A container takes one level away from what is in it.
    cases depth with
    | zero => simp [readBack?, Json.depth]
    | succ depth =>
      have hitems := readItemsBack?_of_written fun item hitem =>
        ih item hitem depth fun n hn => h n (mem_numbersOfItems_iff.2 ⟨item, hitem, hn⟩)
      rw [readBack?, hitems, Json.depth, numbers, reread]
      simp only [Nat.add_le_add_iff_right]
      split_ifs <;> rfl
  | obj fields ih =>
    cases depth with
    | zero => simp [readBack?, Json.depth]
    | succ depth =>
      have hfields := readMembersBack?_of_written fun member hmember =>
        ih member hmember depth fun n hn => h n (mem_numbersOfFields_iff.2 ⟨member, hmember, hn⟩)
      rw [readBack?, hfields, Json.depth, numbers, reread]
      simp only [Nat.add_le_add_iff_right]
      split_ifs <;> rfl

/-- **A text in which a value was written** can be read if the value is readable, and holds the
value as it is kept in texts. -/
theorem read?_chars {spacing : Spacing} (hspacing : IsSpacing spacing) (level : Nat) {j : Json}
    (h : ∀ n ∈ j.numbers, n.Written) :
    read? (.ofList (j.chars spacing level)) = if j.readable then some j.reread else none := by
  have hread := readBy?_chars hspacing Decimal.scaled? depthLimit level j
    (List.forall_mem_nil _)
  rw [List.append_nil] at hread
  rw [read?, readAs?, hread, readBack?_of_written depthLimit h]
  simp only [readable_iff]

/-- What is kept as a text without blanks, as a store keeps it, is `reread` if it is `readable`. -/
theorem read?_compact {j : Json} (h : ∀ n ∈ j.numbers, n.Written) :
    read? j.compact = if j.readable then some j.reread else none :=
  read?_chars Reader.isSpacing_none 0 h

end Json

end BenchCharts

/-!
# Texts as bytes

`Text.bytes` is the UTF-8 form of a text. `Text.readChar` reads one character from bytes in the
lenient way: a byte that starts no character counts as one itself, and what continues a character
belongs to it as long as there are no more than four bytes. In a text that is read from its start
this gives back its characters (`readChar_utf8`).
-/

namespace BenchCharts.Text

/-- The bytes of a character. -/
def utf8 (c : Char) : List Nat :=
  let n := c.toNat
  if n < 0x80 then [n]
  else if n < 0x800 then [0xC0 + n / 64, 0x80 + n % 64]
  else if n < 0x10000 then [0xE0 + n / 4096, 0x80 + n / 64 % 64, 0x80 + n % 64]
  else [0xF0 + n / 262144, 0x80 + n / 4096 % 64, 0x80 + n / 64 % 64, 0x80 + n % 64]

/-- The bytes of a text. -/
def bytes (cs : List Char) : List Nat := cs.flatMap utf8

/-- Whether a byte continues a character. -/
def isContinuation (byte : Nat) : Bool := byte / 64 == 2

/-- What the first byte of a character of several bytes says about its code. -/
def leadBits (byte : Nat) : Nat :=
  if byte < 0xE0 then byte % 32 else if byte < 0xF0 then byte % 16 else byte % 8

/-- The code of the character at the front, and what follows it. -/
def readChar : List Nat → Nat × List Nat
  | [] => (0, [])
  | byte :: rest =>
    if byte < 0xC0 then (byte, rest)
    else
      let more := (rest.take 3).takeWhile isContinuation
      (more.foldl (fun code byte => code * 64 + byte % 64) (leadBits byte), rest.drop more.length)

theorem bytes_cons (c : Char) (rest : List Char) : bytes (c :: rest) = utf8 c ++ bytes rest := rfl

theorem utf8_ne_nil (c : Char) : utf8 c ≠ [] := by
  unfold utf8
  simp only
  repeat' split
  all_goals exact List.cons_ne_nil _ _

/-- A byte below 128 at the front is the character itself. -/
theorem toNat_eq_of_head?_utf8 {c : Char} {byte : Nat} (hbyte : byte < 0x80)
    (h : (utf8 c).head? = some byte) : c.toNat = byte := by
  unfold utf8 at h
  simp only at h
  split at h
  · simpa using h
  -- Every other first byte is greater.
  · repeat' split at h
    all_goals
      simp only [List.head?_cons, Option.some.injEq] at h
      omega

/-- Codes of characters have at most 21 bits. -/
theorem toNat_lt (c : Char) : c.toNat < 0x110000 := by
  have hvalid := c.valid
  simp only [UInt32.isValidChar, Nat.isValidChar] at hvalid
  change c.val.toNat < _
  omega

/-- No character starts with a byte that continues one. -/
theorem isContinuation_head?_bytes (cs : List Char) :
    ∀ byte ∈ (bytes cs).head?, isContinuation byte = false := by
  cases cs with
  | nil => simp [bytes]
  | cons c rest =>
    intro byte hbyte
    have hlt := toNat_lt c
    simp only [bytes, List.flatMap_cons, utf8] at hbyte
    simp only [isContinuation, beq_eq_false_iff_ne]
    split at hbyte
    · obtain rfl : c.toNat = byte := by simpa using hbyte
      omega
    · split at hbyte
      · obtain rfl : 0xC0 + c.toNat / 64 = byte := by simpa using hbyte
        omega
      · split at hbyte
        · obtain rfl : 0xE0 + c.toNat / 4096 = byte := by simpa using hbyte
          omega
        · obtain rfl : 0xF0 + c.toNat / 262144 = byte := by simpa using hbyte
          omega

/-- The bytes that continue a character end where the next one starts. -/
theorem takeWhile_take_append {more rest : List Nat} (hmore : ∀ byte ∈ more, isContinuation byte)
    (hlength : more.length ≤ 3) (hrest : ∀ byte ∈ rest.head?, isContinuation byte = false) :
    ((more ++ rest).take 3).takeWhile isContinuation = more := by
  rw [List.take_append, List.take_of_length_le hlength, List.takeWhile_append_of_pos hmore]
  cases rest with
  | nil => simp
  | cons byte rest =>
    have hbyte := hrest byte rfl
    cases 3 - more.length with
    | zero => simp
    | succ k => simp [hbyte]

/-- Reading the bytes of a character gives back the character. -/
theorem readChar_utf8 (c : Char) {rest : List Nat}
    (hrest : ∀ byte ∈ rest.head?, isContinuation byte = false) :
    readChar (utf8 c ++ rest) = (c.toNat, rest) := by
  have hlt := toNat_lt c
  -- A first byte and the bytes that continue it, of which there are one to three.
  have hread : ∀ first more, 0xC0 ≤ first → (∀ byte ∈ more, isContinuation byte) →
      more.length ≤ 3 → readChar (first :: more ++ rest) =
        (more.foldl (fun code byte => code * 64 + byte % 64) (leadBits first), rest) := by
    intro first more hfirst hmore hlength
    simp only [List.cons_append, readChar, if_neg (Nat.not_lt.2 hfirst),
      takeWhile_take_append hmore hlength hrest, List.drop_left]
  unfold utf8
  simp only
  split
  · simp only [List.cons_append, List.nil_append, readChar]
    rw [if_pos (by omega)]
  · split
    · rw [hread _ _ (by omega) (by simp [isContinuation]; omega) (by simp)]
      simp only [List.foldl_cons, List.foldl_nil, leadBits]
      rw [if_pos (by omega)]
      refine Prod.ext_iff.2 ⟨?_, rfl⟩
      dsimp only
      omega
    · split
      · rw [hread _ _ (by omega) (by simp [isContinuation]; omega) (by simp)]
        simp only [List.foldl_cons, List.foldl_nil, leadBits]
        rw [if_neg (by omega), if_pos (by omega)]
        refine Prod.ext_iff.2 ⟨?_, rfl⟩
        dsimp only
        omega
      · rw [hread _ _ (by omega) (by simp [isContinuation]; omega) (by simp)]
        simp only [List.foldl_cons, List.foldl_nil, leadBits]
        rw [if_neg (by omega), if_neg (by omega)]
        refine Prod.ext_iff.2 ⟨?_, rfl⟩
        dsimp only
        omega

end BenchCharts.Text

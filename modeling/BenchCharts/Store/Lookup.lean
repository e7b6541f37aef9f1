import BenchCharts.Json.Reread
import BenchCharts.Text.Bytes

/-!
# Looking up stored values

The store looks up a value by a list of keys, and reads each key in its own way. A backslash in a
key starts an escape, as it would inside a JSON text, and both the key and the names of the members
are only read up to the first NUL. So a key that holds a backslash does not find a member of that
name. Escapes are read byte by byte, so that one can end inside a character.

A key that holds a NUL itself cannot be read at all. That is an error as soon as the search gets to
that key. A value with too many containers inside each other cannot be searched at all.
-/

namespace BenchCharts.StoredKey

/-- The code of an escape that is none; no Unicode character in use has it. -/
def invalidCode : Nat := 0x99999

/-- The value of a hexadecimal digit, as the low bits of a letter's or digit's code. -/
def hexValue (byte : Nat) : Nat := (byte + 9 * (byte / 64 % 2)) % 16

/-- The value of four hexadecimal digits. -/
def hex4 (a b c d : Nat) : Nat :=
  ((hexValue a * 16 + hexValue b) * 16 + hexValue c) * 16 + hexValue d

/-- Whether a code is the first half of a surrogate pair. -/
def isHigh (code : Nat) : Bool := 0xD800 ≤ code && code < 0xDC00

/-- Whether a code is the second half of a surrogate pair. -/
def isLow (code : Nat) : Bool := 0xDC00 ≤ code && code < 0xE000

/-- The second half of a surrogate pair, if it is escaped next, and what follows it. -/
def lowHalf? : List Nat → Option (Nat × List Nat)
  | backslash :: u :: a :: b :: c :: d :: rest =>
    if backslash = '\\'.toNat && u = 'u'.toNat && isLow (hex4 a b c d) then
      some (hex4 a b c d, rest)
    else none
  | _ => none

/-- The code of an escape with four hexadecimal digits, and what follows them. -/
def unicodeEscape : List Nat → Nat × List Nat
  | a :: b :: c :: d :: rest =>
    let code := hex4 a b c d
    match lowHalf? rest with
    | some (low, rest') =>
      if isHigh code then (0x10000 + (code - 0xD800) * 0x400 + (low - 0xDC00), rest')
      else (code, rest)
    | none => (code, rest)
  -- Without enough digits all that is left is taken.
  | _ => (invalidCode, [])

/-- The code of an escape with two hexadecimal digits, and what follows them. -/
def byteEscape : List Nat → Nat × List Nat
  | a :: b :: rest => (hexValue a * 16 + hexValue b, rest)
  | _ => (invalidCode, [])

/-- What follows a line break after a backslash, if there is one. -/
def lineBreak? : List Nat → Option (List Nat)
  | 0x0D :: 0x0A :: rest => some rest
  | 0x0D :: rest => some rest
  | 0x0A :: rest => some rest
  | 0xE2 :: 0x80 :: 0xA8 :: rest => some rest
  | 0xE2 :: 0x80 :: 0xA9 :: rest => some rest
  | _ => none

/-- The code that a single letter after a backslash stands for. -/
def letterCode (byte : Nat) : Nat :=
  if byte = '"'.toNat ∨ byte = '\\'.toNat ∨ byte = '/'.toNat ∨ byte = '\''.toNat then byte
  else if byte = 'b'.toNat then 8
  else if byte = 'f'.toNat then 12
  else if byte = 'n'.toNat then 10
  else if byte = 'r'.toNat then 13
  else if byte = 't'.toNat then 9
  else if byte = 'v'.toNat then 11
  else if byte = '0'.toNat then 0
  else invalidCode

/-- The code of what stands after a backslash, if it is no line break, and what follows it. -/
def escape (bytes : List Nat) : Option Nat × List Nat :=
  match lineBreak? bytes with
  | some rest => (none, rest)
  | none =>
    match bytes with
    | [] => (some invalidCode, [])
    | byte :: rest =>
      if byte = 'u'.toNat then (unicodeEscape rest).map some id
      else if byte = 'x'.toNat then (byteEscape rest).map some id
      -- What starts like a line break and is none takes all that is left.
      else if byte = 0xE2 then (some invalidCode, [])
      else (some (letterCode byte), rest)

/-- The code at the front, unless it stands for nothing, and what follows it. -/
def readCode : List Nat → Option Nat × List Nat
  | [] => (none, [])
  | byte :: rest =>
    if byte = '\\'.toNat then escape rest else (Text.readChar (byte :: rest)).map some id

/-- The codes that bytes stand for, at most as many as the fuel allows. -/
def codesFrom : Nat → List Nat → List Nat
  | 0, _ => []
  | fuel + 1, bytes =>
    if bytes.isEmpty then []
    else
      let (code?, rest) := readCode bytes
      code?.toList ++ codesFrom fuel rest

/-- The codes that a key stands for. Each takes at least one byte. -/
def codes (key : List Char) : List Nat := codesFrom (Text.bytes key).length (Text.bytes key)

/-- The codes up to the first NUL. -/
def upToNul (codes : List Nat) : List Nat := codes.takeWhile (· ≠ 0)

/-- Whether a key finds a member of some name. -/
def finds (key name : String) : Bool :=
  upToNul (codes key.toList) == upToNul (name.toList.map Char.toNat)

/-- Whether a key cannot be read. -/
def unreadable (key : String) : Bool := key.toList.contains '\x00'

/-- The value at the end of a list of keys, or `none` if a key cannot be read. -/
def lookup? (j : Json) : List String → Option (Option Json)
  | [] => some (some j)
  | key :: keys =>
    if unreadable key then none
    else
      match j with
      | .obj fields =>
        -- Several names can match, and the first of them is taken.
        match fields.find? fun field => finds key field.1 with
        | some (_, value) => lookup? value keys
        | none => some none
      | _ => some none

/-- The deepest nesting of containers that can be searched. -/
def depthLimit : Nat := 1000

end BenchCharts.StoredKey

namespace BenchCharts.Json

/-- Whether a value can be searched. -/
def searchable (j : Json) : Bool := decide (j.depth ≤ StoredKey.depthLimit)

/-- The value that the store finds at the end of a list of keys, or `none` if it cannot search the
object or read a key. -/
def Fields.search? (fields : Fields) (keys : List String) : Option (Option Json) :=
  if (Json.obj fields).searchable then StoredKey.lookup? (.obj fields) keys else none

end BenchCharts.Json

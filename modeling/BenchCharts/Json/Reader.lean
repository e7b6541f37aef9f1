import BenchCharts.Json.Basic
import BenchCharts.Decimal.Nearest
import BenchCharts.Decimal.Scaled
import BenchCharts.Text.Numeral

/-!
# Reading JSON

`Json.read?` reads a text that holds one JSON value and nothing else but blanks. The grammar is the
strict one: no leading zeros, no control characters inside texts, no lone halves of surrogate
pairs, and at most 127 containers inside each other. A number without a point and without an
exponent is an integer if it lies between `-2 ^ 63` and `2 ^ 64 - 1`, and a float otherwise; `-0`
is a float, since no integer has a sign of zero. A number too large for a float is refused.

How the digits of a float become its value is left open by the grammar, so it is an argument of the
reader. `Json.read?` takes the rule of `Decimal/Scaled`, and `Json.readExactly?` the nearest float.

Where a record with certain fields is looked for, members of other names are passed over. Only the
syntax of their values is checked then (`Rules.lenient`): no number in them is too large, halves of
surrogate pairs may stand alone, and containers may be nested as deep as they like. `Shape` says
where in a text records are looked for, and `Json.readAs?` reads it in that way.

The functions that read values carry fuel. Each call consumes at least one character before it
comes back to itself, so the length of the text is enough.
-/

namespace BenchCharts.Json.Reader

/-- How the sign, the digits before and after the point, and the exponent make a float; `none` if
that would be too large. -/
abbrev DecimalRule := Bool → List Nat → List Nat → Int → Option Float

/-- The characters after blanks; JSON knows four of them. -/
def dropSpace (cs : List Char) : List Char :=
  cs.dropWhile fun c => c == ' ' || c == '\n' || c == '\t' || c == '\r'

/-- The value of a hexadecimal digit. -/
def hexValue? (c : Char) : Option Nat :=
  if '0' ≤ c ∧ c ≤ '9' then some (c.toNat - 48)
  else if 'a' ≤ c ∧ c ≤ 'f' then some (c.toNat - 87)
  else if 'A' ≤ c ∧ c ≤ 'F' then some (c.toNat - 55)
  else none

/-- The value of four hexadecimal digits. -/
def hex4? (a b c d : Char) : Option Nat := do
  let a ← hexValue? a
  let b ← hexValue? b
  let c ← hexValue? c
  let d ← hexValue? d
  return ((a * 16 + b) * 16 + c) * 16 + d

/-- The character that a letter after a backslash stands for. -/
def escaped? (c : Char) : Option Char :=
  if c = '"' ∨ c = '\\' ∨ c = '/' then some c
  else if c = 'b' then some '\u0008'
  else if c = 'f' then some '\u000c'
  else if c = 'n' then some '\n'
  else if c = 'r' then some '\r'
  else if c = 't' then some '\t'
  else none

/-- The characters of a text up to its closing quote, and what follows the quote. -/
def text? : List Char → Option (List Char × List Char)
  | '"' :: rest => some ([], rest)
  | '\\' :: 'u' :: a :: b :: c :: d :: rest =>
    match hex4? a b c d with
    | none => none
    | some code =>
      -- The first half of a surrogate pair needs the second one right after it.
      if 0xD800 ≤ code ∧ code < 0xDC00 then
        match rest with
        | '\\' :: 'u' :: e :: f :: g :: h :: rest =>
          match hex4? e f g h with
          | some low =>
            if 0xDC00 ≤ low ∧ low < 0xE000 then
              let char := Char.ofNat (0x10000 + (code - 0xD800) * 0x400 + (low - 0xDC00))
              (text? rest).map fun (cs, rest) => (char :: cs, rest)
            else none
          | none => none
        | _ => none
      else if 0xDC00 ≤ code ∧ code < 0xE000 then none
      else (text? rest).map fun (cs, rest) => (Char.ofNat code :: cs, rest)
  | '\\' :: c :: rest =>
    match escaped? c with
    | some char => (text? rest).map fun (cs, rest) => (char :: cs, rest)
    | none => none
  | c :: rest =>
    if c.toNat < 32 then none else (text? rest).map fun (cs, rest) => (c :: cs, rest)
  | [] => none

/-- What follows the closing quote of a text whose characters do not matter. -/
def afterText? : List Char → Option (List Char)
  | '"' :: rest => some rest
  | '\\' :: 'u' :: a :: b :: c :: d :: rest =>
    if (hex4? a b c d).isSome then afterText? rest else none
  | '\\' :: c :: rest => if (escaped? c).isSome then afterText? rest else none
  | c :: rest => if c.toNat < 32 then none else afterText? rest
  | [] => none

/-- What is made of the parts of a value that the grammar leaves open. -/
structure Rules where
  /-- How floats are made. -/
  decimal : DecimalRule
  /-- The characters of a text, after its opening quote, and what follows it. -/
  text : List Char → Option (List Char × List Char)

namespace Rules

/-- Every text has to make sense. -/
def strict (rule : DecimalRule) : Rules := ⟨rule, text?⟩

/-- Only the syntax counts, and what is read does not matter. -/
def lenient : Rules := ⟨fun _ _ _ _ => some 0, fun cs => (afterText? cs).map fun rest => ([], rest)⟩

end Rules

/-- The digits at the front, and what follows them. -/
def digits (cs : List Char) : List Char × List Char :=
  (cs.takeWhile Text.isDigit, cs.dropWhile Text.isDigit)

/-- The digits after a decimal point, if there is one; a point needs a digit after it. -/
def fraction? : List Char → Option (List Char × List Char)
  | '.' :: rest =>
    let (ds, rest) := digits rest
    if ds.isEmpty then none else some (ds, rest)
  | cs => some ([], cs)

/-- The exponent, if there is one; it needs at least one digit. -/
def exponent? : List Char → Option (Option Int × List Char)
  | c :: rest =>
    if c = 'e' ∨ c = 'E' then
      let (negative, rest) := match rest with
        | '-' :: rest => (true, rest)
        | '+' :: rest => (false, rest)
        | _ => (false, rest)
      let (ds, rest) := digits rest
      (Text.natural? ds).map fun n => (some (if negative then -(n : Int) else n), rest)
    else some (none, c :: rest)
  | [] => some (none, [])

/-- The number that digits without a point and without an exponent stand for. -/
def integer? (rule : DecimalRule) (negative : Bool) (whole : List Nat) (n : Nat) :
    Option Number :=
  if negative then
    if n ≠ 0 ∧ n ≤ 1 <<< 63 then some (.int (-(n : Int))) else (rule true whole [] 0).map .float
  else if n < UInt64.size then some (.int n)
  else (rule false whole [] 0).map .float

/-- A number, after its sign. -/
def unsignedNumber? (rule : DecimalRule) (negative : Bool) (cs : List Char) :
    Option (Number × List Char) := do
  let (whole, rest) := digits cs
  -- A zero at the front has to be the only digit before the point.
  if whole.head? == some '0' && whole.length != 1 then none
  let n ← Text.natural? whole
  let (places, rest) ← fraction? rest
  let (exponent, rest) ← exponent? rest
  let whole := whole.filterMap Text.digit?
  let places := places.filterMap Text.digit?
  if places.isEmpty && exponent.isNone then
    return (← integer? rule negative whole n, rest)
  else
    let x ← rule negative whole places (exponent.getD 0)
    return (.float x, rest)

/-- A number. -/
def number? (rule : DecimalRule) : List Char → Option (Number × List Char)
  | '-' :: rest => unsignedNumber? rule true rest
  | cs => unsignedNumber? rule false cs

/-- What follows a word that the characters start with. -/
def after? (word cs : List Char) : Option (List Char) :=
  if word.isPrefixOf cs then some (cs.drop word.length) else none

mutual

/-- A value inside at most `depth` further containers, and what follows it. -/
def value? (rules : Rules) : Nat → Nat → List Char → Option (Json × List Char)
  | 0, _, _ => none
  | fuel + 1, depth, cs =>
    match dropSpace cs with
    | '{' :: rest =>
      match depth with
      | 0 => none
      | depth + 1 =>
        match dropSpace rest with
        | '}' :: rest => some (.obj [], rest)
        | rest => (members? rules fuel depth rest).map fun (fields, rest) => (.obj fields, rest)
    | '[' :: rest =>
      match depth with
      | 0 => none
      | depth + 1 =>
        match dropSpace rest with
        | ']' :: rest => some (.arr [], rest)
        | rest => (items? rules fuel depth rest).map fun (items, rest) => (.arr items, rest)
    | '"' :: rest => (rules.text rest).map fun (cs, rest) => (.str (.ofList cs), rest)
    | 'n' :: rest => (after? "ull".toList rest).map fun rest => (.null, rest)
    | 't' :: rest => (after? "rue".toList rest).map fun rest => (.bool true, rest)
    | 'f' :: rest => (after? "alse".toList rest).map fun rest => (.bool false, rest)
    | cs => (number? rules.decimal cs).map fun (n, rest) => (.num n, rest)

/-- One or more items up to a closing bracket. -/
def items? (rules : Rules) : Nat → Nat → List Char → Option (List Json × List Char)
  | 0, _, _ => none
  | fuel + 1, depth, cs => do
    let (item, rest) ← value? rules fuel depth cs
    match dropSpace rest with
    | ',' :: rest =>
      let (items, rest) ← items? rules fuel depth rest
      return (item :: items, rest)
    | ']' :: rest => return ([item], rest)
    | _ => none

/-- One or more members up to a closing brace. -/
def members? (rules : Rules) : Nat → Nat → List Char → Option (Fields × List Char)
  | 0, _, _ => none
  | fuel + 1, depth, cs => do
    let rest ← after? ['"'] (dropSpace cs)
    let (key, rest) ← rules.text rest
    let rest ← after? [':'] (dropSpace rest)
    let (value, rest) ← value? rules fuel depth rest
    match dropSpace rest with
    | ',' :: rest =>
      let (fields, rest) ← members? rules fuel depth rest
      return ((String.ofList key, value) :: fields, rest)
    | '}' :: rest => return ([(String.ofList key, value)], rest)
    | _ => none

end

/-- What follows a value that is passed over. -/
def afterValue? (cs : List Char) : Option (List Char) :=
  (value? .lenient (cs.length + 1) cs.length cs).map Prod.snd

end Reader

/-- What is looked for in a text. -/
inductive Shape where
  /-- A value of any form. -/
  | any
  /-- A record with some fields, or an array with the values of these fields in their order. -/
  | record (fields : List (String × Shape))

namespace Reader

mutual

/-- A value of a certain shape, and what follows it. Members that are not looked for are left
out. -/
def shaped? (rules : Rules) : Shape → Nat → Nat → List Char → Option (Json × List Char)
  | .any, fuel, depth, cs => value? rules fuel depth cs
  | .record _, 0, _, _ => none
  | .record shapes, fuel + 1, depth, cs =>
    match dropSpace cs with
    | '{' :: rest =>
      match depth with
      | 0 => none
      | depth + 1 =>
        match dropSpace rest with
        | '}' :: rest => some (.obj [], rest)
        | rest =>
          (shapedMembers? rules shapes fuel depth rest).map fun (fields, rest) =>
            (.obj fields, rest)
    | '[' :: rest =>
      match depth with
      | 0 => none
      | depth + 1 =>
        match dropSpace rest with
        | ']' :: rest => some (.arr [], rest)
        | rest =>
          (shapedItems? rules (shapes.map Prod.snd) fuel depth rest).map fun (items, rest) =>
            (.arr items, rest)
    | cs => value? rules fuel depth cs

/-- One or more items up to a closing bracket; any that are left over have any form. -/
def shapedItems? (rules : Rules) :
    List Shape → Nat → Nat → List Char → Option (List Json × List Char)
  | _, 0, _, _ => none
  | shapes, fuel + 1, depth, cs => do
    let (item, rest) ← shaped? rules (shapes.headD .any) fuel depth cs
    match dropSpace rest with
    | ',' :: rest =>
      let (items, rest) ← shapedItems? rules shapes.tail fuel depth rest
      return (item :: items, rest)
    | ']' :: rest => return ([item], rest)
    | _ => none

/-- One or more members up to a closing brace. -/
def shapedMembers? (rules : Rules) (shapes : List (String × Shape)) :
    Nat → Nat → List Char → Option (Fields × List Char)
  | 0, _, _ => none
  | fuel + 1, depth, cs => do
    let rest ← after? ['"'] (dropSpace cs)
    let (key, rest) ← rules.text rest
    let rest ← after? [':'] (dropSpace rest)
    let (field, rest) ← match shapes.lookup (String.ofList key) with
      | some shape =>
        (shaped? rules shape fuel depth rest).map fun (value, rest) =>
          ([(String.ofList key, value)], rest)
      | none => (afterValue? rest).map fun rest => ([], rest)
    match dropSpace rest with
    | ',' :: rest =>
      let (fields, rest) ← shapedMembers? rules shapes fuel depth rest
      return (field ++ fields, rest)
    | '}' :: rest => return (field, rest)
    | _ => none

end

end Reader

/-- The deepest nesting of containers that is read. -/
def depthLimit : Nat := 127

/-- The one value that a text holds, of a certain shape and with its members as they are written. -/
def readBy? (rule : Reader.DecimalRule) (depth : Nat) (shape : Shape) (s : String) :
    Option Json := do
  let cs := s.toList
  let (value, rest) ← Reader.shaped? (.strict rule) shape (cs.length + 1) depth cs
  if (Reader.dropSpace rest).isEmpty then some value else none

/-- The one value that a text holds, with floats scaled. -/
def readAs? : Shape → String → Option Json := readBy? Decimal.scaled? depthLimit

/-- The one value that a text holds, whatever its shape. -/
def read? : String → Option Json := readAs? .any

/-- The one value that a text holds, with the nearest floats and however deep it is. -/
def readExactly? (s : String) : Option Json := readBy? Decimal.nearest? s.length .any s

end BenchCharts.Json

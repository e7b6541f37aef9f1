import BenchCharts.CommandLine.Flag

/-!
# Reading arguments

An argument that starts with two hyphens names a flag, and a value may follow after `=`. One that
starts with a single hyphen holds letters: those of flags without values may stand together, and
what follows the letter of a flag with a value, with or without `=`, is the value. Any other
argument, the single hyphen among them, is a value if the flag before it takes one more, and
otherwise ends the flags. So a value that starts with a hyphen has to be attached to its flag.

An argument of two hyphens alone ends the flags too. The words after it would be operands, of which
there are none.

Flags are taken one by one from the left. The first one that asks for help or the version, and the
first mistake, is what counts.
-/

namespace BenchCharts.CommandLine

/-- Why nothing is carried out. -/
inductive Stop where
  /-- The command line makes no sense. -/
  | misuse
  /-- Help is asked for. -/
  | help
  /-- The version is asked for. -/
  | version
deriving DecidableEq, Repr

/-- What was read so far. -/
structure Reading where
  /-- The settings, in order. -/
  settings : List Setting
  /-- The last flag with its values, where they stand in arguments of their own. -/
  pending : Option (Flag × List String)
deriving DecidableEq, Repr

namespace Reading

/-- Nothing read yet. -/
def empty : Reading := ⟨[], none⟩

/-- Settings with one more at the end. -/
def append (settings : List Setting) (flag : Flag) (values : List String) :
    Except Stop (List Setting) :=
  match flag with
  | .help => .error .help
  | .version => .error .version
  | flag =>
    match Setting.of? flag values with
    | none => .error .misuse
    | some setting =>
      if !flag.repeatable && settings.any (·.flag == flag) then .error .misuse
      else .ok (settings ++ [setting])

/-- The settings, the last flag among them. -/
def settle (r : Reading) : Except Stop (List Setting) :=
  match r.pending with
  | none => .ok r.settings
  | some (flag, values) => append r.settings flag values

/-- Begins with a flag, which may have a value attached. -/
def start (r : Reading) (flag : Flag) (attached : Option String) : Except Stop Reading := do
  let settings ← r.settle
  match flag.arity, attached with
  | .none, none => return ⟨← append settings flag [], none⟩
  | .none, some _ => .error .misuse
  | _, some value => return ⟨← append settings flag [value], none⟩
  | _, none => return ⟨settings, some (flag, [])⟩

/-- Begins with the flag of a long name, after its hyphens. -/
def long (flags : List Flag) (r : Reading) (cs : List Char) : Except Stop Reading :=
  let name := String.ofList (cs.takeWhile (· != '='))
  match flags.find? (·.name == name), cs.dropWhile (· != '=') with
  | none, _ => .error .misuse
  | some flag, [] => r.start flag none
  | some flag, _ :: value => r.start flag (some (.ofList value))

/-- Begins with the flags of letters, after their hyphen. -/
def letters (flags : List Flag) (r : Reading) : List Char → Except Stop Reading
  | [] => .ok r
  | c :: rest =>
    match flags.find? (·.letter? == some c) with
    | none => .error .misuse
    | some flag =>
      if flag.arity = .none then do letters flags (← r.start flag none) rest
      else
        match rest with
        | [] => r.start flag none
        | '=' :: value => r.start flag (some (.ofList value))
        | value => r.start flag (some (.ofList value))

/-- The reading with an argument as one more value, if the last flag takes one. -/
def push? (r : Reading) (arg : String) : Option Reading :=
  match r.pending with
  | none => none
  | some (flag, values) =>
    if flag.arity = .any ∨ values = [] then
      some { r with pending := some (flag, values ++ [arg]) }
    else none

/-- The settings at the front of some arguments, and the arguments that follow. -/
def run (flags : List Flag) (r : Reading) :
    List String → Except Stop (List Setting × List String)
  | [] => do return (← r.settle, [])
  | arg :: rest =>
    match arg.toList with
    -- What follows would be operands.
    | ['-', '-'] => do
      let settings ← r.settle
      if rest.isEmpty then return (settings, []) else .error .misuse
    | '-' :: '-' :: cs => do run flags (← r.long flags cs) rest
    | '-' :: c :: cs => do run flags (← r.letters flags (c :: cs)) rest
    | _ =>
      match r.push? arg with
      | some r => run flags r rest
      | none => do return (← r.settle, arg :: rest)

end Reading

end BenchCharts.CommandLine

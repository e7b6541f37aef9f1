import BenchCharts.Store.Basic
import BenchCharts.Text.Split

/-!
# Files

A directory of files, each of which holds a text, a store, or something else, and of folders. A path
leads from the root, or from the folder in which commands are carried out, step by step to
a `place`.

Two readers follow paths. A file that is read as a text is looked for by `Directory.walk`, which
stops at the first step that does not start from a folder. An address of a database is taken apart
without looking (`Host.place`), so that a step back undoes the step before it; only a file on the
way that is taken for a folder is noticed. In the end there has to be a folder for the database, and
no folder in its place (`Directory.canOpen`). There are no links.

The address `:memory:` leads to no file; a store there is forgotten at once. What addresses that
start with `file:` stand for is left to the host.

A store that has no tables yet is an empty file, and an empty file can become a store. A file that
holds anything else is no store: it answers queries like a store without tables, and no tables can
be created in it. A store with tables is not a text.
-/

namespace BenchCharts.CommandLine

/-- What there is at a place. -/
inductive Content where
  /-- A file with a text. -/
  | text (s : String)
  /-- A file with a store. -/
  | store (s : Store)
  /-- A file with something that is neither. -/
  | other
  /-- A folder. -/
  | folder

/-- Whether something is a folder. -/
def Content.isFolder : Content → Bool
  | .folder => true
  | _ => false

/-- Why a file cannot be read as a text. -/
inductive FileError where
  /-- There is no such file. -/
  | missing
  /-- A step starts from a file. -/
  | notFolder
  /-- The path leads to a folder. -/
  | directory
  /-- What the file holds is not a text. -/
  | notText
deriving DecidableEq, Repr

/-- The error in words. -/
def FileError.message : FileError → String
  | .missing => "No such file or directory (os error 2)"
  | .notFolder => "Not a directory (os error 20)"
  | .directory => "Is a directory (os error 21)"
  | .notText => "stream did not contain valid UTF-8"

/-- What a database address leads to. -/
inductive Address where
  /-- A file. -/
  | file (path : String)
  /-- No file; what is stored is forgotten at once. -/
  | volatile
  /-- Nothing that could be opened. -/
  | refused (reason : String)
deriving DecidableEq, Repr

/-- What an address with nothing special about it leads to. -/
def Address.ofPath (path : String) : Address :=
  if path = "" ∨ path = ":memory:" then .volatile else .file path

/-! ### Places -/

/-- What commands find where they are carried out. -/
structure Host where
  /-- The names on the way from the root to the folder where relative paths start. -/
  home : List String
  /-- What an address that starts with `file:` leads to. -/
  locate : String → Address

namespace Host

/-- A host that takes what follows `file:` as it is. -/
def plain : Host where
  home := ["home"]
  locate address := .ofPath (.ofList (address.toList.drop "file:".length))

/-- The steps of a path. -/
def steps (path : String) : List String := Text.split (· == '/') path

/-- Where a path starts. -/
def start (h : Host) (path : String) : List String :=
  if path.toList.head? = some '/' then [] else h.home

/-- One step. It may stay, lead back, or lead on to something of some name. -/
def step (place : List String) (name : String) : List String :=
  if name = "" ∨ name = "." then place
  else if name = ".." then place.dropLast
  else place ++ [name]

/-- Where a path leads, as the names on the way from the root. -/
def place (h : Host) (path : String) : List String := (steps path).foldl step (h.start path)

/-- All places on the way that a path takes. -/
def visited (h : Host) (path : String) : List (List String) :=
  (steps path).scanl step (h.start path)

/-- What an address stands for. -/
def address (h : Host) (address : String) : Address :=
  if "file:".toList.isPrefixOf address.toList then h.locate address else .ofPath address

end Host

/-- Whether a place is inside another one, which is a folder then. -/
def isInside (place outer : List String) : Bool := outer.isPrefixOf place && place != outer

/-- Files and folders by their paths. -/
structure Directory where
  /-- What there is, each place once. -/
  files : List (String × Content)

namespace Directory

variable (d : Directory) (h : Host)

/-- What there is at a place. -/
def content? (place : List String) : Option Content :=
  (d.files.find? fun file => h.place file.1 == place).map Prod.snd

/-- Whether there is a folder at a place. -/
def isFolder (place : List String) : Bool :=
  place.isPrefixOf h.home ||
    d.files.any fun file =>
      isInside (h.place file.1) place || (file.2.isFolder && h.place file.1 == place)

/-! ### Texts -/

/-- The place where some steps lead, if each of them starts from a folder. -/
def walk (place : List String) : List String → Except FileError (List String)
  | [] => .ok place
  | name :: rest =>
    if d.isFolder h place then walk (Host.step place name) rest
    else .error (if (d.content? h place).isSome then .notFolder else .missing)

/-- The text at a place. -/
def textAt (place : List String) : Except FileError String :=
  if d.isFolder h place then .error .directory
  else
    match d.content? h place with
    | some (.text s) => .ok s
    | some (.store ⟨none⟩) => .ok ""
    | some (.store ⟨some _⟩) => .error .notText
    | some .other => .error .notText
    | some .folder => .error .directory
    | none => .error .missing

/-- The text of the file at a path. -/
def readText (path : String) : Except FileError String := do
  d.textAt h (← d.walk h (h.start path) (Host.steps path))

/-- The directory with a file that holds something, in the place of an earlier one. -/
def put (path : String) (content : Content) : Directory :=
  ⟨(path, content) :: d.files.filter fun file => h.place file.1 != h.place path⟩

/-! ### Databases -/

/-- Whether a place is inside something that is a file. -/
def isBlocked (place : List String) : Bool :=
  d.files.any fun file => !file.2.isFolder && isInside place (h.place file.1)

/-- Whether a database can be opened at a path. -/
def canOpen (path : String) : Bool :=
  (h.visited path).all (fun place => !d.isBlocked h place)
    && h.place path != [] && !d.isFolder h (h.place path)
    && d.isFolder h (h.place path).dropLast

/-- What an address leads to when a database is opened there. -/
def database (address : String) : Address :=
  match h.address address with
  | .file path =>
    if d.canOpen h path then .file path
    else .refused ("unable to open database file: " ++ address)
  | other => other

/-- The store in a file; there may be no file for it. -/
def store (file : Option String) : Store :=
  match file.bind fun path => d.content? h (h.place path) with
  | some (.store s) => s
  | _ => .fresh

/-- Whether a file is a store or can become one. -/
def keepsStore (file : Option String) : Bool :=
  match file.bind fun path => d.content? h (h.place path) with
  | some (.text s) => s == ""
  | some .other => false
  | _ => true

/-- The directory with a store in a file, if there is a file for it. -/
def putStore (file : Option String) (s : Store) : Directory :=
  match file with
  | some path => d.put h path (.store s)
  | none => d

/-- The directory after the store in a file was opened: the file is there. -/
def openStore (path : String) : Directory :=
  if (d.content? h (h.place path)).isSome then d else d.putStore h (some path) .fresh

/-- The store in a file with the schema applied. -/
def withSchema (file : Option String) : Except ChartError Store :=
  if d.keepsStore h file then .ok (d.store h file).initSchema else .error (.store .applySchema)

end Directory

end BenchCharts.CommandLine

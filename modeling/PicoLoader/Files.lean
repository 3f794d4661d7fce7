import PicoLoader.Elf.Error

/-!
# Files by path

Files and directories form a tree, and a path is a walk through it. The parts of a path between
slashes are its steps. A walk begins at the root if the path begins with a slash, and in the working
directory otherwise. Each step is taken from a directory: an empty step and a dot stay there, two
dots lead to the directory around it, and the root is around itself; any other step is the name of
something that lies there. A path that is too long leads nowhere.

Of all that lies outside the working directory little is known (`PicoLoader.Files.ofNames`): the
null device, which is an empty file, and the usual directories, so that walks through them and back
succeed.

* `PicoLoader.Files.steps` – the steps of a path;
* `PicoLoader.Files.walk?` – where steps lead;
* `PicoLoader.Files.read` – the bytes that a path leads to.
-/

namespace PicoLoader

/-- Where something lies: the names on the way to it from the root, the last one first. -/
abbrev Place := List String

/-- What is known of the tree of files. -/
structure Files where
  /-- The files. -/
  entries : List (Place × List UInt8)
  /-- The directories, besides those on the way to what is known. -/
  directories : List Place
  /-- The directory in which paths begin that do not begin at the root. -/
  working : Place
deriving DecidableEq, Repr

namespace Files

/-! ### Paths -/

/-- The parts of a text between slashes. There is always a first one, it may be empty. -/
def split : List Char → List Char × List (List Char)
  | [] => ([], [])
  | c :: cs =>
    let (first, others) := split cs
    if c = '/' then ([], first :: others) else (c :: first, others)

/-- The steps of a path. -/
def steps (path : String) : List String :=
  let (first, others) := split path.toList
  (first :: others).map String.ofList

/-- The bytes of the longest path that is walked, and one more for the mark of its end. -/
def pathLimit : Nat := 4096

/-! ### Walks -/

/-- The places that are known. -/
def places (files : Files) : List Place :=
  files.working :: files.directories ++ files.entries.map Prod.fst

/-- The bytes of the file at a place. -/
def content? (files : Files) (place : Place) : Option (List UInt8) :=
  (files.entries.find? fun (other, _) => other == place).map Prod.snd

/-- Whether something is at a place: it is known, or on the way to something that is. -/
def isPresent (files : Files) (place : Place) : Bool :=
  place.isEmpty || files.places.any fun other => place.isSuffixOf other

/-- Whether a directory is at a place. -/
def isDirectory (files : Files) (place : Place) : Bool :=
  files.isPresent place && (files.content? place).isNone

/-- Where a step leads from a place. -/
def step? (files : Files) (place : Place) (step : String) : Option Place :=
  if files.isDirectory place then
    if step = "" ∨ step = "." then some place
    else if step = ".." then some place.tail
    else if files.isPresent (step :: place) then some (step :: place)
    else none
  else none

/-- Where steps lead from a place, one after the other. -/
def walk? (files : Files) : Place → List String → Option Place
  | place, [] => some place
  | place, step :: steps => (files.step? place step).bind fun next => files.walk? next steps

/-- Where a path leads. -/
def place? (files : Files) (path : String) : Option Place :=
  if path.utf8ByteSize < pathLimit then
    files.walk? (if path.startsWith "/" then [] else files.working) (steps path)
  else none

/-- The bytes that a path leads to. -/
def lookup? (files : Files) (path : String) : Option (List UInt8) :=
  (files.place? path).bind files.content?

/-- **Reads the file that a path leads to.** -/
def read (files : Files) (path : String) : Except Elf.Error (List UInt8) :=
  match files.lookup? path with
  | some bytes => .ok bytes
  | none => .error (.unreadable path)

/-! ### The tree around the working directory -/

/-- The usual directories of a system, as far as they are no links. -/
def usualDirectories : List Place :=
  [["boot"], ["pts", "dev"], ["shm", "dev"], ["etc"], ["home"], ["media"], ["mnt"], ["opt"],
    ["proc"], ["root"], ["run"], ["srv"], ["sys"], ["tmp"], ["bin", "usr"], ["lib", "usr"],
    ["local", "usr"], ["sbin", "usr"], ["share", "usr"], ["cache", "var"], ["lib", "var"],
    ["log", "var"], ["tmp", "var"]]

/-- The working directory. It lies among temporary files, and no step is its name. -/
def workingDirectory : Place := ["", "tmp"]

/-- A path from the working directory as a place. -/
def placeNamed (name : String) : Place :=
  ((steps name).filter fun step => step ≠ "" ∧ step ≠ ".").reverse ++ workingDirectory

/-- The files below the working directory, each with its name. -/
def ofNames (named : List (String × List UInt8)) : Files where
  entries := (["null", "dev"], []) :: named.map fun (name, bytes) => (placeNamed name, bytes)
  directories := usualDirectories
  working := workingDirectory

end Files

end PicoLoader

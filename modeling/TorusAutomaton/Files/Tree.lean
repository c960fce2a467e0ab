import TorusAutomaton.Files.Path

/-!
# Trees of files

A tree of directories and files, the root being a directory. A path is followed name by name, and
every name but the last has to lead to a directory that is there. Directories and files are made and
read by their path. Whatever stands in the way is a fault, and an operation on one path then changes
nothing.
-/

namespace TorusAutomaton.Files

open TorusAutomaton Text

/-- Why a path does not lead where it is meant to. -/
inductive Fault
  | missing
  | taken
  | notDirectory
  | isDirectory
  | tooLong
  | holdsNul
  deriving DecidableEq, Repr

def Fault.message : Fault → String
  | .missing => "No such file or directory (os error 2)"
  | .taken => "File exists (os error 17)"
  | .notDirectory => "Not a directory (os error 20)"
  | .isDirectory => "Is a directory (os error 21)"
  | .tooLong => "File name too long (os error 36)"
  | .holdsNul => "file name contained an unexpected NUL byte"

/-- What stands in a place: a file, or a directory with what there is under each name. -/
inductive Node (α : Type) where
  | file (content : α)
  | directory (entries : List (Text × Node α))

/-- Names that lead from the root to a place. -/
abbrev Place := List Text

/-- Paths that do not start at the root start from `present`. -/
structure Tree (α : Type) where
  root : Node α
  present : Place

/-- The length of a text in bytes. -/
def byteLength (t : Text) : Nat := t.foldr (fun c n => c.utf8Size + n) 0

/-- Bytes in a name, at most. -/
def maxName : Nat := 255

/-- Bytes in a path, at most. -/
def maxPath : Nat := 4095

namespace Node

variable {α : Type}

def empty : Node α := .directory []

def isDirectory : Node α → Bool
  | .directory _ => true
  | .file _ => false

/-- What there is under a name. -/
def child? : Node α → Text → Option (Node α)
  | .directory entries, name => entries.lookup name
  | .file _, _ => none

/-- Puts a node under a name. A file has nothing under it. -/
def insert : Node α → Text → Node α → Node α
  | .directory entries, name, new =>
    .directory ((name, new) :: entries.filter fun e => e.1 != name)
  | .file content, _, _ => .file content

/-- Puts a node in a place below; directories that are missing on the way are made. -/
def put : Node α → Place → Node α → Node α
  | _, [], new => new
  | node, name :: rest, new => node.insert name (put ((node.child? name).getD empty) rest new)

/-- What there is in a place below. -/
def find? : Node α → Place → Option (Node α)
  | node, [] => some node
  | node, name :: rest =>
    match node.child? name with
    | some next => find? next rest
    | none => none

mutual

/-- The files below a node by their paths from there; the path of a file from itself is empty. -/
def files : Node α → List (Text × α)
  | .file content => [([], content)]
  | .directory entries => filesUnder entries

/-- The files below the entries of a directory. -/
def filesUnder : List (Text × Node α) → List (Text × α)
  | [] => []
  | (name, node) :: rest =>
    (files node).map (fun f => (if f.1.isEmpty then name else name ++ '/' :: f.1, f.2))
      ++ filesUnder rest

end

theorem child?_insert_self {node : Node α} (h : node.isDirectory = true) (name : Text)
    (new : Node α) : (node.insert name new).child? name = some new := by
  cases node with
  | file => simp [isDirectory] at h
  | directory => simp [insert, child?]

end Node

/-- The way from the root to a directory: names and what is there, the innermost first. -/
abbrev Trail (α : Type) := List (Text × Node α)

/-- Where a path leads before its last name. `name` is that name, unless the path leads to
`directory` itself; `slashed` tells whether a slash follows. -/
structure Target (α : Type) where
  directory : Trail α
  name : Option Text
  slashed : Bool

namespace Tree

variable {α : Type}

/-- The directory at the end of a trail. -/
def here (t : Tree α) : Trail α → Node α
  | [] => t.root
  | (_, node) :: _ => node

/-- What there is under a name in a directory. -/
def look (t : Tree α) (directory : Trail α) (name : Text) : Except Fault (Option (Node α)) :=
  if maxName < byteLength name then .error .tooLong else .ok ((t.here directory).child? name)

/-- Goes on to the directory with a name. Above the root is the root. -/
def enter (t : Tree α) (directory : Trail α) (name : Text) : Except Fault (Trail α) := do
  if Path.isIdle name then return directory
  if name = ['.', '.'] then return directory.tail
  match ← t.look directory name with
  | none => throw .missing
  | some node => if node.isDirectory then return (name, node) :: directory else throw .notDirectory

/-- The names in a path. -/
def pathNames (path : Text) : List Text := (path.splitOn '/').filter fun name => !name.isEmpty

/-- Where a path starts from. -/
def origin (t : Tree α) (path : Text) : Except Fault (Trail α) :=
  if Path.isRooted path then .ok [] else t.present.foldlM t.enter []

/-- Where a path leads whose names but the last lead to a directory. -/
def target (path : Text) (directory : Trail α) : Target α :=
  let slashed : Bool := path.getLast? = some '/'
  match (pathNames path).getLast? with
  | none => { directory, name := none, slashed }
  | some name =>
    if name = ['.'] then { directory, name := none, slashed }
    else if name = ['.', '.'] then { directory := directory.tail, name := none, slashed }
    else { directory, name := some name, slashed }

/-- Follows a path up to its last name. -/
def locate (t : Tree α) (path : Text) : Except Fault (Target α) := do
  if path.contains '\x00' then throw .holdsNul
  if maxPath < byteLength path then throw .tooLong
  if path.isEmpty then throw .missing
  let first ← t.origin path
  return target path (← (pathNames path).dropLast.foldlM t.enter first)

/-- Puts a node under a name in a directory. -/
def put (t : Tree α) (directory : Trail α) (name : Text) (new : Node α) : Tree α :=
  { t with root := t.root.put ((directory.map Prod.fst).reverse ++ [name]) new }

/-- What a path leads to. Only to a directory may a slash follow. -/
def find (t : Tree α) (path : Text) : Except Fault (Node α) := do
  let target ← t.locate path
  match target.name with
  | none => return t.here target.directory
  | some name =>
    match ← t.look target.directory name with
    | none => throw .missing
    | some node =>
      if target.slashed && !node.isDirectory then throw .notDirectory
      return node

/-- Reads a file. -/
def read (t : Tree α) (path : Text) : Except Fault α := do
  match ← t.find path with
  | .directory _ => throw .isDirectory
  | .file content => return content

def isDirectory (t : Tree α) (path : Text) : Bool :=
  match t.find path with
  | .ok node => node.isDirectory
  | .error _ => false

/-- Makes one directory. -/
def makeDirectory (t : Tree α) (path : Text) : Except Fault (Tree α) := do
  let target ← t.locate path
  match target.name with
  | none => throw .taken
  | some name =>
    match ← t.look target.directory name with
    | some _ => throw .taken
    | none => return t.put target.directory name .empty

/-- Makes the first of some paths a directory, and the others before it as far as they are needed,
the last first. Directories made on the way stay even if a fault follows. -/
def makeAll (t : Tree α) : List Text → Tree α × Option Fault
  | [] => (t, none)
  | path :: above =>
    match t.makeDirectory path with
    | .ok t => (t, none)
    | .error .missing =>
      match t.makeAll above with
      | (t, some fault) => (t, some fault)
      | (t, none) =>
        match t.makeDirectory path with
        | .ok t => (t, none)
        | .error fault => if t.isDirectory path then (t, none) else (t, some fault)
    | .error fault => if t.isDirectory path then (t, none) else (t, some fault)

/-- Makes a directory and those above it, unless they are there. -/
def makeDirectories (t : Tree α) (path : Text) : Tree α × Option Fault :=
  t.makeAll (Path.withAbove path)

/-- Makes a file or replaces its content. -/
def write (t : Tree α) (path : Text) (content : α) : Except Fault (Tree α) := do
  let target ← t.locate path
  match target.name with
  | none => throw .isDirectory
  | some name =>
    if target.slashed then throw .isDirectory
    match ← t.look target.directory name with
    | some (.directory _) => throw .isDirectory
    | _ => return t.put target.directory name (.file content)

/-- The files below a place in the order of their paths from there. -/
def below (t : Tree α) (place : Place) : List (Text × α) :=
  ((t.root.find? place).elim [] Node.files).mergeSort fun a b =>
    String.ofList a.1 ≤ String.ofList b.1

theorem present_put (t : Tree α) (directory : Trail α) (name : Text) (new : Node α) :
    (t.put directory name new).present = t.present := rfl

end Tree

end TorusAutomaton.Files

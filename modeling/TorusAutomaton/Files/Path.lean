import TorusAutomaton.Text.Basic

/-!
# Paths

A path is a text of names with slashes between them. It leads from the root if it starts with a
slash. Empty names and single points lead nowhere, and two points lead back to the directory above.
-/

namespace TorusAutomaton.Path

open TorusAutomaton Text

/-- Whether a name leads nowhere. -/
def isIdle (name : Text) : Bool := name.isEmpty || name = ['.']

def isRooted (path : Text) : Bool := path.head? = some '/'

/-- The names that lead somewhere. -/
def names (path : Text) : List Text := (path.splitOn '/').filter fun name => !isIdle name

/-- What a path starts from, and the text after it: a slash, a point with no name attached, or
nothing. -/
def start : Text → Text × Text
  | '/' :: rest => (['/'], rest)
  | ['.'] => (['.'], [])
  | '.' :: '/' :: rest => (['.'], '/' :: rest)
  | path => ([], path)

/-- The parts that tell paths apart: what it starts from, and the names. -/
def parts (path : Text) : List Text :=
  let (first, rest) := start path
  (if first.isEmpty then [] else [first]) ++ names rest

/-- A path followed from a directory. A path that leads from the root leads away from it. -/
def join (directory path : Text) : Text :=
  if isRooted path then path
  else if directory.isEmpty || directory.getLast? = some '/' then directory ++ path
  else directory ++ '/' :: path

/-- The path without its last name, as far as it was written. The root has none above it. -/
def parent (path : Text) : Option Text :=
  let (first, rest) := start path
  match (rest.splitOn '/').reverse.dropWhile isIdle with
  | [] => if first = ['.'] then some [] else none
  | _ :: above => some (first ++ Text.join ['/'] (above.dropWhile isIdle).reverse)

/-- The next `n` paths above a path, the nearest first; the empty path is not one of them. -/
def above : Nat → Text → List Text
  | 0, _ => []
  | n + 1, path =>
    match parent path with
    | none | some [] => []
    | some p => p :: above n p

/-- A path and all paths above it. Each is shorter than the one before. -/
def withAbove (path : Text) : List Text :=
  if path.isEmpty then [] else path :: above path.length path

/-- The last name, unless it leads back. -/
def lastName (path : Text) : Option Text :=
  match (names path).getLast? with
  | some name => if name = ['.', '.'] then none else some name
  | none => none

/-- What follows the last point of a name, if something stands before that point. -/
def ending (name : Text) : Option Text :=
  let after := (name.reverse.takeWhile (· != '.')).reverse
  let before := (name.reverse.dropWhile (· != '.')).drop 1
  if before.isEmpty then none else some after

end TorusAutomaton.Path

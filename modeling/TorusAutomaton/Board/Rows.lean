import TorusAutomaton.Board.Basic
import TorusAutomaton.Text.Basic

/-!
# Given boards

A board is written row by row with a point between rows, a live cell as 1 and a dead one as 0.
Reading goes through the rows in order and reports the first fault: within a row a character that
is no cell comes before a wrong length.

A board that was read may be put near the middle of a larger board of dead cells. Along a side of
even length the middle lies between two cells, and the board is moved one cell towards the origin.

The sides are numbers without a bound here. A machine holds a board only if the number of its cells
is one of its words and they find room in its memory; larger ones are out of its reach, whatever is
said of them.
-/

namespace TorusAutomaton.Board

open TorusAutomaton

/-! ## Boards as text -/

inductive Error
  | empty
  | badCell (row : Nat) (found : Char)
  | raggedRow (row got expected : Nat)
  | mismatch (stateWidth stateHeight width height : Nat)
  deriving DecidableEq, Repr

def Error.message : Error → String
  | .empty => "grid state is empty"
  | .badCell row found =>
    "'" ++ String.ofList [found] ++ "' at row " ++ toString row
      ++ " is not a cell (expected 0 or 1)"
  | .raggedRow row got expected =>
    "row " ++ toString row ++ " has " ++ toString got ++ " cells, expected " ++ toString expected
  | .mismatch stateWidth stateHeight width height =>
    "a " ++ toString stateWidth ++ "x" ++ toString stateHeight ++ " state does not fit inside "
      ++ toString width ++ "x" ++ toString height

def cellChar (alive : Bool) : Char := if alive then '1' else '0'

def renderRow (cells : List Bool) : Text := cells.map cellChar

def render (b : Board) : Text := Text.join ['.'] (b.rows.map renderRow)

/-- The cells of one row. -/
def readRow (row : Nat) : Text → Except Error (List Bool)
  | [] => .ok []
  | c :: rest =>
    if c = '0' then (readRow row rest).map (false :: ·)
    else if c = '1' then (readRow row rest).map (true :: ·)
    else .error (.badCell row c)

/-- The rows from number `row` on, each of which has to hold `width` cells. -/
def readRows (width : Nat) : Nat → List Text → Except Error (List (List Bool))
  | _, [] => .ok []
  | row, line :: rest => do
    let cells ← readRow row line
    if cells.length ≠ width then
      throw (.raggedRow row cells.length width)
    let others ← readRows width (row + 1) rest
    return cells :: others

/-- The board with these rows; cells that are missing are dead. -/
def ofRows (rows : List (List Bool)) (width height : Nat) (hw : 0 < width) (hh : 0 < height) :
    Board :=
  let cells := (rows.map List.toArray).toArray
  tabulate width height hw hh fun x y => (cells.getD y #[]).getD x false

/-- Reads a board; the first row says how wide it is, and may not be empty. -/
def parse (t : Text) : Except Error Board := do
  match t.splitOn '.' with
  | [] => throw .empty
  | line :: rest =>
    let first ← readRow 0 line
    if h : 0 < first.length then
      let others ← readRows first.length 1 rest
      return ofRows (first :: others) first.length (others.length + 1) h (Nat.succ_pos _)
    else throw .empty

/-! ## Placing -/

/-- How far a side of length `small` starts into a side of length `large`. -/
def margin (small large : Nat) : Nat :=
  large / 2 - (small / 2 + if large % 2 = 0 then 1 else 0)

/-- The margin leaves room for the whole side. -/
theorem margin_add_le {small large : Nat} (h : small < large) :
    margin small large + small ≤ large := by
  simp only [margin]
  split <;> omega

/-- The board moved into a `width` by `height` board, which has to be larger both ways. -/
def expand (b : Board) (width height : Nat) : Except Error Board :=
  if h : b.width < width ∧ b.height < height then
    let left := margin b.width width
    let top := margin b.height height
    .ok <| tabulate width height (by omega) (by omega) fun x y =>
      decide (left ≤ x ∧ x < left + b.width ∧ top ≤ y ∧ y < top + b.height)
        && b.get ((x : Int) - left) ((y : Int) - top)
  else .error (.mismatch b.width b.height width height)

end TorusAutomaton.Board

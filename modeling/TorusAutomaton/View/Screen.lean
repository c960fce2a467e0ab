import TorusAutomaton.Board.Basic
import TorusAutomaton.Text.Numeral

/-!
# Boards on a terminal

A board is shown as lines of tiles: a line of text per row, with one tile for dead and one for live
cells. In an inverted frame the tiles are exchanged.

The terminal view takes over the screen, draws frames and gives the screen back. A frame is one
synchronised update: each line at the start of its own screen row, and the subtitle one row below an
empty row. Screen rows are counted from one in 16 bits.
-/

namespace TorusAutomaton.View

open TorusAutomaton Text

/-! ## Lines of tiles -/

structure Tiles where
  dead : Char
  alive : Char
  deriving DecidableEq, Repr

/-- The tile of a cell. -/
def Tiles.of (tiles : Tiles) (inverted alive : Bool) : Char :=
  if alive != inverted then tiles.alive else tiles.dead

def lines (tiles : Tiles) (inverted : Bool) (b : Board) : List Text :=
  b.rows.map fun row => row.map (tiles.of inverted)

/-! ## What is sent -/

namespace Screen

/-- An escape sequence after its introducer. -/
def control (t : String) : Text := '\x1b' :: '[' :: t.toList

def endUpdate : Text := control "?2026l"

/-- Alternate screen, no line wrap, no cursor, and a clear screen. -/
def opening : Text :=
  control "?1049h" ++ control "?7l" ++ control "?25l" ++ control "2J" ++ control "1;1H"

def closing : Text :=
  endUpdate ++ control "0m" ++ control "?25h" ++ control "?7h" ++ control "?1049l"

/-- Moves to the start of the screen row below `above` others. -/
def moveBelow (above : Nat) : Text :=
  '\x1b' :: '[' :: (Numeral.ofNat ((above + 1) % 0x10000) ++ ";1H".toList)

/-- Lines at the rows from `above` on. -/
def drawLines (above : Nat) : List Text → Text
  | [] => []
  | line :: rest => moveBelow above ++ line ++ drawLines (above + 1) rest

/-- One frame. -/
def frame (lines : List Text) (subtitle : Option Text) : Text :=
  control "?2026h" ++ control "0m" ++ drawLines 0 lines
    ++ (match subtitle with
        | some t => moveBelow (lines.length + 1) ++ control "2K" ++ t
        | none => [])
    ++ endUpdate

/-- The output in the pieces that are shown at once: an update ends a piece. -/
def pieces (output : Text) : List Text := cutAfter endUpdate output

end Screen

end TorusAutomaton.View

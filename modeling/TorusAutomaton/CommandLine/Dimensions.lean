import TorusAutomaton.CommandLine.Arguments
import TorusAutomaton.Simulation.Create
import TorusAutomaton.Text.Quotes
import TorusAutomaton.View.Screen

/-!
# From arguments to settings

Two values are texts that mean something only together with others: the size of the board, which may
refer to the size of the terminal, and the two tiles.
-/

namespace TorusAutomaton.CommandLine

open TorusAutomaton Text

inductive Error
  | noCross (dimensions : Text)
  | badSide (side dimensions : Text) (fault : Numeral.Fault)
  | emptyBoard (dimensions : Text)
  | badTiles (tiles : Text)
  deriving DecidableEq, Repr

def Error.message : Error → String
  | .noCross dimensions =>
    "dimensions " ++ String.ofList (escaped dimensions) ++ " must look like WxH"
  | .badSide side dimensions _ =>
    "bad dimension " ++ String.ofList (escaped side) ++ " in " ++ String.ofList (escaped dimensions)
  | .emptyBoard dimensions =>
    "dimensions " ++ String.ofList (escaped dimensions) ++ " leave an empty board"
  | .badTiles tiles =>
    "tiles must be exactly two characters, got " ++ String.ofList (escaped tiles)

def Error.cause : Error → Option String
  | .badSide _ _ fault => some fault.message
  | .noCross _ | .emptyBoard _ | .badTiles _ => none

/-- Columns and lines of a terminal. -/
structure TerminalSize where
  columns : Nat
  lines : Nat
  deriving DecidableEq, Repr

/-- Lines kept free below the board: for the cursor, and for the subtitle and the line above it. -/
def freeLines (noSubtitle : Bool) : Nat := if noSubtitle then 2 else 3

/-- One side of the board; the letter M stands for all that fits. -/
def readSide (dimensions side : Text) (fit : Nat) : Except Error Nat := do
  let n ←
    if side = ['M'] then pure fit
    else
      match Numeral.readNat Numeral.maxU64 side with
      | .ok n => pure n
      | .error fault => throw (.badSide side dimensions fault)
  if n = 0 then throw (.emptyBoard dimensions)
  return n

/-- Width and height, with the letter x between them; the width is read first. -/
def readDimensions (dimensions : Text) (noSubtitle : Bool) (size : TerminalSize) :
    Except Error (Nat × Nat) :=
  match cut 'x' dimensions with
  | none => .error (.noCross dimensions)
  | some (w, h) => do
    let width ← readSide dimensions w size.columns
    let height ← readSide dimensions h (size.lines - freeLines noSubtitle)
    return (width, height)

/-- The tiles for dead and for live cells. -/
def readTiles : Text → Except Error View.Tiles
  | [dead, alive] => .ok { dead, alive }
  | t => .error (.badTiles t)

/-- The settings of the simulation. -/
def Arguments.config (a : Arguments) (size : TerminalSize) : Except Error Simulation.Config := do
  let (width, height) ← readDimensions a.dimensions a.noSubtitle size
  return {
    width, height
    rule := a.rules
    seed := some a.seed
    flickerMode := a.flickerMode
    startTick := a.tick
    board := a.board
    randomFill := !a.empty
    fill := a.fill
    keepSize := a.noExpand
    postRule := a.postRules
    postTicks := a.postTicks
    lastTick := a.maxTicks
    selection := a.renderImages
    drawEvery := a.renderEvery
    paused := a.paused }

end TorusAutomaton.CommandLine

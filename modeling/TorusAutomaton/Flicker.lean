/-!
# Flicker

A frame can be shown with the two tiles exchanged. Which frames are is decided by the flicker mode,
in two modes by comparing the population with the one at the previous question. So every question
is recorded, and has to belong to exactly one frame.
-/

namespace TorusAutomaton

/-- No frame is inverted in mode `off`, and every frame of an even tick in mode `strobe`. The two
other modes compare populations: `crowded` looks at the live cells of the previous sample only, and
`swing` at live and dead ones. -/
inductive Flicker.Mode
  | off
  | crowded
  | swing
  | strobe
  deriving DecidableEq, Repr

structure Flicker where
  mode : Flicker.Mode
  previousAlive : Nat
  previousDead : Nat
  deriving DecidableEq, Repr

namespace Flicker

/-- Modes are numbered in a circle of four. -/
def Mode.ofNumber (n : Nat) : Mode :=
  match n % 4 with
  | 0 => .off
  | 1 => .crowded
  | 2 => .swing
  | _ => .strobe

def Mode.number : Mode → Nat
  | .off => 0
  | .crowded => 1
  | .swing => 2
  | .strobe => 3

def Mode.next : Mode → Mode
  | .off => .crowded
  | .crowded => .swing
  | .swing => .strobe
  | .strobe => .off

def Mode.letter : Mode → Char
  | .off => 'X'
  | .crowded => 'A'
  | .swing => 'B'
  | .strobe => 'C'

/-- The policy before the first question, for a board with this population. -/
def start (number alive dead : Nat) : Flicker :=
  { mode := .ofNumber number, previousAlive := alive, previousDead := dead }

def cycle (f : Flicker) : Flicker := { f with mode := f.mode.next }

/-- Whether the frame of a tick is inverted. The change of the live cells is compared with a second
difference, and the frame is inverted when the second one is greater. -/
def inverts (f : Flicker) (alive dead : Nat) (tick : Int) : Bool :=
  let change : Int := f.previousAlive - alive
  match f.mode with
  | .off => false
  | .crowded => (f.previousAlive - dead : Int) > change
  | .swing => (f.previousDead - dead : Int) > change
  | .strobe => tick % 2 = 0

/-- The policy after a question. Only the modes that compare populations take a sample. -/
def record (f : Flicker) (alive dead : Nat) : Flicker :=
  match f.mode with
  | .crowded | .swing => { f with previousAlive := alive, previousDead := dead }
  | .off | .strobe => f

end Flicker

end TorusAutomaton

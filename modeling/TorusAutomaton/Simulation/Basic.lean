import TorusAutomaton.Board.Step
import TorusAutomaton.TickSet.Basic
import TorusAutomaton.Flicker
import TorusAutomaton.Template

/-!
# Simulations

A simulation is a board under a rule, the tick it has reached, and what a renderer asks about it:
which board to show, whether to show or save it, and whether to invert it. Post-processing runs a
second rule over a copy of the board; it is always run anew from tick zero, so what is shown never
finds its way back into the board.
-/

namespace TorusAutomaton

/-- The second rule, for how many ticks it runs, and the board it leads to. -/
structure Simulation.PostProcess where
  rule : Rule
  ticks : Nat
  board : Board

structure Simulation where
  board : Board
  rule : Rule
  tick : Int
  seed : Text
  seedGenerated : Bool
  paused : Bool
  flicker : Flicker
  post : Option Simulation.PostProcess
  selection : Option TickSet
  drawEvery : Nat
  lastTick : Option Nat

namespace Simulation

/-- The board shown for `board` under a second rule. -/
def derive (rule : Rule) (ticks : Nat) (board : Board) : Board := board.run rule 0 ticks

/-- Post-processing of a new board. -/
def PostProcess.refresh (p : PostProcess) (board : Board) : PostProcess :=
  { p with board := derive p.rule p.ticks board }

/-- One tick, even while paused. -/
def advance (s : Simulation) : Simulation :=
  let board := s.board.step s.rule s.tick
  { s with board, tick := s.tick + 1, post := s.post.map (·.refresh board) }

/-- One tick, unless paused. -/
def step (s : Simulation) : Simulation := if s.paused then s else s.advance

def togglePause (s : Simulation) : Simulation := { s with paused := !s.paused }

def cycleFlicker (s : Simulation) : Simulation := { s with flicker := s.flicker.cycle }

/-- The board to show. -/
def displayBoard (s : Simulation) : Board :=
  match s.post with
  | some p => p.board
  | none => s.board

def alive (s : Simulation) : Nat := s.board.population

def total (s : Simulation) : Nat := s.board.total

def dead (s : Simulation) : Nat := s.total - s.alive

/-- Whether the frame of the present tick is to be inverted. -/
def inverted (s : Simulation) : Bool := s.flicker.inverts s.alive s.dead s.tick

/-- The simulation after that question, which is to be asked once a frame. -/
def asked (s : Simulation) : Simulation :=
  { s with flicker := s.flicker.record s.alive s.dead }

/-- Whether the last tick is reached. Its frame is still due. -/
def finished (s : Simulation) : Bool :=
  match s.lastTick with
  | some last => (last : Int) ≤ s.tick
  | none => false

/-- Whether a terminal is to show the present tick. -/
def shouldDraw (s : Simulation) : Bool :=
  !s.paused && 0 ≤ s.tick && s.tick % (s.drawEvery : Int) == 0

/-- Whether the present tick is among those whose frames are saved. -/
def selected (s : Simulation) : Bool :=
  match s.selection with
  | some ticks => ticks.contains s.tick
  | none => false

def shouldSave (s : Simulation) : Bool := !s.paused && s.selected

def bindings (s : Simulation) (inverted : Bool) : Template.Bindings where
  rule := s.rule.render
  width := s.board.width
  height := s.board.height
  modeNumber := s.flicker.mode.number
  modeLetter := s.flicker.mode.letter
  seed := s.seed
  tick := s.tick
  inverted := inverted
  selected := s.selected
  post := s.post.map fun p => (p.rule.render, p.ticks)

/-- Everything that can be done to a simulation. -/
inductive Operation
  | step
  | advance
  | togglePause
  | cycleFlicker
  | ask
  deriving DecidableEq, Repr

def perform (s : Simulation) : Operation → Simulation
  | .step => s.step
  | .advance => s.advance
  | .togglePause => s.togglePause
  | .cycleFlicker => s.cycleFlicker
  | .ask => s.asked

/-- The simulation after `n` steps. -/
def steps : Nat → Simulation → Simulation
  | 0, s => s
  | n + 1, s => steps n s.step

end Simulation

end TorusAutomaton

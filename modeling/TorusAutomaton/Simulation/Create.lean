import TorusAutomaton.Simulation.Basic
import TorusAutomaton.Board.Rows
import TorusAutomaton.Decimal.Shortest
import TorusAutomaton.Journal
import TorusAutomaton.Random.Keystream
import TorusAutomaton.Rule.Parser
import TorusAutomaton.TickSet.Parser

/-!
# Creating simulations

A configuration is checked from the numbers to the texts: fill, drawing interval, last tick, rule,
second rule, board, selection of ticks. The first fault decides. One source of random words, made
from the seed, serves the directives of the two rules and then the random board.

Boards of every size and sets of any number of ticks are created here. That a machine may not have
the words or the memory for them is no fault of the configuration, and is left out.
-/

namespace TorusAutomaton.Simulation

open TorusAutomaton Text Journal

/-- Settings of a simulation, most of them still as text. `seed` may be absent, and `board`
replaces the random board. -/
structure Config where
  width : Nat
  height : Nat
  rule : Text
  seed : Option Text
  flickerMode : Nat
  startTick : Int
  board : Option Text
  randomFill : Bool
  fill : Float
  keepSize : Bool
  postRule : Option Text
  postTicks : Nat
  lastTick : Option Nat
  selection : Option Text
  drawEvery : Nat
  paused : Bool

inductive Error
  | rule (cause : Rule.Error)
  | postRule (cause : Rule.Error)
  | ticks (cause : TickSet.Error)
  | state (cause : Board.Error)
  | fill (value : Float)
  | drawEvery
  | tickOutOfRange (tick : Nat)

def Error.message : Error → String
  | .rule cause => "rule: " ++ cause.message
  | .postRule cause => "post-process rule: " ++ cause.message
  | .ticks cause => "render ticks: " ++ cause.message
  | .state cause => "initial state: " ++ cause.message
  | .fill value => "fill percentage " ++ String.ofList (Decimal.render value) ++ " is outside 0..=1"
  | .drawEvery => "render interval must be at least 1"
  | .tickOutOfRange tick => toString tick ++ " is out of range for a tick"

/-- What an error was caused by. A fault of the second rule is told in full by its own message. -/
def Error.cause : Error → Option String
  | .rule cause => some cause.message
  | .ticks cause => some cause.message
  | .state cause => some cause.message
  | .postRule _ | .fill _ | .drawEvery | .tickOutOfRange _ => none

/-- The seed that asks for a generated one. -/
def generatedSeed : Text := ['-', '1']

/-- The seed to use and whether it is the generated one. -/
def Config.chooseSeed (c : Config) (fresh : Text) : Text × Bool :=
  match c.seed with
  | some s => if s = generatedSeed then (fresh, true) else (s, false)
  | none => (fresh, true)

/-- Checks the numbers. Ticks are signed 64-bit numbers. -/
def Config.checkNumbers (c : Config) : Except Error Unit := do
  if !(0 ≤ c.fill && c.fill ≤ 1) then
    throw (.fill c.fill)
  if c.drawEvery = 0 then
    throw .drawEvery
  if c.drawEvery > Numeral.maxI64 then
    throw (.tickOutOfRange c.drawEvery)
  match c.lastTick with
  | some last => if last > Numeral.maxI64 then throw (.tickOutOfRange last)
  | none => pure ()

variable {σ : Type} [Random.Source σ]

/-- The second rule; it is not even read when it has no ticks to run. -/
def Config.readPostRule (c : Config) (s : σ) : Except Error (Option Rule × σ) :=
  match c.postRule with
  | some t =>
    if c.postTicks > 0 then
      match Rule.parse t s with
      | .ok (rule, s) => .ok (some rule, s)
      | .error e => .error (.postRule e)
    else .ok (none, s)
  | none => .ok (none, s)

/-- The board of a given state: near the middle of the configured board, or in its own size when
it is to keep it or is not smaller both ways. -/
def Config.place (c : Config) (state : Board) : Kept Error Board :=
  if c.keepSize then pure state
  else
    match state.expand c.width c.height with
    | .ok board => pure board
    | .error mismatch => do
      if ¬(state.width = c.width ∧ state.height = c.height) then
        Kept.note (.boardKept mismatch)
      return state

/-- The first board: the given state, random cells, or dead ones. -/
def Config.firstBoard (c : Config) (s : σ) : Kept Error Board :=
  match c.board with
  | some t => do
    let state ← (Board.parse t).mapError Error.state
    c.place state
  | none =>
    if c.randomFill then pure (Board.random c.width c.height c.fill s).1
    else pure (Board.dead c.width c.height)

def Config.readSelection (c : Config) : Kept Error (Option TickSet) :=
  match c.selection with
  | some t => do
    let ticks ← (TickSet.parse t c.lastTick).mapError Error.ticks
    Kept.note (.ticksSelected ticks)
    return some ticks
  | none => pure none

/-- Creates a simulation and notes what was found. `fresh` is used as the seed if one is to be
generated. A seed gets a question mark when the board is given, since it does not tell the board. -/
def build (c : Config) (fresh : Text) : Kept Error Simulation := do
  c.checkNumbers
  let (seed, seedGenerated) := c.chooseSeed fresh
  let (rule, source) ← (Rule.parse c.rule (Random.Keystream.ofSeed seed)).mapError Error.rule
  Kept.note (.ruleRead c.rule rule)
  let (postRule, source) ← c.readPostRule source
  let seed := if c.board.isSome then seed ++ ['?'] else seed
  let board ← c.firstBoard source
  let selection ← c.readSelection
  let alive := board.population
  Kept.note (.boardReady board.width board.height seed alive)
  return {
    board, rule, seed, seedGenerated, selection
    tick := c.startTick
    paused := c.paused
    flicker := .start c.flickerMode alive (board.total - alive)
    post := postRule.map fun r =>
      { rule := r, ticks := c.postTicks, board := derive r c.postTicks board }
    drawEvery := c.drawEvery
    lastTick := c.lastTick }

def create (c : Config) (fresh : Text) : Except Error Simulation := (build c fresh).outcome

end TorusAutomaton.Simulation

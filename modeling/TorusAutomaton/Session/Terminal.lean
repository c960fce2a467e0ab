import TorusAutomaton.Session.Headless
import TorusAutomaton.Session.Keyboard

/-!
# Runs on a terminal

A run on a terminal goes in turns. A turn first takes a key if one was typed. It ends there, unless
the time for the next tick has come or the key asks for the board to be drawn again. Otherwise the
frame is drawn and saved as far as it is due, the run ends if the last tick is reached, and if the
board was not drawn for a key the simulation makes a step. A tick is asked about only once and saved
only once, however often it is drawn.
-/

namespace TorusAutomaton.Session

open TorusAutomaton

/-- What a key asks for. -/
inductive Control
  | goOn
  | redraw
  | stop (exit : Exit)
  deriving DecidableEq, Repr

/-- Takes a key. Single steps are only made while paused. -/
def press (s : Session) (key : Key) : Session × Control :=
  match key with
  | .escape | .char 'q' => (s, .stop .quit)
  | .char 'r' => (s, .stop .recover)
  | .char ' ' => (s.perform .togglePause, .redraw)
  | .char 'f' => (s.perform .cycleFlicker, .redraw)
  | .char 's' => if s.sim.paused then (s.perform .advance, .redraw) else (s, .goOn)
  | .char _ | .other => (s, .goOn)

/-- The view of a session on a terminal: whether the board has to be drawn whatever the time is, the
last answer about inversion and the tick it was given for, and the last tick that was saved. -/
structure TerminalView where
  session : Session
  redraw : Bool
  inverted : Bool
  shown : Option Int
  saved : Option Int

/-- What a turn or a run of turns comes to. -/
inductive Outcome
  | running
  | stopped (exit : Exit)
  | failed (failure : Failure)
  deriving DecidableEq, Repr

namespace TerminalView

/-- A run starts by drawing the board. -/
def start (s : Session) : TerminalView :=
  { session := s, redraw := true, inverted := false, shown := none, saved := none }

def drawDue (v : TerminalView) : Bool := v.session.sim.shouldDraw || v.redraw

def saveDue (v : TerminalView) : Bool :=
  v.session.sim.shouldSave && v.saved != some v.session.sim.tick

/-- Asks about inversion unless that was done for the present tick. -/
def askOnce (v : TerminalView) : TerminalView :=
  if v.shown = some v.session.sim.tick then v
  else
    let (session, inverted) := v.session.ask
    { v with session, inverted, shown := some v.session.sim.tick }

/-- Draws the present frame. -/
def draw (v : TerminalView) : TerminalView :=
  { v with session := v.session.add (.drew (v.session.frame v.inverted)) }

/-- Saves the present frame. -/
def save (v : TerminalView) : TerminalView × Option Failure :=
  match v.session.save v.inverted with
  | (session, none) => ({ v with session, saved := some v.session.sim.tick }, none)
  | (session, some failure) => ({ v with session }, some failure)

/-- Draws and saves the present frame as far as it is due. -/
def present (v : TerminalView) : TerminalView × Option Failure :=
  let drawDue := v.drawDue
  let saveDue := v.saveDue
  if drawDue || saveDue then
    let v := v.askOnce
    let v := if drawDue then v.draw else v
    if saveDue then v.save else (v, none)
  else (v, none)

/-- The part of a turn after the key. -/
def proceed (v : TerminalView) : TerminalView × Outcome :=
  match v.present with
  | (v, some failure) => (v, .failed failure)
  | (v, none) =>
    if v.session.sim.finished then (v, .stopped .done)
    else
      let session := if v.redraw then v.session else v.session.perform .step
      ({ v with session, redraw := false }, .running)

/-- One turn. `due` tells whether the time for the next tick has come. -/
def turn (v : TerminalView) (key : Option Key) (due : Bool) : TerminalView × Outcome :=
  let (session, control) :=
    match key with
    | some k => v.session.press k
    | none => (v.session, .goOn)
  let v := { v with session, redraw := v.redraw || control = .redraw }
  match control with
  | .stop exit => (v, .stopped exit)
  | _ => if v.redraw || due then v.proceed else (v, .running)

/-- Turns in each of which a key is taken before the time has come. -/
def typed : TerminalView → List Key → TerminalView × Outcome
  | v, [] => (v, .running)
  | v, key :: rest =>
    match v.turn (some key) false with
    | (v, .running) => typed v rest
    | result => result

/-- At most so many turns without a key, each of them when its time has come. -/
def idle : Nat → TerminalView → TerminalView × Outcome
  | 0, v => (v, .running)
  | n + 1, v =>
    match v.turn none true with
    | (v, .running) => idle n v
    | result => result

/-- Takes all keys and then goes on without. One turn may be spent on drawing; from then on every
turn makes a step unless the simulation is paused, so a run that is still going on after all
remaining ticks will not be done while nobody types. -/
def run (v : TerminalView) (keys : List Key) : TerminalView × Outcome :=
  match v.typed keys with
  | (v, .running) => idle (v.session.ticksLeft + 2) v
  | result => result

end TerminalView

/-- A run on a terminal with these keys typed: the session after it, what was sent to the terminal,
and how the run ended. The screen is given back however it ends. -/
def terminal (s : Session) (keys : List Key) : Session × Text × Outcome :=
  let (v, outcome) := (TerminalView.start { s with history := [] }).run keys
  let drawn := v.session.acts.flatMap fun act =>
    match act with
    | .drew f => f.output s.args s.tiles
    | _ => []
  ({ v.session with history := v.session.history ++ s.history },
    View.Screen.opening ++ drawn ++ View.Screen.closing, outcome)

end TorusAutomaton.Session

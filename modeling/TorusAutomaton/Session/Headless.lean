import TorusAutomaton.Session.Basic

/-!
# Runs without a terminal

A run without a terminal saves the selected frames up to the last tick and is done. It needs to know
the last tick, and could not make progress if it were paused.
-/

namespace TorusAutomaton.Session

/-- How a run ended that did not fail. -/
inductive Exit
  | done
  | quit
  | recover
  deriving DecidableEq, Repr

def Exit.name : Exit → String
  | .done => "Done"
  | .quit => "Quit"
  | .recover => "Recover"

/-- Saves the present frame if it is selected. -/
def saveDue (s : Session) : Session × Option Failure :=
  if s.sim.shouldSave then
    let (s, _, failure) := s.saveFrame
    (s, failure)
  else (s, none)

/-- Saves frames and steps until the last tick is reached, in at most `steps` steps. -/
def headlessFrom (steps : Nat) (s : Session) : Session × Except Failure Exit :=
  let (s, failure) := s.saveDue
  match failure with
  | some f => (s, .error f)
  | none =>
    if s.sim.finished then (s, .ok .done)
    else
      match steps with
      | 0 => (s, .ok .done)
      | n + 1 => headlessFrom n (s.perform .step)

/-- Ticks from the present one to the last. -/
def ticksLeft (s : Session) : Nat :=
  match s.sim.lastTick with
  | some last => ((last : Int) - s.sim.tick).toNat
  | none => 0

/-- Runs to the last tick. -/
def headless (s : Session) : Session × Except Failure Exit :=
  if s.args.maxTicks.isNone then (s, .error .needsMaxTicks)
  else if s.sim.paused then (s, .error .startsPaused)
  else headlessFrom s.ticksLeft s

end TorusAutomaton.Session

import TorusAutomaton.Board.Rows
import TorusAutomaton.Rule.Basic
import TorusAutomaton.TickSet.Basic
import TorusAutomaton.Flicker

/-!
# The journal

What happens is noted in a journal. An event is a value; its wording and its weight are functions
of it. A computation that keeps a journal keeps it whether it succeeds or fails, and the journal
does not influence its outcome (`outcome_bind`).
-/

namespace TorusAutomaton

/-- Weight of an event, and the least weight that is shown. -/
inductive Journal.Level
  | off
  | error
  | warn
  | info
  | debug
  | trace
  deriving DecidableEq, Repr

inductive Journal.Event
  | ruleRead (given : Text) (rule : Rule)
  | boardKept (mismatch : Board.Error)
  | ticksSelected (ticks : TickSet)
  | boardReady (width height : Nat) (seed : Text) (alive : Nat)
  | modeChanged (mode : Flicker.Mode)
  | captionDropped (reason : String)
  | frameWritten (path : Text)
  | noTerminal (columns lines : Nat)
  | stopped (tick : Int) (alive dead : Nat) (how : String)

namespace Journal

def Level.name : Level → String
  | .off => "OFF"
  | .error => "ERROR"
  | .warn => "WARN"
  | .info => "INFO"
  | .debug => "DEBUG"
  | .trace => "TRACE"

def Level.rank : Level → Nat
  | .off => 0
  | .error => 1
  | .warn => 2
  | .info => 3
  | .debug => 4
  | .trace => 5

def Level.all : List Level := [.off, .error, .warn, .info, .debug, .trace]

/-- Reads a level by its name in upper or lower case. -/
def Level.read (t : Text) : Option Level :=
  Level.all.find? fun level => level.name.toList = t.map Char.toUpper

def Event.level : Event → Level
  | .ruleRead .. | .ticksSelected .. | .boardReady .. | .stopped .. => .info
  | .boardKept .. | .captionDropped .. | .noTerminal .. => .warn
  | .modeChanged .. | .frameWritten .. => .debug

/-- An optional number as it is shown in messages. -/
def showOptional : Option Nat → String
  | some n => "Some(" ++ toString n ++ ")"
  | none => "None"

def Event.message : Event → String
  | .ruleRead given rule =>
    "rule " ++ String.ofList given ++ " resolved to " ++ String.ofList rule.render ++ " ("
      ++ toString rule.length ++ " tables)"
  | .boardKept mismatch => mismatch.message ++ "; using the state's own dimensions"
  | .ticksSelected ticks =>
    toString ticks.size ++ " ticks selected for frame output, first " ++ showOptional ticks.first?
  | .boardReady width height seed alive =>
    toString width ++ "x" ++ toString height ++ " board, seed " ++ String.ofList seed ++ ", "
      ++ toString alive ++ " alive"
  | .modeChanged mode => "flicker mode " ++ toString mode.number
  | .captionDropped reason => reason ++ "; frames are saved without subtitles"
  | .frameWritten path => "wrote " ++ String.ofList path
  | .noTerminal columns lines =>
    "no terminal size (Inappropriate ioctl for device (os error 25)), assuming "
      ++ toString columns ++ "x" ++ toString lines
  | .stopped tick alive dead how =>
    "stopped at tick " ++ toString tick ++ " with " ++ toString alive ++ " alive, "
      ++ toString dead ++ " dead (" ++ how ++ ")"

def Event.line (e : Event) : String := e.level.name ++ " " ++ e.message

/-- A computation that keeps a journal. -/
structure Kept (ε α : Type) where
  events : List Event
  outcome : Except ε α

namespace Kept

variable {ε α β : Type}

def note (e : Event) : Kept ε Unit := { events := [e], outcome := .ok () }

def ofExcept (x : Except ε α) : Kept ε α := { events := [], outcome := x }

/-- Goes on with a result; after a failure nothing more is noted. -/
def andThen (x : Kept ε α) (f : α → Kept ε β) : Kept ε β :=
  match x.outcome with
  | .ok a => { events := x.events ++ (f a).events, outcome := (f a).outcome }
  | .error e => { events := x.events, outcome := .error e }

/-- Says a failure in other words. -/
def mapError {δ : Type} (f : ε → δ) (x : Kept ε α) : Kept δ α :=
  { events := x.events, outcome := x.outcome.mapError f }

instance : Monad (Kept ε) where
  pure a := ofExcept (.ok a)
  bind := andThen

instance : MonadLift (Except ε) (Kept ε) where
  monadLift := ofExcept

theorem outcome_bind (x : Kept ε α) (f : α → Kept ε β) :
    (x >>= f).outcome = x.outcome >>= fun a => (f a).outcome := by
  show (x.andThen f).outcome = _
  unfold andThen
  split <;> rename_i h <;> rw [h] <;> rfl

end Kept

end Journal

end TorusAutomaton

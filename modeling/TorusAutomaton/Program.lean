import TorusAutomaton.CommandLine.Parser
import TorusAutomaton.CommandLine.Recovery
import TorusAutomaton.Session.Terminal

/-!
# The program

A command line is read, a session is started and run to its end, and what comes of it is told by the
exit code, the two output channels, the files and the journal. What the program finds around it, a
terminal, files, fonts and a fresh seed, is an argument.
-/

namespace TorusAutomaton.Program

open TorusAutomaton Text CommandLine Session

/-- What the program finds around it. -/
structure Surroundings where
  terminal : Option (TerminalSize × List Key)
  files : FileTree
  fresh : Text
  fonts : Fonts := noFonts

/-- What the program leaves behind. `written` are the paths it wrote to, the first one first. A run
that has not `ended` will not be done while nobody types, and the rest tells what it has come to. -/
structure Result where
  ended : Bool
  code : Nat
  output : Text
  complaint : Text
  files : FileTree
  written : List (Text × Option View.Image)
  events : List Journal.Event

/-- The size assumed when there is no terminal. -/
def assumedSize : TerminalSize := { columns := 80, lines := 24 }

def versionText : Text := "rulecell 0.1.0\n".toList

def helpText : Text :=
  "Cellular automata on a wrapping grid, driven by rule strings\n\n".toList
    ++ "Usage: rulecell [OPTIONS]\n\nOptions:\n".toList
    ++ Name.all.flatMap fun n =>
      "      --".toList ++ n.long
        ++ (match n with
            | .opt _ => " <VALUE>".toList
            | _ => [])
        ++ (match n.letter with
            | some c => ", -".toList ++ [c]
            | none => [])
        ++ ['\n']

def usageText : Usage → String
  | .help | .version => ""
  | .unknownArgument => "unexpected argument found"
  | .missingValue => "a value is required but none was supplied"
  | .badValue => "invalid value"
  | .repeated => "an argument cannot be used multiple times"
  | .unwantedValue => "unexpected value for an argument that takes none"

/-- A text whose further lines start with blanks. -/
def indented (blanks : Nat) (t : String) : Text :=
  join ('\n' :: List.replicate blanks ' ') (t.toList.splitOn '\n')

/-- Causes from the nearest to the farthest; one alone is not numbered. -/
def causesText : List String → Text
  | [] => []
  | [cause] => "\nCaused by:\n".toList ++ "    ".toList ++ indented 4 cause ++ ['\n']
  | causes =>
    "\nCaused by:\n".toList
      ++ causes.zipIdx.flatMap fun (cause, i) =>
        let number := Numeral.ofNat i
        List.replicate (5 - number.length) ' ' ++ number ++ ": ".toList ++ indented 7 cause
          ++ ['\n']

/-- What is written about an error and its causes. -/
def complaintText : List String → Text
  | [] => []
  | outermost :: causes => "Error: ".toList ++ outermost.toList ++ ['\n'] ++ causesText causes

/-- What is left behind when no session was started. -/
def unstarted (code : Nat) (output complaint : Text) (files : FileTree)
    (events : List Journal.Event) : Result :=
  { ended := true, code, output, complaint, files, written := [], events }

/-- What a session leaves behind that failed; `before` was noted before it started. -/
def failed (s : Session) (before : List Journal.Event) (output : Text) (f : Failure) : Result where
  ended := true
  code := 1
  output := output
  complaint := complaintText f.chain
  files := s.files
  written := s.written
  events := before ++ s.events

/-- What is written after a run that was stopped for recovery. -/
def recoveryText (s : Session) : Text :=
  "\nTo recover from this configuration, run:\n\n".toList ++ recoveryCommand s.args s.sim ++ ['\n']

def stopEvent (s : Session) (exit : Exit) : Journal.Event :=
  .stopped s.sim.tick s.sim.alive s.sim.dead exit.name

/-- What a finished run leaves behind. -/
def finish (s : Session) (before : List Journal.Event) (output : Text) (exit : Exit) : Result where
  ended := true
  code := 0
  output := output ++ (if exit = .recover then recoveryText s else [])
  complaint := []
  files := s.files
  written := s.written
  events := before ++ s.events ++ [stopEvent s exit]

/-- What a run has come to that goes on. -/
def unfinished (s : Session) (before : List Journal.Event) (output : Text) : Result where
  ended := false
  code := 0
  output := output
  complaint := []
  files := s.files
  written := s.written
  events := before ++ s.events

/-- Runs a session that has been started; `before` was noted on the way there. -/
def runSession (s : Session) (terminal : Option (List Key)) (before : List Journal.Event) :
    Result :=
  if s.args.headless then
    match s.headless with
    | (s, .ok exit) => finish s before [] exit
    | (s, .error f) => failed s before [] f
  else
    match terminal with
    | none => failed s before [] .noTerminal
    | some keys =>
      match s.terminal keys with
      | (s, output, .stopped exit) => finish s before output exit
      | (s, output, .failed f) => failed s before output f
      | (s, output, .running) => unfinished s before output

/-- Runs the program with the arguments after its name. -/
def run (argv : List Text) (around : Surroundings) : Result :=
  match CommandLine.parse argv with
  | .error .help => unstarted 0 helpText [] around.files []
  | .error .version => unstarted 0 versionText [] around.files []
  | .error u => unstarted 2 [] ("error: " ++ usageText u ++ "\n").toList around.files []
  | .ok args =>
    let (size, notes) : TerminalSize × List Journal.Event :=
      match around.terminal with
      | some (size, _) => (size, [])
      | none => (assumedSize, [.noTerminal assumedSize.columns assumedSize.lines])
    let started := Session.start args size args.imageDir around.files around.fresh around.fonts
    match started.outcome with
    | .error e => unstarted 1 [] (complaintText e.chain) around.files (notes ++ started.events)
    | .ok s =>
      runSession s (around.terminal.map fun t => t.2) (notes ++ started.events)

end TorusAutomaton.Program

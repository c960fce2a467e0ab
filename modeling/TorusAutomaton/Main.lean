import TorusAutomaton.Program
import TorusAutomaton.View.Png

/-!
# Command line

The program as a process. It looks at the terminal and at the files that its arguments name, draws a
seed, and then runs: a run without a terminal is computed first and its files are written
afterwards, and a run on a terminal goes turn by turn with the clock and the keyboard. It comes
without a font library, so that no file is a font to it.
-/

namespace TorusAutomaton.Main

open TorusAutomaton Session

/-- The number in a variable of the environment. -/
def environmentNumber (name : String) : IO (Option Nat) := do
  match ← IO.getEnv name with
  | some t => return t.toNat?
  | none => return none

/-- The size of the terminal, if there is one. -/
def terminalSize : IO (Option CommandLine.TerminalSize) := do
  if !(← (← IO.getStdin).isTty) then
    return none
  let columns := (← environmentNumber "COLUMNS").getD Program.assumedSize.columns
  let lines := (← environmentNumber "LINES").getD Program.assumedSize.lines
  return some { columns, lines }

/-- Five different letters. -/
def freshSeed : IO Text := do
  let mut left := (List.range 26).map fun n => Char.ofNat (n + 'A'.toNat)
  let mut seed : Text := []
  for _ in List.range 5 do
    let c := left.getD (← IO.rand 0 (left.length - 1)) 'A'
    left := left.erase c
    seed := c :: seed
  return seed

/-- What a path leads to, if it leads anywhere. Contents do not matter. -/
def lookAt (path : Text) : IO (Option (Files.Node (Option View.Image))) := do
  try
    let _ ← IO.FS.readBinFile (String.ofList path)
    return some (.file none)
  catch
    | .inappropriateType .. => return some .empty
    | _ => return none

/-- The present directory, and what the arguments name. -/
def lookAround (args : CommandLine.Arguments) : IO FileTree := do
  let present := Path.names (toString (← IO.currentDir)).toList
  let mut files : FileTree := { root := Files.Node.empty.put present .empty, present }
  for path in args.imageDir :: args.fontPath.toList do
    for p in (Path.withAbove path).reverse do
      match ← lookAt p with
      | some (.directory _) => files := (files.makeDirectory p).toOption.getD files
      | some (.file content) => files := (files.write p content).toOption.getD files
      | none => pure ()
  return files

/-- Makes a directory and those above it. -/
def makeDirectory (path : Text) : IO Unit := do
  if !path.isEmpty then
    IO.FS.createDirAll (String.ofList path)

/-- Writes one file; a file without an image is made and left empty. -/
def writeFile (path : Text) (image : Option View.Image) : IO Unit := do
  makeDirectory ((Path.parent path).getD [])
  let bytes := (image.map View.Png.encode).getD ByteArray.empty
  IO.FS.writeBinFile (String.ofList path) bytes

/-- Prints the events that weigh enough. -/
def showEvents (level : Journal.Level) (events : List Journal.Event) : IO Unit := do
  for e in events do
    if e.level.rank ≤ level.rank then
      IO.println e.line

/-- What the keyboard sends next. -/
abbrev Typing := Task (Except IO.Error ByteArray)

def startTyping : IO Typing := do
  let input ← IO.getStdin
  IO.asTask (input.read 1024)

/-- The keys that have come, and what is waited for next. -/
def takeKeys (typing : Typing) : IO (List Key × Typing) := do
  if !(← IO.hasFinished typing) then
    return ([], typing)
  match typing.get with
  | .error _ => return ([], typing)
  | .ok bytes =>
    if bytes.isEmpty then
      return ([], typing)
    let typed := ((String.fromUTF8? bytes).map String.toList).getD []
    return (Keyboard.keys typed, ← startTyping)

/-- Writes what a turn has sent and saved, and clears the history. -/
def flush (s : Session) : IO Session := do
  let output ← IO.getStdout
  for act in s.acts do
    match act with
    | .drew f => output.putStr (String.ofList (f.output s.args s.tiles))
    | _ => pure ()
  for (path, image) in s.written do
    writeFile path image
  output.flush
  return { s with history := [] }

/-- Turns with the clock and the keyboard until the run ends. `keys` have come but were not taken
yet. -/
partial def interact (v : TerminalView) (keys : List Key) (typing : Typing) (last : Nat) :
    IO (TerminalView × Outcome) := do
  IO.sleep 1
  let (more, typing) ← takeKeys typing
  let keys := keys ++ more
  let now ← IO.monoMsNow
  let due : Bool := now - last ≥ max v.session.args.ms 1
  let (v, outcome) := v.turn keys.head? due
  let last := if due || !v.session.history.isEmpty then now else last
  let session ← flush v.session
  let v := { v with session }
  match outcome with
  | .running => interact v keys.tail typing last
  | _ => return (v, outcome)

/-- A run on the terminal. -/
def runInteractive (s : Session) : IO UInt32 := do
  IO.print (String.ofList View.Screen.opening)
  (← IO.getStdout).flush
  let (v, outcome) ← interact (TerminalView.start s) [] (← startTyping) (← IO.monoMsNow)
  IO.print (String.ofList View.Screen.closing)
  (← IO.getStdout).flush
  match outcome with
  | .failed f =>
    IO.eprint (String.ofList (Program.complaintText f.chain))
    return 1
  | .stopped exit =>
    showEvents s.args.logLevel [Program.stopEvent v.session exit]
    if exit = .recover then
      IO.print (String.ofList (Program.recoveryText v.session))
    return 0
  | .running => return 0

/-- Runs the program and does what it leaves to be done. -/
def run (argv : List Text) : IO UInt32 := do
  let size ← terminalSize
  let fresh ← freshSeed
  let parsed := CommandLine.parse argv
  let files ← lookAround (parsed.toOption.getD {})
  match parsed, size with
  | .ok args, some size =>
    if !args.headless then
      let started := Session.start args size args.imageDir files fresh
      showEvents args.logLevel started.events
      match started.outcome with
      | .ok s =>
        makeDirectory (s.directory.getD [])
        return ← runInteractive s
      | .error e =>
        IO.eprint (String.ofList (Program.complaintText e.chain))
        return 1
  | _, _ => pure ()
  let result := Program.run argv { terminal := size.map fun s => (s, []), files, fresh }
  showEvents (parsed.toOption.map CommandLine.Arguments.logLevel |>.getD .off) result.events
  for (path, image) in result.written do
    writeFile path image
  IO.print (String.ofList result.output)
  IO.eprint (String.ofList result.complaint)
  return result.code.toUInt32

end TorusAutomaton.Main

def main (args : List String) : IO UInt32 := TorusAutomaton.Main.run (args.map String.toList)

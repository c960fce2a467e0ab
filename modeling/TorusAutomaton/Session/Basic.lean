import TorusAutomaton.CommandLine.Dimensions
import TorusAutomaton.Session.FrameFile
import TorusAutomaton.View.Screen

/-!
# Sessions

A session is a simulation together with the arguments it was started with. All that can be seen of
it from outside is an act, and the acts are kept in its history: notes in the journal, questions
about inversion, frames drawn on a terminal, and frames saved as files. Output and journal are
functions of the history; the files are kept beside it, because what is there decides whether a
frame can be saved.
-/

namespace TorusAutomaton

/-- A frame: the simulation it shows, and whether it is inverted. -/
structure Session.Frame where
  sim : Simulation
  inverted : Bool

/-- What a session does. A frame is `spoiled` when saving it leaves an empty file. -/
inductive Session.Act
  | noted (event : Journal.Event)
  | asked (tick : Int) (inverted : Bool)
  | drew (frame : Session.Frame)
  | saved (frame : Session.Frame)
  | spoiled (frame : Session.Frame)

/-- `directory` is where frames are saved, if they are, `files` are the files around, and `caption`
is what subtitles of saved frames are drawn with, if they have any. The history starts with the
latest act. -/
structure Session where
  args : CommandLine.Arguments
  sim : Simulation
  tiles : View.Tiles
  directory : Option Text
  files : Session.FileTree
  history : List Session.Act
  caption : Option View.Caption := none

namespace Session

open TorusAutomaton Text Journal

/-- Why a font is not used for subtitles. -/
inductive FontFault
  | unreadable (fault : Files.Fault)
  | unusable
  deriving DecidableEq, Repr

def FontFault.message (font : Text) : FontFault → String
  | .unreadable fault => "could not read font " ++ String.ofList font ++ ": " ++ fault.message
  | .unusable => String.ofList font ++ " is not a usable font: InvalidFont"

/-- What a font library makes of the file under a path, if it is a font. -/
abbrev Fonts := Text → Option View.Font

/-- No file is a font. -/
def noFonts : Fonts := fun _ => none

/-- Loads the font under a path, which has to lead to a file. -/
def loadFont (files : FileTree) (fonts : Fonts) (font : Text) : Except FontFault View.Font :=
  match files.read font, fonts font with
  | .error fault, _ => .error (.unreadable fault)
  | .ok _, none => .error .unusable
  | .ok _, some f => .ok f

/-- Why a session does not start. -/
inductive StartError
  | arguments (cause : CommandLine.Error)
  | simulation (cause : Simulation.Error)
  | noDirectory (path : Text) (fault : Files.Fault)

/-- What went wrong, and then what it was caused by, and so on. -/
def StartError.chain : StartError → List String
  | .arguments cause => cause.message :: cause.cause.toList
  | .simulation cause => "invalid simulation settings" :: cause.message :: cause.cause.toList
  | .noDirectory path fault =>
    ["could not create image directory " ++ String.ofList path, fault.message]

/-- Why a session stops short. -/
inductive Failure
  | needsMaxTicks
  | startsPaused
  | noDirectory (path : Text) (fault : Files.Fault)
  | frame (path : Text) (fault : FrameFault)
  | noTerminal
  deriving DecidableEq, Repr

def Failure.chain : Failure → List String
  | .needsMaxTicks => ["--headless needs --max-ticks"]
  | .startsPaused => ["--headless cannot start paused"]
  | .noDirectory path fault => ["could not create " ++ String.ofList path, fault.message]
  | .frame path fault => ["could not write frame " ++ String.ofList path, fault.message]
  | .noTerminal =>
    ["could not set up the terminal", "No such device or address (os error 6)"]

/-- What subtitles are drawn with, when frames are saved with subtitles and a font is named. A font
that cannot be loaded is noted, and costs nothing but the subtitles. -/
def loadCaption (args : CommandLine.Arguments) (files : FileTree) (fonts : Fonts) :
    Kept StartError (Option View.Caption) :=
  match args.renderImages, args.fontPath with
  | some _, some font =>
    if args.noSubtitle then pure none
    else
      match loadFont files fonts font with
      | .ok f => pure (some (.ofFont f args.fontSize))
      | .error fault => do
        Kept.note (.captionDropped (fault.message font))
        return none
  | _, _ => pure none

/-- Makes the directory for frames if there is to be one. -/
def makeDirectory (files : FileTree) : Option Text → Except StartError FileTree
  | none => .ok files
  | some directory =>
    match files.makeDirectories directory with
    | (files, none) => .ok files
    | (_, some fault) => .error (.noDirectory directory fault)

/-- Starts a session. Frames are saved in `directory` if any are selected at all. `fresh` is the
seed if one is to be generated, `files` are the files around, and `fonts` tells which are fonts. -/
def start (args : CommandLine.Arguments) (size : CommandLine.TerminalSize) (directory : Text)
    (files : FileTree) (fresh : Text) (fonts : Fonts := noFonts) : Kept StartError Session := do
  let config ← (args.config size).mapError StartError.arguments
  let sim ← (Simulation.build config fresh).mapError StartError.simulation
  let tiles ← (CommandLine.readTiles args.tiles).mapError StartError.arguments
  let caption ← loadCaption args files fonts
  let directory := args.renderImages.map fun _ => directory
  let files ← makeDirectory files directory
  return { args, sim, tiles, directory, files, history := [], caption }

def add (s : Session) (act : Act) : Session := { s with history := act :: s.history }

/-- The frame of the present tick. -/
def frame (s : Session) (inverted : Bool) : Frame := { sim := s.sim, inverted }

/-- Asks whether the present frame is to be inverted. -/
def ask (s : Session) : Session × Bool :=
  let inverted := s.sim.inverted
  ({ s with sim := s.sim.asked }.add (.asked s.sim.tick inverted), inverted)

def perform (s : Session) (op : Simulation.Operation) : Session :=
  match op with
  | .ask => s.ask.1
  | .cycleFlicker =>
    let sim := s.sim.cycleFlicker
    { s with sim }.add (.noted (.modeChanged sim.flicker.mode))
  | op => { s with sim := s.sim.perform op }

namespace Frame

def lines (f : Frame) (tiles : View.Tiles) : List Text :=
  View.lines tiles f.inverted f.sim.displayBoard

def expand (f : Frame) (template : Text) : Text :=
  Template.expand template (f.sim.bindings f.inverted)

/-- The subtitle, unless there is to be none. -/
def subtitle (f : Frame) (args : CommandLine.Arguments) : Option Text :=
  args.subtitleTemplate.map f.expand

/-- The frame as it is sent to a terminal. -/
def output (f : Frame) (args : CommandLine.Arguments) (tiles : View.Tiles) : Text :=
  View.Screen.frame (f.lines tiles) (f.subtitle args)

/-- The frame as it is saved. Its sides are numbers without a bound, so it is the image that a
machine makes as long as they are numbers of 32 bits. -/
def image (f : Frame) (args : CommandLine.Arguments) (caption : Option View.Caption) : View.Image :=
  .ofFrame f.sim.displayBoard f.inverted args.zoom caption (f.subtitle args)

/-- The path of the frame below a directory. -/
def path (f : Frame) (args : CommandLine.Arguments) (directory : Text) : Text :=
  Path.join directory (f.expand args.imageFormat)

end Frame

/-- Saves the present frame if frames are saved. -/
def save (s : Session) (inverted : Bool) : Session × Option Failure :=
  match s.directory with
  | none => (s, none)
  | some directory =>
    let f := s.frame inverted
    let path := f.path s.args directory
    let (files, saving) := saveImage s.files path (f.image s.args s.caption)
    let s := { s with files }
    match saving with
    | .saved => ((s.add (.saved f)).add (.noted (.frameWritten path)), none)
    | .spoiled format => (s.add (.spoiled f), some (.frame path (.unsupported format)))
    | .noDirectory above fault => (s, some (.noDirectory above fault))
    | .failed fault => (s, some (.frame path fault))

/-- Asks about the present frame and saves it; also tells the answer. -/
def saveFrame (s : Session) : Session × Bool × Option Failure :=
  let (s, inverted) := s.ask
  let (s, failure) := s.save inverted
  (s, inverted, failure)

/-- The acts from the first to the latest. -/
def acts (s : Session) : List Act := s.history.reverse

def Act.event? : Act → Option Event
  | .noted event => some event
  | _ => none

/-- The frame that an act left in a file, and the image if the file is not empty. -/
def Act.file? (args : CommandLine.Arguments) (caption : Option View.Caption) :
    Act → Option (Frame × Option View.Image)
  | .saved f => some (f, some (f.image args caption))
  | .spoiled f => some (f, none)
  | _ => none

/-- What was noted during the session, the first event first. -/
def events (s : Session) : List Event := s.acts.filterMap Act.event?

/-- The paths that were written to, with the images, the first one first. -/
def written (s : Session) : List (Text × Option View.Image) :=
  match s.directory with
  | none => []
  | some directory =>
    s.acts.filterMap fun act =>
      (act.file? s.args s.caption).map fun file => (file.1.path s.args directory, file.2)

end Session

end TorusAutomaton

import TorusAutomaton.Decimal.Nearest
import TorusAutomaton.Journal
import TorusAutomaton.Text.Numeral

/-!
# Arguments

What a command line can set: options, each with a value, and switches. Every option has a long name
and some have a letter; every option has a default. The table of names is the functions `long` and
`letter`, and `Arguments.set` says which values an option takes.
-/

namespace TorusAutomaton.CommandLine

open TorusAutomaton Text

/-- Options, each of which takes one value. -/
inductive Opt
  | dimensions
  | rules
  | tiles
  | seed
  | board
  | fill
  | flickerMode
  | tick
  | maxTicks
  | renderEvery
  | postRules
  | postTicks
  | renderImages
  | imageDir
  | imageFormat
  | zoom
  | fontPath
  | fontSize
  | subtitle
  | ms
  | logLevel
  deriving DecidableEq, Repr

/-- Switches, which take no value. -/
inductive Switch
  | noExpand
  | empty
  | noSubtitle
  | paused
  | headless
  deriving DecidableEq, Repr

/-- Whatever can be named on a command line. -/
inductive Name
  | opt (o : Opt)
  | switch (s : Switch)
  | help
  | version
  deriving DecidableEq, Repr

/-- Which values that start with a hyphen an option takes from the argument after it. -/
inductive Hyphens
  | refused
  | numbers
  | any
  deriving DecidableEq, Repr

def Opt.long : Opt → Text
  | .dimensions => "dimensions".toList
  | .rules => "rules".toList
  | .tiles => "tiles".toList
  | .seed => "seed".toList
  | .board => "board".toList
  | .fill => "fill".toList
  | .flickerMode => "flicker-mode".toList
  | .tick => "tick".toList
  | .maxTicks => "max-ticks".toList
  | .renderEvery => "render-every".toList
  | .postRules => "post-rules".toList
  | .postTicks => "post-ticks".toList
  | .renderImages => "render-images".toList
  | .imageDir => "image-dir".toList
  | .imageFormat => "image-format".toList
  | .zoom => "zoom".toList
  | .fontPath => "font-path".toList
  | .fontSize => "font-size".toList
  | .subtitle => "subtitle".toList
  | .ms => "ms".toList
  | .logLevel => "log-level".toList

def Opt.letter : Opt → Option Char
  | .dimensions => some 'd'
  | .rules => some 'r'
  | .tiles => some 't'
  | .seed => some 'e'
  | .board => some 'b'
  | .flickerMode => some 'f'
  | .maxTicks => some 'm'
  | .renderImages => some 'i'
  | .subtitle => some 's'
  | _ => none

def Opt.hyphens : Opt → Hyphens
  | .rules | .seed | .postRules | .renderImages => .any
  | .tick => .numbers
  | _ => .refused

def Opt.all : List Opt :=
  [.dimensions, .rules, .tiles, .seed, .board, .fill, .flickerMode, .tick, .maxTicks, .renderEvery,
   .postRules, .postTicks, .renderImages, .imageDir, .imageFormat, .zoom, .fontPath, .fontSize,
   .subtitle, .ms, .logLevel]

def Switch.long : Switch → Text
  | .noExpand => "no-expand".toList
  | .empty => "empty".toList
  | .noSubtitle => "no-subtitle".toList
  | .paused => "paused".toList
  | .headless => "headless".toList

def Switch.letter : Switch → Option Char
  | .paused => some 'p'
  | _ => none

def Switch.all : List Switch := [.noExpand, .empty, .noSubtitle, .paused, .headless]

def Name.long : Name → Text
  | .opt o => o.long
  | .switch s => s.long
  | .help => "help".toList
  | .version => "version".toList

def Name.letter : Name → Option Char
  | .opt o => o.letter
  | .switch s => s.letter
  | .help => some 'h'
  | .version => some 'V'

def Name.all : List Name := Opt.all.map .opt ++ Switch.all.map .switch ++ [.help, .version]

/-- Names are not abbreviated. -/
def Name.ofLong (t : Text) : Option Name := Name.all.find? fun n => n.long = t

def Name.ofLetter (c : Char) : Option Name := Name.all.find? fun n => n.letter = some c

/-- The values in force; those of options that are not given are the defaults. -/
structure Arguments where
  dimensions : Text := "MxM".toList
  rules : Text := "0145678/3".toList
  tiles : Text := " #".toList
  seed : Text := "-1".toList
  board : Option Text := none
  noExpand : Bool := false
  empty : Bool := false
  fill : Float := 0.5
  flickerMode : Nat := 0
  tick : Int := 0
  maxTicks : Option Nat := none
  renderEvery : Nat := 1
  postRules : Option Text := none
  postTicks : Nat := 0
  renderImages : Option Text := none
  imageDir : Text := "frames".toList
  imageFormat : Text := "%R/%S/%T.png".toList
  zoom : Nat := 4
  fontPath : Option Text := none
  fontSize : Nat := 16
  subtitle : Text := "%T %r %s %a%i%o".toList
  noSubtitle : Bool := false
  ms : Nat := 100
  paused : Bool := false
  headless : Bool := false
  logLevel : Journal.Level := .warn

/-- Why a command line is not followed: it asks for help or for the version, or it is wrong. -/
inductive Usage
  | help
  | version
  | unknownArgument
  | missingValue
  | badValue
  | repeated
  | unwantedValue
  deriving DecidableEq, Repr

/-- Numbers of up to 32 bits are read as signed 64-bit numbers before their range is checked. -/
def readSmall (max : Nat) (t : Text) : Option Nat :=
  match Numeral.readInt Numeral.maxI64 t with
  | .ok v => if 0 ≤ v ∧ v ≤ max then some v.toNat else none
  | .error _ => none

def readLarge (t : Text) : Option Nat := (Numeral.readNat Numeral.maxU64 t).toOption

/-- A value that had to be read first. -/
def orBad {α : Type} : Option α → Except Usage α
  | some v => .ok v
  | none => .error .badValue

/-- A path may not be empty. -/
def readPath (t : Text) : Except Usage Text := if t.isEmpty then .error .missingValue else .ok t

/-- Gives an option a value. -/
def Arguments.set (a : Arguments) (o : Opt) (value : Text) : Except Usage Arguments :=
  match o with
  | .dimensions => .ok { a with dimensions := value }
  | .rules => .ok { a with rules := value }
  | .tiles => .ok { a with tiles := value }
  | .seed => .ok { a with seed := value }
  | .board => .ok { a with board := some value }
  | .fill => (orBad (Decimal.read value)).map fun v => { a with fill := v }
  | .flickerMode => (orBad (readSmall Numeral.maxU8 value)).map fun v => { a with flickerMode := v }
  | .tick =>
    (orBad (Numeral.readInt Numeral.maxI64 value).toOption).map fun v => { a with tick := v }
  | .maxTicks => (orBad (readLarge value)).map fun v => { a with maxTicks := some v }
  | .renderEvery => (orBad (readLarge value)).map fun v => { a with renderEvery := v }
  | .postRules => .ok { a with postRules := some value }
  | .postTicks => (orBad (readSmall Numeral.maxU32 value)).map fun v => { a with postTicks := v }
  | .renderImages => .ok { a with renderImages := some value }
  | .imageDir => (readPath value).map fun v => { a with imageDir := v }
  | .imageFormat => .ok { a with imageFormat := value }
  | .zoom => (orBad (readSmall Numeral.maxU32 value)).map fun v => { a with zoom := v }
  | .fontPath => (readPath value).map fun v => { a with fontPath := some v }
  | .fontSize => (orBad (readSmall Numeral.maxU32 value)).map fun v => { a with fontSize := v }
  | .subtitle => .ok { a with subtitle := value }
  | .ms => (orBad (readLarge value)).map fun v => { a with ms := v }
  | .logLevel => (orBad (Journal.Level.read value)).map fun v => { a with logLevel := v }

def Arguments.turnOn (a : Arguments) : Switch → Arguments
  | .noExpand => { a with noExpand := true }
  | .empty => { a with empty := true }
  | .noSubtitle => { a with noSubtitle := true }
  | .paused => { a with paused := true }
  | .headless => { a with headless := true }

/-- The template of the subtitle, unless it is hidden. -/
def Arguments.subtitleTemplate (a : Arguments) : Option Text :=
  if a.noSubtitle then none else some a.subtitle

end TorusAutomaton.CommandLine

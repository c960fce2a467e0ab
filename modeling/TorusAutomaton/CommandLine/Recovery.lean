import TorusAutomaton.CommandLine.Arguments
import TorusAutomaton.Files.Path
import TorusAutomaton.Text.Quotes
import TorusAutomaton.Simulation.Basic
import TorusAutomaton.Board.Rows
import TorusAutomaton.Decimal.Shortest

/-!
# The recovery command

The command that starts again from the present board. Options whose value is the default are left
out. The rule is written as it was resolved, so that nothing is drawn again, and the seed without
the question marks that a given board adds to it.
-/

namespace TorusAutomaton.CommandLine

open TorusAutomaton Text

/-- A setting that is left out unless `wanted`. -/
def settingIf (wanted : Bool) (o : Opt) (value : Text) : List (Opt × Text) :=
  if wanted then [(o, value)] else []

/-- A setting that is there if its value is. -/
def settingOf (o : Opt) : Option Text → List (Opt × Text)
  | some value => [(o, value)]
  | none => []

/-- The second rule and its ticks, when post-processing is on. -/
def postSettings (a : Arguments) : Option Simulation.PostProcess → List (Opt × Text)
  | some p => [(.postRules, p.rule.render), (.postTicks, Numeral.ofNat a.postTicks)]
  | none => []

/-- The seed without the question marks at its end. -/
def bareSeed (seed : Text) : Text := (seed.reverse.dropWhile (· = '?')).reverse

/-- The options of the recovery command in the order in which they are written. -/
def recoverySettings (a : Arguments) (s : Simulation) : List (Opt × Text) :=
  let d : Arguments := {}
  settingIf (a.dimensions != d.dimensions) .dimensions a.dimensions
    ++ [(.rules, s.rule.render)]
    ++ settingIf (a.tiles != d.tiles) .tiles a.tiles
    ++ settingIf (a.seed != d.seed || s.seedGenerated) .seed (bareSeed s.seed)
    ++ settingIf (a.fill != d.fill) .fill (Decimal.render a.fill)
    ++ [(.flickerMode, Numeral.ofNat s.flicker.mode.number)]
    ++ [(.tick, Numeral.ofInt s.tick)]
    ++ settingOf .maxTicks (a.maxTicks.map Numeral.ofNat)
    ++ settingIf (a.renderEvery != d.renderEvery) .renderEvery (Numeral.ofNat a.renderEvery)
    ++ postSettings a s.post
    ++ settingOf .renderImages a.renderImages
    ++ settingIf (Path.parts a.imageDir != Path.parts d.imageDir) .imageDir a.imageDir
    ++ settingIf (a.imageFormat != d.imageFormat) .imageFormat a.imageFormat
    ++ settingIf (a.zoom != d.zoom) .zoom (Numeral.ofNat a.zoom)
    ++ settingOf .fontPath a.fontPath
    ++ settingIf (a.fontSize != d.fontSize) .fontSize (Numeral.ofNat a.fontSize)
    ++ settingIf (a.subtitle != d.subtitle) .subtitle a.subtitle
    ++ settingIf (a.ms != d.ms) .ms (Numeral.ofNat a.ms)
    ++ [(.board, s.board.render)]

/-- The switches of the recovery command; the board keeps its own size. -/
def recoverySwitches (a : Arguments) : List Switch :=
  (if a.noSubtitle then [.noSubtitle] else []) ++ [.noExpand]

/-- An option and its value as part of a shell command. -/
def writeSetting (setting : Opt × Text) : Text :=
  '-' :: '-' :: (setting.1.long ++ ' ' :: Shell.quote setting.2)

def writeSwitch (s : Switch) : Text := '-' :: '-' :: s.long

/-- What stands between the parts of the command: the end of a line that goes on. -/
def lineBreak : Text := " \\\n    ".toList

def programName : Text := "rulecell".toList

/-- The recovery command, one option a line. -/
def recoveryCommand (a : Arguments) (s : Simulation) : Text :=
  join lineBreak
    (programName :: ((recoverySettings a s).map writeSetting
      ++ (recoverySwitches a).map writeSwitch))

end TorusAutomaton.CommandLine

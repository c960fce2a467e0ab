import TorusAutomaton.Main
import TorusAutomaton.Proofs.Board.Plane
import TorusAutomaton.Proofs.Board.Text
import TorusAutomaton.Proofs.Board.Layout
import TorusAutomaton.Proofs.Text.Numerals
import TorusAutomaton.Proofs.Rule.Canonical
import TorusAutomaton.Proofs.CommandLine.RecoveryText
import TorusAutomaton.Proofs.CommandLine.Ranges
import TorusAutomaton.Proofs.CommandLine.Settings
import TorusAutomaton.Proofs.Decimal.Positional
import TorusAutomaton.Proofs.Decimal.Sign
import TorusAutomaton.Proofs.Decimal.Rounding
import TorusAutomaton.Proofs.Decimal.Basins
import TorusAutomaton.Proofs.Decimal.ReadBack
import TorusAutomaton.Proofs.Simulation.Creation
import TorusAutomaton.Proofs.Simulation.Course
import TorusAutomaton.Proofs.CommandLine.Restored
import TorusAutomaton.Proofs.CommandLine.Recovery
import TorusAutomaton.Proofs.Session.Record
import TorusAutomaton.Proofs.Session.Turns
import TorusAutomaton.Proofs.Session.Safety
import TorusAutomaton.Proofs.Session.LastTick
import TorusAutomaton.Proofs.Flicker
import TorusAutomaton.Proofs.Session.Agreement
import TorusAutomaton.Proofs.Rule.Drawn
import TorusAutomaton.Proofs.Rule.Resolution
import TorusAutomaton.Proofs.TickSet.Members
import TorusAutomaton.Proofs.TickSet.Tokens
import TorusAutomaton.Proofs.Session.Frames
import TorusAutomaton.Proofs.CommandLine.Acceptance
import TorusAutomaton.Proofs.Rule.Chain
import TorusAutomaton.Proofs.Simulation.Independence
import TorusAutomaton.Proofs.Session.Transcript
import TorusAutomaton.Proofs.Session.Inversion
import TorusAutomaton.Proofs.Simulation.Samples
import TorusAutomaton.Proofs.Session.Comparisons
import TorusAutomaton.Proofs.Board.Placement
import TorusAutomaton.Proofs.Simulation.Placement
import TorusAutomaton.Proofs.CommandLine.Quoting
import TorusAutomaton.Proofs.Template.Expansion
import TorusAutomaton.Proofs.Board.Symmetry
import TorusAutomaton.Proofs.Board.Complement
import TorusAutomaton.Proofs.Board.Influence
import TorusAutomaton.Proofs.Board.Neighbours
import TorusAutomaton.Proofs.View.Pixels
import TorusAutomaton.Proofs.CommandLine.Seed
import TorusAutomaton.Proofs.Simulation.Acceptance
import TorusAutomaton.Proofs.Session.Names
import TorusAutomaton.Proofs.Session.NegativeTicks
import TorusAutomaton.Proofs.View.Captions
import TorusAutomaton.Proofs.Files.ReadBack
import TorusAutomaton.Proofs.Session.Lasting
import TorusAutomaton.Proofs.Session.SavedFiles
import TorusAutomaton.Proofs.Session.Labels
import TorusAutomaton.Proofs.Session.Ending
import TorusAutomaton.Proofs.Program
import TorusAutomaton.Proofs.Program

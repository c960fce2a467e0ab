import TorusAutomaton.Text.Basic
import TorusAutomaton.Random.Source

/-!
# Random rules

A directive gives, for live and for dead cells, a range of how many counts are to flip. The amount
is drawn from the range, and then that many of the counts 0 to 7 are drawn without repetition. The
digits are written in ascending order, whatever the order of the draws.
-/

namespace TorusAutomaton.Rule

open TorusAutomaton TorusAutomaton.Random

variable {σ : Type} [Source σ]

/-- A choice among the counts: for each `j` from the list in turn a number up to `j` is drawn, and
taken unless it is taken already, in which case `j` itself is. -/
def choose : List Nat → List Nat → σ → List Nat × σ
  | [], taken, s => (taken, s)
  | j :: js, taken, s =>
    let (t, s) := below32 (j + 1) s
    choose js ((if taken.contains t then j else t) :: taken) s

/-- `amount` of the eight counts 0 to 7. -/
def sample (amount : Nat) (s : σ) : List Nat × σ :=
  choose ((List.range amount).map (8 - amount + ·)) [] s

/-- Digits whose number is drawn from `low` up to but not including `high`; no more than eight. -/
def drawDigits (low high : Nat) (s : σ) : Text × σ :=
  let (extra, s) := below64 (high - low) s
  let (taken, s) := sample (min (low + extra) 8) s
  (((List.range 8).filter taken.contains).map Nat.digitChar, s)

/-- How many counts a directive asks for: bounds for live and for dead cells, the upper ones not
included. -/
structure Bounds where
  aliveLow : Nat
  aliveHigh : Nat
  deadLow : Nat
  deadHigh : Nat
  deriving DecidableEq, Repr

/-- The text of a rule drawn within the bounds, digits for live cells first. -/
def Bounds.draw (b : Bounds) (s : σ) : Text × σ :=
  let (alive, s) := drawDigits b.aliveLow b.aliveHigh s
  let (dead, s) := drawDigits b.deadLow b.deadHigh s
  (alive ++ '/' :: dead, s)

end TorusAutomaton.Rule

import TorusAutomaton.Text.Basic

/-!
# Transition tables

A table says at which counts of live neighbours a cell changes: at `dies` a live cell dies, at
`born` a dead cell comes alive. At all other counts a cell stays as it is. A cell has eight
neighbours, so there are nine counts.
-/

namespace TorusAutomaton.Rule

open TorusAutomaton

/-- One mark per count from 0 to 8. -/
abbrev Counts := Vector Bool 9

/-- The counts written as digits in a text, in any order and as often as one likes. -/
def Counts.ofDigits (t : Text) : Counts := Vector.ofFn fun n => t.contains (Nat.digitChar n)

/-- Whether a count is marked; counts above 8 are read as 8. -/
def Counts.has (marks : Counts) (n : Nat) : Bool :=
  have : min n 8 < 9 := by omega
  marks[min n 8]

/-- The marked counts as ascending digits. -/
def Counts.render (marks : Counts) : Text := ((List.range 9).filter marks.has).map Nat.digitChar

structure Table where
  dies : Counts
  born : Counts
  deriving DecidableEq

namespace Table

/-- No cell ever changes. -/
def still : Table := { dies := .ofDigits [], born := .ofDigits [] }

/-- What becomes of a cell with `n` live neighbours. -/
def next (table : Table) (alive : Bool) (n : Nat) : Bool :=
  if alive then !table.dies.has n else table.born.has n

/-- The counts at which live cells die, a slash, the counts at which dead cells come alive. -/
def render (table : Table) : Text := table.dies.render ++ '/' :: table.born.render

end Table

theorem Counts.has_ofDigits {n : Nat} (h : n ≤ 8) (t : Text) :
    (Counts.ofDigits t).has n = t.contains (Nat.digitChar n) := by
  have : min n 8 = n := by omega
  simp [Counts.has, Counts.ofDigits, this]

end TorusAutomaton.Rule

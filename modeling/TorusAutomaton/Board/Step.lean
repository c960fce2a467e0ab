import TorusAutomaton.Board.Basic
import TorusAutomaton.Rule.Basic

/-!
# One tick

All cells change at once: each looks at its own state and at the number of live cells among the
eight around it. On a board less than three cells wide or high the same cell can lie in several of
the eight directions, and then it counts in each of them; a cell can even be its own neighbour.
-/

namespace TorusAutomaton.Board

/-- The eight directions. -/
def directions : List (Int × Int) :=
  [(-1, -1), (0, -1), (1, -1), (-1, 0), (1, 0), (-1, 1), (0, 1), (1, 1)]

/-- Live cells around a cell. -/
def neighbours (b : Board) (x y : Int) : Nat :=
  directions.countP fun d => b.get (x + d.1) (y + d.2)

/-- The board after one step under a table. -/
def stepUnder (table : Rule.Table) (b : Board) : Board :=
  tabulate b.width b.height b.width_pos b.height_pos fun x y =>
    table.next (b.get x y) (b.neighbours x y)

/-- The board after the step that the rule makes at a tick. -/
def step (rule : Rule) (tick : Int) (b : Board) : Board := stepUnder (rule.tableAt tick) b

/-- The board after `n` steps, the first of them at `tick`. -/
def run (rule : Rule) : Int → Nat → Board → Board
  | _, 0, b => b
  | tick, n + 1, b => run rule (tick + 1) n (b.step rule tick)

theorem get_stepUnder (table : Rule.Table) (b : Board) (x y : Int) :
    (b.stepUnder table).get x y =
      table.next (b.get (b.column x) (b.row y)) (b.neighbours (b.column x) (b.row y)) := by
  rw [stepUnder, get_tabulate]
  rfl

theorem run_add (rule : Rule) (tick : Int) (m n : Nat) (b : Board) :
    run rule tick (m + n) b = run rule (tick + m) n (run rule tick m b) := by
  induction m generalizing tick b with
  | zero => simp [run]
  | succ m ih =>
    rw [Nat.succ_add, run, run, ih]
    congr 1
    omega

end TorusAutomaton.Board

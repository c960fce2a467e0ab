import Mathlib.Data.Finset.Prod
import TorusAutomaton.Proofs.Board.Cells

/-!
# The plane behind a board

A board stands for a periodic colouring of the plane: the cell at any pair of integers is the cell
of the board that these coordinates come to after whole turns. Here the automaton is described on
the plane, without sides and without wrapping: all cells change at once, and a cell looks at its own
colour and at the eight cells around it. The main statement is that stepping a board, of whatever
size, is stepping its plane. A board laid out several times side by side stands for the same plane,
so stepping does not see the seams.
-/

namespace TorusAutomaton

/-- A colouring of all pairs of integers. -/
abbrev Plane := Int → Int → Bool

namespace Plane

/-- The eight positions around a cell: a square of three by three without its centre. -/
def around : Finset (Int × Int) := ({-1, 0, 1} ×ˢ {-1, 0, 1} : Finset (Int × Int)).erase (0, 0)

/-- Live cells among the eight around a cell. -/
def neighbours (f : Plane) (x y : Int) : Nat :=
  (around.filter fun d => f (x + d.1) (y + d.2) = true).card

/-- One step of all cells at once, under the table whose turn it is at `tick`. -/
def step (tables : List Rule.Table) (tick : Int) (f : Plane) : Plane := fun x y =>
  (tables.getD (tick % tables.length).toNat .still).next (f x y) (f.neighbours x y)

/-- The plane after `n` steps, the first of them at `tick`. -/
def run (tables : List Rule.Table) : Int → Nat → Plane → Plane
  | _, 0, f => f
  | tick, n + 1, f => run tables (tick + 1) n (step tables tick f)

end Plane

namespace Board

/-- The plane that a board stands for. -/
def plane (b : Board) : Plane := b.get

/-- The board laid out `across` times from left to right and `down` times from top to bottom. -/
def tile (b : Board) (across down : Nat) (ha : 0 < across) (hd : 0 < down) : Board :=
  tabulate (across * b.width) (down * b.height) (Nat.mul_pos ha b.width_pos)
    (Nat.mul_pos hd b.height_pos) fun x y => b.get x y

/-! ## One step -/

theorem directions_toFinset : directions.toFinset = Plane.around := by decide

theorem directions_nodup : directions.Nodup := by decide

/-- Counting in the eight directions is counting the live cells of the plane around a cell. -/
theorem neighbours_eq_plane (b : Board) (x y : Int) :
    b.neighbours x y = b.plane.neighbours x y := by
  rw [neighbours, Plane.neighbours, ← directions_toFinset, List.countP_eq_length_filter,
    ← List.toFinset_filter, List.toFinset_card_of_nodup (directions_nodup.filter _)]
  simp [plane]

/-- The table in force is found by counting through all tables of the rule. -/
theorem tableAt_eq_getD (rule : Rule) (tick : Int) :
    rule.tableAt tick = rule.tables.getD (tick % rule.tables.length).toNat .still := by
  rw [Rule.tableAt, Rule.pick_eq_getElem?, Rule.length_tables, List.getD_eq_getElem?_getD]
  rfl

theorem plane_step (rule : Rule) (tick : Int) (b : Board) :
    (b.step rule tick).plane = Plane.step rule.tables tick b.plane := by
  ext x y
  show (b.step rule tick).get x y = _
  rw [get_step, tableAt_eq_getD, neighbours_eq_plane]
  rfl

/-! ## Runs -/

theorem plane_run (rule : Rule) (tick : Int) (n : Nat) (b : Board) :
    (b.run rule tick n).plane = Plane.run rule.tables tick n b.plane := by
  induction n generalizing tick b with
  | zero => rfl
  | succ n ih => rw [run, ih, plane_step, Plane.run]

/-! ## Seams -/

theorem plane_tile (b : Board) {across down : Nat} (ha : 0 < across) (hd : 0 < down) :
    (b.tile across down ha hd).plane = b.plane := by
  ext x y
  show (b.tile across down ha hd).get x y = b.get x y
  have hx := Int.emod_nonneg x (by have := Nat.mul_pos ha b.width_pos; omega :
    ((across * b.width : Nat) : Int) ≠ 0)
  have hy := Int.emod_nonneg y (by have := Nat.mul_pos hd b.height_pos; omega :
    ((down * b.height : Nat) : Int) ≠ 0)
  rw [tile, get_tabulate, Int.toNat_of_nonneg hx, Int.toNat_of_nonneg hy]
  -- A whole turn around the tiles is a number of whole turns around one of them.
  apply b.get_congr
  · exact Int.emod_emod_of_dvd x ⟨across, by rw [Int.natCast_mul, Int.mul_comm]⟩
  · exact Int.emod_emod_of_dvd y ⟨down, by rw [Int.natCast_mul, Int.mul_comm]⟩

/-- Boards of the same size that stand for the same plane are the same. -/
theorem eq_of_plane_eq {a b : Board} (hw : a.width = b.width) (hh : a.height = b.height)
    (h : a.plane = b.plane) : a = b :=
  ext_get hw hh fun x y => congrFun (congrFun h x) y

/-- **A torus steps like the plane.** Whatever the size of the board, the rule, the first tick and
the number of steps, the cell at any coordinates after the steps is the cell of the plane after as
many steps of the plane; hence laying a board out side by side and stepping can be exchanged. -/
theorem run_agrees_with_plane (rule : Rule) (tick : Int) (n : Nat) (b : Board) :
    (∀ x y : Int, (b.run rule tick n).get x y = Plane.run rule.tables tick n b.get x y) ∧
    ∀ (across down : Nat) (ha : 0 < across) (hd : 0 < down),
      (b.tile across down ha hd).run rule tick n = (b.run rule tick n).tile across down ha hd := by
  constructor
  · intro x y
    exact congrFun (congrFun (plane_run rule tick n b) x) y
  · intro across down ha hd
    apply eq_of_plane_eq
    · rw [width_run]
      show across * b.width = across * (b.run rule tick n).width
      rw [width_run]
    · rw [height_run]
      show down * b.height = down * (b.run rule tick n).height
      rw [height_run]
    · rw [plane_run, plane_tile, plane_tile, plane_run]

/-- A live and a dead cell side by side: a board so low that a cell is its own neighbour. -/
def pair : Board := tabulate 2 1 (by decide) (by decide) fun x _ => x == 0

/-- Cells with five live neighbours die and are born, in one of two ticks. -/
def blink : Rule where
  segments :=
    [{ multiplier := none, copies := 1, body := "5/5".toList
       table := { dies := .ofDigits ['5'], born := .ofDigits ['5'] } },
     { multiplier := none, copies := 1, body := "/".toList, table := .still }]

theorem run_agrees_with_plane_pair :
    0 < 2 ∧ 0 < 3 ∧
    (pair.run blink (-2) 3).get (-1) 7 = Plane.run blink.tables (-2) 3 pair.get (-1) 7 ∧
    (pair.tile 2 3 (by decide) (by decide)).run blink (-2) 3 =
      (pair.run blink (-2) 3).tile 2 3 (by decide) (by decide) :=
  ⟨by decide, by decide, (run_agrees_with_plane blink (-2) 3 pair).1 (-1) 7,
    (run_agrees_with_plane blink (-2) 3 pair).2 2 3 (by decide) (by decide)⟩

end Board

end TorusAutomaton

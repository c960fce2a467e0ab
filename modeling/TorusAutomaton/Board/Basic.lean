import TorusAutomaton.Random.Source

/-!
# Boards

A board is a rectangle of live and dead cells whose opposite edges meet, so that every pair of
integers names one of its cells. Boards are made by `tabulate` and read by `get`, and `get_tabulate`
says what the one leaves for the other.
-/

namespace TorusAutomaton

/-- Cells are kept row by row; there is at least one. -/
structure Board where
  width : Nat
  height : Nat
  cells : Array Bool
  width_pos : 0 < width
  height_pos : 0 < height
  size_eq : cells.size = width * height
  deriving DecidableEq

namespace Board

theorem index_lt {width height x y : Nat} (hx : x < width) (hy : y < height) :
    y * width + x < width * height :=
  calc y * width + x < y * width + width := by omega
    _ = (y + 1) * width := by rw [Nat.add_one_mul]
    _ ≤ height * width := Nat.mul_le_mul_right _ hy
    _ = width * height := Nat.mul_comm _ _

/-- The board whose cell in column `x` and row `y` is `f x y`. -/
def tabulate (width height : Nat) (hw : 0 < width) (hh : 0 < height) (f : Nat → Nat → Bool) :
    Board where
  width := width
  height := height
  cells := Array.ofFn fun i : Fin (width * height) => f (i % width) (i / width)
  width_pos := hw
  height_pos := hh
  size_eq := by simp

/-- Column of an integer coordinate. -/
def column (b : Board) (x : Int) : Nat := (x % (b.width : Int)).toNat

/-- Row of an integer coordinate. -/
def row (b : Board) (y : Int) : Nat := (y % (b.height : Int)).toNat

theorem column_lt (b : Board) (x : Int) : b.column x < b.width := by
  have h := b.width_pos
  have := Int.emod_lt_of_pos x (by omega : (0 : Int) < b.width)
  have := Int.emod_nonneg x (by omega : (b.width : Int) ≠ 0)
  simp only [column]
  omega

theorem row_lt (b : Board) (y : Int) : b.row y < b.height := by
  have h := b.height_pos
  have := Int.emod_lt_of_pos y (by omega : (0 : Int) < b.height)
  have := Int.emod_nonneg y (by omega : (b.height : Int) ≠ 0)
  simp only [row]
  omega

/-- Whether the cell at these coordinates is alive. Coordinates wrap at every edge. -/
def get (b : Board) (x y : Int) : Bool :=
  have : b.row y * b.width + b.column x < b.cells.size :=
    b.size_eq ▸ index_lt (b.column_lt x) (b.row_lt y)
  b.cells[b.row y * b.width + b.column x]

theorem get_tabulate {width height : Nat} (hw : 0 < width) (hh : 0 < height)
    (f : Nat → Nat → Bool) (x y : Int) :
    (tabulate width height hw hh f).get x y =
      f (x % (width : Int)).toNat (y % (height : Int)).toNat := by
  have hc : (x % (width : Int)).toNat < width := (tabulate width height hw hh f).column_lt x
  simp only [get, tabulate, column, row, Array.getElem_ofFn]
  rw [Nat.mul_comm (y % (height : Int)).toNat, Nat.mul_add_mod, Nat.mod_eq_of_lt hc,
    Nat.mul_add_div hw, Nat.div_eq_of_lt hc, Nat.add_zero]

/-- The cells from left to right and from top to bottom. -/
def rows (b : Board) : List (List Bool) :=
  (List.range b.height).map fun y : Nat => (List.range b.width).map fun x : Nat => b.get x y

/-- Number of live cells. -/
def population (b : Board) : Nat := b.cells.count true

def total (b : Board) : Nat := b.cells.size

/-- A board of dead cells. A side of length zero is taken as one. -/
def dead (width height : Nat) : Board :=
  tabulate (max width 1) (max height 1) (by omega) (by omega) fun _ _ => false

variable {σ : Type} [Random.Source σ]

/-- `n` cells, each of which is alive when its draw exceeds `fill`. -/
def drawCells (fill : Float) : Nat → Array Bool → σ → Array Bool × σ
  | 0, cells, s => (cells, s)
  | n + 1, cells, s =>
    let (v, s) := Random.fraction s
    drawCells fill n (cells.push (v > fill)) s

theorem size_drawCells (fill : Float) (n : Nat) (cells : Array Bool) (s : σ) :
    (drawCells fill n cells s).1.size = cells.size + n := by
  induction n generalizing cells s with
  | zero => rfl
  | succ n ih =>
    simp only [drawCells, ih, Array.size_push]
    omega

/-- A board of drawn cells, row by row. -/
def random (width height : Nat) (fill : Float) (s : σ) : Board × σ :=
  let drawn := drawCells fill (max width 1 * max height 1) #[] s
  ({ width := max width 1
     height := max height 1
     cells := drawn.1
     width_pos := by omega
     height_pos := by omega
     size_eq := by simp [drawn, size_drawCells] }, drawn.2)

end Board

end TorusAutomaton

import TorusAutomaton.Board.Step

/-!
# Boards as functions of coordinates

A board is what `get` says about it: its two sides and the answers at all coordinates determine it,
and coordinates that differ by whole turns around the torus name the same cell. Everything about
stepping is then said of `get`, and never again of the array of cells.
-/

namespace TorusAutomaton.Board

/-! ## Extensionality -/

/-- The cell at natural coordinates inside the board, as it is kept in the array. -/
theorem getElem?_cells (b : Board) {x y : Nat} (hx : x < b.width) (hy : y < b.height) :
    b.cells[y * b.width + x]? = some (b.get x y) := by
  have hcol : b.column x = x := by
    rw [column, ← Int.natCast_emod, Int.toNat_natCast, Nat.mod_eq_of_lt hx]
  have hrow : b.row y = y := by
    rw [row, ← Int.natCast_emod, Int.toNat_natCast, Nat.mod_eq_of_lt hy]
  have hi : y * b.width + x < b.cells.size := b.size_eq ▸ index_lt hx hy
  simp only [get, hcol, hrow, Array.getElem?_eq_getElem hi]

/-- A cell inside a tabulated board is as the table has it. -/
theorem get_tabulate_inside {width height : Nat} (hw : 0 < width) (hh : 0 < height)
    (f : Nat → Nat → Bool) {x y : Nat} (hx : x < width) (hy : y < height) :
    (tabulate width height hw hh f).get x y = f x y := by
  rw [get_tabulate, ← Int.natCast_emod, ← Int.natCast_emod, Int.toNat_natCast, Int.toNat_natCast,
    Nat.mod_eq_of_lt hx, Nat.mod_eq_of_lt hy]

/-- Two boards of the same size are equal when they agree on all cells inside. -/
theorem ext_inside {a b : Board} (hw : a.width = b.width) (hh : a.height = b.height)
    (h : ∀ x y : Nat, x < a.width → y < a.height → a.get x y = b.get x y) : a = b := by
  have hcells : a.cells = b.cells := by
    apply Array.ext_getElem?
    intro i
    by_cases hi : i < a.width * a.height
    · have hx : i % a.width < a.width := Nat.mod_lt _ a.width_pos
      have hy : i / a.width < a.height := Nat.div_lt_of_lt_mul hi
      have ha := a.getElem?_cells hx hy
      have hb := b.getElem?_cells (hw ▸ hx) (hh ▸ hy)
      rw [Nat.div_add_mod'] at ha
      rw [← hw, Nat.div_add_mod'] at hb
      rw [ha, hb, h _ _ hx hy]
    · have hsize : b.cells.size = a.cells.size := by rw [a.size_eq, b.size_eq, hw, hh]
      rw [Array.getElem?_eq_none (by rw [a.size_eq]; omega),
        Array.getElem?_eq_none (by rw [hsize, a.size_eq]; omega)]
  cases a
  cases b
  simp_all

/-- Two boards of the same size are equal when they agree at all coordinates. -/
theorem ext_get {a b : Board} (hw : a.width = b.width) (hh : a.height = b.height)
    (h : ∀ x y : Int, a.get x y = b.get x y) : a = b :=
  ext_inside hw hh fun x y _ _ => h x y

/-! ## Turns around the torus -/

theorem natCast_column (b : Board) (x : Int) : (b.column x : Int) = x % b.width := by
  have := Int.emod_nonneg x (by have := b.width_pos; omega : (b.width : Int) ≠ 0)
  simp only [column]
  omega

theorem natCast_row (b : Board) (y : Int) : (b.row y : Int) = y % b.height := by
  have := Int.emod_nonneg y (by have := b.height_pos; omega : (b.height : Int) ≠ 0)
  simp only [row]
  omega

/-- Coordinates that agree up to whole turns name the same cell. -/
theorem get_congr (b : Board) {x x' y y' : Int} (hx : x % b.width = x' % b.width)
    (hy : y % b.height = y' % b.height) : b.get x y = b.get x' y' := by
  simp only [get, column, row, hx, hy]

/-- Live neighbours may be counted from any coordinates of the cell. -/
theorem neighbours_congr (b : Board) {x x' y y' : Int} (hx : x % b.width = x' % b.width)
    (hy : y % b.height = y' % b.height) : b.neighbours x y = b.neighbours x' y' := by
  apply List.countP_congr
  intro d _
  rw [b.get_congr ((Int.emod_add_cancel_right d.1).mpr hx)
    ((Int.emod_add_cancel_right d.2).mpr hy)]

/-- There are eight directions to count in. -/
theorem neighbours_le (b : Board) (x y : Int) : b.neighbours x y ≤ 8 := List.countP_le_length

/-! ## Steps -/

@[simp] theorem width_step (rule : Rule) (tick : Int) (b : Board) :
    (b.step rule tick).width = b.width := rfl

@[simp] theorem height_step (rule : Rule) (tick : Int) (b : Board) :
    (b.step rule tick).height = b.height := rfl

/-- A cell after a step, at whatever coordinates it is asked for. -/
theorem get_step (rule : Rule) (tick : Int) (b : Board) (x y : Int) :
    (b.step rule tick).get x y = (rule.tableAt tick).next (b.get x y) (b.neighbours x y) := by
  have hx : (b.column x : Int) % b.width = x % b.width := by rw [natCast_column, Int.emod_emod]
  have hy : (b.row y : Int) % b.height = y % b.height := by rw [natCast_row, Int.emod_emod]
  rw [step, get_stepUnder, b.get_congr hx hy, b.neighbours_congr hx hy]

@[simp] theorem width_run (rule : Rule) (tick : Int) (n : Nat) (b : Board) :
    (b.run rule tick n).width = b.width := by
  induction n generalizing tick b with
  | zero => rfl
  | succ n ih => rw [run, ih, width_step]

@[simp] theorem height_run (rule : Rule) (tick : Int) (n : Nat) (b : Board) :
    (b.run rule tick n).height = b.height := by
  induction n generalizing tick b with
  | zero => rfl
  | succ n ih => rw [run, ih, height_step]

end TorusAutomaton.Board

import Mathlib.Algebra.BigOperators.Group.Finset.Piecewise
import Mathlib.Algebra.BigOperators.Group.Finset.Sigma
import Mathlib.Algebra.GroupWithZero.Nat
import TorusAutomaton.Proofs.Board.Text

/-!
# Counting live cells

The population of a board is counted in the array of its cells. Here the same number is found in two
other places: it is the number of coordinates at which the board is alive, so that it can be
compared between boards that hold their cells in different places, and the number of ones in the
text of the board.
-/

namespace TorusAutomaton.Board

open TorusAutomaton Text

/-! ## Cells in their order -/

/-- A table that is written row by row. -/
theorem flatten_table {α : Type} (f : Nat → α) (width height : Nat) :
    ((List.range height).map fun y => (List.range width).map fun x => f (y * width + x)).flatten =
      (List.range (height * width)).map f := by
  induction height with
  | zero => simp
  | succ height ih =>
      rw [List.range_succ, List.map_append, List.flatten_append, ih, Nat.succ_mul, List.range_add,
        List.map_append]
      simp

theorem flatten_rows (b : Board) : b.rows.flatten = b.cells.toList := by
  have hcell : ∀ y ∈ List.range b.height, ∀ x ∈ List.range b.width,
      b.get x y = b.cells.getD (y * b.width + x) false := by
    intro y hy x hx
    rw [Array.getD_eq_getD_getElem?,
      b.getElem?_cells (List.mem_range.mp hx) (List.mem_range.mp hy)]
    rfl
  have hrows : b.rows = (List.range b.height).map fun y =>
      (List.range b.width).map fun x => b.cells.getD (y * b.width + x) false :=
    List.map_congr_left fun y hy => List.map_congr_left fun x hx => hcell y hy x hx
  rw [hrows, flatten_table fun i => b.cells.getD i false]
  apply List.ext_getElem
  · simp [b.size_eq, Nat.mul_comm]
  · intro i _ hi
    have hi : i < b.cells.size := by simpa using hi
    simp [hi]

theorem population_eq_sum (b : Board) : b.population = (b.rows.map (List.count true)).sum := by
  rw [population, ← Array.count_toList, ← flatten_rows, List.count_flatten]

/-! ## Coordinates of live cells -/

/-- The columns and rows at which a board is alive. -/
def live (b : Board) : Finset (Nat × Nat) :=
  (Finset.range b.width ×ˢ Finset.range b.height).filter fun p => b.get p.1 p.2 = true

theorem mem_live {b : Board} {x y : Nat} :
    (x, y) ∈ b.live ↔ x < b.width ∧ y < b.height ∧ b.get x y = true := by
  simp [live, and_assoc]

/-- Live cells are where the array holds `true`. -/
theorem getElem?_cells_eq_true_iff {b : Board} {i : Nat} :
    b.cells[i]? = some true ↔ ∃ p ∈ b.live, i = p.2 * b.width + p.1 := by
  constructor
  · intro halive
    have hi : i < b.width * b.height := by
      obtain ⟨hi, -⟩ := Array.getElem?_eq_some_iff.mp halive
      exact b.size_eq ▸ hi
    have hx : i % b.width < b.width := Nat.mod_lt _ b.width_pos
    have hy : i / b.width < b.height := Nat.div_lt_of_lt_mul hi
    have hcell := b.getElem?_cells hx hy
    rw [Nat.div_add_mod', halive, Option.some.injEq] at hcell
    exact ⟨(i % b.width, i / b.width), mem_live.mpr ⟨hx, hy, hcell.symm⟩,
      (Nat.div_add_mod' i b.width).symm⟩
  · rintro ⟨⟨x, y⟩, halive, rfl⟩
    obtain ⟨hx, hy, hget⟩ := mem_live.mp halive
    rw [b.getElem?_cells hx hy, hget]

/-- One for a live cell and zero for a dead one. -/
def weight (b : Board) (x y : Int) : Nat := if b.get x y = true then 1 else 0

/-- The live cells are counted row by row. -/
theorem population_eq_sum_weight (b : Board) :
    b.population = ∑ y ∈ Finset.range b.height, ∑ x ∈ Finset.range b.width, b.weight x y := by
  have hrow : ∀ y : Nat, ∑ x ∈ Finset.range b.width, b.weight x y =
      ((List.range b.width).map fun x : Nat => b.get x y).count true := by
    intro y
    simp only [weight]
    rw [← Finset.card_filter, List.count, List.countP_map, List.countP_eq_length_filter]
    show ((List.range b.width).filter _).length = _
    congr 2
  calc b.population
      = (b.rows.map (List.count true)).sum := b.population_eq_sum
    _ = ∑ y ∈ Finset.range b.height,
          ((List.range b.width).map fun x : Nat => b.get x y).count true := by
        rw [rows, List.map_map]
        rfl
    _ = ∑ y ∈ Finset.range b.height, ∑ x ∈ Finset.range b.width, b.weight x y := by
        simp only [hrow]

theorem card_live (b : Board) : b.live.card = b.population := by
  rw [live, Finset.card_filter, Finset.sum_product_right, population_eq_sum_weight]
  rfl

/-! ## Ones in the text -/

theorem count_join {c sep : Char} (h : c ≠ sep) (parts : List Text) :
    (join [sep] parts).count c = (parts.map (List.count c)).sum := by
  induction parts with
  | nil => rfl
  | cons t rest ih =>
      cases rest with
      | nil => simp [join]
      | cons u rest =>
          rw [join, List.intercalate_cons_cons, List.count_append, List.count_append,
            List.count_cons_of_ne h.symm, List.count_nil, Nat.add_zero, List.map_cons,
            List.sum_cons]
          exact congrArg _ ih

theorem count_renderRow (cells : List Bool) : (renderRow cells).count '1' = cells.count true := by
  have hinjective : Function.Injective cellChar := by decide
  exact List.count_map_of_injective cells cellChar hinjective true

theorem count_render (b : Board) : b.render.count '1' = b.population := by
  rw [render, count_join (by decide), List.map_map, population_eq_sum]
  exact congrArg List.sum (List.map_congr_left fun cells _ => count_renderRow cells)

end TorusAutomaton.Board

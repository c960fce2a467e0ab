import TorusAutomaton.Board.Rows
import TorusAutomaton.Proofs.Board.Cells

/-!
# Boards written and read

A board that is written as text is read back as the same board: the points between the rows are
found again because no cell is written as a point, every row has the width of the first one, and the
rows determine the board.
-/

namespace TorusAutomaton.Board

open TorusAutomaton

/-! ## Rows -/

theorem length_rows (b : Board) : b.rows.length = b.height := by
  simp [rows]

theorem length_of_mem_rows {b : Board} {row : List Bool} (h : row ∈ b.rows) :
    row.length = b.width := by
  obtain ⟨y, _, rfl⟩ := List.mem_map.mp h
  simp

theorem getD_rows (b : Board) {x y : Nat} (hx : x < b.width) (hy : y < b.height) :
    (b.rows.getD y []).getD x false = b.get x y := by
  simp [rows, List.getD_eq_getElem?_getD, hx, hy]

/-- The cell of a board that is given by its rows. -/
theorem get_ofRows (rows : List (List Bool)) {width height x y : Nat} (hw : 0 < width)
    (hh : 0 < height) (hx : x < width) (hy : y < height) :
    (ofRows rows width height hw hh).get x y = (rows.getD y []).getD x false := by
  rw [ofRows, get_tabulate_inside hw hh _ hx hy]
  cases h : rows[y]? <;> simp [Array.getD_eq_getD_getElem?, List.getD_eq_getElem?_getD, h]

theorem ofRows_rows (b : Board) {width height : Nat} (hw : 0 < width) (hh : 0 < height)
    (hwidth : width = b.width) (hheight : height = b.height) :
    ofRows b.rows width height hw hh = b := by
  subst hwidth hheight
  refine @ext_inside (ofRows b.rows _ _ hw hh) b rfl rfl ?_
  intro x y hx hy
  exact (get_ofRows b.rows hw hh hx hy).trans (getD_rows b hx hy)

/-! ## Reading rows -/

theorem point_not_mem_renderRow (cells : List Bool) : '.' ∉ renderRow cells := by
  intro h
  obtain ⟨alive, _, hcell⟩ := List.mem_map.mp h
  cases alive <;> simp [cellChar] at hcell

theorem readRow_renderRow (row : Nat) (cells : List Bool) :
    readRow row (renderRow cells) = .ok cells := by
  induction cells with
  | nil => rfl
  | cons alive rest ih =>
      have ih : readRow row (rest.map cellChar) = .ok rest := ih
      cases alive <;> simp [renderRow, readRow, cellChar, ih, Except.map]

theorem readRows_map_renderRow {width : Nat} (row : Nat) (rows : List (List Bool))
    (h : ∀ cells ∈ rows, cells.length = width) :
    readRows width row (rows.map renderRow) = .ok rows := by
  induction rows generalizing row with
  | nil => rfl
  | cons cells rest ih =>
      have hcells : cells.length = width := h cells List.mem_cons_self
      have hrest := ih (row + 1) fun c hc => h c (List.mem_cons_of_mem _ hc)
      simp [readRows, readRow_renderRow, hcells, hrest, bind, Except.bind, pure, Except.pure]

/-! ## Reading boards -/

theorem exists_first_row (b : Board) :
    ∃ first others, b.rows = first :: others ∧ first.length = b.width := by
  cases h : b.rows with
  | nil =>
      have hlength := b.length_rows
      rw [h] at hlength
      exact absurd hlength (Nat.ne_of_lt b.height_pos)
  | cons first others => exact ⟨first, others, rfl, length_of_mem_rows (by simp [h])⟩

/-- The text of a board starts with a cell. -/
theorem exists_render_eq_cons (b : Board) : ∃ alive rest, b.render = cellChar alive :: rest := by
  obtain ⟨first, others, hrows, hfirst⟩ := b.exists_first_row
  cases first with
  | nil => exact absurd hfirst (Nat.ne_of_lt b.width_pos)
  | cons alive cells =>
      rw [render, hrows]
      cases others with
      | nil => exact ⟨alive, _, rfl⟩
      | cons second others => exact ⟨alive, _, rfl⟩

theorem splitOn_render (b : Board) : b.render.splitOn '.' = b.rows.map renderRow := by
  have hne : b.rows.map renderRow ≠ [] := by
    intro h
    have := congrArg List.length h
    simp only [List.length_map, length_rows, List.length_nil] at this
    exact absurd this (Nat.ne_of_gt b.height_pos)
  apply List.splitOn_intercalate _ _ hne
  intro line hline
  obtain ⟨cells, _, rfl⟩ := List.mem_map.mp hline
  exact point_not_mem_renderRow cells

/-- **Reading gives back the board that was written.** -/
theorem parse_render (b : Board) : parse b.render = .ok b := by
  obtain ⟨first, others, hrows, hfirst⟩ := b.exists_first_row
  have hothers : ∀ cells ∈ others, cells.length = first.length := fun cells hc =>
    (length_of_mem_rows (by simp [hrows, hc])).trans hfirst.symm
  have hheight : others.length + 1 = b.height := by
    rw [← length_rows, hrows]
    rfl
  have hpos : 0 < first.length := hfirst ▸ b.width_pos
  simp only [parse, splitOn_render, hrows, List.map_cons, readRow_renderRow, bind, Except.bind,
    dif_pos hpos, readRows_map_renderRow 1 others hothers, pure, Except.pure, Except.ok.injEq]
  rw [← hrows]
  exact b.ofRows_rows _ _ hfirst hheight

end TorusAutomaton.Board

import TorusAutomaton.Proofs.Board.Symmetry

/-!
# Counting neighbours

A cell has eight neighbours, so the number of live ones fits in a byte and is among the nine counts
that a table has marks for. Added up over a board, the live neighbours of all cells are the live
cells of eight boards: seen in one direction from every cell, the board is itself shifted by one
cell, and shifting kills no cell and makes none. This does not depend on the sides, and where a
direction leads back to the same cell it is counted like any other.
-/

namespace TorusAutomaton.Board

/-! ## One cell -/

/-- Live cells around a cell, counted in a byte, which would start again from zero after 255. -/
def neighboursInByte (b : Board) (x y : Int) : UInt8 :=
  directions.foldl (fun n d => if b.get (x + d.1) (y + d.2) then n + 1 else n) 0

/-- A byte does not overflow while there are no more things to count than it can hold. -/
theorem toNat_foldl_count {α : Type} (p : α → Bool) (xs : List α) (n : UInt8)
    (h : n.toNat + xs.length < 256) :
    (xs.foldl (fun n a => if p a then n + 1 else n) n).toNat = n.toNat + xs.countP p := by
  induction xs generalizing n with
  | nil => rfl
  | cons a rest ih =>
      rw [List.length_cons] at h
      cases hp : p a with
      | true =>
          have hnext : (n + 1).toNat = n.toNat + 1 := by
            rw [UInt8.toNat_add, UInt8.toNat_one, Nat.mod_eq_of_lt (by omega)]
          rw [List.foldl_cons, hp, if_pos rfl, ih _ (by omega), hnext, List.countP_cons_of_pos hp]
          omega
      | false =>
          rw [List.foldl_cons, hp, if_neg Bool.false_ne_true, ih _ (by omega),
            List.countP_cons_of_neg (by simp [hp])]

theorem toNat_neighboursInByte (b : Board) (x y : Int) :
    (b.neighboursInByte x y).toNat = b.neighbours x y := by
  have hcount := toNat_foldl_count (fun d : Int × Int => b.get (x + d.1) (y + d.2)) directions 0
    (by decide)
  rwa [UInt8.toNat_zero, Nat.zero_add] at hcount

/-- There is a mark for every number of live neighbours. -/
theorem getElem?_marks (b : Board) (x y : Int) (marks : Rule.Counts) :
    marks[b.neighbours x y]? = some (marks.has (b.neighbours x y)) := by
  have hmin : min (b.neighbours x y) 8 = b.neighbours x y := Nat.min_eq_left (b.neighbours_le x y)
  have hlt : b.neighbours x y < 9 := Nat.lt_succ_of_le (b.neighbours_le x y)
  simp only [Rule.Counts.has, hmin, Vector.getElem?_eq_getElem hlt]

/-! ## All cells -/

/-- The live neighbours of a cell, direction by direction. -/
theorem neighbours_eq_sum_weight (b : Board) (x y : Int) :
    b.neighbours x y = ∑ d ∈ Plane.around, b.weight (x + d.1) (y + d.2) := by
  rw [neighbours_eq_plane, Plane.neighbours, Finset.card_filter]
  rfl

/-- In any one direction every live cell is seen from exactly one cell. -/
theorem sum_weight_shifted (b : Board) (dx dy : Int) :
    ∑ y ∈ Finset.range b.height, ∑ x ∈ Finset.range b.width, b.weight (x + dx) (y + dy) =
      b.population := by
  have hshifted := (Symmetry.shift (-dx) (-dy)).population_apply b
  rw [population_eq_sum_weight] at hshifted
  simp only [Symmetry.weight_apply, Symmetry.motion, sub_neg_eq_add] at hshifted
  exact hshifted

theorem sum_neighbours (b : Board) :
    ∑ y ∈ Finset.range b.height, ∑ x ∈ Finset.range b.width, b.neighbours x y =
      8 * b.population :=
  calc ∑ y ∈ Finset.range b.height, ∑ x ∈ Finset.range b.width, b.neighbours x y
      = ∑ y ∈ Finset.range b.height, ∑ d ∈ Plane.around, ∑ x ∈ Finset.range b.width,
          b.weight (x + d.1) (y + d.2) := by
        simp only [neighbours_eq_sum_weight]
        exact Finset.sum_congr rfl fun y _ => Finset.sum_comm
    _ = ∑ d ∈ Plane.around, ∑ y ∈ Finset.range b.height, ∑ x ∈ Finset.range b.width,
          b.weight (x + d.1) (y + d.2) := Finset.sum_comm
    _ = ∑ d ∈ Plane.around, b.population :=
        Finset.sum_congr rfl fun d _ => b.sum_weight_shifted d.1 d.2
    _ = 8 * b.population := Finset.sum_const_nat fun _ _ => rfl

/-- **Live neighbours are live cells counted eight times.** Whatever the size of the board, a cell
has at most eight live neighbours, wherever it is counted from: a byte holds their number, and a
table has a mark for it. Over all cells of the board these numbers add up to eight times the number
of live cells. -/
theorem neighbours_double_count (b : Board) :
    (∀ x y : Int, b.neighbours x y ≤ 8 ∧
      (b.neighboursInByte x y).toNat = b.neighbours x y ∧
      ∀ marks : Rule.Counts, marks[b.neighbours x y]? = some (marks.has (b.neighbours x y))) ∧
    ∑ y ∈ Finset.range b.height, ∑ x ∈ Finset.range b.width, b.neighbours x y =
      8 * b.population :=
  ⟨fun x y => ⟨b.neighbours_le x y, b.toNat_neighboursInByte x y, b.getElem?_marks x y⟩,
    b.sum_neighbours⟩

/-- A live cell that is alone on its board is each of its eight neighbours. -/
example : (tabulate 1 1 Nat.one_pos Nat.one_pos fun _ _ => true).neighbours 0 0 = 8 := by decide

end TorusAutomaton.Board

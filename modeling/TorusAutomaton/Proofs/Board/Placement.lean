import Mathlib.Data.Nat.PSub
import TorusAutomaton.Board.Rows
import TorusAutomaton.Proofs.Board.Population

/-!
# A board inside a larger one

Placing a board moves its live cells by one and the same distance and adds none. That is said here
of the coordinates, and then of the way in which it is done: the distance is found by subtractions,
and the live cells are written one by one into the array of a board of another width. No subtraction
goes below zero and no cell is written outside the array, though the side may be only one cell
longer than what is put into it.
-/

namespace TorusAutomaton.Board

open TorusAutomaton

/-! ## Margins -/

/-- What is left of a side behind what was put into it. -/
def farMargin (small large : Nat) : Nat := large - (margin small large + small)

theorem margin_add_farMargin {small large : Nat} (h : small < large) :
    margin small large + small + farMargin small large = large :=
  Nat.add_sub_of_le (margin_add_le h)

/-- No subtraction in the margin is cut off at zero. -/
theorem margin_eq {small large : Nat} (h : small < large) :
    (margin small large : Int) =
      (large / 2 : Nat) - (small / 2 : Nat) - if large % 2 = 0 then 1 else 0 := by
  simp only [margin]
  split <;> omega

/-- The far margin is the larger one by one for each of the two sides that is even. -/
theorem farMargin_sub_margin {small large : Nat} (h : small < large) :
    (farMargin small large : Int) - margin small large =
      (if small % 2 = 0 then 1 else 0) + if large % 2 = 0 then 1 else 0 := by
  simp only [farMargin, margin]
  split <;> split <;> omega

/-! ## Translates -/

/-- A board is another one moved to the right and down, with dead cells around it. It lies inside as
a whole, so that no part of it is wrapped around an edge. -/
structure Translated (b out : Board) (left top : Nat) : Prop where
  fitsWidth : left + b.width ≤ out.width
  fitsHeight : top + b.height ≤ out.height
  moved : ∀ x y : Nat, x < b.width → y < b.height →
    out.get ((x + left : Nat) : Int) ((y + top : Nat) : Int) = b.get x y
  around : ∀ x y : Nat, x < out.width → y < out.height →
    ¬ (left ≤ x ∧ x < left + b.width ∧ top ≤ y ∧ y < top + b.height) → out.get x y = false

variable {b out : Board} {left top width height : Nat}

/-- The live cells of a translate are those of the board, moved. -/
theorem Translated.live_eq (h : b.Translated out left top) :
    out.live = b.live.image fun p => (p.1 + left, p.2 + top) := by
  have hwidth := h.fitsWidth
  have hheight := h.fitsHeight
  ext ⟨x, y⟩
  rw [Finset.mem_image]
  constructor
  · intro halive
    obtain ⟨hx, hy, hget⟩ := mem_live.mp halive
    by_cases hinside : left ≤ x ∧ x < left + b.width ∧ top ≤ y ∧ y < top + b.height
    · have hmoved := h.moved (x - left) (y - top) (by omega) (by omega)
      rw [Nat.sub_add_cancel hinside.1, Nat.sub_add_cancel hinside.2.2.1, hget] at hmoved
      refine ⟨(x - left, y - top), mem_live.mpr ⟨by omega, by omega, hmoved.symm⟩, ?_⟩
      rw [Nat.sub_add_cancel hinside.1, Nat.sub_add_cancel hinside.2.2.1]
    · rw [h.around x y hx hy hinside] at hget
      cases hget
  · rintro ⟨⟨x', y'⟩, halive, hsame⟩
    obtain ⟨hx, hy, hget⟩ := mem_live.mp halive
    obtain ⟨rfl, rfl⟩ := Prod.mk.inj hsame
    exact mem_live.mpr ⟨by omega, by omega, (h.moved x' y' hx hy).trans hget⟩

theorem Translated.population_eq (h : b.Translated out left top) :
    out.population = b.population := by
  have hinjective : Function.Injective fun p : Nat × Nat => (p.1 + left, p.2 + top) := by
    rintro ⟨x, y⟩ ⟨x', y'⟩ hsame
    simpa using hsame
  rw [← card_live, ← card_live, h.live_eq, Finset.card_image_of_injective _ hinjective]

/-! ## Expanding -/

theorem expand_eq_error_iff {e : Error} :
    b.expand width height = .error e ↔
      (width ≤ b.width ∨ height ≤ b.height) ∧ e = .mismatch b.width b.height width height := by
  unfold expand
  split
  · rename_i hroom
    simp only [reduceCtorEq, false_iff, not_and]
    omega
  · rename_i hroom
    simp only [Except.error.injEq]
    constructor
    · rintro rfl
      exact ⟨by omega, rfl⟩
    · rintro ⟨_, rfl⟩
      rfl

theorem translated_of_expand (h : b.expand width height = .ok out) :
    (b.width < width ∧ b.height < height) ∧ (out.width = width ∧ out.height = height) ∧
      b.Translated out (margin b.width width) (margin b.height height) := by
  unfold expand at h
  split at h
  · rename_i hroom
    have hwidth := margin_add_le hroom.1
    have hheight := margin_add_le hroom.2
    cases h
    refine ⟨hroom, ⟨rfl, rfl⟩, hwidth, hheight, ?_, ?_⟩
    · intro x y hx hy
      rw [get_tabulate_inside _ _ _ (by omega) (by omega)]
      simp [Nat.add_comm, hx, hy]
    · intro x y hx hy houtside
      have hx : x < width := hx
      have hy : y < height := hy
      rw [get_tabulate_inside _ _ _ hx hy, decide_eq_false houtside, Bool.false_and]
  · cases h

/-! ## Copying cell by cell -/

/-- The start of a side inside a longer one, by a subtraction that has no result below zero. -/
def start? (small large : Nat) : Option Nat :=
  (large / 2).psub (small / 2 + if large % 2 = 0 then 1 else 0)

/-- Brings a cell to life; there is no result outside the array. -/
def enliven? (cells : Array Bool) (i : Nat) : Option (Array Bool) :=
  if i < cells.size then some (cells.setIfInBounds i true) else none

/-- Copies the cell in a column and a row into the array of a board that is `width` wide, if the
cell is alive. -/
def copyCell? (b : Board) (left top width : Nat) (cells : Array Bool) (p : Nat × Nat) :
    Option (Array Bool) := do
  let alive ← b.cells[p.2 * b.width + p.1]?
  if alive then enliven? cells ((p.2 + top) * width + p.1 + left) else some cells

/-- The columns and rows of a board, row by row. -/
def places (b : Board) : List (Nat × Nat) :=
  (List.range b.height).flatMap fun y => (List.range b.width).map fun x => (x, y)

/-- The array that copying cell by cell into a dead board leads to. There is none if a subtraction
goes below zero or a cell is looked for outside an array. -/
def copied? (b : Board) (width height : Nat) : Option (Array Bool) := do
  let left ← start? b.width width
  let top ← start? b.height height
  b.places.foldlM (b.copyCell? left top width) (dead width height).cells

theorem start?_eq {small large : Nat} (h : small < large) :
    start? small large = some (margin small large) := by
  apply Nat.psub_eq_sub
  split <;> omega

theorem mem_places {p : Nat × Nat} : p ∈ b.places ↔ p.1 < b.width ∧ p.2 < b.height := by
  obtain ⟨x, y⟩ := p
  simp [places, and_comm]

/-- Copying writes the live cells at their new places and changes nothing else. -/
theorem foldlM_copyCell? (hwidth : left + b.width ≤ width) (hheight : top + b.height ≤ height)
    {places : List (Nat × Nat)} (hplaces : ∀ p ∈ places, p.1 < b.width ∧ p.2 < b.height)
    {cells : Array Bool} (hsize : cells.size = width * height) :
    ∃ cells', places.foldlM (b.copyCell? left top width) cells = some cells' ∧
      cells'.size = width * height ∧
      ∀ i : Nat, cells'[i]? = some true ↔ cells[i]? = some true ∨
        ∃ p ∈ places, b.get p.1 p.2 = true ∧ i = (p.2 + top) * width + p.1 + left := by
  induction places generalizing cells with
  | nil => exact ⟨cells, rfl, hsize, by simp⟩
  | cons p rest ih =>
      have hrest := fun q hq => hplaces q (List.mem_cons_of_mem p hq)
      obtain ⟨hx, hy⟩ := hplaces p List.mem_cons_self
      have hread : b.cells[p.2 * b.width + p.1]? = some (b.get p.1 p.2) := b.getElem?_cells hx hy
      have hindex : (p.2 + top) * width + p.1 + left < width * height := by
        rw [Nat.add_assoc]
        exact index_lt (by omega) (by omega)
      simp only [List.foldlM_cons, copyCell?, hread, Option.bind_eq_bind, Option.bind_some]
      cases halive : b.get p.1 p.2 with
      | true =>
          have hwritten : enliven? cells ((p.2 + top) * width + p.1 + left) =
              some (cells.setIfInBounds ((p.2 + top) * width + p.1 + left) true) :=
            if_pos (hsize ▸ hindex)
          obtain ⟨cells', hcopied, hsize', hcells'⟩ :=
            ih hrest (Array.size_setIfInBounds.trans hsize)
          refine ⟨cells', by rw [if_pos rfl, hwritten]; exact hcopied, hsize', ?_⟩
          intro i
          rw [hcells', Array.getElem?_setIfInBounds]
          simp only [List.mem_cons, exists_eq_or_imp, halive, true_and, ← or_assoc]
          apply or_congr_left
          by_cases hi : (p.2 + top) * width + p.1 + left = i
          · subst hi
            simp [hsize, hindex]
          · simp [hi, Ne.symm hi]
      | false =>
          obtain ⟨cells', hcopied, hsize', hcells'⟩ := ih hrest hsize
          refine ⟨cells', by rw [if_neg Bool.false_ne_true]; exact hcopied, hsize', ?_⟩
          intro i
          rw [hcells']
          simp [halive]

theorem getElem?_dead_ne_true (width height i : Nat) :
    (dead width height).cells[i]? ≠ some true := by
  simp [dead, tabulate, Array.getElem?_ofFn]

/-- Arrays of truth values of one size are equal when they hold `true` at the same places. -/
theorem eq_of_getElem?_true {cells cells' : Array Bool} (hsize : cells.size = cells'.size)
    (h : ∀ i : Nat, cells[i]? = some true ↔ cells'[i]? = some true) : cells = cells' := by
  apply Array.ext hsize
  intro i hi hi'
  have hsame := h i
  rw [Array.getElem?_eq_getElem hi, Array.getElem?_eq_getElem hi', Option.some.injEq,
    Option.some.injEq] at hsame
  exact Bool.eq_iff_iff.mpr hsame

/-- Copying cell by cell leads to the expanded board. No subtraction on the way goes below zero and
no cell outside an array is read or written. -/
theorem copied?_eq (h : b.expand width height = .ok out) :
    b.copied? width height = some out.cells := by
  obtain ⟨hroom, ⟨rfl, rfl⟩, htranslated⟩ := translated_of_expand h
  have hsize : (dead out.width out.height).cells.size = out.width * out.height := by
    rw [(dead out.width out.height).size_eq]
    exact congrArg₂ (· * ·) (Nat.max_eq_left out.width_pos) (Nat.max_eq_left out.height_pos)
  obtain ⟨cells, hcopied, hsize', hcells⟩ :=
    foldlM_copyCell? htranslated.fitsWidth htranslated.fitsHeight (fun p hp => mem_places.mp hp)
      hsize
  have hsame : cells = out.cells := by
    apply eq_of_getElem?_true (hsize'.trans out.size_eq.symm)
    intro i
    rw [hcells, or_iff_right (getElem?_dead_ne_true out.width out.height i),
      getElem?_cells_eq_true_iff, htranslated.live_eq, Finset.exists_mem_image]
    apply exists_congr
    intro p
    have halive : p ∈ b.places ∧ b.get p.1 p.2 = true ↔ p ∈ b.live := by
      rw [mem_places, mem_live, and_assoc]
    rw [← and_assoc, halive, Nat.add_assoc]
  rw [copied?, start?_eq hroom.1, start?_eq hroom.2]
  exact hcopied.trans (congrArg some hsame)

/-- `out` has the given sides, and a board was copied into it, so far from its edges as the margins
say. -/
structure Expanded (b : Board) (width height : Nat) (out : Board) : Prop where
  sides : out.width = width ∧ out.height = height
  copied : b.copied? width height = some out.cells
  translated : b.Translated out (margin b.width width) (margin b.height height)

theorem expanded_of_expand (h : b.expand width height = .ok out) : b.Expanded width height out :=
  have ⟨_, hsides, htranslated⟩ := translated_of_expand h
  ⟨hsides, copied?_eq h, htranslated⟩

/-- A board that is smaller both ways is expanded. -/
theorem exists_expand_eq_ok (h : b.width < width ∧ b.height < height) :
    ∃ out, b.expand width height = .ok out ∧ b.Expanded width height out := by
  have hok : ∃ out, b.expand width height = .ok out := by
    unfold expand
    exact ⟨_, dif_pos h⟩
  obtain ⟨out, hout⟩ := hok
  exact ⟨out, hout, expanded_of_expand hout⟩

end TorusAutomaton.Board

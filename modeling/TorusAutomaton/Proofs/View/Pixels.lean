import TorusAutomaton.View.Image
import TorusAutomaton.View.Screen
import TorusAutomaton.Proofs.Board.Plane

/-!
# Images and lines of tiles

A board is shown in two ways, as lines of tiles and as squares of pixels with a band below them.
Both are tables that are kept row by row, and here they are compared entry by entry: a pixel above
the band and the tile of the square that it lies in tell the same about the same cell. So the board
can be read off its image again, from whatever pixel of each square.
-/

namespace TorusAutomaton.View

open TorusAutomaton

/-! ## Tables -/

/-- The entry in column `x` of row `y`. -/
def entry {α : Type} (rows : List (List α)) (x y : Nat) : Option α :=
  rows[y]?.bind fun row => row[x]?

theorem entry_table {α : Type} (f : Nat → Nat → α) {width height x y : Nat} (hx : x < width)
    (hy : y < height) :
    entry ((List.range height).map fun y => (List.range width).map fun x => f x y) x y =
      some (f x y) := by
  simp [entry, hx, hy]

/-! ## Lines -/

/-- The tile for which a tile is exchanged in an inverted frame. -/
def Tiles.other (tiles : Tiles) (tile : Char) : Char :=
  if tile = tiles.alive then tiles.dead else tiles.alive

section Lines

variable {tiles : Tiles}

theorem Tiles.of_eq_alive_iff (h : tiles.dead ≠ tiles.alive) {inverted alive : Bool} :
    tiles.of inverted alive = tiles.alive ↔ (alive != inverted) = true := by
  cases hcell : alive != inverted <;> simp [Tiles.of, hcell, h]

theorem Tiles.other_of (h : tiles.dead ≠ tiles.alive) (inverted alive : Bool) :
    tiles.other (tiles.of inverted alive) = tiles.of (!inverted) alive := by
  cases inverted <;> cases alive <;> simp [Tiles.other, Tiles.of, h]

theorem entry_lines (inverted : Bool) (b : Board) {x y : Nat} (hx : x < b.width)
    (hy : y < b.height) :
    entry (lines tiles inverted b) x y = some (tiles.of inverted (b.get x y)) := by
  rw [← entry_table (fun x y => tiles.of inverted (b.get x y)) hx hy]
  simp [lines, Board.rows, Function.comp_def]

end Lines

/-! ## Images -/

namespace Image

/-- The pixel in column `x` of row `y`. -/
def pixel (image : Image) (x y : Nat) : Option Bool := entry image.rows x y

/-- The rows of pixels are as many and as long as the image says. -/
structure Filled (image : Image) : Prop where
  height : image.rows.length = image.height
  width : ∀ row ∈ image.rows, row.length = image.width

/-- The board read off an image, with one pixel for each cell: `spot` says which pixel of its
square. -/
def sample (image : Image) (inverted : Bool) (z : Nat) (spot : Nat → Nat → Nat × Nat)
    (width height : Nat) (hw : 0 < width) (hh : 0 < height) : Board :=
  Board.tabulate width height hw hh fun x y =>
    image.pixel (x * z + (spot x y).1) (y * z + (spot x y).2) == some (!inverted)

variable {b : Board} {inverted : Bool} {zoom band x y : Nat}

theorem filled_ofBoard (b : Board) (inverted : Bool) (zoom band : Nat) :
    (ofBoard b inverted zoom band).Filled where
  height := by simp [ofBoard]
  width := by
    intro row hrow
    obtain ⟨y, _, rfl⟩ := List.mem_map.mp hrow
    simp [ofBoard]

theorem pixel_ofBoard (hx : x < b.width * max zoom 1) (hy : y < b.height * max zoom 1 + band) :
    (ofBoard b inverted zoom band).pixel x y =
      some (decide (y < b.height * max zoom 1) &&
        b.get ((x / max zoom 1 : Nat) : Int) ((y / max zoom 1 : Nat) : Int) != inverted) :=
  entry_table _ hx hy

/-- A pixel of the board shows the cell in whose square it lies. -/
theorem pixel_of_lt (hx : x < b.width * max zoom 1) (hy : y < b.height * max zoom 1) :
    (ofBoard b inverted zoom band).pixel x y =
      some (b.get ((x / max zoom 1 : Nat) : Int) ((y / max zoom 1 : Nat) : Int) != inverted) := by
  rw [pixel_ofBoard hx (Nat.lt_add_right band hy)]
  simp [hy]

/-- A pixel of the band is black, inverted or not. -/
theorem pixel_of_le (hx : x < b.width * max zoom 1) (hlow : b.height * max zoom 1 ≤ y)
    (hy : y < b.height * max zoom 1 + band) :
    (ofBoard b inverted zoom band).pixel x y = some false := by
  rw [pixel_ofBoard hx hy]
  simp [Nat.not_lt.mpr hlow]

/-- A place in the square of a cell is inside the board, and leads back to the cell. -/
theorem in_square {z side cell place : Nat} (hcell : cell < side) (hplace : place < z) :
    cell * z + place < side * z ∧ (cell * z + place) / z = cell := by
  constructor
  · rw [Nat.mul_comm side z]
    exact Board.index_lt hplace hcell
  · rw [Nat.add_comm, Nat.add_mul_div_right _ _ (Nat.zero_lt_of_lt hplace),
      Nat.div_eq_of_lt hplace, Nat.zero_add]

/-- Whichever pixel is taken from each square, the board is found again, if every pixel tells of the
cell in whose square it lies. -/
theorem sample_eq {image : Image} {z : Nat} {spot : Nat → Nat → Nat × Nat}
    (hspot : ∀ x y, (spot x y).1 < z ∧ (spot x y).2 < z)
    (hcells : ∀ x y, x < b.width * z → y < b.height * z →
      image.pixel x y = some (b.get ((x / z : Nat) : Int) ((y / z : Nat) : Int) != inverted)) :
    image.sample inverted z spot b.width b.height b.width_pos b.height_pos = b := by
  refine Board.ext_inside rfl rfl fun x y hx hy => ?_
  have hx : x < b.width := hx
  have hy : y < b.height := hy
  obtain ⟨hwidth, hcolumn⟩ := in_square hx (hspot x y).1
  obtain ⟨hheight, hrow⟩ := in_square hy (hspot x y).2
  rw [sample, Board.get_tabulate_inside _ _ _ hx hy, hcells _ _ hwidth hheight, hcolumn, hrow]
  cases b.get x y <;> cases inverted <;> rfl

theorem sample_ofBoard (b : Board) (inverted : Bool) (zoom band : Nat)
    {spot : Nat → Nat → Nat × Nat}
    (hspot : ∀ x y, (spot x y).1 < max zoom 1 ∧ (spot x y).2 < max zoom 1) :
    (ofBoard b inverted zoom band).sample inverted (max zoom 1) spot b.width b.height b.width_pos
      b.height_pos = b :=
  sample_eq hspot fun _ _ => pixel_of_lt

end Image

/-- **Images and lines of tiles show the same board.** With `z` pixels a cell, at least one, and two
different tiles: the image is `z` times as wide as the board, and `z` times as high and a band. A
pixel above the band is white exactly if the tile of its square is that of live cells. A pixel of
the band is black. Taking any one pixel from each square gives the board. Inverting the frame
inverts every pixel above the band and exchanges every tile, and leaves the band black. -/
theorem image_shows_lines {tiles : Tiles} (hne : tiles.dead ≠ tiles.alive) (b : Board)
    (inverted : Bool) (zoom band : Nat) :
    let z := max zoom 1
    let image := Image.ofBoard b inverted zoom band
    let inverse := Image.ofBoard b (!inverted) zoom band
    (image.width = b.width * z ∧ image.height = b.height * z + band ∧ image.Filled) ∧
    (∀ x y, x < b.width * z → y < b.height * z → ∃ white tile,
      image.pixel x y = some white ∧ inverse.pixel x y = some (!white) ∧
      entry (lines tiles inverted b) (x / z) (y / z) = some tile ∧
      (white = true ↔ tile = tiles.alive)) ∧
    (∀ x y, x < b.width * z → b.height * z ≤ y → y < b.height * z + band →
      image.pixel x y = some false ∧ inverse.pixel x y = some false) ∧
    (∀ spot : Nat → Nat → Nat × Nat, (∀ x y, (spot x y).1 < z ∧ (spot x y).2 < z) →
      image.sample inverted z spot b.width b.height b.width_pos b.height_pos = b) ∧
    ∀ x y, x < b.width → y < b.height → ∃ tile,
      entry (lines tiles inverted b) x y = some tile ∧
      entry (lines tiles (!inverted) b) x y = some (tiles.other tile) := by
  intro z image inverse
  refine ⟨⟨rfl, rfl, Image.filled_ofBoard b inverted zoom band⟩, ?above, ?band, ?sampled, ?tiles⟩
  case above =>
    intro x y hx hy
    refine ⟨_, _, Image.pixel_of_lt hx hy, ?_, entry_lines inverted b
      (Nat.div_lt_of_lt_mul (Nat.mul_comm .. ▸ hx)) (Nat.div_lt_of_lt_mul (Nat.mul_comm .. ▸ hy)),
      (Tiles.of_eq_alive_iff hne).symm⟩
    rw [Image.pixel_of_lt hx hy]
    cases b.get _ _ <;> cases inverted <;> rfl
  case band =>
    intro x y hx hlow hy
    exact ⟨Image.pixel_of_le hx hlow hy, Image.pixel_of_le hx hlow hy⟩
  case sampled => exact fun spot hspot => Image.sample_ofBoard b inverted zoom band hspot
  case tiles =>
    intro x y hx hy
    refine ⟨_, entry_lines inverted b hx hy, ?_⟩
    rw [entry_lines (!inverted) b hx hy, Tiles.other_of hne]

/-- An inverted frame with two pixels a cell and a band of one row: the lower right pixel of the
live cell is black, as is the band below it. -/
theorem image_shows_lines_pair :
    ('.' ≠ '#') ∧
    (∃ white tile, (Image.ofBoard Board.pair true 2 1).pixel 1 1 = some white ∧
      (Image.ofBoard Board.pair false 2 1).pixel 1 1 = some (!white) ∧
      entry (lines ⟨'.', '#'⟩ true Board.pair) 0 0 = some tile ∧ (white = true ↔ tile = '#')) ∧
    (Image.ofBoard Board.pair true 2 1).pixel 1 2 = some false ∧
    (Image.ofBoard Board.pair true 2 1).sample true 2 (fun x y => ((x + y) % 2, 1)) 2 1 (by decide)
      (by decide) = Board.pair := by
  have hne : (Tiles.mk '.' '#').dead ≠ (Tiles.mk '.' '#').alive := by decide
  obtain ⟨_, habove, hband, hsample, _⟩ := image_shows_lines hne Board.pair true 2 1
  exact ⟨hne, habove 1 1 (by decide) (by decide),
    (hband 1 2 (by decide) (by decide) (by decide)).1,
    hsample (fun x y => ((x + y) % 2, 1)) fun x y => ⟨Nat.mod_lt _ (by decide), Nat.one_lt_two⟩⟩

end TorusAutomaton.View

import TorusAutomaton.Board.Basic
import TorusAutomaton.Text.Basic

/-!
# Boards as images

Every cell is a square of white pixels if it is alive and of black ones if it is dead, and the other
way round in an inverted frame. Below the board there may be a band, which is black.

A caption is a line of text that is drawn into the band. What its glyphs look like is up to a font,
which tells for each character where its pixels lie and how much of them it covers. Glyphs are drawn
wherever the font puts them, as far as they lie inside the image.
-/

namespace TorusAutomaton.View

open TorusAutomaton

/-- Rows of pixels from top to bottom; `true` is white. -/
structure Image where
  width : Nat
  height : Nat
  rows : List (List Bool)
  deriving DecidableEq

/-- The image of a board with `zoom` pixels a cell, but at least one, and `band` rows below. -/
def Image.ofBoard (b : Board) (inverted : Bool) (zoom band : Nat) : Image :=
  let z := max zoom 1
  let boardHeight := b.height * z
  { width := b.width * z
    height := boardHeight + band
    rows := (List.range (boardHeight + band)).map fun y =>
      (List.range (b.width * z)).map fun x =>
        decide (y < boardHeight) && b.get ((x / z : Nat) : Int) ((y / z : Nat) : Int) != inverted }

/-- Makes a pixel white if there is one. -/
def Image.light (image : Image) (x y : Int) : Image :=
  if 0 ≤ x ∧ x < image.width ∧ 0 ≤ y ∧ y < image.height then
    { image with rows := image.rows.modify y.toNat fun row => row.set x.toNat true }
  else image

/-! ## Captions -/

/-- A glyph in its place. Its bounds start at the pixel in column `left` of row `top`, and
`coverage` tells of pixels by column and row from there how much of them is covered. -/
structure Glyph where
  left : Int
  top : Int
  coverage : List (Nat × Nat × Float32)

/-- Makes the pixels white of which more than half is covered. -/
def Glyph.draw (g : Glyph) (image : Image) : Image :=
  g.coverage.foldl
    (fun image (column, row, covered) =>
      if 0.5 < covered then image.light (g.left + column) (g.top + row) else image)
    image

/-- What is asked of a font, always for a size in pixels: how far its glyphs rise above the line
they stand on, how far a character takes the next one to the right, and the glyph of a character
that stands at `x` on the line `baseline`, if there is anything to be seen of it. -/
structure Font where
  ascent : (size : Float32) → Float32
  advance : (size : Float32) → (c : Char) → Float32
  outline : (size : Float32) → (c : Char) → (x baseline : Float32) → Option Glyph

/-- A font that captions are drawn in, and its size in pixels. -/
structure Caption where
  font : Font
  size : Nat

namespace Caption

/-- A font of size zero counts as one of size one. -/
def ofFont (font : Font) (size : Nat) : Caption := { font, size := max size 1 }

/-- The size as the font takes it. -/
def scale (c : Caption) : Float32 := c.size.toUInt32.toFloat32

/-- Draws the characters of a text one after the other, the first one at `x`. -/
def drawFrom (c : Caption) (baseline : Float32) : Float32 → Text → Image → Image
  | _, [], image => image
  | x, char :: rest, image =>
    let image :=
      match c.font.outline c.scale char x baseline with
      | some g => g.draw image
      | none => image
    drawFrom c baseline (x + c.font.advance c.scale char) rest image

/-- The line that glyphs stand on if none is to rise above row `top`. -/
def baseline (c : Caption) (top : Nat) : Float32 :=
  top.toUInt32.toFloat32 + c.font.ascent c.scale

/-- Draws a text on one line below the rows before `top`. -/
def draw (c : Caption) (image : Image) (top : Nat) (t : Text) : Image :=
  c.drawFrom (c.baseline top) 0 t image

end Caption

/-- The rows below the board that a subtitle needs. -/
def band : Option Caption → Option Text → Nat
  | some c, some _ => c.size
  | _, _ => 0

/-- The image of a frame: the board, and below it the subtitle if there is a font for it. -/
def Image.ofFrame (b : Board) (inverted : Bool) (zoom : Nat) (caption : Option Caption)
    (subtitle : Option Text) : Image :=
  let image := ofBoard b inverted zoom (band caption subtitle)
  match caption, subtitle with
  | some c, some t => c.draw image (b.height * max zoom 1) t
  | _, _ => image

end TorusAutomaton.View

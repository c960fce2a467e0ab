import TorusAutomaton.Proofs.View.Pixels

/-!
# Captions in images

A caption makes some pixels white and does nothing else to an image. Which pixels it reaches is told
here without drawing it: a character stands where the characters before it have moved it, and its
glyph reaches the pixels of which it covers more than half. So the image of a frame shows the board
in all pixels above the band that no glyph reaches, and its band is black but for the glyphs.
-/

namespace TorusAutomaton.View

open TorusAutomaton

/-! ## What is reached -/

/-- More than half of a pixel is covered by a glyph. -/
def Glyph.Reaches (g : Glyph) (x y : Nat) : Prop :=
  ∃ spot ∈ g.coverage, 0.5 < spot.2.2 ∧ (x : Int) = g.left + spot.1 ∧ (y : Int) = g.top + spot.2.1

/-- Where a character stands that has a text before it, if that text starts at `x`. -/
def Caption.standing (c : Caption) (x : Float32) (before : Text) : Float32 :=
  before.foldl (fun x char => x + c.font.advance c.scale char) x

/-- A pixel is reached by a glyph of a text that starts at `x` on a line. -/
def Caption.ReachesFrom (c : Caption) (baseline x : Float32) (t : Text) (column row : Nat) : Prop :=
  ∃ before char after g, t = before ++ char :: after ∧
    c.font.outline c.scale char (c.standing x before) baseline = some g ∧ g.Reaches column row

/-- A pixel is reached by the subtitle of a frame, whose line is as far below row `top` as the font
rises. -/
def SubtitleReaches (caption : Option Caption) (subtitle : Option Text) (top column row : Nat) :
    Prop :=
  ∃ c ∈ caption, ∃ t ∈ subtitle,
    c.ReachesFrom (top.toUInt32.toFloat32 + c.font.ascent c.scale) 0 t column row

/-! ## Making pixels white -/

namespace Image

/-- What an image becomes when the pixels that are `reached` are made white. -/
structure Lit (before : Image) (reached : Nat → Nat → Prop) (after : Image) : Prop where
  width : after.width = before.width
  height : after.height = before.height
  filled : after.Filled
  white : ∀ {x y}, x < before.width → y < before.height → reached x y →
    after.pixel x y = some true
  same : ∀ {x y}, x < before.width → y < before.height → ¬ reached x y →
    after.pixel x y = before.pixel x y

variable {a b c image : Image} {p q : Nat → Nat → Prop}

theorem Lit.refl (h : image.Filled) : image.Lit (fun _ _ => False) image :=
  ⟨rfl, rfl, h, fun _ _ hfalse => hfalse.elim, fun _ _ _ => rfl⟩

theorem Lit.trans (h : a.Lit p b) (h' : b.Lit q c) : a.Lit (fun x y => p x y ∨ q x y) c where
  width := h'.width.trans h.width
  height := h'.height.trans h.height
  filled := h'.filled
  white := by
    intro x y hx hy hreached
    by_cases hlater : q x y
    · exact h'.white (h.width ▸ hx) (h.height ▸ hy) hlater
    · rw [h'.same (h.width ▸ hx) (h.height ▸ hy) hlater]
      exact h.white hx hy (hreached.resolve_right hlater)
  same := by
    intro x y hx hy hneither
    obtain ⟨hp, hq⟩ := not_or.mp hneither
    rw [h'.same (h.width ▸ hx) (h.height ▸ hy) hq, h.same hx hy hp]

/-- What is reached outside the image does not matter. -/
theorem Lit.congr (h : a.Lit p b) (hpq : ∀ x y, x < a.width → y < a.height → (p x y ↔ q x y)) :
    a.Lit q b where
  width := h.width
  height := h.height
  filled := h.filled
  white hx hy hreached := h.white hx hy ((hpq _ _ hx hy).mpr hreached)
  same hx hy hreached := h.same hx hy (mt (hpq _ _ hx hy).mp hreached)

theorem entry_light (rows : List (List Bool)) (column row x y : Nat) :
    entry (rows.modify row fun cells => cells.set column true) x y =
      if column = x ∧ row = y then (entry rows x y).map fun _ => true else entry rows x y := by
  by_cases hrow : row = y
  · subst hrow
    simp only [entry, List.getElem?_modify, if_true, and_true, Option.map_eq_map, Option.bind_map,
      Function.comp_def, List.getElem?_set']
    cases rows[row]? with
    | none => simp
    | some cells => split <;> simp [*, Function.const_def]
  · simp [entry, hrow]

/-- A pixel that there is has a colour. -/
theorem Filled.exists_pixel (h : image.Filled) {x y : Nat} (hx : x < image.width)
    (hy : y < image.height) : ∃ white, image.pixel x y = some white := by
  have hrow : y < image.rows.length := h.height ▸ hy
  have hcell : x < image.rows[y].length := by
    rw [h.width _ (List.getElem_mem hrow)]
    exact hx
  exact ⟨image.rows[y][x], by simp [pixel, entry, hrow, hcell]⟩

theorem Filled.light (h : image.Filled) (column row : Int) : (image.light column row).Filled := by
  unfold Image.light
  split
  · constructor
    · exact (List.length_modify _ _ _).trans h.height
    · intro cells hcells
      obtain ⟨y, hy, rfl⟩ := List.getElem_of_mem hcells
      have hy' : y < image.rows.length := (List.length_modify _ _ _) ▸ hy
      have hwidth := h.width _ (List.getElem_mem hy')
      rw [List.getElem_modify]
      split
      · rw [List.length_set]
        exact hwidth
      · exact hwidth
  · exact h

/-- One pixel at most becomes white. -/
theorem lit_light (h : image.Filled) (column row : Int) :
    image.Lit (fun x y => (x : Int) = column ∧ (y : Int) = row) (image.light column row) := by
  by_cases hinside : 0 ≤ column ∧ column < image.width ∧ 0 ≤ row ∧ row < image.height
  · have hpixel : ∀ x y, (image.light column row).pixel x y =
        if column.toNat = x ∧ row.toNat = y then (image.pixel x y).map fun _ => true
        else image.pixel x y := by
      intro x y
      rw [light, if_pos hinside]
      exact entry_light _ _ _ _ _
    refine ⟨?_, ?_, h.light column row, ?_, ?_⟩
    · rw [light, if_pos hinside]
    · rw [light, if_pos hinside]
    · intro x y hx hy hreached
      obtain ⟨white, hwhite⟩ := h.exists_pixel hx hy
      rw [hpixel, if_pos (by omega), hwhite]
      rfl
    · intro x y hx hy hreached
      rw [hpixel, if_neg (by omega)]
  · have hsame : image.light column row = image := by rw [light, if_neg hinside]
    rw [hsame]
    refine (Lit.refl h).congr fun x y hx hy => ⟨False.elim, fun hreached => hinside ?_⟩
    omega

end Image

/-! ## Glyphs and texts -/

open Image in
theorem Glyph.lit_draw {image : Image} (h : image.Filled) (g : Glyph) :
    image.Lit g.Reaches (g.draw image) := by
  obtain ⟨left, top, coverage⟩ := g
  -- The spots are drawn from the first to the last, each on the image that the ones before left.
  induction coverage generalizing image with
  | nil => exact (Lit.refl h).congr fun x y _ _ => by simp [Reaches]
  | cons spot rest ih =>
      obtain ⟨column, row, covered⟩ := spot
      by_cases hcovered : 0.5 < covered
      · have hspot := lit_light h (left + column) (top + row)
        have hdrawn : draw ⟨left, top, (column, row, covered) :: rest⟩ image =
            draw ⟨left, top, rest⟩ (image.light (left + column) (top + row)) := by
          simp only [draw, List.foldl_cons, if_pos hcovered]
        rw [hdrawn]
        refine (hspot.trans (ih hspot.filled)).congr fun x y _ _ => ?_
        simp [Reaches, hcovered]
      · have hdrawn : draw ⟨left, top, (column, row, covered) :: rest⟩ image =
            draw ⟨left, top, rest⟩ image := by
          simp only [draw, List.foldl_cons, if_neg hcovered]
        rw [hdrawn]
        refine (ih h).congr fun x y _ _ => ?_
        simp [Reaches, hcovered]

namespace Caption

open Image

variable (c : Caption) (baseline : Float32)

/-- The glyph of one character, drawn if there is one. -/
theorem lit_char {image : Image} (h : image.Filled) (x : Float32) (char : Char) :
    image.Lit (fun column row => ∃ g ∈ c.font.outline c.scale char x baseline, g.Reaches column row)
      (match c.font.outline c.scale char x baseline with
        | some g => g.draw image
        | none => image) := by
  cases c.font.outline c.scale char x baseline with
  | none => exact (Lit.refl h).congr fun x y _ _ => by simp
  | some g => exact (g.lit_draw h).congr fun x y _ _ => by simp

theorem lit_drawFrom {image : Image} (h : image.Filled) (x : Float32) (t : Text) :
    image.Lit (c.ReachesFrom baseline x t) (c.drawFrom baseline x t image) := by
  induction t generalizing image x with
  | nil => exact (Lit.refl h).congr fun column row _ _ => by simp [ReachesFrom]
  | cons char rest ih =>
      have hchar := c.lit_char baseline h x char
      have hrest := ih hchar.filled (x + c.font.advance c.scale char)
      refine (hchar.trans hrest).congr fun column row _ _ => ?_
      constructor
      · rintro (⟨g, hg, hreaches⟩ | ⟨before, char', after, g, rfl, hg, hreaches⟩)
        · exact ⟨[], char, rest, g, rfl, hg, hreaches⟩
        · exact ⟨char :: before, char', after, g, rfl, hg, hreaches⟩
      · rintro ⟨before, char', after, g, ht, hg, hreaches⟩
        cases before with
        | nil =>
            cases ht
            exact .inl ⟨g, hg, hreaches⟩
        | cons first before =>
            cases ht
            exact .inr ⟨before, char', after, g, rfl, hg, hreaches⟩

end Caption

/-! ## Frames -/

/-- What the image of a frame shows: a board in squares of `z` pixels, a band below it that is as
high as the caption, and the subtitle in white over both. -/
structure Image.Shows (image : Image) (b : Board) (inverted : Bool) (z : Nat)
    (caption : Option Caption) (subtitle : Option Text) : Prop where
  width : image.width = b.width * z
  height : image.height = b.height * z + band caption subtitle
  filled : image.Filled
  cells : ∀ {x y}, x < b.width * z → y < b.height * z →
    ¬ SubtitleReaches caption subtitle (b.height * z) x y →
    image.pixel x y = some (b.get ((x / z : Nat) : Int) ((y / z : Nat) : Int) != inverted)
  black : ∀ {x y}, x < b.width * z → b.height * z ≤ y →
    y < b.height * z + band caption subtitle →
    ¬ SubtitleReaches caption subtitle (b.height * z) x y → image.pixel x y = some false
  white : ∀ {x y}, x < b.width * z → y < b.height * z + band caption subtitle →
    SubtitleReaches caption subtitle (b.height * z) x y → image.pixel x y = some true

theorem shows_of_lit {b : Board} {inverted : Bool} {zoom : Nat} {caption : Option Caption}
    {subtitle : Option Text} {image : Image}
    (h : (Image.ofBoard b inverted zoom (band caption subtitle)).Lit
      (SubtitleReaches caption subtitle (b.height * max zoom 1)) image) :
    image.Shows b inverted (max zoom 1) caption subtitle where
  width := h.width
  height := h.height
  filled := h.filled
  cells hx hy hreached :=
    (h.same hx (Nat.lt_add_right _ hy) hreached).trans (Image.pixel_of_lt hx hy)
  black hx hlow hy hreached := (h.same hx hy hreached).trans (Image.pixel_of_le hx hlow hy)
  white hx hy hreached := h.white hx hy hreached

/-- The image of a frame shows its board, and its subtitle if there is a font for it. -/
theorem shows_ofFrame (b : Board) (inverted : Bool) (zoom : Nat) (caption : Option Caption)
    (subtitle : Option Text) :
    (Image.ofFrame b inverted zoom caption subtitle).Shows b inverted (max zoom 1) caption
      subtitle := by
  apply shows_of_lit
  have hfilled := Image.filled_ofBoard b inverted zoom (band caption subtitle)
  cases caption with
  | none => exact (Image.Lit.refl hfilled).congr fun x y _ _ => by simp [SubtitleReaches]
  | some c =>
      cases subtitle with
      | none => exact (Image.Lit.refl hfilled).congr fun x y _ _ => by simp [SubtitleReaches]
      | some t =>
          refine (c.lit_drawFrom _ hfilled 0 t).congr fun x y _ _ => ⟨?_, ?_⟩
          · exact fun hreaches => ⟨c, rfl, t, rfl, hreaches⟩
          · rintro ⟨_, hc, _, ht, hreaches⟩
            cases Option.some.inj hc
            cases Option.some.inj ht
            exact hreaches

/-- Whole pixels to the left of a position. -/
def wholePixels (x : Float32) : Nat :=
  (List.range 64).countP fun n => (n + 1).toUInt32.toFloat32 ≤ x

/-- A font of dots: the glyph of a character that is no blank covers the first pixel of the square
that the character takes. -/
def dots : Font where
  ascent size := size
  advance size _ := size
  outline size c x baseline :=
    if c = ' ' then none
    else
      some { left := wholePixels x, top := wholePixels (baseline - size), coverage := [(0, 0, 1)] }

/-- The second character is a blank, and the third one stands to the right of the image. -/
example :
    Image.ofFrame Board.pair true 2 (some (.ofFont dots 2)) (some "a b".toList) =
      { width := 4, height := 4
        rows := [[false, false, true, true], [false, false, true, true],
          [true, false, false, false], [false, false, false, false]] } := by
  decide +kernel

theorem band_le (c : Caption) (subtitle : Option Text) : band (some c) subtitle ≤ c.size := by
  cases subtitle with
  | none => exact Nat.zero_le _
  | some t => exact Nat.le_refl _

/-- If no glyph rises above the band, the board is found again whichever pixel is taken from each
square. -/
theorem Image.Shows.sample {image : Image} {b : Board} {inverted : Bool} {z : Nat}
    {caption : Option Caption} {subtitle : Option Text}
    (h : image.Shows b inverted z caption subtitle)
    (hband : ∀ x y, SubtitleReaches caption subtitle (b.height * z) x y → b.height * z ≤ y)
    {spot : Nat → Nat → Nat × Nat} (hspot : ∀ x y, (spot x y).1 < z ∧ (spot x y).2 < z) :
    image.sample inverted z spot b.width b.height b.width_pos b.height_pos = b :=
  Image.sample_eq hspot fun x y hx hy =>
    h.cells hx hy fun hreached => Nat.not_lt.mpr (hband x y hreached) hy

end TorusAutomaton.View

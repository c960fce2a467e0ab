import TorusAutomaton.Proofs.Board.Text
import TorusAutomaton.Proofs.Outcome

/-!
# Texts that lay out a board

Which texts are boards is said here without reading them: lines of cells with points between them,
at least one, all of the same length and none of them empty. What is wrong with any other text is
said too, line by line from the first. The reader accepts the former and reports the latter, and
reading and writing are inverse to each other.
-/

namespace TorusAutomaton.Board

open TorusAutomaton Text Outcome

/-! ## Lines -/

/-- The two characters that stand for a cell. -/
def IsCell (c : Char) : Prop := c = '0' ∨ c = '1'

instance : DecidablePred IsCell := fun c => inferInstanceAs (Decidable (c = '0' ∨ c = '1'))

/-- Lines of cells that are all of one length, which is not zero. -/
def Even (lines : List Text) : Prop :=
  ∃ width, 0 < width ∧ ∀ line ∈ lines, line.length = width ∧ ∀ c ∈ line, IsCell c

/-- What is wrong with lines that lay out no board. The lines before the one at fault are even. A
character that is no cell is found before the length of its line is looked at, and a length is wrong
if it is not that of the first line. -/
inductive Fault : List Text → Error → Prop
  | empty {after : List Text} : Fault ([] :: after) .empty
  | badCell {before after : List Text} {good rest : Text} {found : Char} (even : Even before)
      (cells : ∀ c ∈ good, IsCell c) (bad : ¬ IsCell found) :
      Fault (before ++ (good ++ found :: rest) :: after) (.badCell before.length found)
  | raggedRow {before after : List Text} {first line : Text} (even : Even (first :: before))
      (cells : ∀ c ∈ line, IsCell c) (bad : line.length ≠ first.length) :
      Fault (first :: before ++ line :: after)
        (.raggedRow (before.length + 1) line.length first.length)

theorem isCell_iff {c : Char} : IsCell c ↔ ∃ alive, cellChar alive = c := by
  constructor
  · rintro (rfl | rfl)
    · exact ⟨false, rfl⟩
    · exact ⟨true, rfl⟩
  · rintro ⟨alive, rfl⟩
    cases alive
    · exact .inl rfl
    · exact .inr rfl

theorem isCell_renderRow (cells : List Bool) : ∀ c ∈ renderRow cells, IsCell c := by
  intro c hc
  obtain ⟨alive, _, halive⟩ := List.mem_map.mp hc
  exact isCell_iff.mpr ⟨alive, halive⟩

/-- A line is made of cells, or there is a first character in it that is none. -/
theorem cells_or_bad (line : Text) :
    (∃ cells, line = renderRow cells) ∨ ∃ cells found rest,
      line = renderRow cells ++ found :: rest ∧ ¬ IsCell found := by
  induction line with
  | nil => exact .inl ⟨[], rfl⟩
  | cons c rest ih =>
      by_cases hc : IsCell c
      · obtain ⟨alive, rfl⟩ := isCell_iff.mp hc
        rcases ih with ⟨cells, rfl⟩ | ⟨cells, found, rest, rfl, hfound⟩
        · exact .inl ⟨alive :: cells, rfl⟩
        · exact .inr ⟨alive :: cells, found, rest, rfl, hfound⟩
      · exact .inr ⟨[], c, rest, rfl, hc⟩

theorem exists_renderRow {line : Text} (h : ∀ c ∈ line, IsCell c) :
    ∃ cells, line = renderRow cells := by
  rcases cells_or_bad line with hcells | ⟨cells, found, rest, rfl, hfound⟩
  · exact hcells
  · exact absurd (h found (by simp)) hfound

/-- Even lines are the rows of a rectangle. -/
theorem Even.exists_rows {lines : List Text} (h : Even lines) :
    ∃ width, 0 < width ∧ ∃ rows : List (List Bool), lines = rows.map renderRow ∧
      ∀ cells ∈ rows, cells.length = width := by
  obtain ⟨width, hwidth, hlines⟩ := h
  refine ⟨width, hwidth, ?_⟩
  induction lines with
  | nil => exact ⟨[], rfl, by simp⟩
  | cons line rest ih =>
      obtain ⟨hlength, hcells⟩ := hlines line List.mem_cons_self
      obtain ⟨cells, rfl⟩ := exists_renderRow hcells
      obtain ⟨rows, rfl, hrows⟩ := ih fun l hl => hlines l (List.mem_cons_of_mem _ hl)
      refine ⟨cells :: rows, rfl, ?_⟩
      intro row hrow
      rcases List.mem_cons.mp hrow with rfl | hrow
      · simpa [renderRow] using hlength
      · exact hrows row hrow

/-! ## Reading lines -/

theorem readRow_bad (row : Nat) (cells : List Bool) {found : Char} (h : ¬ IsCell found)
    (rest : Text) :
    readRow row (renderRow cells ++ found :: rest) = .error (.badCell row found) := by
  induction cells with
  | nil =>
      have hzero : found ≠ '0' := fun e => h (.inl e)
      have hone : found ≠ '1' := fun e => h (.inr e)
      show readRow row (found :: rest) = _
      rw [readRow, if_neg hzero, if_neg hone]
  | cons alive cells ih =>
      have hstep : readRow row (cellChar alive :: (renderRow cells ++ found :: rest)) =
          (readRow row (renderRow cells ++ found :: rest)).map (alive :: ·) := by
        cases alive <;> rfl
      show readRow row (cellChar alive :: (renderRow cells ++ found :: rest)) = _
      rw [hstep, ih]
      rfl

/-- Rows of the right width are passed, and what comes after them decides. -/
theorem readRows_append {width : Nat} (row : Nat) {rows : List (List Bool)}
    (h : ∀ cells ∈ rows, cells.length = width) (lines : List Text) :
    readRows width row (rows.map renderRow ++ lines) =
      (readRows width (row + rows.length) lines).map (rows ++ ·) := by
  induction rows generalizing row with
  | nil => cases hread : readRows width row lines <;> simp [hread, Except.map]
  | cons cells rest ih =>
      have hcells : cells.length = width := h cells List.mem_cons_self
      have hrest := ih (row + 1) fun c hc => h c (List.mem_cons_of_mem _ hc)
      have hrow : row + 1 + rest.length = row + (cells :: rest).length := by
        rw [List.length_cons]
        omega
      rw [List.map_cons, List.cons_append, readRows, readRow_renderRow, ok_bind, hrest, hrow]
      simp only [hcells, ne_eq, not_true_eq_false, if_false]
      cases readRows width (row + (cells :: rest).length) lines <;> rfl

/-! ## Reading texts -/

/-- Once the first line is read, the lines after it are read against its width. -/
theorem parse_of_splitOn {t : Text} {first : List Bool} {lines : List Text}
    (hsplit : t.splitOn '.' = renderRow first :: lines) (hpos : 0 < first.length) :
    parse t = (readRows first.length 1 lines).map fun others =>
      ofRows (first :: others) first.length (others.length + 1) hpos (Nat.succ_pos _) := by
  simp only [parse, hsplit, readRow_renderRow, ok_bind, dif_pos hpos]
  cases readRows first.length 1 lines <;> rfl

theorem Fault.read {t : Text} {e : Error} (h : Fault (t.splitOn '.') e) : parse t = .error e := by
  generalize hlines : t.splitOn '.' = lines at h
  cases h with
  | empty =>
      simp only [parse, hlines]
      rfl
  | @badCell before after good rest found heven hcells hbad =>
      obtain ⟨cells, rfl⟩ := exists_renderRow hcells
      obtain ⟨width, hwidth, rows, rfl, hrows⟩ := heven.exists_rows
      cases rows with
      | nil =>
          simp only [parse, hlines, List.map_nil, List.nil_append, readRow_bad 0 cells hbad,
            error_bind]
          rfl
      | cons first others =>
          have hfirst : first.length = width := hrows first List.mem_cons_self
          have hothers : ∀ row ∈ others, row.length = first.length := fun row hrow =>
            (hrows row (List.mem_cons_of_mem _ hrow)).trans hfirst.symm
          have hlines : t.splitOn '.' = renderRow first ::
              (others.map renderRow ++ (renderRow cells ++ found :: rest) :: after) := hlines
          rw [parse_of_splitOn hlines (hfirst ▸ hwidth), readRows_append 1 hothers, readRows,
            readRow_bad _ cells hbad, error_bind, List.length_map, List.length_cons, Nat.add_comm]
          rfl
  | @raggedRow before after first line heven hcells hbad =>
      obtain ⟨cells, rfl⟩ := exists_renderRow hcells
      obtain ⟨width, hwidth, rows, hmap, hrows⟩ := heven.exists_rows
      obtain ⟨row, others, rfl, rfl, rfl⟩ := List.map_eq_cons_iff.mp hmap.symm
      have hfirst : row.length = width := hrows row List.mem_cons_self
      have hothers : ∀ r ∈ others, r.length = row.length := fun r hr =>
        (hrows r (List.mem_cons_of_mem _ hr)).trans hfirst.symm
      have hlines : t.splitOn '.' =
          renderRow row :: (others.map renderRow ++ renderRow cells :: after) := hlines
      simp only [renderRow, List.length_map] at hbad
      rw [parse_of_splitOn hlines (hfirst ▸ hwidth), readRows_append 1 hothers, readRows,
        readRow_renderRow, ok_bind, if_pos hbad]
      simp only [throw_eq_error, error_bind, renderRow, List.length_map, Nat.add_comm 1]
      rfl

/-- The rows of a board are those that it was put together from. -/
theorem rows_ofRows {rows : List (List Bool)} {width height : Nat} (hw : 0 < width)
    (hh : 0 < height) (hheight : rows.length = height)
    (hwidth : ∀ cells ∈ rows, cells.length = width) :
    (ofRows rows width height hw hh).rows = rows := by
  apply List.ext_getElem
  · rw [length_rows, hheight]
    rfl
  · intro y hy hy'
    have hyh : y < height := hheight ▸ hy'
    have hrow : rows[y].length = width := hwidth _ (List.getElem_mem hy')
    apply List.ext_getElem
    · rw [hrow]
      exact length_of_mem_rows (List.getElem_mem hy)
    · intro x hx hx'
      have hxw : x < width := hrow ▸ hx'
      have hcell := get_ofRows rows hw hh hxw hyh
      have hget := getD_rows (ofRows rows width height hw hh) hxw hyh
      simpa [List.getD_eq_getElem?_getD, hy, hx, hy', hx'] using hget.trans hcell

theorem parse_of_even {t : Text} (h : Even (t.splitOn '.')) :
    ∃ b, parse t = .ok b ∧ b.render = t := by
  obtain ⟨width, hwidth, rows, hlines, hrows⟩ := h.exists_rows
  cases rows with
  | nil => exact absurd hlines (List.splitOn_ne_nil '.' t)
  | cons first others =>
      have hfirst : first.length = width := hrows first List.mem_cons_self
      have hothers : ∀ row ∈ others, row.length = first.length := fun row hrow =>
        (hrows row (List.mem_cons_of_mem _ hrow)).trans hfirst.symm
      have hread := parse_of_splitOn hlines (hfirst ▸ hwidth)
      rw [readRows_map_renderRow 1 others hothers] at hread
      refine ⟨_, hread, ?_⟩
      have hback := rows_ofRows (hfirst ▸ hwidth) (Nat.succ_pos _)
        (rfl : (first :: others).length = others.length + 1)
        fun row hrow => (hrows row hrow).trans hfirst.symm
      show join ['.'] (List.map renderRow (ofRows (first :: others) _ _ _ _).rows) = t
      rw [hback, ← hlines]
      exact List.intercalate_splitOn '.'

/-- Lines are even, or there is a first one at fault. -/
theorem even_or_fault {lines : List Text} (hne : lines ≠ []) :
    Even lines ∨ ∃ e, Fault lines e := by
  obtain ⟨first, rest, rfl⟩ := List.exists_cons_of_ne_nil hne
  rcases cells_or_bad first with ⟨cells, rfl⟩ | ⟨cells, found, after, rfl, hfound⟩
  · cases cells with
    | nil => exact .inr ⟨_, .empty⟩
    | cons alive cells =>
        generalize hfirst : renderRow (alive :: cells) = first
        have hpos : 0 < first.length := by simp [← hfirst, renderRow]
        have hcells : ∀ c ∈ first, IsCell c := hfirst ▸ isCell_renderRow _
        have heven : ∀ before : List Text,
            (∀ line ∈ before, line.length = first.length ∧ ∀ c ∈ line, IsCell c) →
              Even (first :: before) :=
          fun before hbefore => ⟨first.length, hpos, List.forall_mem_cons.mpr ⟨⟨rfl, hcells⟩, hbefore⟩⟩
        cases hfind : rest.find? fun line =>
            !decide (line.length = first.length ∧ ∀ c ∈ line, IsCell c) with
        | none =>
            refine .inl (heven rest fun line hline => ?_)
            simpa using List.find?_eq_none.mp hfind line hline
        | some line =>
            obtain ⟨hline, before, after, rfl, hbefore⟩ := List.find?_eq_some_iff_append.mp hfind
            have hbefore := heven before fun l hl => by simpa using hbefore l hl
            rcases cells_or_bad line with ⟨row, rfl⟩ | ⟨row, found, tail, rfl, hfound⟩
            · refine .inr ⟨_, .raggedRow hbefore (isCell_renderRow row) fun hlength => ?_⟩
              simp only [hlength, true_and, Bool.not_eq_true', decide_eq_false_iff_not] at hline
              exact hline (isCell_renderRow row)
            · exact .inr ⟨_, @Fault.badCell (first :: before) _ _ _ _ hbefore (isCell_renderRow row)
                hfound⟩
  · have hnone : Even [] := ⟨1, Nat.one_pos, by simp⟩
    exact .inr ⟨_, @Fault.badCell [] _ _ _ _ hnone (isCell_renderRow cells) hfound⟩

/-! ## Which texts are boards -/

theorem render_of_parse {t : Text} {b : Board} (h : parse t = .ok b) : b.render = t := by
  rcases even_or_fault (List.splitOn_ne_nil '.' t) with heven | ⟨e, hfault⟩
  · obtain ⟨read, hread, hrender⟩ := parse_of_even heven
    obtain rfl : read = b := Except.ok.inj (hread.symm.trans h)
    exact hrender
  · exact absurd (hfault.read.symm.trans h) (by simp)

theorem parse_eq_ok_iff {t : Text} {b : Board} : parse t = .ok b ↔ b.render = t := by
  constructor
  · exact render_of_parse
  · rintro rfl
    exact b.parse_render

/-- No line of cells has a point in it, so lines that are joined by points are found again. -/
theorem Even.splitOn_join {lines : List Text} (h : Even lines) (hne : lines ≠ []) :
    (join ['.'] lines).splitOn '.' = lines := by
  obtain ⟨_, _, rows, rfl, _⟩ := h.exists_rows
  apply List.splitOn_intercalate _ _ hne
  intro line hline
  obtain ⟨cells, _, rfl⟩ := List.mem_map.mp hline
  exact point_not_mem_renderRow cells

theorem exists_parse_eq_ok_iff {t : Text} :
    (∃ b, parse t = .ok b) ↔ ∃ lines, lines ≠ [] ∧ t = join ['.'] lines ∧ Even lines := by
  constructor
  · rintro ⟨b, hb⟩
    have hne := List.splitOn_ne_nil '.' t
    refine ⟨t.splitOn '.', hne, (List.intercalate_splitOn '.').symm, ?_⟩
    rcases even_or_fault hne with heven | ⟨e, hfault⟩
    · exact heven
    · exact absurd (hfault.read.symm.trans hb) (by simp)
  · rintro ⟨lines, hne, rfl, heven⟩
    obtain ⟨b, hb, _⟩ := parse_of_even (heven.splitOn_join hne ▸ heven)
    exact ⟨b, hb⟩

theorem parse_eq_error_iff {t : Text} {e : Error} :
    parse t = .error e ↔ Fault (t.splitOn '.') e := by
  constructor
  · intro h
    rcases even_or_fault (List.splitOn_ne_nil '.' t) with heven | ⟨e', hfault⟩
    · obtain ⟨b, hb, _⟩ := parse_of_even heven
      exact absurd (hb.symm.trans h) (by simp)
    · obtain rfl : e' = e := Except.error.inj (hfault.read.symm.trans h)
      exact hfault
  · exact Fault.read

/-- The first line is empty exactly if there is no text, or a point before all else. -/
theorem exists_splitOn_eq_nil_cons_iff {t : Text} :
    (∃ lines, t.splitOn '.' = [] :: lines) ↔ t = [] ∨ t.head? = some '.' := by
  cases t with
  | nil => exact ⟨fun _ => .inl rfl, fun _ => ⟨[], rfl⟩⟩
  | cons c rest =>
      rw [List.splitOn, List.splitOnP_cons_eq_if_modifyHead]
      obtain ⟨line, lines, hlines⟩ :=
        List.exists_cons_of_ne_nil (List.splitOnP_ne_nil (fun x => x == '.') rest)
      by_cases hc : c = '.' <;> simp [hc, hlines]

theorem parse_eq_empty_iff {t : Text} :
    parse t = .error .empty ↔ t = [] ∨ t.head? = some '.' := by
  rw [parse_eq_error_iff, ← exists_splitOn_eq_nil_cons_iff]
  constructor
  · intro h
    generalize t.splitOn '.' = lines at h
    cases h with
    | empty => exact ⟨_, rfl⟩
  · rintro ⟨lines, hlines⟩
    exact hlines ▸ .empty

/-- **Boards and their texts correspond one to one.** A board that is written is read back, and a
text that is read is written back, so equal boards have equal texts and conversely. The texts that
can be read are the even lines of cells joined by points; any other is refused for the first fault
in the order of its lines, which is that the text is empty if there is nothing in its first line. -/
theorem parse_inverts_render :
    (∀ b : Board, parse b.render = .ok b) ∧
      (∀ (t : Text) (b : Board), parse t = .ok b ↔ b.render = t) ∧
      (∀ a b : Board, a = b ↔ a.render = b.render) ∧
      (∀ t : Text, (∃ b, parse t = .ok b) ↔
        ∃ lines, lines ≠ [] ∧ t = join ['.'] lines ∧ Even lines) ∧
      (∀ (t : Text) (e : Error), parse t = .error e ↔ Fault (t.splitOn '.') e) ∧
      (∀ t : Text, parse t = .error .empty ↔ t = [] ∨ t.head? = some '.') := by
  refine ⟨parse_render, fun _ _ => parse_eq_ok_iff, ?injective, fun _ => exists_parse_eq_ok_iff,
    fun _ _ => parse_eq_error_iff, fun _ => parse_eq_empty_iff⟩
  case injective =>
    intro a b
    refine ⟨congrArg render, fun h => ?_⟩
    have hread : parse a.render = .ok b := h ▸ b.parse_render
    exact Except.ok.inj (a.parse_render.symm.trans hread)

example : parse "01.2".toList = .error (.badCell 1 '2') := by rfl

end TorusAutomaton.Board

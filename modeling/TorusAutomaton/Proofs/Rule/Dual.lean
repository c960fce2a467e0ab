import TorusAutomaton.Proofs.Rule.Segments

/-!
# Dual rules

What a rule does to live cells among live ones, its dual does to dead cells among dead ones. The
eight neighbours of a cell are alive or dead, so a count of live ones is eight less a count of dead
ones, and a dual rule is written by exchanging the two groups of counts and taking every count from
eight. Here this is done twice: to the text of a rule and to the rule that is read from it. Reading
the one text gives the one rule, and reading the other gives the other.
-/

namespace TorusAutomaton.Rule

open TorusAutomaton Text TorusAutomaton.Random Outcome

/-! ## Duals of what is read -/

/-- The marks at the counts of dead neighbours. -/
def Counts.mirror (marks : Counts) : Counts := Vector.ofFn fun n => marks.has (8 - n)

theorem Counts.has_mirror (marks : Counts) {n : Nat} (h : n ≤ 8) :
    marks.mirror.has n = marks.has (8 - n) := by
  have hmin : min n 8 = n := Nat.min_eq_left h
  simp only [mirror, has, hmin, Vector.getElem_ofFn]

namespace Table

def dual (table : Table) : Table where
  dies := table.born.mirror
  born := table.dies.mirror

/-- A cell and its counterpart, which has as many dead neighbours as the cell has live ones, become
counterparts again. -/
theorem next_dual (table : Table) (alive : Bool) {n : Nat} (h : n ≤ 8) :
    table.dual.next (!alive) (8 - n) = !table.next alive n := by
  have hback : 8 - (8 - n) = n := by omega
  have hmirror : ∀ marks : Counts, marks.mirror.has (8 - n) = marks.has n := fun marks => by
    rw [marks.has_mirror (Nat.sub_le 8 n), hback]
  cases alive <;> simp [next, dual, hmirror]

theorem dual_still : dual still = still := by decide

end Table

/-! ## Duals of texts -/

/-- The digit of what a count leaves of eight. -/
def mirrorDigit (c : Char) : Char := Nat.digitChar (8 - Numeral.digitValue c)

/-- The two groups of a body exchanged, with the digits mirrored. -/
def dualBody (body : Text) : Text :=
  match cut '/' body with
  | some (alive, dead) => dead.map mirrorDigit ++ '/' :: alive.map mirrorDigit
  | none => body

/-- A segment with its body replaced by the dual one. -/
def dualSegment (segment : Text) : Text :=
  match splitSegment segment with
  | (some multiplier, body) => multiplier ++ 'x' :: dualBody body
  | (none, body) => dualBody body

/-- The dual of a rule text, segment by segment. -/
def dualText (t : Text) : Text := join [','] ((t.splitOn ',').map dualSegment)

/-- No segment is a directive. -/
def Literal (t : Text) : Prop := ∀ segment ∈ t.splitOn ',', '+' ∉ (splitSegment segment).2

instance : DecidablePred Literal := fun t =>
  inferInstanceAs (Decidable (∀ segment ∈ t.splitOn ',', '+' ∉ (splitSegment segment).2))

def Segment.dual (s : Segment) : Segment :=
  { s with body := dualBody s.body, table := s.table.dual }

/-- The rule that the dual text is read as. -/
def dual (r : Rule) : Rule := { segments := r.segments.map Segment.dual }

/-! ## Digits -/

theorem mirrorDigit_digitChar :
    ∀ n : Fin 9, mirrorDigit (Nat.digitChar n) = Nat.digitChar (8 - n) := by
  decide

theorem isCount_mirrorDigit {c : Char} (h : isCount c = true) :
    isCount (mirrorDigit c) = true := by
  obtain ⟨n, rfl⟩ := isCount_iff.mp h
  rw [mirrorDigit_digitChar]
  exact isCount_iff.mpr ⟨⟨8 - n, by omega⟩, rfl⟩

/-- Mirrored digits mark the mirrored counts. -/
theorem ofDigits_map_mirrorDigit {t : Text} (h : ∀ c ∈ t, isCount c = true) :
    Counts.ofDigits (t.map mirrorDigit) = (Counts.ofDigits t).mirror := by
  have hmem : ∀ n ≤ 8, Nat.digitChar n ∈ t.map mirrorDigit ↔ Nat.digitChar (8 - n) ∈ t := by
    intro n hn
    rw [List.mem_map]
    constructor
    · rintro ⟨c, hc, hmirror⟩
      obtain ⟨m, rfl⟩ := isCount_iff.mp (h c hc)
      rw [mirrorDigit_digitChar] at hmirror
      have hplace : 8 - n = m := by
        have := Numeral.digitChar_injective (by omega) (by omega) hmirror
        omega
      exact hplace ▸ hc
    · intro hc
      refine ⟨_, hc, ?_⟩
      have hback : 8 - (8 - n) = n := by omega
      exact (mirrorDigit_digitChar ⟨8 - n, by omega⟩).trans (congrArg Nat.digitChar hback)
  apply Vector.ext
  intro n hn
  have hn : n ≤ 8 := by omega
  simp only [Counts.mirror, Vector.getElem_ofFn, Counts.has_ofDigits (Nat.sub_le 8 n)]
  simp only [Counts.ofDigits, Vector.getElem_ofFn]
  rw [Bool.eq_iff_iff, List.contains_iff_mem, List.contains_iff_mem]
  exact hmem n hn

/-! ## Segments -/

theorem readTable_dualBody {body : Text} {table : Table} (h : readTable body = .ok table) :
    readTable (dualBody body) = .ok table.dual := by
  obtain ⟨alive, dead, rfl, hcounts, rfl⟩ := readTable_eq_ok_iff.mp h
  have halive : ∀ c ∈ alive, isCount c = true := fun c hc => hcounts c (List.mem_append_left _ hc)
  have hdead : ∀ c ∈ dead, isCount c = true := fun c hc => hcounts c (List.mem_append_right _ hc)
  have hslash : '/' ∉ alive := fun hmem => absurd (halive _ hmem) (by decide)
  rw [dualBody, cut_append_cons hslash]
  apply readTable_eq_ok_iff.mpr
  refine ⟨dead.map mirrorDigit, alive.map mirrorDigit, rfl, ?_, ?_⟩
  · intro c hc
    rw [← List.map_append] at hc
    obtain ⟨d, hd, rfl⟩ := List.mem_map.mp hc
    exact isCount_mirrorDigit ((List.mem_append.mp hd).elim (hdead d) (halive d))
  · rw [Table.dual, ofDigits_map_mirrorDigit hdead, ofDigits_map_mirrorDigit halive]

namespace Segment.Settled

variable {s : Segment}

theorem dual (h : s.Settled) : s.dual.Settled where
  copies := h.copies
  table := readTable_dualBody h.table

theorem dualSegment_render (h : s.Settled) : dualSegment s.render = s.dual.render := by
  rw [dualSegment, h.splitSegment_render]
  cases hm : s.multiplier <;> simp [Segment.render, Segment.dual, hm]

end Segment.Settled

/-! ## Rules -/

theorem Settled.dual {r : Rule} (h : r.Settled) : r.dual.Settled where
  nonempty := by simpa [Rule.dual] using h.nonempty
  settled := by
    intro s hs
    obtain ⟨t, ht, rfl⟩ := List.mem_map.mp hs
    exact (h.settled t ht).dual

theorem Settled.dualText_render {r : Rule} (h : r.Settled) : dualText r.render = r.dual.render := by
  have hsegments : (r.segments.map Segment.render).map dualSegment =
      (r.segments.map Segment.dual).map Segment.render := by
    rw [List.map_map, List.map_map]
    exact List.map_congr_left fun s hs => (h.settled s hs).dualSegment_render
  rw [dualText, h.splitOn_render, hsegments]
  rfl

theorem length_tables_dual (r : Rule) : r.dual.tables.length = r.tables.length := by
  simp [tables, dual, Segment.dual, List.flatMap_map]

theorem pick_map_dual (segments : List Segment) (n : Nat) :
    pick (segments.map Segment.dual) n = (pick segments n).dual := by
  induction segments generalizing n with
  | nil => exact Table.dual_still.symm
  | cons s rest ih =>
      simp only [List.map_cons, pick, ih, Segment.dual]
      split <;> rfl

/-- At every tick the dual of the table in force is in force. -/
theorem tableAt_dual (r : Rule) (tick : Int) : r.dual.tableAt tick = (r.tableAt tick).dual := by
  have hlength : r.dual.length = r.length := by
    rw [← length_tables, ← length_tables, length_tables_dual]
  rw [tableAt, tableAt, hlength]
  exact pick_map_dual r.segments _

/-! ## Reading -/

variable {σ : Type} [Source σ]

theorem render_of_readSegment {rule t : Text} {source source' : σ} {s : Segment}
    (h : readSegment rule t source = .ok (s, source')) (hliteral : '+' ∉ (splitSegment t).2) :
    s.render = t := by
  obtain ⟨_, hmultiplier, _, hresolve, _⟩ := readSegment_eq_ok_iff.mp h
  rw [resolve_counts hliteral, Except.ok.injEq, Prod.mk.injEq] at hresolve
  rw [Segment.render, ← hmultiplier, ← hresolve.1, splitSegment]
  cases hcut : cut 'x' t with
  | none => rfl
  | some parts => exact (eq_of_cut hcut).1.symm

theorem render_of_readSegments {rule : Text} {parts : List Text} {source source' : σ}
    {segments : List Segment} (h : readSegments rule parts source = .ok (segments, source'))
    (hliteral : ∀ t ∈ parts, '+' ∉ (splitSegment t).2) : segments.map Segment.render = parts := by
  induction parts generalizing source segments with
  | nil =>
      cases h
      rfl
  | cons t rest ih =>
      simp only [readSegments, bind_eq_ok_iff, pure_eq_ok, Except.ok.injEq, Prod.mk.injEq,
        Prod.exists] at h
      obtain ⟨first, _, hfirst, others, _, hothers, rfl, rfl⟩ := h
      rw [List.map_cons, render_of_readSegment hfirst (hliteral t List.mem_cons_self),
        ih hothers fun t ht => hliteral t (List.mem_cons_of_mem _ ht)]

/-- A text without directives is written back as it was read. -/
theorem render_of_parse_literal {t : Text} {source source' : σ} {r : Rule}
    (h : parse t source = .ok (r, source')) (hliteral : Literal t) : r.render = t := by
  simp only [parse, bind_eq_ok_iff, pure_eq_ok, Except.ok.injEq, Prod.mk.injEq, Prod.exists] at h
  obtain ⟨segments, _, hsegments, rfl, _⟩ := h
  rw [render, render_of_readSegments hsegments hliteral, join_splitOn]

/-- The dual text is read as the dual rule, whatever the source, and draws nothing. -/
theorem parse_dualText {t : Text} {source source' : σ} {r : Rule}
    (h : parse t source = .ok (r, source')) (hliteral : Literal t) {τ : Type} [Source τ]
    (other : τ) : parse (dualText t) other = .ok (r.dual, other) := by
  have hsettled := settled_of_parse h
  rw [← render_of_parse_literal h hliteral, hsettled.dualText_render]
  exact hsettled.dual.parse_render other

/-- Multipliers stay where they are, and a plus sign in one of them makes no directive. -/
example : Literal "+2x23/3,/018".toList ∧
    dualText "+2x23/3,/018".toList = "+2x5/65,870/".toList := by
  decide

end TorusAutomaton.Rule

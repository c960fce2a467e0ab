import TorusAutomaton.Rule.Parser
import TorusAutomaton.Proofs.Outcome
import TorusAutomaton.Proofs.Text.Numerals

/-!
# Rules written and read

A rule keeps the texts of its segments, with every directive replaced by the rule that was drawn for
it. Writing these texts down and reading them again gives the same rule, from whatever source of
random words, and leaves that source as it was: what is written holds no directive any more.
-/

namespace TorusAutomaton.Rule

open TorusAutomaton Text TorusAutomaton.Random Outcome

/-! ## Bodies -/

theorem readTable_eq_ok_iff {body : Text} {table : Table} :
    readTable body = .ok table ↔
      ∃ alive dead, body = alive ++ '/' :: dead ∧ (∀ c ∈ alive ++ dead, isCount c = true) ∧
        table = { dies := .ofDigits alive, born := .ofDigits dead } := by
  constructor
  · intro h
    unfold readTable at h
    split at h
    · cases h
    · rename_i alive dead hcut
      split at h
      · cases h
      · split at h
        · cases h
        · rename_i hfind
          refine ⟨alive, dead, (eq_of_cut hcut).1, ?_, (Except.ok.inj h).symm⟩
          intro c hc
          simpa using List.find?_eq_none.mp hfind c hc
  · rintro ⟨alive, dead, rfl, hcounts, rfl⟩
    -- The slash counts nothing, so it is found between the two parts and nowhere else.
    have hslash : ∀ part : Text, (∀ c ∈ part, isCount c = true) → '/' ∉ part := by
      intro part hpart hmem
      exact absurd (hpart _ hmem) (by decide)
    have halive := hslash alive fun c hc => hcounts c (List.mem_append_left _ hc)
    have hdead := hslash dead fun c hc => hcounts c (List.mem_append_right _ hc)
    have hfind : (alive ++ dead).find? (!isCount ·) = none :=
      List.find?_eq_none.mpr fun c hc => by simp [hcounts c hc]
    simp only [readTable, cut_append_cons halive, List.contains_iff_mem, if_neg hdead, hfind]

/-- The characters of a body that is no directive. -/
theorem readTable_chars {body : Text} {table : Table} (h : readTable body = .ok table) :
    ∀ c ∈ body, isCount c = true ∨ c = '/' := by
  obtain ⟨alive, dead, rfl, hcounts, _⟩ := readTable_eq_ok_iff.mp h
  intro c hc
  rcases List.mem_append.mp hc with hc | hc
  · exact .inl (hcounts c (List.mem_append_left _ hc))
  · rcases List.mem_cons.mp hc with rfl | hc
    · exact .inr rfl
    · exact .inl (hcounts c (List.mem_append_right _ hc))

theorem not_mem_of_readTable {body : Text} {table : Table} {c : Char}
    (h : readTable body = .ok table) (hcount : isCount c = false) (hslash : c ≠ '/') :
    c ∉ body := by
  intro hc
  rcases readTable_chars h c hc with hyes | rfl
  · exact Bool.noConfusion (hcount.symm.trans hyes)
  · exact hslash rfl

/-! ## Segments -/

theorem readCopies_some_eq_ok_iff {m : Text} {n : Nat} :
    readCopies (some m) = .ok n ↔ Numeral.readNat Numeral.maxU64 m = .ok n ∧ n ≠ 0 := by
  simp only [readCopies]
  constructor
  · intro h
    split at h
    · cases h
      exact ⟨‹_›, Nat.succ_ne_zero _⟩
    · cases h
  · rintro ⟨hm, hn⟩
    obtain ⟨k, rfl⟩ := Nat.exists_eq_succ_of_ne_zero hn
    simp only [hm]

theorem readCopies_chars {m : Text} {n : Nat} (h : readCopies (some m) = .ok n) :
    ∀ c ∈ m, c.isDigit = true ∨ c = '+' :=
  Numeral.readNat_chars (readCopies_some_eq_ok_iff.mp h).1

theorem not_mem_of_readCopies {m : Text} {n : Nat} {c : Char} (h : readCopies (some m) = .ok n)
    (hdigit : c.isDigit = false) (hplus : c ≠ '+') : c ∉ m := by
  intro hc
  rcases readCopies_chars h c hc with hyes | rfl
  · exact Bool.noConfusion (hdigit.symm.trans hyes)
  · exact hplus rfl

/-- The texts that a segment keeps say what it holds. -/
structure Segment.Settled (s : Segment) : Prop where
  copies : readCopies s.multiplier = .ok s.copies
  table : readTable s.body = .ok s.table

variable {σ : Type} [Source σ]

theorem readSegment_eq_ok_iff {rule t : Text} {source source' : σ} {s : Segment} :
    readSegment rule t source = .ok (s, source') ↔
      t ≠ [] ∧ (splitSegment t).1 = s.multiplier ∧ readCopies s.multiplier = .ok s.copies ∧
        resolve (splitSegment t).2 source = .ok (s.body, source') ∧
        readTable s.body = .ok s.table := by
  cases t with
  | nil => simp [readSegment]
  | cons c rest =>
      simp only [readSegment, List.isEmpty_cons, Bool.false_eq_true, if_false, pure_eq_ok,
        bind_eq_ok_iff, Except.ok.injEq, Prod.mk.injEq, Prod.exists]
      constructor
      · rintro ⟨copies, hcopies, body, source₂, hresolve, table, htable, rfl, rfl⟩
        exact ⟨by simp, rfl, hcopies, hresolve, htable⟩
      · rintro ⟨_, hmultiplier, hcopies, hresolve, htable⟩
        rw [hmultiplier]
        exact ⟨s.copies, hcopies, s.body, source', hresolve, s.table, htable, rfl, rfl⟩

theorem settled_of_readSegment {rule t : Text} {source source' : σ} {s : Segment}
    (h : readSegment rule t source = .ok (s, source')) : s.Settled := by
  obtain ⟨_, _, hcopies, _, htable⟩ := readSegment_eq_ok_iff.mp h
  exact ⟨hcopies, htable⟩

namespace Segment.Settled

variable {s : Segment}

/-- A settled segment holds no separator of segments. -/
theorem comma_not_mem_render (h : s.Settled) : ',' ∉ s.render := by
  have hbody : ',' ∉ s.body := not_mem_of_readTable h.table rfl (by decide)
  cases hm : s.multiplier with
  | none => simpa [Segment.render, hm] using hbody
  | some m =>
      have hcomma : ',' ∉ m := not_mem_of_readCopies (hm ▸ h.copies) rfl (by decide)
      simp [Segment.render, hm, hbody, hcomma]

/-- The first letter x of what is written stands behind the multiplier. -/
theorem splitSegment_render (h : s.Settled) : splitSegment s.render = (s.multiplier, s.body) := by
  cases hm : s.multiplier with
  | none =>
      have hx : 'x' ∉ s.body := not_mem_of_readTable h.table rfl (by decide)
      simp [splitSegment, Segment.render, hm, cut_eq_none_iff.mpr hx]
  | some m =>
      have hx : 'x' ∉ m := not_mem_of_readCopies (hm ▸ h.copies) rfl (by decide)
      simp [splitSegment, Segment.render, hm, cut_append_cons hx]

theorem render_ne_nil (h : s.Settled) : s.render ≠ [] := by
  obtain ⟨alive, dead, hbody, _⟩ := readTable_eq_ok_iff.mp h.table
  cases hm : s.multiplier <;> simp [Segment.render, hm, hbody]

/-- A settled segment is read back as it was written, and nothing is drawn. -/
theorem readSegment_render (h : s.Settled) (rule : Text) (source : σ) :
    readSegment rule s.render source = .ok (s, source) := by
  have hplus : '+' ∉ s.body := not_mem_of_readTable h.table rfl (by decide)
  rw [readSegment_eq_ok_iff, h.splitSegment_render]
  refine ⟨h.render_ne_nil, rfl, h.copies, ?_, h.table⟩
  simp [resolve, hplus]

end Segment.Settled

/-! ## Rules -/

/-- A rule as reading leaves it: it has a segment, and all its segments are settled. -/
structure Settled (r : Rule) : Prop where
  nonempty : r.segments ≠ []
  settled : ∀ s ∈ r.segments, s.Settled

theorem readSegments_eq_ok {rule : Text} {parts : List Text} {source source' : σ}
    {segments : List Segment} (h : readSegments rule parts source = .ok (segments, source')) :
    segments.length = parts.length ∧ ∀ s ∈ segments, s.Settled := by
  induction parts generalizing source source' segments with
  | nil =>
      cases h
      exact ⟨rfl, by simp⟩
  | cons t rest ih =>
      simp only [readSegments, bind_eq_ok_iff, pure_eq_ok, Except.ok.injEq, Prod.mk.injEq,
        Prod.exists] at h
      obtain ⟨first, source₂, hfirst, others, _, hothers, rfl, _⟩ := h
      obtain ⟨hlength, hall⟩ := ih hothers
      refine ⟨by simp [hlength], ?_⟩
      intro s hs
      rcases List.mem_cons.mp hs with rfl | hs
      · exact settled_of_readSegment hfirst
      · exact hall s hs

theorem readSegments_render {segments : List Segment} (h : ∀ s ∈ segments, s.Settled)
    (rule : Text) (source : σ) :
    readSegments rule (segments.map Segment.render) source = .ok (segments, source) := by
  induction segments with
  | nil => rfl
  | cons s rest ih =>
      have hs := (h s List.mem_cons_self).readSegment_render rule source
      have hrest := ih fun s hs => h s (List.mem_cons_of_mem _ hs)
      simp only [List.map_cons, readSegments, hs, hrest, ok_bind, pure_eq_ok]

theorem settled_of_parse {t : Text} {source source' : σ} {r : Rule}
    (h : parse t source = .ok (r, source')) : r.Settled := by
  simp only [parse, bind_eq_ok_iff, pure_eq_ok, Except.ok.injEq, Prod.mk.injEq, Prod.exists] at h
  obtain ⟨segments, _, hsegments, rfl, _⟩ := h
  obtain ⟨hlength, hall⟩ := readSegments_eq_ok hsegments
  refine ⟨?_, hall⟩
  intro hnil
  have hnil : segments = [] := hnil
  rw [hnil] at hlength
  exact List.splitOn_ne_nil ',' t (List.eq_nil_of_length_eq_zero hlength.symm)

/-- No segment holds a comma, so a rule falls into the segments that it was joined from. -/
theorem Settled.splitOn_render {r : Rule} (h : r.Settled) :
    r.render.splitOn ',' = r.segments.map Segment.render := by
  apply List.splitOn_intercalate _ _ (by simpa using h.nonempty)
  intro t ht
  obtain ⟨s, hs, rfl⟩ := List.mem_map.mp ht
  exact (h.settled s hs).comma_not_mem_render

/-- **What is written is read back**, from any source, and the source is left as it was. -/
theorem Settled.parse_render {r : Rule} (h : r.Settled) (source : σ) :
    parse r.render source = .ok (r, source) := by
  simp only [parse, h.splitOn_render, readSegments_render h.settled, ok_bind, pure_eq_ok]

end TorusAutomaton.Rule

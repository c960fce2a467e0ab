import TorusAutomaton.Proofs.Rule.Segments

/-!
# Chains of rules

Two rule texts with a comma between them are read one after the other. The second is read with the
source of random words that the first has left, so a chain draws the same rules as its parts do in
turn, and it fails as the first part at fault does. What a part leaves of the source is told by its
directives alone: groups of counts draw nothing, and a directive is drawn once, however often the
rule is repeated.
-/

namespace TorusAutomaton.Rule

open TorusAutomaton Text TorusAutomaton.Random Outcome

/-! ## Faults of a part -/

/-- A fault as it is reported of the text `rule` around it: an empty segment is shown with the whole
text, and everything else as it is. -/
def Error.within (rule : Text) : Error → Error
  | .emptySegment _ => .emptySegment rule
  | e => e

theorem within_readCopies (rule : Text) (multiplier : Option Text) :
    (readCopies multiplier).mapError (Error.within rule) = readCopies multiplier := by
  cases multiplier with
  | none => rfl
  | some m =>
      simp only [readCopies]
      split <;> rfl

theorem within_readTable (rule body : Text) :
    (readTable body).mapError (Error.within rule) = readTable body := by
  unfold readTable
  split
  · rfl
  · split
    · rfl
    · split <;> rfl

theorem within_readBounds (rule directive : Text) :
    (readBounds directive).mapError (Error.within rule) = readBounds directive := by
  unfold readBounds
  split
  · rfl
  · split
    · split
      · rfl
      · split <;> rfl
    · rfl

variable {σ : Type} [Source σ]

theorem within_resolve (rule body : Text) (source : σ) :
    (resolve body source).mapError (Error.within rule) = resolve body source := by
  have hbounds := within_readBounds rule body
  unfold resolve
  split
  · cases hread : readBounds body with
    | ok bounds => rfl
    | error e =>
        rw [hread] at hbounds
        have he : e.within rule = e := Except.error.inj hbounds
        exact congrArg Except.error he
  · rfl

/-- The text around a segment matters to its reading only for the fault of an empty segment. -/
theorem within_readSegment (rule rule' t : Text) (source : σ) :
    (readSegment rule' t source).mapError (Error.within rule) = readSegment rule t source := by
  cases t with
  | nil => rfl
  | cons c rest =>
      simp only [readSegment, List.isEmpty_cons, Bool.false_eq_true, if_false, mapError_bind,
        within_readCopies, within_resolve, within_readTable, pure_eq_ok, mapError_ok]

theorem within_readSegments (rule rule' : Text) (parts : List Text) (source : σ) :
    (readSegments rule' parts source).mapError (Error.within rule) =
      readSegments rule parts source := by
  induction parts generalizing source with
  | nil => rfl
  | cons t rest ih =>
      simp only [readSegments, mapError_bind, within_readSegment, ih, pure_eq_ok, mapError_ok]

/-! ## One part after the other -/

/-- The rule in which the segments of a second one follow those of the first. -/
def followedBy (first second : Rule) : Rule := { segments := first.segments ++ second.segments }

theorem tables_followedBy (first second : Rule) :
    (first.followedBy second).tables = first.tables ++ second.tables := List.flatMap_append

theorem join_append (sep : Text) {front back : List Text} (hfront : front ≠ [])
    (hback : back ≠ []) :
    join sep (front ++ back) = join sep front ++ sep ++ join sep back := by
  induction front with
  | nil => exact absurd rfl hfront
  | cons t rest ih =>
      cases rest with
      | nil => exact (List.intercalate_cons_of_ne_nil hback).trans (by simp [join])
      | cons t' rest =>
          have ih := ih (List.cons_ne_nil t' rest)
          simp only [join, List.cons_append, List.intercalate_cons_cons] at ih ⊢
          rw [ih]
          simp only [List.append_assoc]

theorem render_followedBy {first second : Rule} (hfirst : first.segments ≠ [])
    (hsecond : second.segments ≠ []) :
    (first.followedBy second).render = first.render ++ ',' :: second.render := by
  simp only [render, followedBy, List.map_append]
  rw [join_append _ (by simpa using hfirst) (by simpa using hsecond), List.append_assoc]
  rfl

theorem readSegments_append (rule : Text) (front back : List Text) (source : σ) :
    readSegments rule (front ++ back) source =
      readSegments rule front source >>= fun first =>
        readSegments rule back first.2 >>= fun second =>
          .ok (first.1 ++ second.1, second.2) := by
  induction front generalizing source with
  | nil =>
      simp only [List.nil_append, readSegments, ok_bind]
      cases readSegments rule back source <;> rfl
  | cons t rest ih =>
      simp only [List.cons_append, readSegments, ih]
      cases readSegment rule t source with
      | error e => rfl
      | ok head =>
          simp only [ok_bind]
          cases readSegments rule rest head.2 with
          | error e => rfl
          | ok first =>
              simp only [ok_bind, pure_eq_ok]
              cases readSegments rule back first.2 <;> rfl

theorem splitOn_append_comma (a b : Text) :
    (a ++ ',' :: b).splitOn ',' = a.splitOn ',' ++ b.splitOn ',' :=
  List.splitOnP_append_cons a b (beq_self_eq_true ',')

/-- The two texts are read in turn, and their faults are reported with the whole text. -/
theorem parse_append (a b : Text) (source : σ) :
    parse (a ++ ',' :: b) source =
      (parse a source).mapError (Error.within (a ++ ',' :: b)) >>= fun first =>
        (parse b first.2).mapError (Error.within (a ++ ',' :: b)) >>= fun second =>
          .ok (first.1.followedBy second.1, second.2) := by
  generalize hwhole : a ++ ',' :: b = whole
  have hsplit : whole.splitOn ',' = a.splitOn ',' ++ b.splitOn ',' := by
    rw [← hwhole, splitOn_append_comma]
  simp only [parse, hsplit, readSegments_append, mapError_bind, within_readSegments, pure_eq_ok,
    mapError_ok]
  cases readSegments whole (a.splitOn ',') source with
  | error e => rfl
  | ok first =>
      simp only [ok_bind]
      cases readSegments whole (b.splitOn ',') first.2 <;> rfl

/-! ## Single phrases -/

theorem Phrase.splitOn_text (p : Phrase) : p.text.splitOn ',' = [p.text] := by
  have hsingle : join [','] ([p].map Phrase.text) = p.text := List.intercalate_singleton
  have hsplit := splitOn_phrases (List.cons_ne_nil p [])
  rwa [hsingle] at hsplit

theorem Phrase.parse_text (p : Phrase) {source source' : σ} {written : Text} {table : Table}
    (hresolve : resolve p.body.text source = .ok (written, source'))
    (htable : readTable written = .ok table) :
    parse p.text source =
      .ok ({ segments := [{
        multiplier := p.multiplier.map Multiplier.text
        copies := p.copies
        body := written
        table }] }, source') := by
  simp only [parse, p.splitOn_text, readSegments, p.readSegment_text, hresolve, htable, ok_bind,
    pure_eq_ok]

/-- A body behind a multiplier draws what it draws without, and its one table is repeated. -/
theorem exists_parse_times (body : Body) (m : Multiplier) (source : σ) :
    ∃ once many table, parse body.text source = .ok (once, body.left source) ∧
      parse (m.text ++ 'x' :: body.text) source = .ok (many, body.left source) ∧
      once.tables = [table] ∧ many.tables = List.replicate m.copies table ∧
      many.render = m.text ++ 'x' :: once.render := by
  obtain ⟨written, table, hresolve, htable, _⟩ := body.read source
  have honce := Phrase.parse_text ⟨none, body⟩ hresolve htable
  have hmany := Phrase.parse_text ⟨some m, body⟩ hresolve htable
  have htext : (Phrase.mk (some m) body).text = m.text ++ 'x' :: body.text :=
    List.append_assoc m.text ['x'] body.text
  rw [htext] at hmany
  refine ⟨_, _, table, honce, hmany, rfl, ?_, ?_⟩
  · simp [tables, Phrase.copies]
  · simp [render, join, Segment.render]

/-! ## Chains -/

/-- **A chain is read part by part.** From any source of random words, a text of two parts with a
comma between them is read exactly when the first part is read and the second is read with what the
first has left. The tables of the two follow one another, the text that is written back is that of
the two with a comma between them, and the source ends where the second part has left it. When the
chain fails, it is for the fault of the first part, or else for that of the second. Whatever phrases
a part is made of, only its directives draw, one after the other; and a body with a multiplier in
front of it leaves the source as it does without, its one table being repeated. -/
theorem parse_comma (a b : Text) (source : σ) :
    ((∃ r source', parse (a ++ ',' :: b) source = .ok (r, source')) ↔
      ∃ first rest second source',
        parse a source = .ok (first, rest) ∧ parse b rest = .ok (second, source')) ∧
    (∀ r source', parse (a ++ ',' :: b) source = .ok (r, source') →
      ∃ first rest second,
        parse a source = .ok (first, rest) ∧ parse b rest = .ok (second, source') ∧
        r.tables = first.tables ++ second.tables ∧
        r.render = first.render ++ ',' :: second.render) ∧
    (∀ e, parse (a ++ ',' :: b) source = .error e ↔
      ∃ cause : Error, e = cause.within (a ++ ',' :: b) ∧
        (parse a source = .error cause ∨
          ∃ first rest, parse a source = .ok (first, rest) ∧ parse b rest = .error cause)) ∧
    (∀ phrases : List Phrase, phrases ≠ [] →
      ∃ r, parse (join [','] (phrases.map Phrase.text)) source = .ok (r, left phrases source)) ∧
    ∀ (body : Body) (m : Multiplier), ∃ once many table,
      parse body.text source = .ok (once, body.left source) ∧
      parse (m.text ++ 'x' :: body.text) source = .ok (many, body.left source) ∧
      once.tables = [table] ∧ many.tables = List.replicate m.copies table ∧
      many.render = m.text ++ 'x' :: once.render := by
  have hok : ∀ r source', parse (a ++ ',' :: b) source = .ok (r, source') ↔
      ∃ first rest second, parse a source = .ok (first, rest) ∧
        parse b rest = .ok (second, source') ∧ r = first.followedBy second := by
    intro r source'
    rw [parse_append]
    simp only [bind_eq_ok_iff, mapError_eq_ok_iff, Prod.exists, Except.ok.injEq, Prod.mk.injEq]
    constructor
    · rintro ⟨first, rest, hfirst, second, _, hsecond, rfl, rfl⟩
      exact ⟨first, rest, second, hfirst, hsecond, rfl⟩
    · rintro ⟨first, rest, second, hfirst, hsecond, rfl⟩
      exact ⟨first, rest, hfirst, second, source', hsecond, rfl, rfl⟩
  refine ⟨?_, ?_, ?_, ?_, fun body m => exists_parse_times body m source⟩
  · constructor
    · rintro ⟨r, source', h⟩
      obtain ⟨first, rest, second, hfirst, hsecond, _⟩ := (hok r source').mp h
      exact ⟨first, rest, second, source', hfirst, hsecond⟩
    · rintro ⟨first, rest, second, source', hfirst, hsecond⟩
      exact ⟨_, source', (hok _ source').mpr ⟨first, rest, second, hfirst, hsecond, rfl⟩⟩
  · intro r source' h
    obtain ⟨first, rest, second, hfirst, hsecond, rfl⟩ := (hok r source').mp h
    exact ⟨first, rest, second, hfirst, hsecond, tables_followedBy first second,
      render_followedBy (settled_of_parse hfirst).nonempty (settled_of_parse hsecond).nonempty⟩
  · intro e
    rw [parse_append]
    simp only [bind_eq_error_iff, mapError_eq_ok_iff, mapError_eq_error_iff, Prod.exists,
      reduceCtorEq, and_false, exists_false, or_false]
    constructor
    · rintro (⟨cause, hfirst, rfl⟩ | ⟨first, rest, hfirst, cause, hsecond, rfl⟩)
      · exact ⟨cause, rfl, .inl hfirst⟩
      · exact ⟨cause, rfl, .inr ⟨first, rest, hfirst, hsecond⟩⟩
    · rintro ⟨cause, rfl, hfirst | ⟨first, rest, hfirst, hsecond⟩⟩
      · exact .inl ⟨cause, hfirst, rfl⟩
      · exact .inr ⟨first, rest, hfirst, cause, hsecond, rfl⟩
  · intro phrases hne
    obtain ⟨r, hread, _⟩ := read_phrases hne source
    exact ⟨r, hread⟩

theorem parse_comma_drawn :
    (∃ r source' first rest second,
      parse "3x12+25,838/".toList (Keystream.ofNumber 7) = .ok (r, source') ∧
      parse "3x12+25".toList (Keystream.ofNumber 7) = .ok (first, rest) ∧
      parse "838/".toList rest = .ok (second, source') ∧
      r.tables = first.tables ++ second.tables ∧ r.tables.length = 4 ∧
      r.render = first.render ++ ',' :: second.render) ∧
    parse ",838/".toList (Keystream.ofNumber 7) = .error (.emptySegment ",838/".toList) := by
  have hread : (parse "3x12+25,838/".toList (Keystream.ofNumber 7)).toOption.any
      (fun result => result.1.tables.length == 4) = true := by
    decide +kernel
  obtain ⟨⟨r, source'⟩, hok, hlength⟩ := (Option.any_eq_true _ _).mp hread
  have hok := toOption_eq_some_iff.mp hok
  have hlength : r.tables.length = 4 := beq_iff_eq.mp hlength
  obtain ⟨first, rest, second, hfirst, hsecond, htables, hrender⟩ :=
    (parse_comma "3x12+25".toList "838/".toList (Keystream.ofNumber 7)).2.1 r source' hok
  refine ⟨⟨r, source', first, rest, second, hok, hfirst, hsecond, htables, hlength, hrender⟩, ?_⟩
  -- Nothing stands before the comma, which is a fault of the whole text.
  exact ((parse_comma [] "838/".toList (Keystream.ofNumber 7)).2.2.1 _).mpr
    ⟨.emptySegment [], rfl, .inl rfl⟩

end TorusAutomaton.Rule

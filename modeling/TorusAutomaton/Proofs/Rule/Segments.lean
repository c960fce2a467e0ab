import Mathlib.Algebra.GroupWithZero.Nat
import Mathlib.Data.List.Forall2
import TorusAutomaton.Proofs.Rule.Drawn
import TorusAutomaton.Random.Keystream

/-!
# Reading by the grammar

The reader of rules accepts exactly the phrases of the grammar, and of a text that is not made of
phrases it reports the fault of the first segment that is none. What is read performs the phrases:
each has its table in force for as many ticks as it says, one after the other, and then they start
again; ticks before zero are counted back from the end.
-/

namespace TorusAutomaton.Rule

open TorusAutomaton Text TorusAutomaton.Random Outcome

/-! ## What phrases ask for -/

/-- Live cells die at the counts in `alive` and dead cells come alive at those in `dead`; at all
other counts nothing changes. -/
def Table.Flips (table : Table) (alive dead : List Nat) : Prop :=
  ∀ c ≤ 8, (table.next true c = false ↔ c ∈ alive) ∧ (table.next false c = true ↔ c ∈ dead)

/-- A table that a body can lead to: the one it writes, or one of those that it may draw. -/
inductive Body.Gives : Body → Table → Prop
  | counts {alive dead : List (Fin 9)} {table : Table}
      (flips : table.Flips (alive.map Fin.val) (dead.map Fin.val)) :
      Gives (.counts alive dead) table
  | directive {d : Directive} {alive dead : List (Fin 8)} {table : Table}
      (drawn : d.Draws alive dead) (flips : table.Flips (alive.map Fin.val) (dead.map Fin.val)) :
      Gives (.directive d) table

/-- A text that a body can be replaced by: the body itself, or one of the rules that it may draw. -/
inductive Body.Resolves : Body → Text → Prop
  | counts (alive dead : List (Fin 9)) : Resolves (.counts alive dead) (Body.counts alive dead).text
  | directive {d : Directive} {alive dead : List (Fin 8)} (drawn : d.Draws alive dead) :
      Resolves (.directive d) (digits alive ++ '/' :: digits dead)

/-- A segment that does what a phrase says. -/
structure Segment.Follows (s : Segment) (p : Phrase) : Prop where
  multiplier : s.multiplier = p.multiplier.map Multiplier.text
  copies : s.copies = p.copies
  body : p.body.Resolves s.body
  table : p.body.Gives s.table

/-- A tick `place` ticks after the start of the rule falls to the phrase number `j`. -/
def FallsTo (phrases : List Phrase) (place : Int) (j : Nat) : Prop :=
  (((phrases.take j).map Phrase.copies).sum : Int) ≤ place ∧
    place < ((phrases.take (j + 1)).map Phrase.copies).sum

/-- A rule in which each phrase has a table in force for as many ticks as it says. -/
structure Performs (r : Rule) (phrases : List Phrase) : Prop where
  length : r.tables.length = (phrases.map Phrase.copies).sum
  falls : ∀ tick : Int, ∃! j, FallsTo phrases (tick % r.tables.length) j
  inForce : ∃ tables, List.Forall₂ (fun p table => p.body.Gives table) phrases tables ∧
    ∀ (tick : Int) (j : Nat), FallsTo phrases (tick % r.tables.length) j →
      tables[j]? = some (r.tableAt tick)

/-! ## Tables -/

theorem mem_digits_iff {n c : Nat} (hn : n ≤ 10) (hc : c < 10) {counts : List (Fin n)} :
    Nat.digitChar c ∈ digits counts ↔ c ∈ counts.map Fin.val := by
  simp only [digits, List.mem_map]
  constructor
  · rintro ⟨d, hd, hchar⟩
    exact ⟨d, hd, Numeral.digitChar_injective (by omega) hc hchar⟩
  · rintro ⟨d, hd, rfl⟩
    exact ⟨d, hd, rfl⟩

/-- Two groups of counts are read as the table that flips at them. -/
theorem readTable_digits {n : Nat} (hn : n ≤ 9) (alive dead : List (Fin n)) :
    ∃ table : Table, readTable (digits alive ++ '/' :: digits dead) = .ok table ∧
      table.Flips (alive.map Fin.val) (dead.map Fin.val) := by
  refine ⟨{ dies := .ofDigits (digits alive), born := .ofDigits (digits dead) }, ?_, ?_⟩
  · apply readTable_eq_ok_iff.mpr
    refine ⟨digits alive, digits dead, rfl, ?_, rfl⟩
    intro c hc
    rcases List.mem_append.mp hc with hc | hc <;> exact isCount_of_mem_digits hn hc
  · intro c hc
    have hmem : ∀ counts : List (Fin n),
        (Counts.ofDigits (digits counts)).has c = true ↔ c ∈ counts.map Fin.val := by
      intro counts
      rw [Counts.has_ofDigits hc, List.contains_iff_mem, mem_digits_iff (by omega) (by omega)]
    simp only [Table.next, if_true, Bool.not_eq_eq_eq_not, Bool.not_false, Bool.false_eq_true,
      if_false]
    exact ⟨hmem alive, hmem dead⟩

theorem readTable_missingSlash {body : Text} (h : body.count '/' ≠ 1) :
    readTable body = .error (.missingSlash body) := by
  cases hcut : cut '/' body with
  | none => simp only [readTable, hcut]
  | some parts =>
      obtain ⟨alive, dead⟩ := parts
      obtain ⟨hbody, halive⟩ := eq_of_cut hcut
      have hdead : '/' ∈ dead := by
        apply Decidable.byContradiction
        intro hdead
        exact h (count_eq_one_iff.mpr ⟨alive, dead, hbody, halive, hdead⟩)
      simp only [readTable, hcut, List.contains_iff_mem, hdead, if_true]

/-- The first character that is no count is reported. -/
theorem readTable_badDigit {alive dead rest : Text} {good : List (Fin 9)} {found : Char}
    (hslash : (alive ++ '/' :: dead).count '/' = 1)
    (h : alive ++ dead = digits good ++ found :: rest)
    (hbad : ∀ n : Fin 9, found ≠ Nat.digitChar n) :
    readTable (alive ++ '/' :: dead) = .error (.badDigit (alive ++ '/' :: dead) found) := by
  rw [List.count_append, List.count_cons_self] at hslash
  have halive : '/' ∉ alive := List.count_eq_zero.mp (by omega)
  have hdead : '/' ∉ dead := List.count_eq_zero.mp (by omega)
  have hfound : isCount found = false := by
    apply eq_false_of_ne_true
    intro hcount
    obtain ⟨n, hn⟩ := isCount_iff.mp hcount
    exact hbad n hn
  have hfind : (alive ++ dead).find? (!isCount ·) = some found := by
    rw [h, List.find?_eq_some_iff_append]
    refine ⟨by simp [hfound], digits good, rest, rfl, ?_⟩
    intro c hc
    simp [isCount_of_mem_digits (Nat.le_refl 9) hc]
  simp only [readTable, cut_append_cons halive, List.contains_iff_mem, hdead, if_false, hfind]

/-! ## Directives -/

theorem readPair_digits (a b : Fin 10) :
    readPair [Nat.digitChar a, Nat.digitChar b] = some (a.val, b.val) := by
  have hdigit : ∀ d : Fin 10, (Nat.digitChar d).isDigit = true :=
    fun d => Numeral.isDigit_iff.mpr ⟨d, rfl⟩
  simp [readPair, hdigit]

theorem eq_of_readPair {t : Text} {a b : Nat} (h : readPair t = some (a, b)) :
    ∃ c d : Fin 10, t = [Nat.digitChar c, Nat.digitChar d] := by
  unfold readPair at h
  split at h
  · split at h
    · rename_i hdigits
      rw [Bool.and_eq_true] at hdigits
      obtain ⟨c, rfl⟩ := Numeral.isDigit_iff.mp hdigits.1
      obtain ⟨d, rfl⟩ := Numeral.isDigit_iff.mp hdigits.2
      exact ⟨c, d, rfl⟩
    · cases h
  · cases h

theorem readBounds_directiveText (a b c d : Fin 10) :
    readBounds (directiveText a b c d) =
      if b ≤ a then .error (.emptyRange (directiveText a b c d) a b)
      else if d ≤ c then .error (.emptyRange (directiveText a b c d) c d)
      else .ok ⟨a, b, c, d⟩ := by
  have hplus : '+' ∉ [Nat.digitChar a.val, Nat.digitChar b.val] := by
    have hne : ∀ d : Fin 10, '+' ≠ Nat.digitChar d := by decide
    simp [hne]
  have hcut : cut '+' (directiveText a b c d) =
      some ([Nat.digitChar a, Nat.digitChar b], [Nat.digitChar c, Nat.digitChar d]) :=
    cut_append_cons hplus _
  simp only [readBounds, hcut, readPair_digits, Fin.le_def]

theorem readBounds_badDirective {body : Text}
    (h : ∀ a b c d : Fin 10, body ≠ directiveText a b c d) :
    readBounds body = .error (.badDirective body) := by
  unfold readBounds
  split
  · rfl
  · rename_i left right hcut
    split
    · rename_i hleft hright
      obtain ⟨a, b, rfl⟩ := eq_of_readPair hleft
      obtain ⟨c, d, rfl⟩ := eq_of_readPair hright
      exact absurd (eq_of_cut hcut).1 (h a b c d)
    · rfl

/-! ## Bodies -/

variable {σ : Type} [Source σ]

theorem plus_mem_directiveText (a b c d : Fin 10) : '+' ∈ directiveText a b c d := by
  simp [directiveText]

theorem resolve_directive {body : Text} (h : '+' ∈ body) (source : σ) :
    resolve body source = (readBounds body).map fun b => b.draw source := by
  simp [resolve, h]

theorem resolve_counts {body : Text} (h : '+' ∉ body) (source : σ) :
    resolve body source = .ok (body, source) := by
  simp [resolve, h]

def Body.directive? : Body → Option Directive
  | .counts _ _ => none
  | .directive d => some d

/-- What is left of a source when a body has been replaced: only a directive draws. -/
def Body.left (b : Body) (source : σ) : σ :=
  match b with
  | .counts _ _ => source
  | .directive d => (d.bounds.draw source).2

/-- A body is read, and what it is replaced by leads to a table that it can lead to. -/
theorem Body.read (b : Body) (source : σ) :
    ∃ written table, resolve b.text source = .ok (written, b.left source) ∧
      readTable written = .ok table ∧ b.Resolves written ∧ b.Gives table := by
  cases b with
  | counts alive dead =>
      have hplus : '+' ∉ (Body.counts alive dead).text := by
        simp [text, not_mem_digits (c := '+') (Nat.le_refl 9) rfl]
      obtain ⟨table, htable, hflips⟩ := readTable_digits (Nat.le_refl 9) alive dead
      exact ⟨_, table, resolve_counts hplus source, htable, .counts alive dead, .counts hflips⟩
  | directive d =>
      obtain ⟨alive, dead, hdrawn, hdraws⟩ := draw_spec d source
      obtain ⟨table, htable, hflips⟩ := readTable_digits (by decide) alive dead
      refine ⟨_, table, ?_, htable, .directive hdraws, .directive hdraws hflips⟩
      have hbounds : readBounds d.text = .ok d.bounds := by
        rw [Directive.text, readBounds_directiveText, if_neg (Fin.not_le.mpr d.alive),
          if_neg (Fin.not_le.mpr d.dead)]
        rfl
      have hplus : '+' ∈ d.text := plus_mem_directiveText _ _ _ _
      rw [text, resolve_directive hplus, hbounds, ← hdrawn]
      exact map_eq_ok_iff.mpr ⟨d.bounds, rfl, (Prod.eta _).symm⟩

/-- The fault of a body is reported, either before a rule is drawn or by the reader of tables. -/
theorem BodyFault.read {body : Text} {e : Error} (h : BodyFault body e) (source : σ) :
    resolve body source = .error e ∨
      resolve body source = .ok (body, source) ∧ readTable body = .error e := by
  cases h with
  | form plus bad =>
      rw [resolve_directive plus, readBounds_badDirective bad]
      exact .inl rfl
  | aliveRange bad =>
      rw [resolve_directive (plus_mem_directiveText _ _ _ _), readBounds_directiveText, if_pos bad]
      exact .inl rfl
  | deadRange alive bad =>
      rw [resolve_directive (plus_mem_directiveText _ _ _ _), readBounds_directiveText,
        if_neg (Fin.not_le.mpr alive), if_pos bad]
      exact .inl rfl
  | slash plus bad => exact .inr ⟨resolve_counts plus source, readTable_missingSlash bad⟩
  | aliveDigit plus slash form bad =>
      refine .inr ⟨resolve_counts plus source, ?_⟩
      subst form
      exact readTable_badDigit slash (by rw [List.append_assoc, List.cons_append]) bad
  | @deadDigit _ _ alive good _ plus slash form bad =>
      refine .inr ⟨resolve_counts plus source, ?_⟩
      subst form
      have hgood : digits (alive ++ good) = digits alive ++ digits good := List.map_append
      exact readTable_badDigit slash (by rw [hgood, List.append_assoc]) bad

/-! ## Segments -/

theorem readCopies_multiplier (m : Multiplier) : readCopies (some m.text) = .ok m.copies := by
  apply readCopies_some_eq_ok_iff.mpr
  refine ⟨Numeral.readNat_eq_ok_iff.mpr ⟨m.digits, ?_, m.isDigits, rfl, m.fits⟩,
    Nat.ne_of_gt m.positive⟩
  unfold Multiplier.text
  split
  · exact .inr rfl
  · exact .inl rfl

theorem readCopies_badMultiplier {front : Text} (h : ∀ m : Multiplier, front ≠ m.text) :
    readCopies (some front) = .error (.badMultiplier front) := by
  cases hread : readCopies (some front) with
  | error e =>
      simp only [readCopies] at hread
      split at hread <;> cases hread
      rfl
  | ok n =>
      obtain ⟨hn, hpositive⟩ := readCopies_some_eq_ok_iff.mp hread
      obtain ⟨digits, hfront, hdigits, rfl, hfits⟩ := Numeral.readNat_eq_ok_iff.mp hn
      rcases hfront with rfl | rfl
      · exact absurd rfl (h ⟨false, front, hdigits, Nat.pos_of_ne_zero hpositive, hfits⟩)
      · exact absurd rfl (h ⟨true, digits, hdigits, Nat.pos_of_ne_zero hpositive, hfits⟩)

/-- Once the multiplier is read, reading a segment is reading its body. -/
theorem readSegment_eq {segment body : Text} {multiplier : Option Text} {copies : Nat}
    (hne : segment ≠ []) (hsplit : splitSegment segment = (multiplier, body))
    (hcopies : readCopies multiplier = .ok copies) (rule : Text) (source : σ) :
    readSegment rule segment source =
      resolve body source >>= fun resolved => readTable resolved.1 >>= fun table =>
        .ok ({ multiplier, copies, body := resolved.1, table }, resolved.2) := by
  have hempty : segment.isEmpty = false := by simpa using hne
  simp only [readSegment, hempty, hsplit, hcopies, ok_bind, pure_eq_ok, Bool.false_eq_true,
    if_false]

theorem splitSegment_times (m : Multiplier) (body : Text) :
    splitSegment (m.text ++ 'x' :: body) = (some m.text, body) := by
  rw [splitSegment, cut_append_cons (m.not_mem_text rfl (by decide))]

theorem splitSegment_bare {body : Text} (h : 'x' ∉ body) : splitSegment body = (none, body) := by
  rw [splitSegment, cut_eq_none_iff.mpr h]

theorem HasBody.split {segment body : Text} (h : HasBody segment body) :
    segment ≠ [] ∧ ∃ multiplier copies, splitSegment segment = (multiplier, body) ∧
      readCopies multiplier = .ok copies := by
  cases h with
  | bare hne hx => exact ⟨hne, none, 1, splitSegment_bare hx, rfl⟩
  | times m body =>
      exact ⟨by simp, some m.text, m.copies, splitSegment_times m body, readCopies_multiplier m⟩

theorem Fault.read {rule segment : Text} {e : Error} (h : Fault rule segment e) (source : σ) :
    readSegment rule segment source = .error e := by
  cases h with
  | empty => rfl
  | @multiplier front rest hfront bad =>
      have hempty : (front ++ 'x' :: rest).isEmpty = false := by simp
      have hsplit : splitSegment (front ++ 'x' :: rest) = (some front, rest) := by
        rw [splitSegment, cut_append_cons hfront]
      simp only [readSegment, hempty, hsplit, readCopies_badMultiplier bad, error_bind,
        Bool.false_eq_true, if_false]
  | body hbody bad =>
      obtain ⟨hne, multiplier, copies, hsplit, hcopies⟩ := hbody.split
      rw [readSegment_eq hne hsplit hcopies]
      rcases bad.read source with hresolve | ⟨hresolve, htable⟩
      · rw [hresolve, error_bind]
      · rw [hresolve, ok_bind, htable, error_bind]

/-- Reading a phrase is reading its body; what stands in front of it is kept. -/
theorem Phrase.readSegment_text (p : Phrase) (rule : Text) (source : σ) :
    readSegment rule p.text source =
      resolve p.body.text source >>= fun resolved => readTable resolved.1 >>= fun table =>
        .ok ({
          multiplier := p.multiplier.map Multiplier.text
          copies := p.copies
          body := resolved.1
          table }, resolved.2) := by
  have hsplit : splitSegment p.text = (p.multiplier.map Multiplier.text, p.body.text) := by
    cases hm : p.multiplier with
    | none =>
        simp only [text, opening, hm, List.nil_append]
        exact splitSegment_bare (p.body.not_mem_text rfl (by decide) (by decide))
    | some m =>
        simp only [text, opening, hm, List.append_assoc, List.cons_append, List.nil_append]
        exact splitSegment_times m p.body.text
  have hcopies : readCopies (p.multiplier.map Multiplier.text) = .ok p.copies := by
    cases hm : p.multiplier with
    | none => simp only [copies, hm, Option.map_none, readCopies]
    | some m =>
        rw [copies, hm]
        exact readCopies_multiplier m
  exact readSegment_eq p.hasBody.split.1 hsplit hcopies rule source

theorem Phrase.read (p : Phrase) (rule : Text) (source : σ) :
    ∃ segment, readSegment rule p.text source = .ok (segment, p.body.left source) ∧
      segment.Follows p := by
  obtain ⟨written, table, hresolve, htable, hresolves, hgives⟩ := p.body.read source
  refine ⟨⟨p.multiplier.map Multiplier.text, p.copies, written, table⟩, ?_,
    ⟨rfl, rfl, hresolves, hgives⟩⟩
  rw [p.readSegment_text, hresolve, ok_bind, htable, ok_bind]

/-! ## Lists of segments -/

/-- What is left of a source when phrases have been read: their directives draw in turn, and nothing
else does. -/
def left (phrases : List Phrase) (source : σ) : σ :=
  (phrases.filterMap fun p => p.body.directive?).foldl (fun rest d => (d.bounds.draw rest).2) source

theorem left_cons (p : Phrase) (phrases : List Phrase) (source : σ) :
    left (p :: phrases) source = left phrases (p.body.left source) := by
  obtain ⟨multiplier, body⟩ := p
  cases body <;> rfl

theorem readSegments_phrases (rule : Text) (phrases : List Phrase) (source : σ) :
    ∃ segments, readSegments rule (phrases.map Phrase.text) source =
        .ok (segments, left phrases source) ∧ List.Forall₂ Segment.Follows segments phrases := by
  induction phrases generalizing source with
  | nil => exact ⟨[], rfl, .nil⟩
  | cons p rest ih =>
      obtain ⟨first, hfirst, hfollows⟩ := p.read rule source
      obtain ⟨others, hothers, hall⟩ := ih (p.body.left source)
      refine ⟨first :: others, ?_, .cons hfollows hall⟩
      simp only [List.map_cons, readSegments, hfirst, hothers, ok_bind, pure_eq_ok, left_cons]

/-- The first segment at fault decides, whatever was drawn for the phrases before it. -/
theorem readSegments_fault {rule bad : Text} {e : Error} (h : Fault rule bad e)
    (phrases : List Phrase) (after : List Text) (source : σ) :
    readSegments rule (phrases.map Phrase.text ++ bad :: after) source = .error e := by
  induction phrases generalizing source with
  | nil => simp only [List.map_nil, List.nil_append, readSegments, h.read source, error_bind]
  | cons p rest ih =>
      obtain ⟨first, hfirst, _⟩ := p.read rule source
      simp only [List.map_cons, List.cons_append, readSegments, hfirst, ih _, ok_bind,
        error_bind]

theorem phrases_or_fault (rule : Text) (parts : List Text) :
    (∃ phrases : List Phrase, parts = phrases.map Phrase.text) ∨
      ∃ (phrases : List Phrase) (bad : Text) (after : List Text) (e : Error),
        parts = phrases.map Phrase.text ++ bad :: after ∧ Fault rule bad e := by
  induction parts with
  | nil => exact .inl ⟨[], rfl⟩
  | cons t rest ih =>
      rcases phrase_or_fault rule t with ⟨p, rfl⟩ | ⟨e, he⟩
      · rcases ih with ⟨phrases, rfl⟩ | ⟨phrases, bad, after, e, rfl, he⟩
        · exact .inl ⟨p :: phrases, rfl⟩
        · exact .inr ⟨p :: phrases, bad, after, e, rfl, he⟩
      · exact .inr ⟨[], t, rest, e, rfl, he⟩

theorem splitOn_phrases {phrases : List Phrase} (h : phrases ≠ []) :
    (join [','] (phrases.map Phrase.text)).splitOn ',' = phrases.map Phrase.text := by
  apply List.splitOn_intercalate _ _ (by simpa using h)
  intro t ht
  obtain ⟨p, _, rfl⟩ := List.mem_map.mp ht
  exact p.comma_not_mem_text

theorem join_splitOn (t : Text) : join [','] (t.splitOn ',') = t := List.intercalate_splitOn ','

/-! ## Places in a rule -/

/-- What is below a sum falls into exactly one of its terms. -/
theorem existsUnique_term {terms : List Nat} {n : Nat} (h : n < terms.sum) :
    ∃! j, (terms.take j).sum ≤ n ∧ n < (terms.take (j + 1)).sum := by
  induction terms generalizing n with
  | nil => simp at h
  | cons k rest ih =>
      rw [List.sum_cons] at h
      by_cases hk : n < k
      · refine ⟨0, by simpa using hk, ?_⟩
        rintro (_ | j) ⟨hlow, _⟩
        · rfl
        · simp only [List.take_succ_cons, List.sum_cons] at hlow
          omega
      · obtain ⟨j, ⟨hlow, hhigh⟩, hunique⟩ := ih (n := n - k) (by omega)
        refine ⟨j + 1, ?_, ?_⟩
        · simp only [List.take_succ_cons, List.sum_cons]
          omega
        · rintro (_ | i) ⟨hlow', hhigh'⟩
          · simp only [List.take_succ_cons, List.take_zero, List.sum_cons, List.sum_nil] at hhigh'
            omega
          · simp only [List.take_succ_cons, List.sum_cons] at hlow' hhigh'
            rw [hunique i ⟨by omega, by omega⟩]

/-- The table that is picked is that of the segment which the place falls into. -/
theorem getElem?_pick {segments : List Segment} {n j : Nat}
    (hlow : ((segments.take j).map Segment.copies).sum ≤ n)
    (hhigh : n < ((segments.take (j + 1)).map Segment.copies).sum) :
    (segments.map Segment.table)[j]? = some (pick segments n) := by
  induction segments generalizing n j with
  | nil => simp at hhigh
  | cons s rest ih =>
      cases j with
      | zero =>
          have hn : n < s.copies := by simpa using hhigh
          simp [pick, hn]
      | succ j =>
          simp only [List.take_succ_cons, List.map_cons, List.sum_cons] at hlow hhigh
          have hn : ¬ n < s.copies := by omega
          rw [pick, if_neg hn, List.map_cons, List.getElem?_cons_succ]
          exact ih (by omega) (by omega)

theorem length_eq_sum (r : Rule) : r.length = (r.segments.map Segment.copies).sum := by
  rw [length]
  induction r.segments with
  | nil => rfl
  | cons s rest ih => rw [List.foldr_cons, ih, List.map_cons, List.sum_cons]

theorem Phrase.copies_pos (p : Phrase) : 0 < p.copies := by
  unfold copies
  split
  · rename_i m _
    exact m.positive
  · exact Nat.one_pos

theorem copies_eq_of_follows {segments : List Segment} {phrases : List Phrase}
    (h : List.Forall₂ Segment.Follows segments phrases) :
    segments.map Segment.copies = phrases.map Phrase.copies := by
  induction h with
  | nil => rfl
  | cons hfollows _ ih => rw [List.map_cons, List.map_cons, hfollows.copies, ih]

theorem performs_of_follows {r : Rule} {phrases : List Phrase} (hne : phrases ≠ [])
    (h : List.Forall₂ Segment.Follows r.segments phrases) : r.Performs phrases := by
  have hcopies := copies_eq_of_follows h
  have hlength : r.length = (phrases.map Phrase.copies).sum := by rw [length_eq_sum, hcopies]
  have hpositive : 0 < r.length := by
    obtain ⟨p, rest, rfl⟩ := List.exists_cons_of_ne_nil hne
    rw [hlength, List.map_cons, List.sum_cons]
    exact Nat.add_pos_left p.copies_pos _
  -- A place is a number of ticks after the start, whatever the sign of the tick.
  have hplace : ∀ tick : Int, ∃ n : Nat, tick % (r.length : Int) = n ∧ n < r.length := by
    intro tick
    have hlow := Int.emod_nonneg tick (by omega : (r.length : Int) ≠ 0)
    have hhigh := Int.emod_lt_of_pos tick (by omega : (0 : Int) < r.length)
    exact ⟨(tick % r.length).toNat, by omega, by omega⟩
  have hfalls : ∀ n j : Nat, FallsTo phrases n j ↔
      ((phrases.map Phrase.copies).take j).sum ≤ n ∧
        n < ((phrases.map Phrase.copies).take (j + 1)).sum := by
    intro n j
    rw [FallsTo, List.map_take, List.map_take, Int.ofNat_le, Int.ofNat_lt]
  constructor
  case length => rw [length_tables, hlength]
  case falls =>
    intro tick
    obtain ⟨n, hn, hlt⟩ := hplace tick
    rw [length_tables, hn]
    simp only [hfalls]
    exact existsUnique_term (hlength ▸ hlt)
  case inForce =>
    refine ⟨r.segments.map Segment.table, ?_, ?_⟩
    · rw [List.forall₂_map_right_iff]
      exact h.flip.imp fun p s hfollows => hfollows.table
    · intro tick j hj
      obtain ⟨n, hn, _⟩ := hplace tick
      rw [length_tables, hn, hfalls, ← hcopies, ← List.map_take, ← List.map_take] at hj
      rw [tableAt, hn, Int.toNat_natCast]
      exact getElem?_pick hj.1 hj.2

/-! ## Whole texts -/

/-- Phrases are read, and what is left of the source is told by their bodies. -/
theorem read_phrases {phrases : List Phrase} (hne : phrases ≠ []) (source : σ) :
    ∃ r, parse (join [','] (phrases.map Phrase.text)) source = .ok (r, left phrases source) ∧
      List.Forall₂ Segment.Follows r.segments phrases := by
  obtain ⟨segments, hread, hfollows⟩ :=
    readSegments_phrases (join [','] (phrases.map Phrase.text)) phrases source
  refine ⟨⟨segments⟩, ?_, hfollows⟩
  rw [parse, splitOn_phrases hne, hread, ok_bind]
  rfl

theorem parse_phrases {phrases : List Phrase} (hne : phrases ≠ []) (source : σ) :
    ∃ r source', parse (join [','] (phrases.map Phrase.text)) source = .ok (r, source') ∧
      List.Forall₂ Segment.Follows r.segments phrases := by
  obtain ⟨r, hread, hfollows⟩ := read_phrases hne source
  exact ⟨r, left phrases source, hread, hfollows⟩

theorem parse_fault {t bad : Text} {e : Error} {phrases : List Phrase} {after : List Text}
    (hsplit : t.splitOn ',' = phrases.map Phrase.text ++ bad :: after) (h : Fault t bad e)
    (source : σ) : parse t source = .error e := by
  rw [parse, hsplit, readSegments_fault h, error_bind]

/-- A text is made of phrases, or there is a first segment at fault in it. -/
theorem text_or_fault (t : Text) :
    (∃ phrases : List Phrase, phrases ≠ [] ∧ t = join [','] (phrases.map Phrase.text)) ∨
      ∃ (phrases : List Phrase) (bad : Text) (after : List Text) (e : Error),
        t.splitOn ',' = phrases.map Phrase.text ++ bad :: after ∧ Fault t bad e := by
  rcases phrases_or_fault t (t.splitOn ',') with ⟨phrases, hphrases⟩ | hfault
  · refine .inl ⟨phrases, ?_, ?_⟩
    · rintro rfl
      exact List.splitOn_ne_nil ',' t hphrases
    · rw [← hphrases, join_splitOn]
  · exact .inr hfault

/-- **The reader of rules accepts the grammar and nothing else.** From whatever source of random
words, a text is read exactly when it is made of phrases with commas between them, at least one.
Otherwise the fault of the first segment that is no phrase is reported. The rule that is read has as
many tables as the multipliers add up to; a tick, before zero or not, falls to exactly one phrase,
and the table in force is one that the phrase leads to. -/
theorem parse_exact (t : Text) (source : σ) :
    ((∃ r source', parse t source = .ok (r, source')) ↔
      ∃ phrases : List Phrase, phrases ≠ [] ∧ t = join [','] (phrases.map Phrase.text)) ∧
    (∀ e, parse t source = .error e ↔
      ∃ (phrases : List Phrase) (bad : Text) (after : List Text),
        t.splitOn ',' = phrases.map Phrase.text ++ bad :: after ∧ Fault t bad e) ∧
    ∀ r source' (phrases : List Phrase), parse t source = .ok (r, source') → phrases ≠ [] →
      t = join [','] (phrases.map Phrase.text) → r.Performs phrases := by
  refine ⟨⟨?_, ?_⟩, ?_, ?_⟩
  · rintro ⟨r, source', hok⟩
    rcases text_or_fault t with hphrases | ⟨phrases, bad, after, e, hsplit, hfault⟩
    · exact hphrases
    · cases hok.symm.trans (parse_fault hsplit hfault source)
  · rintro ⟨phrases, hne, rfl⟩
    obtain ⟨r, source', hok, _⟩ := parse_phrases hne source
    exact ⟨r, source', hok⟩
  · intro e
    constructor
    · intro herror
      rcases text_or_fault t with ⟨phrases, hne, rfl⟩ | ⟨phrases, bad, after, e', hsplit, hfault⟩
      · obtain ⟨r, source', hok, _⟩ := parse_phrases hne source
        cases hok.symm.trans herror
      · cases herror.symm.trans (parse_fault hsplit hfault source)
        exact ⟨phrases, bad, after, hsplit, hfault⟩
    · rintro ⟨phrases, bad, after, hsplit, hfault⟩
      exact parse_fault hsplit hfault source
  · rintro r source' phrases hok hne rfl
    obtain ⟨r', source₁, hok', hfollows⟩ := parse_phrases hne source
    cases hok.symm.trans hok'
    exact performs_of_follows hne hfollows

/-- Twice. -/
def twice : Multiplier := ⟨true, ['2'], ⟨by decide, by simp⟩, by decide, by decide⟩

/-- A directive for two ticks, and then two counts for live cells and none for dead ones. -/
def mixed : List Phrase :=
  [⟨some twice, .directive ⟨1, 3, 2, 5, by decide, by decide⟩⟩, ⟨none, .counts [8, 3, 8] []⟩]

theorem parse_exact_mixed :
    (∃ r source', parse "+2x13+25,838/".toList (Keystream.ofNumber 7) = .ok (r, source') ∧
      r.Performs mixed) ∧
    parse "838/,+2x3x/1,9/".toList (Keystream.ofNumber 7) =
      .error (.badDigit "3x/1".toList 'x') := by
  have hmixed : "+2x13+25,838/".toList = join [','] (mixed.map Phrase.text) := by decide
  have hne : mixed ≠ [] := List.cons_ne_nil _ _
  obtain ⟨r, source', hok⟩ :=
    (parse_exact "+2x13+25,838/".toList (Keystream.ofNumber 7)).1.mpr ⟨mixed, hne, hmixed⟩
  refine ⟨⟨r, source', hok, (parse_exact _ _).2.2 r source' mixed hok hne hmixed⟩, ?_⟩
  -- The letter x after the first one belongs to the counts of live cells, and is none.
  have hfault : Fault "838/,+2x3x/1,9/".toList "+2x3x/1".toList (.badDigit "3x/1".toList 'x') :=
    .body (.times twice "3x/1".toList)
      (.aliveDigit (by decide) (by decide) (by decide : _ = digits [3] ++ 'x' :: [] ++ '/' :: ['1'])
        (by decide))
  exact ((parse_exact _ _).2.1 _).mpr
    ⟨[⟨none, .counts [8, 3, 8] []⟩], _, ["9/".toList], by decide, hfault⟩

end TorusAutomaton.Rule

import TorusAutomaton.Proofs.Rule.Segments
import TorusAutomaton.Proofs.Simulation.Placement

/-!
# Which configurations are accepted

Creating a simulation makes eight checks, one after the other. Each of them looks at the
configuration alone: a directive in a rule draws from the source of random words, but every rule
that it can draw is read, so a rule is accepted or refused whatever the seed. A configuration is
therefore accepted or has a first fault, and never mind what is drawn for it.
-/

namespace TorusAutomaton

open TorusAutomaton Text Outcome

/-! ## Rules -/

namespace Rule

/-- A text that is read from every source of random words. -/
def Accepted (t : Text) : Prop :=
  ∀ (σ : Type) [Random.Source σ] (source : σ), ∃ r source', parse t source = .ok (r, source')

/-- A text that is refused with this error, whatever the source of random words. -/
def Refused (t : Text) (e : Error) : Prop :=
  ∀ (σ : Type) [Random.Source σ] (source : σ), parse t source = .error e

theorem accepted_or_refused (t : Text) : Accepted t ∨ ∃ e, Refused t e := by
  rcases text_or_fault t with ⟨phrases, hne, rfl⟩ | ⟨phrases, bad, after, e, hsplit, hfault⟩
  · left
    intro σ _ source
    obtain ⟨r, source', hparse, _⟩ := parse_phrases hne source
    exact ⟨r, source', hparse⟩
  · right
    exact ⟨e, fun σ _ source => parse_fault hsplit hfault source⟩

theorem accepted_iff {t : Text} : Accepted t ↔ ∀ e, ¬ Refused t e := by
  constructor
  · intro haccepted e hrefused
    obtain ⟨r, source', hparse⟩ := haccepted _ (Random.Keystream.ofSeed [])
    cases hparse.symm.trans (hrefused _ (Random.Keystream.ofSeed []))
  · intro h
    rcases accepted_or_refused t with haccepted | ⟨e, hrefused⟩
    · exact haccepted
    · exact absurd hrefused (h e)

end Rule

namespace Simulation

open Journal

/-! ## Checks -/

/-- The checks that are made of a configuration. -/
inductive Check
  | fill
  | drawEvery
  | drawRange
  | lastTick
  | rule
  | postRule
  | board
  | selection
  deriving DecidableEq

/-- The order in which the checks are made. -/
def Check.all : List Check :=
  [.fill, .drawEvery, .drawRange, .lastTick, .rule, .postRule, .board, .selection]

def Check.place (k : Check) : Nat := Check.all.idxOf k

/-- What a check demands. The second rule matters when it has ticks to run. -/
def Config.Meets (c : Config) : Check → Prop
  | .fill => c.fill.isNaN = false ∧ 0 ≤ c.fill ∧ c.fill ≤ 1
  | .drawEvery => 1 ≤ c.drawEvery
  | .drawRange => c.drawEvery ≤ 2 ^ 63 - 1
  | .lastTick => ∀ last ∈ c.lastTick, last < 2 ^ 63
  | .rule => Rule.Accepted c.rule
  | .postRule => ∀ t ∈ c.postRule, 0 < c.postTicks → Rule.Accepted t
  | .board => ∀ t ∈ c.board, ∃ state, Board.parse t = .ok state
  | .selection => ∀ t ∈ c.selection, ∃ ticks, TickSet.parse t c.lastTick = .ok ticks

/-- What is reported of a check that fails. -/
inductive Config.Fails (c : Config) : Check → Error → Prop
  | fill (outside : ¬ (0 ≤ c.fill ∧ c.fill ≤ 1)) : Fails c .fill (.fill c.fill)
  | drawEvery (zero : c.drawEvery = 0) : Fails c .drawEvery .drawEvery
  | drawRange (large : 2 ^ 63 ≤ c.drawEvery) : Fails c .drawRange (.tickOutOfRange c.drawEvery)
  | lastTick {last : Nat} (given : c.lastTick = some last) (large : 2 ^ 63 ≤ last) :
      Fails c .lastTick (.tickOutOfRange last)
  | rule {cause : Rule.Error} (refused : Rule.Refused c.rule cause) : Fails c .rule (.rule cause)
  | postRule {t : Text} {cause : Rule.Error} (given : c.postRule = some t)
      (needed : 0 < c.postTicks) (refused : Rule.Refused t cause) :
      Fails c .postRule (.postRule cause)
  | board {t : Text} {cause : Board.Error} (given : c.board = some t)
      (refused : Board.parse t = .error cause) : Fails c .board (.state cause)
  | selection {t : Text} {cause : TickSet.Error} (given : c.selection = some t)
      (refused : TickSet.parse t c.lastTick = .error cause) : Fails c .selection (.ticks cause)

/-- This is reported of a check that fails, and all checks before it are met. -/
def Config.FirstFault (c : Config) (e : Error) : Prop :=
  ∃ k, c.Fails k e ∧ ∀ j : Check, j.place < k.place → c.Meets j

variable {c : Config} {fresh : Text}

/-- Nothing compares with what is not a number. -/
theorem isNaN_of_nonneg {x : Float} (h : 0 ≤ x) : x.isNaN = false := by
  have hle : Float.le 0 x = true := h
  have hle : (0 : Float).toModel.unpack.le x.toModel.unpack = true :=
    of_decide_eq_true (p := (0 : Float).toModel ≤ x.toModel) hle
  show x.toModel.unpack.isNaN = false
  cases hx : x.toModel.unpack with
  | notANumber =>
      rw [hx] at hle
      cases hle
  | infinity s => rfl
  | zero s => rfl
  | finite s => rfl

/-- A check is met or something is reported of it, and not both. -/
theorem meets_iff {k : Check} : c.Meets k ↔ ∀ e, ¬ c.Fails k e := by
  constructor
  · intro h e hfails
    cases hfails with
    | fill outside => exact outside h.2
    | drawEvery zero => exact Nat.ne_of_gt h zero
    | drawRange large => exact Nat.not_le.mpr (Nat.lt_of_le_pred (by decide) h) large
    | lastTick given large => exact Nat.not_le.mpr (h _ given) large
    | rule refused => exact Rule.accepted_iff.mp h _ refused
    | postRule given needed refused => exact Rule.accepted_iff.mp (h _ given needed) _ refused
    | board given refused => exact exists_ok_iff.mp (h _ given) _ refused
    | selection given refused => exact exists_ok_iff.mp (h _ given) _ refused
  · intro h
    cases k with
    | fill =>
        have hfill : 0 ≤ c.fill ∧ c.fill ≤ 1 :=
          Decidable.byContradiction fun outside => h _ (.fill outside)
        exact ⟨isNaN_of_nonneg hfill.1, hfill⟩
    | drawEvery => exact Nat.pos_of_ne_zero fun zero => h _ (.drawEvery zero)
    | drawRange => exact Nat.le_pred_of_lt (Nat.not_le.mp fun large => h _ (.drawRange large))
    | lastTick => exact fun last given => Nat.not_le.mp fun large => h _ (.lastTick given large)
    | rule => exact Rule.accepted_iff.mpr fun cause refused => h _ (.rule refused)
    | postRule =>
        exact fun t given needed =>
          Rule.accepted_iff.mpr fun cause refused => h _ (.postRule given needed refused)
    | board =>
        exact fun t given => exists_ok_iff.mpr fun cause refused => h _ (.board given refused)
    | selection =>
        exact fun t given => exists_ok_iff.mpr fun cause refused => h _ (.selection given refused)

/-- All checks are met, or there is a first one that is not. -/
theorem meets_or_first_fault (c : Config) : (∀ k, c.Meets k) ∨ ∃ e, c.FirstFault e := by
  by_cases h : ∀ k, c.Meets k
  · exact .inl h
  · right
    obtain ⟨k, hk, hfirst⟩ := (measure Check.place).wf.has_min {k | ¬ c.Meets k} (not_forall.mp h)
    obtain ⟨e, hfails⟩ := not_forall_not.mp fun hnone => hk (meets_iff.mpr hnone)
    exact ⟨e, k, hfails, fun j hj => Classical.byContradiction fun hmeets => hfirst j hmeets hj⟩

/-! ## Steps of the creation -/

/-- Creation without its journal. -/
theorem create_eq (c : Config) (fresh : Text) :
    create c fresh = c.checkNumbers >>= fun _ =>
      (Rule.parse c.rule (Random.Keystream.ofSeed (c.chooseSeed fresh).1)).mapError Error.rule >>=
        fun read => c.readPostRule read.2 >>= fun post =>
          (c.firstBoard post.2).outcome >>= fun board =>
            c.readSelection.outcome >>= fun selection =>
              .ok (c.assemble fresh read.1 post.1 board selection) := by
  simp only [create, build, Kept.outcome_bind, Kept.outcome_lift, Kept.outcome_note,
    Kept.outcome_pure]
  rfl

theorem checkNumbers_of_meets (h : ∀ j : Check, j.place < Check.rule.place → c.Meets j) :
    c.checkNumbers = .ok () := by
  have hevery : 1 ≤ c.drawEvery := h .drawEvery (by decide)
  have hrange : c.drawEvery ≤ 2 ^ 63 - 1 := h .drawRange (by decide)
  have hlast : ∀ last ∈ c.lastTick, last < 2 ^ 63 := h .lastTick (by decide)
  refine checkNumbers_eq_ok_iff.mpr ⟨(h .fill (by decide)).2, Nat.ne_of_gt hevery, hrange, ?_⟩
  exact fun last given => Nat.le_pred_of_lt (hlast last given)

/-- The checks before the first text are those of the numbers. -/
theorem checkNumbers_of_fails {k : Check} {e : Error} (hfails : c.Fails k e)
    (hk : k.place < Check.rule.place) (h : ∀ j : Check, j.place < k.place → c.Meets j) :
    c.checkNumbers = .error e := by
  have hfill : c.Meets .fill → ¬ (!(decide (0 ≤ c.fill) && decide (c.fill ≤ 1))) = true := by
    intro hmeets
    simpa using hmeets.2
  have hevery : c.Meets .drawEvery → ¬ c.drawEvery = 0 := Nat.ne_of_gt
  have hrange : c.Meets .drawRange → ¬ c.drawEvery > Numeral.maxI64 := Nat.not_lt.mpr
  simp only [Config.checkNumbers, throw_eq_error, error_bind, pure_eq_ok]
  cases hfails with
  | fill outside => rw [if_pos (by simpa [or_iff_not_imp_left] using outside)]
  | drawEvery zero => rw [if_neg (hfill (h _ (by decide))), if_pos zero]
  | drawRange large =>
      have hlarge : c.drawEvery > Numeral.maxI64 := large
      rw [if_neg (hfill (h _ (by decide))), if_neg (hevery (h _ (by decide))), if_pos hlarge]
  | @lastTick last given large =>
      have hlarge : last > Numeral.maxI64 := large
      rw [if_neg (hfill (h _ (by decide))), if_neg (hevery (h _ (by decide))),
        if_neg (hrange (h _ (by decide))), given]
      exact if_pos hlarge
  | rule => exact absurd hk (by decide)
  | postRule => exact absurd hk (by decide)
  | board => exact absurd hk (by decide)
  | selection => exact absurd hk (by decide)

variable {σ : Type} [Random.Source σ]

theorem exists_readPostRule (h : c.Meets .postRule) (source : σ) :
    ∃ post, c.readPostRule source = .ok post := by
  unfold Config.readPostRule
  cases hgiven : c.postRule with
  | none => exact ⟨_, rfl⟩
  | some t =>
      by_cases hneeded : 0 < c.postTicks
      · obtain ⟨rule, source', hrule⟩ := h t hgiven hneeded σ source
        exact ⟨(some rule, source'), by simp only [gt_iff_lt, if_pos hneeded, hrule]⟩
      · exact ⟨(none, source), by simp only [gt_iff_lt, if_neg hneeded]⟩

theorem readPostRule_of_refused {t : Text} {cause : Rule.Error} (given : c.postRule = some t)
    (needed : 0 < c.postTicks) (refused : Rule.Refused t cause) (source : σ) :
    c.readPostRule source = .error (.postRule cause) := by
  simp only [Config.readPostRule, given, gt_iff_lt, if_pos needed, refused _ source]

theorem exists_firstBoard (h : c.Meets .board) (source : σ) :
    ∃ board, (c.firstBoard source).outcome = .ok board := by
  unfold Config.firstBoard
  cases hgiven : c.board with
  | some t =>
      obtain ⟨state, hstate⟩ := h t hgiven
      obtain ⟨board, hboard, -⟩ := exists_placed c state
      refine ⟨board, ?_⟩
      simp only [Kept.outcome_bind, Kept.outcome_lift, hstate, mapError_ok, ok_bind, hboard]
  | none =>
      by_cases hrandom : c.randomFill = true
      · exact ⟨(Board.random c.width c.height c.fill source).1, by simp [hrandom]⟩
      · exact ⟨Board.dead c.width c.height, by simp [hrandom]⟩

theorem firstBoard_of_refused {t : Text} {cause : Board.Error} (given : c.board = some t)
    (refused : Board.parse t = .error cause) (source : σ) :
    (c.firstBoard source).outcome = .error (.state cause) := by
  simp only [Config.firstBoard, given, Kept.outcome_bind, Kept.outcome_lift, refused,
    mapError_error, error_bind]

theorem exists_readSelection (h : c.Meets .selection) :
    ∃ selection, c.readSelection.outcome = .ok selection := by
  unfold Config.readSelection
  cases hgiven : c.selection with
  | some t =>
      obtain ⟨ticks, hticks⟩ := h t hgiven
      exact ⟨some ticks, by simp [Kept.outcome_bind, hticks]⟩
  | none => exact ⟨none, rfl⟩

theorem readSelection_of_refused {t : Text} {cause : TickSet.Error} (given : c.selection = some t)
    (refused : TickSet.parse t c.lastTick = .error cause) :
    c.readSelection.outcome = .error (.ticks cause) := by
  simp only [Config.readSelection, given, Kept.outcome_bind, Kept.outcome_lift, refused,
    mapError_error, error_bind]

theorem create_of_meets (c : Config) (fresh : Text) (h : ∀ k, c.Meets k) :
    ∃ s, create c fresh = .ok s := by
  obtain ⟨rule, source, hrule⟩ :=
    h .rule _ (Random.Keystream.ofSeed (c.chooseSeed fresh).1)
  obtain ⟨⟨postRule, source'⟩, hpost⟩ := exists_readPostRule (h .postRule) source
  obtain ⟨board, hboard⟩ := exists_firstBoard (h .board) source'
  obtain ⟨selection, hselection⟩ := exists_readSelection (h .selection)
  exact ⟨_, create_eq_ok_iff.mpr ⟨checkNumbers_of_meets fun j _ => h j, rule, source, postRule,
    source', board, selection, hrule, hpost, hboard, hselection, rfl⟩⟩

/-- The steps before the first fault lead up to it, with whatever they draw. -/
theorem create_of_first_fault (fresh : Text) {e : Error} (h : c.FirstFault e) :
    create c fresh = .error e := by
  obtain ⟨k, hfails, hearlier⟩ := h
  by_cases hk : k.place < Check.rule.place
  · rw [create_eq, checkNumbers_of_fails hfails hk hearlier, error_bind]
  · have hnumbers : c.checkNumbers = .ok () :=
      checkNumbers_of_meets fun j hj => hearlier j (Nat.lt_of_lt_of_le hj (Nat.not_lt.mp hk))
    rw [create_eq, hnumbers, ok_bind]
    cases hfails with
    | fill => exact absurd (by decide) hk
    | drawEvery => exact absurd (by decide) hk
    | drawRange => exact absurd (by decide) hk
    | lastTick => exact absurd (by decide) hk
    | rule refused => rw [refused, mapError_error, error_bind]
    | postRule given needed refused =>
        obtain ⟨rule, source, hrule⟩ :=
          hearlier .rule (by decide) _ (Random.Keystream.ofSeed (c.chooseSeed fresh).1)
        rw [hrule, mapError_ok, ok_bind, readPostRule_of_refused given needed refused, error_bind]
    | board given refused =>
        obtain ⟨rule, source, hrule⟩ :=
          hearlier .rule (by decide) _ (Random.Keystream.ofSeed (c.chooseSeed fresh).1)
        obtain ⟨post, hpost⟩ := exists_readPostRule (hearlier .postRule (by decide)) source
        rw [hrule, mapError_ok, ok_bind, hpost, ok_bind, firstBoard_of_refused given refused,
          error_bind]
    | selection given refused =>
        obtain ⟨rule, source, hrule⟩ :=
          hearlier .rule (by decide) _ (Random.Keystream.ofSeed (c.chooseSeed fresh).1)
        obtain ⟨post, hpost⟩ := exists_readPostRule (hearlier .postRule (by decide)) source
        obtain ⟨board, hboard⟩ := exists_firstBoard (hearlier .board (by decide)) post.2
        rw [hrule, mapError_ok, ok_bind, hpost, ok_bind, hboard, ok_bind,
          readSelection_of_refused given refused, error_bind]

/-! ## What the outcome depends on -/

theorem create_eq_error_iff {e : Error} : create c fresh = .error e ↔ c.FirstFault e := by
  constructor
  · intro herror
    rcases meets_or_first_fault c with hmeets | ⟨e', hfault⟩
    · obtain ⟨s, hs⟩ := create_of_meets c fresh hmeets
      cases hs.symm.trans herror
    · cases (create_of_first_fault fresh hfault).symm.trans herror
      exact hfault
  · exact create_of_first_fault fresh

theorem exists_create_iff : (∃ s, create c fresh = .ok s) ↔ ∀ k, c.Meets k := by
  constructor
  · rintro ⟨s, hs⟩
    rcases meets_or_first_fault c with hmeets | ⟨e, hfault⟩
    · exact hmeets
    · cases hs.symm.trans (create_of_first_fault fresh hfault)
  · exact create_of_meets c fresh

/-- Two configurations with the same texts and the same bounds. Their fills may differ where both
are in range; of the sides, the seed, the first tick and the like nothing is said. -/
structure Config.DemandsSame (c c' : Config) : Prop where
  rule : c.rule = c'.rule
  postRule : c.postRule = c'.postRule
  postTicks : c.postTicks = c'.postTicks
  board : c.board = c'.board
  selection : c.selection = c'.selection
  lastTick : c.lastTick = c'.lastTick
  drawEvery : c.drawEvery = c'.drawEvery
  fill : c.fill = c'.fill ∨ (0 ≤ c.fill ∧ c.fill ≤ 1) ∧ 0 ≤ c'.fill ∧ c'.fill ≤ 1

theorem Config.DemandsSame.symm {c c' : Config} (h : c.DemandsSame c') : c'.DemandsSame c where
  rule := h.rule.symm
  postRule := h.postRule.symm
  postTicks := h.postTicks.symm
  board := h.board.symm
  selection := h.selection.symm
  lastTick := h.lastTick.symm
  drawEvery := h.drawEvery.symm
  fill := h.fill.imp Eq.symm And.symm

theorem Config.DemandsSame.fails {c c' : Config} (h : c.DemandsSame c') {k : Check} {e : Error}
    (hfails : c.Fails k e) : c'.Fails k e := by
  cases hfails with
  | fill outside =>
      rcases h.fill with heq | ⟨hinside, -⟩
      · rw [heq] at outside ⊢
        exact .fill outside
      · exact absurd hinside outside
  | drawEvery zero => exact .drawEvery (h.drawEvery ▸ zero)
  | drawRange large =>
      rw [h.drawEvery] at large ⊢
      exact .drawRange large
  | lastTick given large => exact .lastTick (h.lastTick ▸ given) large
  | rule refused => exact .rule (h.rule ▸ refused)
  | postRule given needed refused =>
      exact .postRule (h.postRule ▸ given) (h.postTicks ▸ needed) refused
  | board given refused => exact .board (h.board ▸ given) refused
  | selection given refused => exact .selection (h.selection ▸ given) (h.lastTick ▸ refused)

theorem Config.DemandsSame.meets {c c' : Config} (h : c.DemandsSame c') {k : Check}
    (hmeets : c.Meets k) : c'.Meets k :=
  meets_iff.mpr fun e hfails => meets_iff.mp hmeets e (h.symm.fails hfails)

theorem Config.DemandsSame.first_fault {c c' : Config} (h : c.DemandsSame c') {e : Error}
    (hfault : c.FirstFault e) : c'.FirstFault e := by
  obtain ⟨k, hfails, hearlier⟩ := hfault
  exact ⟨k, h.fails hfails, fun j hj => h.meets (hearlier j hj)⟩

/-- **A configuration is judged by its checks alone.** It is accepted when all of them are met, and
otherwise what is reported is said of the first that is not, whatever seed is chosen and whatever
the directives of the rules draw. So two configurations with the same texts and bounds are both
accepted or both refused, with the same error. -/
theorem create_judged_by_checks (c : Config) (fresh : Text) :
    ((∃ s, create c fresh = .ok s) ↔ ∀ k, c.Meets k) ∧
      (∀ e, create c fresh = .error e ↔ c.FirstFault e) ∧
      ∀ (c' : Config) (fresh' : Text), c.DemandsSame c' →
        ((∃ s, create c fresh = .ok s) ↔ ∃ s, create c' fresh' = .ok s) ∧
        ∀ e, create c fresh = .error e ↔ create c' fresh' = .error e := by
  refine ⟨exists_create_iff, fun e => create_eq_error_iff, ?_⟩
  intro c' fresh' h
  constructor
  · rw [exists_create_iff, exists_create_iff]
    exact ⟨fun hmeets k => h.meets (hmeets k), fun hmeets k => h.symm.meets (hmeets k)⟩
  · intro e
    rw [create_eq_error_iff, create_eq_error_iff]
    exact ⟨h.first_fault, h.symm.first_fault⟩

/-- A directive draws the first rule. The second one is no rule, but has no ticks to run. -/
def drawing : Config where
  width := 3
  height := 2
  rule := "2x13+25,23/3".toList
  seed := some "S".toList
  flickerMode := 0
  startTick := 0
  board := none
  randomFill := false
  fill := 0.5
  keepSize := false
  postRule := some "9/".toList
  postTicks := 0
  lastTick := some 10
  selection := some "0:-1:5".toList
  drawEvery := 1
  paused := false

/-- The same with a generated seed, random cells and another first tick. -/
def redrawn : Config :=
  { drawing with
    seed := none
    randomFill := true
    fill := 0.25
    startTick := -3
    flickerMode := 2
    paused := true }

/-- The second rule is to run now, and the board is at fault too. -/
def twiceAtFault (c : Config) : Config := { c with postTicks := 1, board := some "2".toList }

/-- What is reported of the two faults is said of the second rule. -/
theorem create_judged_by_checks_drawing :
    drawing.DemandsSame redrawn ∧ (∃ s, create drawing [] = .ok s) ∧
      (∃ s, create redrawn "fresh".toList = .ok s) ∧
      create (twiceAtFault drawing) [] = .error (.postRule (.badDigit "9/".toList '9')) ∧
      create (twiceAtFault redrawn) "fresh".toList =
        .error (.postRule (.badDigit "9/".toList '9')) := by
  have hfill : (0 ≤ drawing.fill ∧ drawing.fill ≤ 1) ∧ 0 ≤ redrawn.fill ∧ redrawn.fill ≤ 1 := by
    decide +kernel
  have hsame : drawing.DemandsSame redrawn := ⟨rfl, rfl, rfl, rfl, rfl, rfl, rfl, .inr hfill⟩
  have hsame' : (twiceAtFault drawing).DemandsSame (twiceAtFault redrawn) :=
    ⟨rfl, rfl, rfl, rfl, rfl, rfl, rfl, .inr hfill⟩
  have hcreated : (create drawing []).toOption.isSome = true := by decide +kernel
  obtain ⟨s, hs⟩ := Option.isSome_iff_exists.mp hcreated
  have hs : create drawing [] = .ok s := toOption_eq_some_iff.mp hs
  have hrefused : Rule.Refused "9/".toList (.badDigit "9/".toList '9') := by
    intro σ _ source
    have hsplit : "9/".toList.splitOn ',' =
        ([] : List Rule.Phrase).map Rule.Phrase.text ++ "9/".toList :: [] := by decide
    have hdigit : Rule.BodyFault "9/".toList (.badDigit "9/".toList '9') :=
      .aliveDigit (by decide) (by decide)
        (by decide : "9/".toList = Rule.digits [] ++ '9' :: [] ++ '/' :: []) (by decide)
    exact Rule.parse_fault hsplit (.body (.bare (by decide) (by decide)) hdigit) source
  have hmeets := (create_judged_by_checks drawing []).1.mp ⟨s, hs⟩
  have hfirst : (twiceAtFault drawing).FirstFault (.postRule (.badDigit "9/".toList '9')) := by
    refine ⟨.postRule, .postRule rfl (by decide) hrefused, ?_⟩
    intro j hj
    cases j with
    | fill => exact hmeets .fill
    | drawEvery => exact hmeets .drawEvery
    | drawRange => exact hmeets .drawRange
    | lastTick => exact hmeets .lastTick
    | rule => exact hmeets .rule
    | postRule => exact absurd hj (by decide)
    | board => exact absurd hj (by decide)
    | selection => exact absurd hj (by decide)
  have herror := ((create_judged_by_checks (twiceAtFault drawing) []).2.1 _).mpr hfirst
  exact ⟨hsame, ⟨s, hs⟩,
    ((create_judged_by_checks drawing []).2.2 redrawn "fresh".toList hsame).1.mp ⟨s, hs⟩, herror,
    (((create_judged_by_checks (twiceAtFault drawing) []).2.2 _ _ hsame').2 _).mp herror⟩

end Simulation

end TorusAutomaton

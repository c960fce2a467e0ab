import TorusAutomaton.Proofs.Session.Safety

/-!
# Which mode a drawn frame obeys

The answer about inversion is kept for as long as the tick lasts, but the flicker mode may change
meanwhile, and then the board is drawn again at once. So a frame that is drawn obeys the mode that
was in force when its tick was asked about, which is not always the mode that it is drawn in. The
history tells both: modes are noted when they change, and questions when they are asked.
-/

namespace TorusAutomaton.Session

open TorusAutomaton

/-! ## Modes and answers in a history -/

/-- The mode in force after these acts, the latest of which comes first. -/
def modeAfter (first : Flicker.Mode) : List Act → Flicker.Mode
  | [] => first
  | .noted (.modeChanged mode) :: _ => mode
  | _ :: earlier => modeAfter first earlier

/-- A frame is inverted as a mode demands, if the mode demands anything of this frame alone. -/
def Frame.Obeys (f : Frame) : Flicker.Mode → Prop
  | .off => f.inverted = false
  | .crowded => f.inverted = true ↔ f.sim.dead < f.sim.alive
  | .swing => True
  | .strobe => f.inverted = true ↔ f.sim.tick % 2 = 0

/-- The tick of a frame was asked about, and the frame obeys the mode that was in force then. -/
def Answered (first : Flicker.Mode) (f : Frame) (history : List Act) : Prop :=
  ∃ between old, history = between ++ .asked f.sim.tick f.inverted :: old ∧
    f.Obeys (modeAfter first old)

/-- Every frame of a history was drawn in the mode in force, and with the answer for its tick. -/
def Explained (first : Flicker.Mode) (history : List Act) : Prop :=
  ∀ f earlier, .drew f :: earlier <:+ history →
    f.sim.flicker.mode = modeAfter first earlier ∧ Answered first f earlier

variable {first : Flicker.Mode} {f : Frame} {history earlier : List Act} {act : Act}

/-- As long as no change is noted the mode stays in force. -/
theorem modeAfter_append {between : List Act} (h : ∀ mode, .noted (.modeChanged mode) ∉ between) :
    modeAfter first (between ++ earlier) = modeAfter first earlier := by
  induction between with
  | nil => rfl
  | cons act rest ih =>
      have hrest := ih fun mode hmode => h mode (List.mem_cons_of_mem _ hmode)
      cases act with
      | noted event =>
          cases event with
          | modeChanged mode => exact absurd List.mem_cons_self (h mode)
          | _ => exact hrest
      | _ => exact hrest

theorem Answered.add (h : Answered first f history) (act : Act) :
    Answered first f (act :: history) := by
  obtain ⟨between, old, rfl, hobeys⟩ := h
  exact ⟨act :: between, old, rfl, hobeys⟩

theorem explained_nil (first : Flicker.Mode) : Explained first [] := by
  intro f earlier hsuffix
  cases List.suffix_nil.mp hsuffix

/-- Only a frame that is drawn has to be explained. -/
theorem Explained.add (h : Explained first history)
    (hdrawn : ∀ f ∈ act.drawn?,
      f.sim.flicker.mode = modeAfter first history ∧ Answered first f history) :
    Explained first (act :: history) := by
  intro f earlier hsuffix
  rcases List.suffix_cons_iff.mp hsuffix with hsame | hold
  · cases hsame
    exact hdrawn f rfl
  · exact h f earlier hold

/-- The policy answers as its mode demands. -/
theorem obeys_inverted (s : Session) : (s.frame s.sim.inverted).Obeys s.sim.flicker.mode := by
  cases hmode : s.sim.flicker.mode with
  | off =>
      show s.sim.inverted = false
      simp only [Simulation.inverted, Flicker.inverts, hmode]
  | crowded =>
      show s.sim.inverted = true ↔ s.sim.dead < s.sim.alive
      rw [Simulation.inverted, Flicker.inverts_crowded hmode, decide_eq_true_eq]
  | swing => trivial
  | strobe =>
      show s.sim.inverted = true ↔ s.sim.tick % 2 = 0
      simp only [Simulation.inverted, Flicker.inverts, hmode, decide_eq_true_eq]

namespace TerminalView

variable {s : Session} {v v' : TerminalView} {key : Option Key} {due : Bool} {outcome : Outcome}

/-! ## One turn -/

/-- The history tells the mode in force, when the present tick was asked about if it was, and which
modes the frames obey that were drawn. -/
structure Told (first : Flicker.Mode) (v : TerminalView) : Prop where
  mode : v.session.sim.flicker.mode = modeAfter first v.session.history
  notAhead : ∀ t ∈ v.shown, t ≤ v.session.sim.tick
  present : v.shown = some v.session.sim.tick →
    Answered first (v.session.frame v.inverted) v.session.history
  frames : Explained first v.session.history

theorem told_start (s : Session) : Told s.sim.flicker.mode (start { s with history := [] }) where
  mode := rfl
  notAhead := by rintro t ⟨⟩
  present := by rintro ⟨⟩
  frames := explained_nil _

/-- An act that is neither a drawing nor a change of the mode is only one more act. -/
theorem Told.add (h : v.Told first) {act : Act}
    (hmode : modeAfter first (act :: v.session.history) = modeAfter first v.session.history)
    (hdrawn : act.drawn? = none) : Told first { v with session := v.session.add act } where
  mode := h.mode.trans hmode.symm
  notAhead := h.notAhead
  present := fun hshown => (h.present hshown).add act
  frames := h.frames.add (by simp [hdrawn])

theorem Told.advance (h : v.Told first) (redraw : Bool) :
    Told first { v with session := v.session.perform .advance, redraw } where
  mode := h.mode
  notAhead := fun t ht => Int.le_trans (h.notAhead t ht) (Int.le_add_of_nonneg_right (by decide))
  present := by
    intro hshown
    -- The new tick is ahead of all that were asked about.
    have hahead : v.session.sim.tick + 1 ≤ v.session.sim.tick := h.notAhead _ hshown
    omega
  frames := h.frames

theorem Told.step (h : v.Told first) :
    Told first { v with session := v.session.perform .step } := by
  show Told first { v with session := { v.session with sim := v.session.sim.step } }
  unfold Simulation.step
  split
  · exact h
  · exact { h.advance v.redraw with }

theorem Told.cycle (h : v.Told first) (redraw : Bool) :
    Told first { v with session := v.session.perform .cycleFlicker, redraw } where
  mode := rfl
  notAhead := h.notAhead
  present := fun hshown => (h.present hshown).add _
  frames := h.frames.add (by rintro f ⟨⟩)

theorem Told.keyed (h : v.Told first) (key : Option Key) : (v.keyed key).1.Told first := by
  cases key with
  | none => exact { h with }
  | some k =>
      show Told first { v with session := (v.session.press k).1, redraw := _ }
      unfold press
      split
      case h_5 => exact h.cycle _
      case h_6 =>
        split
        · exact h.advance _
        · exact { h with }
      all_goals exact { h with }

theorem Told.askOnce (h : v.Told first) : v.askOnce.Told first := by
  unfold TerminalView.askOnce
  split
  · exact h
  · constructor
    case mode => exact (Flicker.mode_record _ _ _).trans h.mode
    case notAhead =>
      rintro t ⟨⟩
      exact Int.le_refl _
    case present =>
      intro _
      exact ⟨[], v.session.history, rfl, h.mode ▸ obeys_inverted v.session⟩
    case frames => exact h.frames.add (by rintro f ⟨⟩)

theorem Told.draw (h : v.Told first) (hshown : v.shown = some v.session.sim.tick) :
    v.draw.Told first where
  mode := h.mode
  notAhead := h.notAhead
  present := fun _ => (h.present hshown).add _
  frames := by
    apply h.frames.add
    rintro f ⟨⟩
    exact ⟨h.mode, h.present hshown⟩

theorem Told.display (h : v.Told first) : v.display.Told first := by
  unfold TerminalView.display
  split
  · exact h.askOnce.draw (shown_askOnce v)
  · exact h.askOnce

theorem Told.save (h : v.Told first) : v.save.1.Told first := by
  have hsaved : Told first { v with session := (v.session.save v.inverted).1 } := by
    refine save_induction (P := fun session => Told first { v with session })
      (fun _ => { h with }) ?_ (fun _ hnoted => hnoted.add rfl rfl)
    rintro _ _ (rfl | rfl) hfiled
    · exact hfiled.add rfl rfl
    · exact hfiled.add rfl rfl
  unfold TerminalView.save
  split
  · rename_i hsave
    rw [hsave] at hsaved
    exact { hsaved with }
  · rename_i hsave
    rw [hsave] at hsaved
    exact hsaved

theorem Told.frameSection (h : v.Told first) : v.present.1.Told first := by
  rw [present_eq]
  split
  · split
    · exact h.display.save
    · exact h.display
  · exact h

theorem Told.of_turn (h : v.Told first) (hturn : v.turn key due = (v', outcome)) :
    v'.Told first := by
  have hkeyed := h.keyed key
  rcases turn_cases hturn with ⟨_, _, rfl, _⟩ | ⟨_, _, rfl, _⟩ | ⟨_, _, hproceed⟩
  · exact hkeyed
  · exact hkeyed
  · have hpresent := hkeyed.frameSection
    rcases proceed_cases hproceed with ⟨_, heq, _⟩ | ⟨heq, _, _⟩ | ⟨v₂, heq, _, _, _, rfl⟩ |
      ⟨v₂, heq, _, _, _, rfl⟩
    all_goals rw [heq] at hpresent
    · exact hpresent
    · exact hpresent
    · exact { hpresent with }
    · exact hpresent.step

/-! ## Whole runs -/

theorem Reaches.told (h : Reaches s v outcome) : v.Told s.sim.flicker.mode := by
  induction h with
  | start => exact told_start s
  | turn _ hturn ih => exact ih.of_turn hturn

/-- **A drawn frame obeys the mode that its tick was asked about in.** Whatever is typed and
whenever the time for a tick comes: when a frame was drawn, the mode in force was that of the last
change, or the first one without any; the tick of the frame had been asked about before; and the
frame is shown with that answer, which is in keeping with the mode in force when it was given: not
inverted in mode `off`, inverted exactly on even ticks in mode `strobe`, and exactly with more live
than dead cells in mode `crowded`. So it obeys the mode that it was drawn in unless the mode was
changed between the question and the drawing. -/
theorem drawn_as_answered (s : Session) :
    (∀ keys, Reaches s ((start { s with history := [] }).run keys).1
      ((start { s with history := [] }).run keys).2) ∧
    ∀ v outcome, Reaches s v outcome →
      ∀ f earlier, .drew f :: earlier <:+ v.session.history →
        f.sim.flicker.mode = modeAfter s.sim.flicker.mode earlier ∧
        ∃ between old, earlier = between ++ .asked f.sim.tick f.inverted :: old ∧
          f.Obeys (modeAfter s.sim.flicker.mode old) ∧
          ((∀ mode, .noted (.modeChanged mode) ∉ between) → f.Obeys f.sim.flicker.mode) := by
  refine ⟨reaches_run s, ?_⟩
  intro v outcome h f earlier hsuffix
  obtain ⟨hmode, between, old, rfl, hobeys⟩ := h.told.frames f earlier hsuffix
  refine ⟨hmode, between, old, rfl, hobeys, ?_⟩
  intro hunchanged
  rw [hmode, modeAfter_append hunchanged]
  exact hobeys

/-- A session in the mode of even ticks, one tick before its last one. -/
def flashing : Except StartError Session :=
  (Session.start
    { dimensions := "2x2".toList
      rules := "/".toList
      seed := "S".toList
      board := some "10.00".toList
      flickerMode := 3
      maxTicks := some 1 }
    ⟨80, 24⟩ "frames".toList { root := .empty, present := [] } []).outcome

/-- The first key has no effect but that it comes before the first tick is drawn. -/
def lateCycle : List Key := [.char 'x', .char 'f']

theorem drawn_as_answered_flashing :
    ∃ (s : Session) (f : Frame) (earlier between old : List Act), flashing = .ok s ∧
      .drew f :: earlier <:+ ((start { s with history := [] }).run lateCycle).1.session.history ∧
      f.sim.tick = 0 ∧ f.sim.flicker.mode = .off ∧
      earlier = between ++ .asked f.sim.tick f.inverted :: old ∧
      f.Obeys (modeAfter .strobe old) := by
  have hfacts : flashing.toOption.any (fun s => s.sim.flicker.mode == .strobe &&
      ((((start { s with history := [] }).run lateCycle).1.session.history.dropWhile fun act =>
        !act.drawn?.any fun f => f.sim.tick == 0).head?.bind Act.drawn?).any fun f =>
          decide (f.sim.tick = 0 ∧ f.sim.flicker.mode = .off)) = true := by
    decide +kernel
  obtain ⟨s, hs, hfacts⟩ := (Option.any_eq_true _ _).mp hfacts
  obtain ⟨hstrobe, hfacts⟩ := Bool.and_eq_true_iff.mp hfacts
  obtain ⟨f, hf, hfacts⟩ := (Option.any_eq_true _ _).mp hfacts
  obtain ⟨htick, hmode⟩ := of_decide_eq_true hfacts
  obtain ⟨act, hact, hdrawn⟩ := Option.bind_eq_some_iff.mp hf
  obtain ⟨earlier, hlatest⟩ := List.head?_eq_some_iff.mp hact
  have hdrew : act = .drew f := by
    cases act with
    | drew g => exact congrArg Act.drew (Option.some.inj hdrawn)
    | noted _ | asked _ _ | saved _ | spoiled _ => cases hdrawn
  have hsuffix := List.dropWhile_suffix (fun act : Act => !act.drawn?.any fun f => f.sim.tick == 0)
    (l := ((start { s with history := [] }).run lateCycle).1.session.history)
  rw [hlatest, hdrew] at hsuffix
  obtain ⟨hruns, hframes⟩ := drawn_as_answered s
  obtain ⟨_, between, old, hsplit, hobeys, _⟩ :=
    hframes _ _ (hruns lateCycle) f earlier hsuffix
  rw [beq_iff_eq.mp hstrobe] at hobeys
  exact ⟨s, f, earlier, between, old, Outcome.toOption_eq_some_iff.mp hs, hsuffix, htick, hmode,
    hsplit, hobeys⟩

/-- Right after the mode is switched off the board is drawn again, and it is still inverted. -/
theorem inverted_while_off :
    ∃ s, flashing = .ok s ∧ ∃ f ∈ (s.terminal lateCycle).1.acts.filterMap Act.drawn?,
      f.sim.flicker.mode = .off ∧ f.inverted = true ∧ ¬ f.Obeys f.sim.flicker.mode := by
  have hfacts : flashing.toOption.any (fun s =>
      ((s.terminal lateCycle).1.acts.filterMap Act.drawn?).any fun f =>
        decide (f.sim.flicker.mode = .off ∧ f.inverted = true)) = true := by
    decide +kernel
  obtain ⟨s, hs, hfacts⟩ := (Option.any_eq_true _ _).mp hfacts
  obtain ⟨f, hf, hfacts⟩ := List.any_eq_true.mp hfacts
  obtain ⟨hmode, hinverted⟩ := of_decide_eq_true hfacts
  refine ⟨s, Outcome.toOption_eq_some_iff.mp hs, f, hf, hmode, hinverted, ?_⟩
  rw [hmode]
  exact fun hobeys => by cases hinverted.symm.trans hobeys

end TerminalView

end TorusAutomaton.Session

import TorusAutomaton.Session.Terminal
import TorusAutomaton.Proofs.Flicker
import TorusAutomaton.Proofs.Session.Record
import TorusAutomaton.Proofs.Session.Start

/-!
# Turns

What a turn on a terminal can do, part by part: the key, the frame section, the step at its end. A
key moves the simulation only by a single step while it is paused. The frame section moves nothing
but the flicker, and adds acts to the history in keeping with what is remembered of it.
-/

namespace TorusAutomaton.Session

open TorusAutomaton

/-! ## Keys and steps -/

/-- Two sessions that differ only in what a key or a step may change, the second being the later
one. -/
structure Moves (s s' : Session) : Prop where
  args : s'.args = s.args
  tiles : s'.tiles = s.tiles
  directory : s'.directory = s.directory
  files : s'.files = s.files
  selection : s'.sim.selection = s.sim.selection
  lastTick : s'.sim.lastTick = s.sim.lastTick
  tick : s.sim.tick ≤ s'.sim.tick
  history : s'.history = s.history ∨ ∃ event, s'.history = .noted event :: s.history

theorem Moves.refl (s : Session) : s.Moves s where
  args := rfl
  tiles := rfl
  directory := rfl
  files := rfl
  selection := rfl
  lastTick := rfl
  tick := Int.le_refl _
  history := .inl rfl

theorem moves_press (s : Session) (key : Key) : s.Moves (s.press key).1 := by
  unfold press
  split
  case h_4 | h_1 | h_2 | h_3 | h_7 | h_8 => exact { Moves.refl s with }
  case h_5 => exact { Moves.refl s with history := .inr ⟨_, rfl⟩ }
  case h_6 =>
    split
    · exact { Moves.refl s with tick := Int.le_add_of_nonneg_right (by decide) }
    · exact Moves.refl s

theorem moves_step (s : Session) : s.Moves (s.perform .step) := by
  have hpaused : s.sim.step = s.sim ∨ s.sim.step = s.sim.advance := by
    unfold Simulation.step
    split
    · exact .inl rfl
    · exact .inr rfl
  show s.Moves { s with sim := s.sim.step }
  rcases hpaused with hsame | hnext
  · rw [hsame]
    exact Moves.refl s
  · rw [hnext]
    exact { Moves.refl s with tick := Int.le_add_of_nonneg_right (by decide) }

/-- Only the key for a single step moves the tick, only while the simulation is paused, and the
board is drawn for it. -/
theorem tick_press (s : Session) (key : Key) :
    (s.press key).1.sim.tick = s.sim.tick ∨
      key = .char 's' ∧ s.sim.paused = true ∧ (s.press key).1.sim.tick = s.sim.tick + 1 ∧
        (s.press key).2 = .redraw := by
  unfold press
  split
  case h_6 =>
    split
    · exact .inr ⟨rfl, ‹_›, rfl, rfl⟩
    · exact .inl rfl
  all_goals exact .inl rfl

/-! ## Saving -/

/-- What saving comes to in a session that saves frames. -/
theorem save_eq {s : Session} {directory : Text} (h : s.directory = some directory)
    (inverted : Bool) :
    s.save inverted =
      match saveImage s.files ((s.frame inverted).path s.args directory)
        ((s.frame inverted).image s.args s.caption) with
      | (files, .saved) =>
        ((({ s with files } : Session).add (.saved (s.frame inverted))).add
          (.noted (.frameWritten ((s.frame inverted).path s.args directory))), none)
      | (files, .spoiled format) =>
        (({ s with files } : Session).add (.spoiled (s.frame inverted)),
          some (.frame ((s.frame inverted).path s.args directory) (.unsupported format)))
      | (files, .noDirectory above fault) => ({ s with files }, some (.noDirectory above fault))
      | (files, .failed fault) =>
        ({ s with files }, some (.frame ((s.frame inverted).path s.args directory) fault)) := by
  obtain ⟨_, _, _, _, _, _, _⟩ := s
  cases h
  simp only [save]
  generalize saveImage _ _ _ = result
  obtain ⟨_, saving⟩ := result
  cases saving <;> rfl

/-- Saving touches the files, may file the present frame, and may note that. What neither changes
holds after it. -/
theorem save_induction {P : Session → Prop} {s : Session} {inverted : Bool}
    (files : ∀ files, P { s with files })
    (filed : ∀ {s' : Session} {act : Act},
      act = .saved (s.frame inverted) ∨ act = .spoiled (s.frame inverted) → P s' → P (s'.add act))
    (noted : ∀ {s' : Session} (path : Text), P s' → P (s'.add (.noted (.frameWritten path)))) :
    P (s.save inverted).1 := by
  rcases s.directory.eq_none_or_eq_some with hnone | ⟨directory, hdirectory⟩
  · have hsame : s.save inverted = (s, none) := by simp only [save, hnone]
    rw [hsame]
    exact files s.files
  · rw [save_eq hdirectory]
    split
    · exact noted _ (filed (.inl rfl) (files _))
    · exact filed (.inr rfl) (files _)
    · exact files _
    · exact files _

/-- Saving changes nothing but the files and the history. -/
theorem save_keeps (s : Session) (inverted : Bool) :
    ∃ files history, (s.save inverted).1 = { s with files, history } := by
  have hadd : ∀ {s' : Session} (act : Act), (∃ files history, s' = { s with files, history }) →
      ∃ files history, s'.add act = { s with files, history } := by
    rintro _ act ⟨files, history, rfl⟩
    exact ⟨files, act :: history, rfl⟩
  exact save_induction (P := fun s' => ∃ files history, s' = { s with files, history })
    (fun files => ⟨files, s.history, rfl⟩) (fun _ h => hadd _ h) (fun _ h => hadd _ h)

/-- Saving the present frame leaves a file that is noted, an empty file, or none at all. -/
theorem save_cases {s s' : Session} {inverted : Bool} {failure : Option Failure}
    (hdirectory : s.directory.isSome = true) (h : s.save inverted = (s', failure)) :
    (∃ files path, s' = { s with
        files, history := .noted (.frameWritten path) :: .saved (s.frame inverted) :: s.history } ∧
      failure = none) ∨
    (∃ files fault, s' = { s with files, history := .spoiled (s.frame inverted) :: s.history } ∧
      failure = some fault) ∨
    (∃ files fault, s' = { s with files } ∧ failure = some fault) := by
  obtain ⟨directory, hdirectory⟩ := Option.isSome_iff_exists.mp hdirectory
  rw [save_eq hdirectory] at h
  split at h
  · cases h
    exact .inl ⟨_, _, rfl, rfl⟩
  · cases h
    exact .inr (.inl ⟨_, _, rfl, rfl⟩)
  · cases h
    exact .inr (.inr ⟨_, _, rfl, rfl⟩)
  · cases h
    exact .inr (.inr ⟨_, _, rfl, rfl⟩)

namespace TerminalView

/-- The view after the key of a turn, and what the key asks for. -/
def keyed (v : TerminalView) (key : Option Key) : TerminalView × Control :=
  let (session, control) :=
    match key with
    | some k => v.session.press k
    | none => (v.session, .goOn)
  ({ v with session, redraw := v.redraw || control = .redraw }, control)

theorem turn_eq (v : TerminalView) (key : Option Key) (due : Bool) :
    v.turn key due =
      match (v.keyed key).2 with
      | .stop exit => ((v.keyed key).1, .stopped exit)
      | _ =>
        if (v.keyed key).1.redraw || due then (v.keyed key).1.proceed
        else ((v.keyed key).1, .running) :=
  rfl

/-- What is remembered agrees with the history. -/
structure Sound (v : TerminalView) : Prop where
  remembers : Remembers v.shown v.inverted v.saved v.session.sim.tick v.session.history
  coherent : v.session.Coherent

variable {v v' : TerminalView}

theorem sound_start {s : Session} (h : s.Coherent) :
    (start { s with history := [] }).Sound where
  remembers := Remembers.start _
  coherent := ⟨h.directory, h.lastTick⟩

theorem Sound.of_moves (h : v.Sound) {session : Session} (hmoves : v.session.Moves session)
    (redraw : Bool) : ({ v with session, redraw } : TerminalView).Sound where
  remembers := by
    have hlater := h.remembers.later hmoves.tick
    rcases hmoves.history with hsame | ⟨event, hnoted⟩
    · exact hsame ▸ hlater
    · exact hnoted ▸ hlater.note event
  coherent := by
    constructor
    · rw [hmoves.selection, hmoves.directory]
      exact h.coherent.directory
    · rw [hmoves.lastTick, hmoves.args]
      exact h.coherent.lastTick

theorem Sound.keyed (h : v.Sound) (key : Option Key) : (v.keyed key).1.Sound := by
  cases key with
  | none => exact h.of_moves (Moves.refl _) _
  | some k => exact h.of_moves (moves_press _ k) _

/-! ## The frame section -/

/-- Two views that differ only in what the frame section may change. -/
structure Presents (v v' : TerminalView) : Prop where
  redraw : v'.redraw = v.redraw
  args : v'.session.args = v.session.args
  tiles : v'.session.tiles = v.session.tiles
  directory : v'.session.directory = v.session.directory
  mode : v'.session.sim.flicker.mode = v.session.sim.flicker.mode
  sim : ∃ flicker, v'.session.sim = { v.session.sim with flicker }

theorem Presents.refl (v : TerminalView) : v.Presents v :=
  ⟨rfl, rfl, rfl, rfl, rfl, v.session.sim.flicker, rfl⟩

theorem Presents.trans {v v' v'' : TerminalView} (h : v.Presents v') (h' : v'.Presents v'') :
    v.Presents v'' where
  redraw := h'.redraw.trans h.redraw
  args := h'.args.trans h.args
  tiles := h'.tiles.trans h.tiles
  directory := h'.directory.trans h.directory
  mode := h'.mode.trans h.mode
  sim := by
    obtain ⟨_, hsim⟩ := h.sim
    obtain ⟨flicker, hsim'⟩ := h'.sim
    exact ⟨flicker, by rw [hsim', hsim]⟩

theorem presents_askOnce (v : TerminalView) : v.Presents v.askOnce := by
  unfold askOnce
  split
  · exact Presents.refl v
  · exact ⟨rfl, rfl, rfl, rfl, Flicker.mode_record _ _ _, _, rfl⟩

theorem shown_askOnce (v : TerminalView) : v.askOnce.shown = some v.askOnce.session.sim.tick := by
  unfold askOnce
  split
  · assumption
  · rfl

theorem saved_askOnce (v : TerminalView) : v.askOnce.saved = v.saved := by
  unfold askOnce
  split <;> rfl

theorem Sound.askOnce (h : v.Sound) : v.askOnce.Sound := by
  unfold TerminalView.askOnce
  split
  · exact h
  · exact ⟨h.remembers.ask ‹_› _, ⟨h.coherent.directory, h.coherent.lastTick⟩⟩

theorem Sound.draw (h : v.Sound) (hshown : v.shown = some v.session.sim.tick) : v.draw.Sound where
  remembers := h.remembers.draw hshown rfl rfl
  coherent := ⟨h.coherent.directory, h.coherent.lastTick⟩

/-- The view once it has been asked about the present frame and has drawn it if that is due. -/
def display (v : TerminalView) : TerminalView := if v.drawDue then v.askOnce.draw else v.askOnce

theorem present_eq (v : TerminalView) :
    v.present =
      if v.drawDue || v.saveDue then
        if v.saveDue then v.display.save else (v.display, none)
      else (v, none) :=
  rfl

theorem presents_display (v : TerminalView) : v.Presents v.display := by
  unfold display
  split
  · exact (presents_askOnce v).trans ⟨rfl, rfl, rfl, rfl, rfl, _, rfl⟩
  · exact presents_askOnce v

theorem shown_display (v : TerminalView) :
    v.display.shown = some v.display.session.sim.tick := by
  unfold display
  split <;> exact shown_askOnce v

theorem saved_display (v : TerminalView) : v.display.saved = v.saved := by
  unfold display
  split <;> exact saved_askOnce v

theorem Sound.display (h : v.Sound) : v.display.Sound := by
  unfold TerminalView.display
  split
  · exact h.askOnce.draw (shown_askOnce v)
  · exact h.askOnce

theorem Presents.tick (h : v.Presents v') : v'.session.sim.tick = v.session.sim.tick := by
  obtain ⟨_, hsim⟩ := h.sim
  rw [hsim]

theorem Presents.paused (h : v.Presents v') : v'.session.sim.paused = v.session.sim.paused := by
  obtain ⟨_, hsim⟩ := h.sim
  rw [hsim]

theorem saved_ne_of_saveDue (h : v.saveDue = true) : v.saved ≠ some v.session.sim.tick := by
  simp only [saveDue, Bool.and_eq_true, bne_iff_ne] at h
  exact h.2

theorem shouldSave_of_saveDue (h : v.saveDue = true) : v.session.sim.shouldSave = true := by
  simp only [saveDue, Bool.and_eq_true] at h
  exact h.1

theorem isSome_directory (h : v.Sound) (hdue : v.session.sim.shouldSave = true) :
    v.session.directory.isSome = true := by
  apply h.coherent.directory
  simp only [Simulation.shouldSave, Bool.and_eq_true, Simulation.selected] at hdue
  cases hselection : v.session.sim.selection with
  | none => simp [hselection] at hdue
  | some ticks => rfl

theorem save_view (v : TerminalView) :
    v.save.1.session = (v.session.save v.inverted).1 ∧
      v.save.2 = (v.session.save v.inverted).2 := by
  unfold save
  split <;> rename_i hsave <;> rw [hsave] <;> exact ⟨rfl, rfl⟩

theorem presents_save (v : TerminalView) : v.Presents v.save.1 := by
  obtain ⟨_, _, hkeeps⟩ := save_keeps v.session v.inverted
  unfold save
  split
  all_goals
    rename_i hsave
    rw [hsave] at hkeeps
    subst hkeeps
    exact ⟨rfl, rfl, rfl, rfl, rfl, v.session.sim.flicker, rfl⟩

theorem presents_of_present {failure : Option Failure} (h : v.present = (v', failure)) :
    v.Presents v' := by
  have hpresents : v.Presents v.present.1 := by
    rw [present_eq]
    split
    · split
      · exact (presents_display v).trans (presents_save _)
      · exact presents_display v
    · exact Presents.refl v
  rwa [h] at hpresents

/-- Saving a frame that is due leaves the history orderly, and the tick is remembered unless saving
failed. -/
theorem save_spec {failure : Option Failure} (h : v.Sound)
    (hshown : v.shown = some v.session.sim.tick) (hdue : v.saveDue = true)
    (hsave : v.save = (v', failure)) :
    Orderly v'.session.history ∧
      (failure = none → v'.Sound ∧ v'.saved = some v.session.sim.tick) := by
  have hsaved := saved_ne_of_saveDue hdue
  have hshould := shouldSave_of_saveDue hdue
  have hdirectory := isSome_directory h hshould
  have horderly : ∀ act, act = .saved (v.session.frame v.inverted) ∨
      act = .spoiled (v.session.frame v.inverted) → Orderly (act :: v.session.history) :=
    fun act hact => h.remembers.file hshown hsaved rfl rfl hshould hact
  cases hsession : v.session.save v.inverted with
  | mk session result =>
      rcases save_cases hdirectory hsession with ⟨files, path, rfl, rfl⟩ | ⟨files, fault, rfl, rfl⟩ |
        ⟨files, fault, rfl, rfl⟩
      · simp only [save, hsession] at hsave
        cases hsave
        have hremembers := (h.remembers.save hshown hsaved (f := v.session.frame v.inverted)
          rfl rfl hshould).note (.frameWritten path)
        have hcoherent := h.coherent
        exact ⟨hremembers.toOrderly,
          fun _ => ⟨⟨hremembers, ⟨hcoherent.directory, hcoherent.lastTick⟩⟩, rfl⟩⟩
      · simp only [save, hsession] at hsave
        cases hsave
        exact ⟨horderly _ (.inr rfl), fun hnone => by cases hnone⟩
      · simp only [save, hsession] at hsave
        cases hsave
        exact ⟨h.remembers.toOrderly, fun hnone => by cases hnone⟩

/-- The frame section keeps the history orderly. If it does not fail, what is remembered agrees with
the history again, and a frame that had to be saved has been saved, now or before. -/
theorem present_spec {failure : Option Failure} (h : v.Sound) (hpresent : v.present = (v', failure)) :
    Orderly v'.session.history ∧
      (failure = none → v'.Sound ∧
        (v.session.sim.shouldSave = true → v'.saved = some v.session.sim.tick)) := by
  have hdone : v.saveDue = false → v.session.sim.shouldSave = true →
      v.saved = some v.session.sim.tick := by
    intro hdue hshould
    simpa [saveDue, hshould] using hdue
  rw [present_eq] at hpresent
  split at hpresent
  · split at hpresent
    · rename_i hdue
      have hsame := presents_display v
      -- Drawing has changed nothing that saving depends on.
      have hdue' : v.display.saveDue = true := by
        obtain ⟨_, hsim⟩ := hsame.sim
        simp only [saveDue, saved_display, hsim]
        exact hdue
      obtain ⟨horderly, hresult⟩ := save_spec h.display (shown_display v) hdue' hpresent
      refine ⟨horderly, ?_⟩
      intro hnone
      exact ⟨(hresult hnone).1, fun _ => hsame.tick ▸ (hresult hnone).2⟩
    · rename_i hdue
      cases hpresent
      refine ⟨h.display.remembers.toOrderly, fun _ => ⟨h.display, ?_⟩⟩
      intro hshould
      exact (saved_display v).trans (hdone (eq_false_of_ne_true hdue) hshould)
  · rename_i hnothing
    cases hpresent
    simp only [Bool.or_eq_true, not_or, Bool.not_eq_true] at hnothing
    exact ⟨h.remembers.toOrderly, fun _ => ⟨h, hdone hnothing.2⟩⟩

/-! ## Whole turns -/

/-- After the frame section a run fails, is done, has only drawn the board, or makes a step. -/
theorem proceed_cases {outcome : Outcome} (h : v.proceed = (v', outcome)) :
    (∃ failure, v.present = (v', some failure) ∧ outcome = .failed failure) ∨
    (v.present = (v', none) ∧ v'.session.sim.finished = true ∧ outcome = .stopped .done) ∨
    (∃ v₂, v.present = (v₂, none) ∧ v₂.session.sim.finished = false ∧ outcome = .running ∧
      v.redraw = true ∧ v' = { v₂ with redraw := false }) ∨
    (∃ v₂, v.present = (v₂, none) ∧ v₂.session.sim.finished = false ∧ outcome = .running ∧
      v.redraw = false ∧ v' = { v₂ with session := v₂.session.perform .step }) := by
  unfold proceed at h
  split at h
  · rename_i v₂ failure hpresent
    cases h
    exact .inl ⟨failure, hpresent, rfl⟩
  · rename_i v₂ hpresent
    have hredraw := (presents_of_present hpresent).redraw
    split at h
    · cases h
      exact .inr (.inl ⟨hpresent, ‹_›, rfl⟩)
    · rename_i hunfinished
      have hunfinished := eq_false_of_ne_true hunfinished
      cases hv : v.redraw with
      | true =>
          rw [hv] at hredraw
          simp only [hredraw, if_true] at h
          cases h
          exact .inr (.inr (.inl ⟨v₂, hpresent, hunfinished, rfl, rfl, rfl⟩))
      | false =>
          rw [hv] at hredraw
          simp only [hredraw, Bool.false_eq_true, if_false] at h
          cases h
          refine .inr (.inr (.inr ⟨v₂, hpresent, hunfinished, rfl, rfl, ?_⟩))
          rw [← hredraw]

/-- A turn stops for its key, waits, or goes on to the frame section. -/
theorem turn_cases {key : Option Key} {due : Bool} {outcome : Outcome}
    (h : v.turn key due = (v', outcome)) :
    (∃ exit, (v.keyed key).2 = .stop exit ∧ v' = (v.keyed key).1 ∧ outcome = .stopped exit) ∨
    ((v.keyed key).1.redraw = false ∧ due = false ∧ v' = (v.keyed key).1 ∧ outcome = .running) ∨
    ((∀ exit, (v.keyed key).2 ≠ .stop exit) ∧ ((v.keyed key).1.redraw || due) = true ∧
      (v.keyed key).1.proceed = (v', outcome)) := by
  rw [turn_eq] at h
  split at h
  · rename_i exit hcontrol
    cases h
    exact .inl ⟨exit, hcontrol, rfl, rfl⟩
  · rename_i hcontrol
    split at h
    · exact .inr (.inr ⟨hcontrol, ‹_›, h⟩)
    · rename_i hwaits
      cases h
      simp only [Bool.or_eq_true, not_or, Bool.not_eq_true] at hwaits
      exact .inr (.inl ⟨hwaits.1, hwaits.2, rfl, rfl⟩)

end TerminalView

end TorusAutomaton.Session

import TorusAutomaton.Proofs.Session.Safety
import TorusAutomaton.Proofs.Simulation.Reached

/-!
# The frame of the last tick

A run on a terminal that is done has come to the last tick. Whether the frame of that tick has been
saved, if it is selected, depends on the pause alone: the end of the run is looked for while paused,
too, but no frame is saved then.
-/

namespace TorusAutomaton.Session

open TorusAutomaton

namespace TerminalView

/-- A run from a simulation towards the last tick: that tick and the frames to save are as they
were, the tick is not passed, and all files are of ticks before it. -/
structure Approaches (sim : Simulation) (last : Nat) (v : TerminalView) : Prop where
  lastTick : v.session.sim.lastTick = some last
  selection : v.session.sim.selection = sim.selection
  tick : v.session.sim.tick ≤ last
  filed : ∀ act ∈ v.session.history, ∀ f ∈ act.filed?, f.sim.tick < last

variable {s : Session} {sim : Simulation} {last : Nat} {v v' : TerminalView} {key : Option Key}

/-! ## Parts of a turn -/

theorem finished_iff (h : sim.lastTick = some last) :
    sim.finished = true ↔ (last : Int) ≤ sim.tick := by
  simp [Simulation.finished, h]

theorem keyed_moves (v : TerminalView) (key : Option Key) :
    v.session.Moves (v.keyed key).1.session := by
  cases key with
  | none => exact Moves.refl _
  | some k => exact moves_press _ k

/-- The program is done in the frame section only, never for a key. -/
theorem ne_done_of_keyed {exit : Exit} (h : (v.keyed key).2 = .stop exit) : exit ≠ .done := by
  cases key with
  | none => cases h
  | some k =>
      have hpress : (v.session.press k).2 = .stop exit := h
      unfold press at hpress
      split at hpress
      case h_6 => split at hpress <;> cases hpress
      all_goals
        cases hpress
        try decide

/-- The key of a single step leaves the simulation paused. -/
theorem paused_keyed (h : (v.keyed key).1.session.sim.paused = false) :
    (v.keyed key).1.session.sim.tick = v.session.sim.tick := by
  rcases tick_keyed v key with hsame | ⟨rfl, hpaused, _, _⟩
  · exact hsame
  · have hkeyed : (v.session.press (.char 's')).1.sim.paused = false := h
    simp [press, hpaused, perform, Simulation.perform, Simulation.advance] at hkeyed

/-- The history keeps its files when an event is noted in it or nothing is. -/
theorem filed_of_moves {session session' : Session} (h : session.Moves session') {act : Act}
    (hact : act ∈ session'.history) {f : Frame} (hf : f ∈ act.filed?) : act ∈ session.history := by
  rcases h.history with hsame | ⟨event, hnoted⟩
  · exact hsame ▸ hact
  · rw [hnoted] at hact
    rcases List.mem_cons.mp hact with rfl | hact
    · cases hf
    · exact hact

theorem history_askOnce {act : Act} (hact : act ∈ v.askOnce.session.history) {f : Frame}
    (hf : f ∈ act.filed?) : act ∈ v.session.history := by
  unfold askOnce at hact
  split at hact
  · exact hact
  · rcases List.mem_cons.mp hact with rfl | hact
    · cases hf
    · exact hact

/-- Nothing is filed while the simulation is paused. -/
theorem filed_of_present_paused (hpaused : v.session.sim.paused = true)
    (hpresent : v.present = (v', none)) {act : Act} (hact : act ∈ v'.session.history) {f : Frame}
    (hf : f ∈ act.filed?) : act ∈ v.session.history := by
  have hdue : v.saveDue = false := by
    simp [saveDue, Simulation.shouldSave, hpaused]
  rw [present_eq, hdue] at hpresent
  split at hpresent
  · cases hpresent
    unfold display at hact
    split at hact
    · rcases List.mem_cons.mp hact with rfl | hact
      · cases hf
      · exact history_askOnce hact hf
    · exact history_askOnce hact hf
  · cases hpresent
    exact hact

/-! ## Runs towards the last tick -/

/-- A key leaves the last tick and the frames to save as they are. -/
theorem Approaches.keyed (h : v.Approaches sim last) (key : Option Key) :
    (v.keyed key).1.session.sim.lastTick = some last ∧
      (v.keyed key).1.session.sim.selection = sim.selection ∧
      ∀ act ∈ (v.keyed key).1.session.history, ∀ f ∈ act.filed?, f.sim.tick < last := by
  have hmoves := keyed_moves v key
  exact ⟨hmoves.lastTick.trans h.lastTick, hmoves.selection.trans h.selection,
    fun act hact f hf => h.filed act (filed_of_moves hmoves hact hf) f hf⟩

/-- After a frame section that is not the last one the last tick is still to come. -/
theorem approaches_of_present (hlast : v.session.sim.lastTick = some last)
    (hselection : v.session.sim.selection = sim.selection) (hsound : v.Sound)
    (hpresent : v.present = (v', none)) (hunfinished : v'.session.sim.finished = false) :
    v'.Approaches sim last ∧ v'.session.sim.tick < last := by
  have hsame := presents_of_present hpresent
  obtain ⟨_, hsim⟩ := hsame.sim
  have hlast' : v'.session.sim.lastTick = some last := by rw [hsim, ← hlast]
  have htick : v'.session.sim.tick < last := by
    by_contra hreached
    have hfinished := (finished_iff hlast').mpr (Int.not_lt.mp hreached)
    rw [hunfinished] at hfinished
    cases hfinished
  have hremembers := ((present_spec hsound hpresent).2 rfl).1.remembers
  refine ⟨⟨hlast', by rw [hsim, ← hselection], Int.le_of_lt htick, ?_⟩, htick⟩
  intro act hact f hf
  rcases hremembers.filed act hact f hf with hbefore | ⟨hnow, _⟩
  · exact Int.lt_trans hbefore htick
  · exact hnow ▸ htick

theorem Approaches.of_turn (h : v.Approaches sim last) (hsound : v.Sound) {due : Bool}
    (hturn : v.turn key due = (v', .running)) : v'.Approaches sim last := by
  obtain ⟨hlast, hselection, hfiled⟩ := h.keyed key
  rcases turn_cases hturn with ⟨exit, _, _, hstopped⟩ | ⟨hredraw, _, rfl, _⟩ | ⟨_, _, hproceed⟩
  · cases hstopped
  · refine ⟨hlast, hselection, ?_, hfiled⟩
    -- A key that moves the tick has the board drawn, and then the turn does not end here.
    rcases tick_keyed v key with hsame | ⟨_, _, _, hredrawn⟩
    · exact hsame ▸ h.tick
    · exact absurd (hredrawn.symm.trans hredraw) (by decide)
  · rcases proceed_cases hproceed with ⟨failure, _, hfailed⟩ | ⟨_, _, hdone⟩ |
      ⟨v₂, hpresent, hunfinished, _, _, rfl⟩ | ⟨v₂, hpresent, hunfinished, _, _, rfl⟩
    · cases hfailed
    · cases hdone
    · obtain ⟨happroaches, _⟩ :=
        approaches_of_present hlast hselection (hsound.keyed key) hpresent hunfinished
      exact { happroaches with }
    · obtain ⟨happroaches, htick⟩ :=
        approaches_of_present hlast hselection (hsound.keyed key) hpresent hunfinished
      have hmoves := moves_step v₂.session
      refine ⟨hmoves.lastTick.trans happroaches.lastTick,
        hmoves.selection.trans happroaches.selection, ?_, happroaches.filed⟩
      have hstep : v₂.session.sim.step.tick ≤ v₂.session.sim.tick + 1 := by
        unfold Simulation.step
        split
        · exact Int.le_of_lt (Int.lt_succ _)
        · exact Int.le_refl _
      exact Int.le_trans hstep htick

theorem approaches_start (hlast : s.sim.lastTick = some last) (htick : s.sim.tick ≤ last) :
    (start { s with history := [] }).Approaches s.sim last :=
  ⟨hlast, rfl, htick, by simp [start]⟩

theorem Reaches.approaches {outcome : Outcome} (hs : s.Coherent)
    (hlast : s.sim.lastTick = some last) (htick : s.sim.tick ≤ last) (h : Reaches s v outcome) :
    outcome = .running → v.Approaches s.sim last := by
  induction h with
  | start => exact fun _ => approaches_start hlast htick
  | turn before hturn ih =>
      rintro rfl
      exact (ih rfl).of_turn ((before.sound hs).2 rfl) hturn

/-! ## The end of a run -/

/-- In the turn that ends the run its last frame section decides. -/
theorem Approaches.saved_iff (h : v.Approaches sim last) (hselects : sim.Selects last)
    (hsound : v.Sound) {due : Bool} (hturn : v.turn key due = (v', .stopped .done)) :
    (∃ f : Frame, .saved f ∈ v'.session.acts ∧ f.sim.tick = last) ↔ v'.session.sim.paused = false := by
  obtain ⟨hlast, hselection, hfiled⟩ := h.keyed key
  rcases turn_cases hturn with ⟨exit, hstop, _, hdone⟩ | ⟨_, _, _, hrunning⟩ | ⟨_, _, hproceed⟩
  · cases hdone
    exact absurd rfl (ne_done_of_keyed hstop)
  · cases hrunning
  rcases proceed_cases hproceed with ⟨_, _, hfailed⟩ | ⟨hpresent, hfinished, _⟩ |
    ⟨_, _, _, hrunning, _⟩ | ⟨_, _, _, hrunning, _⟩
  · cases hfailed
  · have hsame := presents_of_present hpresent
    constructor
    · rintro ⟨f, hf, hftick⟩
      by_contra hpaused
      have hpaused : (v.keyed key).1.session.sim.paused = true := by
        rw [← hsame.paused]
        exact eq_true_of_ne_false hpaused
      have hold := filed_of_present_paused hpaused hpresent (List.mem_reverse.mp hf) rfl
      exact absurd hftick (Int.ne_of_lt (hfiled _ hold f rfl))
    · intro hunpaused
      rw [hsame.paused] at hunpaused
      obtain ⟨_, hsim⟩ := hsame.sim
      have hlast' : v'.session.sim.lastTick = some last := by rw [hsim, ← hlast]
      have htick : (v.keyed key).1.session.sim.tick = last := by
        have hle : (v.keyed key).1.session.sim.tick ≤ last := by
          rw [paused_keyed hunpaused]
          exact h.tick
        have hge := (finished_iff hlast').mp hfinished
        rw [hsame.tick] at hge
        exact Int.le_antisymm hle hge
      have hshould : (v.keyed key).1.session.sim.shouldSave = true := by
        obtain ⟨ticks, hticks, hcontains⟩ := hselects
        simp [Simulation.shouldSave, Simulation.selected, hunpaused, hselection,
          Option.mem_def.mp hticks, htick, hcontains]
      obtain ⟨hsound', hsaved⟩ := (present_spec (hsound.keyed key) hpresent).2 rfl
      obtain ⟨f, hf, hftick⟩ := hsound'.remembers.savedFiled _ (hsaved hshould)
      exact ⟨f, List.mem_reverse.mpr hf, hftick.trans htick⟩
  · cases hrunning
  · cases hrunning

/-- **The frame of the last tick is saved unless the run ends while paused.** Frames are saved, that
of the last tick among them, and the run starts at that tick or before. Whatever is typed and
whenever the time for a tick comes, a run that is done has saved the frame of the last tick exactly
if the simulation is not paused then. -/
theorem last_frame_saved_iff {args : CommandLine.Arguments} {size : CommandLine.TerminalSize}
    {directory fresh : Text} {files : FileTree} {fonts : Fonts}
    (hs : (Session.start args size directory files fresh fonts).outcome = .ok s)
    (hlast : s.sim.lastTick = some last) (htick : s.sim.tick ≤ last)
    (hselects : s.sim.Selects last) :
    (∀ keys, Reaches s ((start { s with history := [] }).run keys).1
      ((start { s with history := [] }).run keys).2) ∧
    ∀ v, Reaches s v (.stopped .done) →
      ((∃ f : Frame, .saved f ∈ v.session.acts ∧ f.sim.tick = last) ↔ v.session.sim.paused = false) := by
  refine ⟨reaches_run s, ?_⟩
  intro v h
  have hcoherent := coherent_of_start hs
  cases h with
  | turn before hturn =>
      exact (before.approaches hcoherent hlast htick rfl).saved_iff hselects
        ((before.sound hcoherent).2 rfl) hturn

/-- A session that saves the frame of its last tick only, started with nothing around. -/
def closing : Except StartError Session :=
  (Session.start
    { dimensions := "2x2".toList
      rules := "/".toList
      seed := "S".toList
      board := some "10.00".toList
      maxTicks := some 1
      renderImages := some "-1".toList
      imageFormat := "%T.png".toList }
    ⟨80, 24⟩ "frames".toList { root := .empty, present := [] } []).outcome

theorem last_frame_saved_iff_closing :
    ∃ s, closing = .ok s ∧ s.sim.lastTick = some 1 ∧ s.sim.tick ≤ 1 ∧ s.sim.Selects 1 ∧
      ((start { s with history := [] }).run [.char 'f']).2 = .stopped .done ∧
      ∃ f : Frame, .saved f ∈ ((start { s with history := [] }).run [.char 'f']).1.session.acts ∧
        f.sim.tick = 1 := by
  have hfacts : closing.toOption.any (fun s => decide (s.sim.lastTick = some 1 ∧ s.sim.tick ≤ 1 ∧
      s.sim.selection.any (·.contains 1) = true ∧
      ((start { s with history := [] }).run [.char 'f']).2 = .stopped .done ∧
      ((start { s with history := [] }).run [.char 'f']).1.session.sim.paused = false)) = true := by
    decide +kernel
  obtain ⟨s, hs, hfacts⟩ := (Option.any_eq_true _ _).mp hfacts
  obtain ⟨hlast, htick, hselects, hdone, hunpaused⟩ := of_decide_eq_true hfacts
  have hselects : s.sim.Selects 1 := (Option.any_eq_true _ _).mp hselects
  have hs := Outcome.toOption_eq_some_iff.mp hs
  have hiff := last_frame_saved_iff hs hlast htick hselects
  exact ⟨s, hs, hlast, htick, hselects, hdone,
    (hiff.2 _ (hdone ▸ hiff.1 [.char 'f'])).mpr hunpaused⟩

/-- Pausing and a single step lead past the frame of the last tick to the end. -/
theorem last_frame_lost :
    ∃ s, closing = .ok s ∧ s.sim.lastTick = some 1 ∧ s.sim.tick ≤ 1 ∧ s.sim.Selects 1 ∧
      (s.terminal [.char ' ', .char 's']).2.2 = .stopped .done ∧
      ¬ ∃ f : Frame, .saved f ∈ (s.terminal [.char ' ', .char 's']).1.acts ∧ f.sim.tick = 1 := by
  have hfacts : closing.toOption.any (fun s => decide (s.sim.lastTick = some 1 ∧ s.sim.tick ≤ 1 ∧
      s.sim.selection.any (·.contains 1) = true ∧
      (s.terminal [.char ' ', .char 's']).2.2 = .stopped .done ∧
      ((s.terminal [.char ' ', .char 's']).1.acts.filterMap Act.filed?).length = 0)) = true := by
    decide +kernel
  obtain ⟨s, hs, hfacts⟩ := (Option.any_eq_true _ _).mp hfacts
  obtain ⟨hlast, htick, hselects, hdone, hnone⟩ := of_decide_eq_true hfacts
  refine ⟨s, Outcome.toOption_eq_some_iff.mp hs, hlast, htick,
    (Option.any_eq_true _ _).mp hselects, hdone, ?_⟩
  rintro ⟨f, hf, _⟩
  have hfiled : f ∈ (s.terminal [.char ' ', .char 's']).1.acts.filterMap Act.filed? :=
    List.mem_filterMap.mpr ⟨_, hf, rfl⟩
  rw [List.length_eq_zero_iff.mp hnone] at hfiled
  cases hfiled

end TerminalView

end TorusAutomaton.Session

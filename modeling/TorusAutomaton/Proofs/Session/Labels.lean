import TorusAutomaton.Proofs.Session.Lasting
import TorusAutomaton.Proofs.Simulation.Course
import TorusAutomaton.Proofs.Simulation.Reached
import TorusAutomaton.Proofs.Template.Names

/-!
# What frames are labelled with

Subtitles and names are filled in with settings of the session, which nothing that is done to it
changes, and with the marks of the frame: its tick, the mode, the answer about inversion, and
whether it is among those to be saved. So what is filled in can be told from the session as it was
started and from the marks, whatever has happened in between.
-/

namespace TorusAutomaton

namespace Simulation

variable {s t : Simulation}

/-- The settings in subtitles and names. -/
def label (s : Simulation) : Template.Constant := (s.bindings false).constant

/-- Two simulations whose frames are labelled with the same settings, and selected alike. -/
structure SameLabel (s t : Simulation) : Prop where
  label : t.label = s.label
  selection : t.selection = s.selection

theorem SameLabel.refl (s : Simulation) : s.SameLabel s := ⟨rfl, rfl⟩

theorem label_perform (s : Simulation) (op : Operation) : (s.perform op).label = s.label := by
  have hcame := came_perform s op
  have hseed : (s.perform op).seed = s.seed := by
    cases op with
    | step =>
        show s.step.seed = s.seed
        unfold step
        split <;> rfl
    | advance | togglePause | cycleFlicker | ask => rfl
  have hpost := congrArg (Option.map fun p => (p.1.render, p.2)) hcame.second
  simp only [Option.map_map, Function.comp_def] at hpost
  simp only [label, bindings, Template.Bindings.constant, Template.Constant.mk.injEq]
  refine ⟨?rule, ?width, ?height, hseed, hpost⟩
  case rule => rw [hcame.rule]
  case width => rw [hcame.board, Board.width_run]
  case height => rw [hcame.board, Board.height_run]

theorem selection_perform (s : Simulation) (op : Operation) :
    (s.perform op).selection = s.selection := by
  cases op with
  | step =>
      show s.step.selection = s.selection
      unfold step
      split <;> rfl
  | advance | togglePause | cycleFlicker | ask => rfl

theorem SameLabel.perform (h : s.SameLabel t) (op : Operation) : s.SameLabel (t.perform op) where
  label := (t.label_perform op).trans h.label
  selection := (t.selection_perform op).trans h.selection

theorem selected_eq_true_iff : s.selected = true ↔ s.Selects s.tick := by
  unfold selected Selects
  cases s.selection with
  | none => simp
  | some ticks => simp

/-- What is filled in for a frame that a simulation comes to, told from the simulation as it is now
and from the marks of the frame. -/
def valuesAt (s : Simulation) (mode : Flicker.Mode) (tick : Int) (inverted : Bool) :
    Template.Bindings where
  rule := s.rule.render
  width := s.board.width
  height := s.board.height
  modeNumber := mode.number
  modeLetter := mode.letter
  seed := s.seed
  tick := tick
  inverted := inverted
  selected := s.selection.any fun ticks => ticks.contains tick
  post := s.post.map fun p => (p.rule.render, p.ticks)

theorem SameLabel.bindings (h : s.SameLabel t) (inverted : Bool) :
    t.bindings inverted = s.valuesAt t.flicker.mode t.tick inverted := by
  have hlabel := h.label
  simp only [Simulation.label, Simulation.bindings, Template.Bindings.constant,
    Template.Constant.mk.injEq] at hlabel
  obtain ⟨hrule, hwidth, hheight, hseed, hpost⟩ := hlabel
  have hselected : t.selected = s.selection.any fun ticks => ticks.contains t.tick := by
    rw [selected, h.selection]
    cases s.selection <;> rfl
  simp only [Simulation.bindings, valuesAt, hrule, hwidth, hheight, hseed, hpost, hselected]

end Simulation

namespace Session

open TorusAutomaton Text

/-! ## Frames of a run -/

/-- A session that has come from another one, and whose frames are all labelled like that one. -/
structure Labelled (first s : Session) : Prop where
  args : s.args = first.args
  sim : first.sim.SameLabel s.sim
  frames : ∀ act ∈ s.history, ∀ f ∈ act.frame?, first.sim.SameLabel f.sim

variable {first s : Session}

theorem frame_of_filed {act : Act} {f : Frame} (h : f ∈ act.filed?) : f ∈ act.frame? := by
  cases act with
  | saved _ | spoiled _ => exact h
  | noted _ | asked _ _ | drew _ => cases h

theorem labelled_start (s : Session) : s.Labelled { s with history := [] } where
  args := rfl
  sim := .refl _
  frames := fun _ hact => absurd hact List.not_mem_nil

theorem Labelled.add (h : first.Labelled s) {act : Act}
    (hact : ∀ f ∈ act.frame?, first.sim.SameLabel f.sim) : first.Labelled (s.add act) where
  args := h.args
  sim := h.sim
  frames := by
    intro act' hact' f hf
    rcases List.mem_cons.mp hact' with rfl | hold
    · exact hact f hf
    · exact h.frames act' hold f hf

theorem Labelled.perform (h : first.Labelled s) (op : Simulation.Operation) :
    first.Labelled (s.perform op) := by
  have hsame := h.sim.perform op
  cases op with
  | ask =>
      have hasked : first.Labelled (s.add (.asked s.sim.tick s.sim.inverted)) :=
        h.add (by rintro f ⟨⟩)
      exact { hasked with sim := hsame }
  | cycleFlicker =>
      have hnoted : ∀ event, first.Labelled (s.add (.noted event)) :=
        fun event => h.add (by rintro f ⟨⟩)
      exact { hnoted _ with sim := hsame }
  | step | advance | togglePause => exact { h with sim := hsame }

/-- The frame that is saved is labelled like the session that saves it. -/
theorem Labelled.save (h : first.Labelled s) (inverted : Bool) :
    first.Labelled (s.save inverted).1 := by
  refine save_induction (fun _ => { h with }) ?_ (fun _ hnoted => hnoted.add (by rintro f ⟨⟩))
  rintro s' _ (rfl | rfl) hfiled
  all_goals
    refine hfiled.add ?_
    rintro f ⟨⟩
    exact h.sim

theorem lasting_labelled (first : Session) : Lasting first.Labelled where
  perform := fun op h => h.perform op
  draw := by
    intro s inverted h
    refine h.add ?_
    rintro f ⟨⟩
    exact h.sim
  save := fun inverted h => h.save inverted

/-- **Labels tell the truth.** Whatever is typed and whenever the time for a tick comes, what is
filled in for a frame that is drawn or saved are the settings that the session was started with, and
the tick and the mode of the frame. It has the mark of inversion exactly if that was the answer for
its tick, and the mark of the selection exactly if its tick is among those to be saved, as the tick
of every frame in a file is. -/
theorem labels_of_run (hs : first.Coherent) {v : TerminalView} {outcome : Outcome}
    (h : TerminalView.Reaches first v outcome) :
    (∀ act ∈ v.session.acts, ∀ f ∈ act.frame?,
      f.sim.bindings f.inverted =
        first.sim.valuesAt f.sim.flicker.mode f.sim.tick f.inverted ∧
      (Template.value (f.sim.bindings f.inverted) .inverted = ['i'] ↔
        .asked f.sim.tick true ∈ v.session.acts) ∧
      (Template.value (f.sim.bindings f.inverted) .selected = ['s'] ↔
        first.sim.Selects f.sim.tick)) ∧
    ∀ act ∈ v.session.acts, ∀ f ∈ act.filed?, first.sim.Selects f.sim.tick := by
  obtain ⟨horderly, -⟩ := h.sound hs
  have hlabelled := (lasting_labelled first).reaches (labelled_start first) h
  have hselects : ∀ act ∈ v.session.history, ∀ f ∈ act.frame?,
      (f.sim.selected = true ↔ first.sim.Selects f.sim.tick) := by
    intro act hact f hf
    have hsame := hlabelled.frames act hact f hf
    rw [Simulation.selected_eq_true_iff, Simulation.Selects, Simulation.Selects, hsame.selection]
  have hflag : ∀ (p : Bool) (c : Char), c ≠ ' ' →
      ((if p then [c] else [' ']) = [c] ↔ p = true) := by
    intro p c hc
    cases p <;> simp [hc.symm]
  constructor
  · intro act hact f hf
    have hact := List.mem_reverse.mp hact
    have hanswer := horderly.answered act hact f hf
    refine ⟨(hlabelled.frames act hact f hf).bindings f.inverted, ?_, ?_⟩
    · refine (hflag f.inverted 'i' (by decide)).trans ⟨?_, ?_⟩
      · intro hinverted
        exact List.mem_reverse.mpr (hinverted ▸ hanswer)
      · intro htrue
        exact answer_unique horderly.askedOnce hanswer (List.mem_reverse.mp htrue)
    · exact (hflag f.sim.selected 's' (by decide)).trans (hselects act hact f hf)
  · intro act hact f hf
    have hact := List.mem_reverse.mp hact
    have hdue := horderly.filedDue act hact f hf
    simp only [Simulation.shouldSave, Bool.and_eq_true] at hdue
    exact (hselects act hact f (frame_of_filed hf)).mp hdue.2

end Session

end TorusAutomaton

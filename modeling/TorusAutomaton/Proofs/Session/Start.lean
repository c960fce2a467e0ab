import TorusAutomaton.Session.Basic
import TorusAutomaton.Proofs.Simulation.Creation

/-!
# Sessions as they are started

Some settings are kept twice, by the session and by its simulation. They agree in every session that
is started, and nothing changes them later. Subtitles are drawn into saved frames if the arguments
name a font that can be loaded, and no session fails to start for want of one.
-/

namespace TorusAutomaton.Session

open TorusAutomaton Journal Outcome

/-- A session as it is started: it has a directory to save frames in if any are selected, and its
simulation ends when the arguments say so. -/
structure Coherent (s : Session) : Prop where
  directory : s.sim.selection.isSome = true → s.directory.isSome = true
  lastTick : s.sim.lastTick = s.args.maxTicks

theorem isSome_of_readSelection {c : Simulation.Config} {selection : Option TickSet}
    (h : c.readSelection.outcome = .ok selection) (hsome : selection.isSome = true) :
    c.selection.isSome = true := by
  cases hc : c.selection with
  | none =>
      simp only [Simulation.Config.readSelection, hc] at h
      cases h
      cases hsome
  | some t => rfl

section Started

variable {args : CommandLine.Arguments} {size : CommandLine.TerminalSize} {directory fresh : Text}
  {files : FileTree} {fonts : Fonts} {s : Session}

theorem loadFont_eq_ok_iff {path : Text} {font : View.Font} :
    loadFont files fonts path = .ok font ↔
      (∃ content, files.read path = .ok content) ∧ fonts path = some font := by
  unfold loadFont
  cases files.read path with
  | error fault => simp
  | ok content => cases fonts path <;> simp

/-- What subtitles are drawn with, as the arguments ask for it. -/
def captionFor (args : CommandLine.Arguments) (files : FileTree) (fonts : Fonts) :
    Option View.Caption :=
  if args.renderImages.isSome ∧ args.noSubtitle = false then
    args.fontPath.bind fun path =>
      (loadFont files fonts path).toOption.map fun font => .ofFont font args.fontSize
  else none

theorem captionFor_eq_some_iff {c : View.Caption} :
    captionFor args files fonts = some c ↔
      args.renderImages.isSome ∧ args.noSubtitle = false ∧
        ∃ path font, args.fontPath = some path ∧ (∃ content, files.read path = .ok content) ∧
          fonts path = some font ∧ c = .ofFont font args.fontSize := by
  unfold captionFor
  split
  · rename_i hwanted
    simp only [Option.bind_eq_some_iff, Option.map_eq_some_iff, toOption_eq_some_iff,
      loadFont_eq_ok_iff, hwanted, true_and]
    constructor
    · rintro ⟨path, hpath, font, ⟨hread, hfont⟩, rfl⟩
      exact ⟨path, font, hpath, hread, hfont, rfl⟩
    · rintro ⟨path, font, hpath, hread, hfont, rfl⟩
      exact ⟨path, hpath, font, ⟨hread, hfont⟩, rfl⟩
  · rename_i hunwanted
    constructor
    · exact fun hnone => absurd hnone (by simp)
    · exact fun ⟨himages, hsubtitle, _⟩ => absurd ⟨himages, hsubtitle⟩ hunwanted

/-- A font that cannot be loaded costs the subtitles and nothing else. -/
theorem outcome_loadCaption (args : CommandLine.Arguments) (files : FileTree) (fonts : Fonts) :
    (loadCaption args files fonts).outcome = .ok (captionFor args files fonts) := by
  unfold loadCaption captionFor
  cases args.renderImages with
  | none => rfl
  | some selection =>
      cases args.fontPath with
      | none =>
          simp only [Option.bind_none, ite_self]
          rfl
      | some path =>
          cases args.noSubtitle with
          | true => rfl
          | false =>
              simp only [Bool.false_eq_true, if_false, Option.isSome_some, true_and, if_true,
                Option.bind_some]
              cases loadFont files fonts path <;> rfl

/-- A session is put together from what its arguments are read as, and nothing has happened in
it. -/
theorem parts_of_start (h : (start args size directory files fresh fonts).outcome = .ok s) :
    ∃ config sim tiles files', args.config size = .ok config ∧
      Simulation.create config fresh = .ok sim ∧
      makeDirectory files (args.renderImages.map fun _ => directory) = .ok files' ∧
      s = { args, sim, tiles, directory := args.renderImages.map fun _ => directory,
            files := files', history := [], caption := captionFor args files fonts } := by
  simp only [start, Kept.outcome_bind, Kept.outcome_lift, Kept.outcome_mapError,
    Kept.outcome_pure, outcome_loadCaption, bind_eq_ok_iff, mapError_eq_ok_iff,
    Except.ok.injEq] at h
  obtain ⟨config, hconfig, sim, hsim, tiles, _, _, rfl, files', hmade, rfl⟩ := h
  exact ⟨config, sim, tiles, files', hconfig, hsim, hmade, rfl⟩

/-- Saved frames get subtitles if they are to have some and their font can be loaded. -/
theorem caption_of_start (h : (start args size directory files fresh fonts).outcome = .ok s)
    {c : View.Caption} :
    s.caption = some c ↔
      args.renderImages.isSome ∧ args.noSubtitle = false ∧
        ∃ path font, args.fontPath = some path ∧ (∃ content, files.read path = .ok content) ∧
          fonts path = some font ∧ c = .ofFont font args.fontSize := by
  obtain ⟨_, _, _, _, _, _, _, rfl⟩ := parts_of_start h
  exact captionFor_eq_some_iff

/-- The simulation of a session that is started is created from its arguments. -/
theorem create_of_start (h : (start args size directory files fresh fonts).outcome = .ok s) :
    ∃ config, args.config size = .ok config ∧ Simulation.create config fresh = .ok s.sim := by
  obtain ⟨config, sim, _, _, hconfig, hsim, _, rfl⟩ := parts_of_start h
  exact ⟨config, hconfig, hsim⟩

theorem coherent_of_start (h : (start args size directory files fresh fonts).outcome = .ok s) :
    s.Coherent := by
  -- The directory is chosen by the same argument that the selection is read from.
  obtain ⟨config, sim, _, _, hconfig, hsim, _, rfl⟩ := parts_of_start h
  obtain ⟨_, _, _, _, _, _, selection, _, _, _, hselection, rfl⟩ :=
    Simulation.create_eq_ok_iff.mp hsim
  obtain ⟨_, _, hconfig⟩ := bind_eq_ok_iff.mp hconfig
  cases hconfig
  constructor
  · intro hsome
    simpa using isSome_of_readSelection hselection hsome
  · rfl

end Started

end TorusAutomaton.Session

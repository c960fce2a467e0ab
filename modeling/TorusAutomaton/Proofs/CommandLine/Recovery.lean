import Mathlib.Data.List.DropRight
import TorusAutomaton.Proofs.CommandLine.Restored

/-!
# Recovered runs

The recovery command starts a run that goes on as the one it was made from. Its words are read as
the restored arguments; these give the settings of a simulation in which the rules are literal and
the board is given, so nothing is drawn and nothing is derived from the seed; and the simulation
that is created from them cannot be told apart from the present one. It is given the same recovery
command again.
-/

namespace TorusAutomaton.CommandLine

open TorusAutomaton Text Outcome
open TorusAutomaton.Simulation (Config generatedSeed Under)

/-! ## Seeds -/

theorem bareSeed_mark (t : Text) : bareSeed (t ++ ['?']) = bareSeed t := by
  simp [bareSeed]

theorem bareSeed_bareSeed (t : Text) : bareSeed (bareSeed t) = bareSeed t := by
  simp [bareSeed, List.dropWhile_idempotent]

theorem bareSeed_markedSeed (c : Config) (fresh : Text) :
    bareSeed (c.markedSeed fresh) = bareSeed (c.chooseSeed fresh).1 := by
  unfold Config.markedSeed
  split
  · exact bareSeed_mark _
  · rfl

/-! ## The settings of the restored run -/

/-- Settings that are the arguments themselves. -/
structure SettingsOf (a : Arguments) (c : Config) : Prop where
  seed : c.seed = some a.seed
  startTick : c.startTick = a.tick
  fill : c.fill = a.fill
  postTicks : c.postTicks = a.postTicks

theorem settings_of_config {a : Arguments} {size : TerminalSize} {c : Config}
    (h : a.config size = .ok c) : SettingsOf a c := by
  obtain ⟨_, _, hc⟩ := bind_eq_ok_iff.mp h
  cases hc
  exact ⟨rfl, rfl, rfl, rfl⟩

/-- The settings that the restored arguments give. -/
def restoredConfig (a : Arguments) (c : Config) (s : Simulation) : Config :=
  { c with
    rule := s.rule.render
    seed := some (restored a s).seed
    flickerMode := s.flicker.mode.number
    startTick := s.tick
    board := some s.board.render
    randomFill := true
    fill := (restored a s).fill
    keepSize := true
    postRule := s.post.map fun p => p.rule.render
    postTicks := (restored a s).postTicks
    paused := false }

theorem config_restored {a : Arguments} {size : TerminalSize} {c : Config}
    (h : a.config size = .ok c) (s : Simulation) :
    (restored a s).config size = .ok (restoredConfig a c s) := by
  obtain ⟨sides, hsides, hc⟩ := bind_eq_ok_iff.mp h
  cases hc
  -- The two arguments that the sides depend on are as they were.
  have hsame : readDimensions (restored a s).dimensions (restored a s).noSubtitle size =
      .ok sides := hsides
  simp only [Arguments.config, hsame, ok_bind]
  rfl

section Restored

variable {a : Arguments} {size : TerminalSize} {c : Config} {fresh : Text} {s : Simulation}

/-- The fill of the restored run is that of the run or the default. -/
theorem fill_restored (h : 0 ≤ a.fill ∧ a.fill ≤ 1) (s : Simulation) :
    0 ≤ (restored a s).fill ∧ (restored a s).fill ≤ 1 := by
  show 0 ≤ (if a.fill != defaults.fill then a.fill else defaults.fill) ∧
    (if a.fill != defaults.fill then a.fill else defaults.fill) ≤ 1
  split
  · exact h
  · decide +kernel

/-- The seed is always part of the recovery command. -/
theorem seed_wanted (h : s.Under c fresh) (hconfig : a.config size = .ok c) :
    (a.seed != defaults.seed || s.seedGenerated) = true := by
  rw [h.seedGenerated]
  by_cases hdefault : a.seed = generatedSeed
  · simp [Config.chooseSeed, (settings_of_config hconfig).seed, hdefault]
  · have hne : a.seed ≠ defaults.seed := hdefault
    simp [hne]

theorem seed_restored (h : s.Under c fresh) (hconfig : a.config size = .ok c) :
    (restored a s).seed = bareSeed s.seed := by
  show (if (a.seed != defaults.seed || s.seedGenerated) = true then bareSeed s.seed
    else defaults.seed) = bareSeed s.seed
  rw [if_pos (seed_wanted h hconfig)]

theorem bareSeed_seed (h : s.Under c fresh) (hconfig : a.config size = .ok c) :
    bareSeed s.seed = bareSeed (if a.seed = generatedSeed then fresh else a.seed) := by
  rw [h.seed, bareSeed_markedSeed]
  simp only [Config.chooseSeed, (settings_of_config hconfig).seed]
  split <;> rfl

/-- The words of the recovery command are read in every state of a run if they can be given in
arguments of their own. -/
theorem parse_recoveryWords_of_under (hrange : a.InRange) (hrepeatable : a.Repeatable)
    (h : s.Under c fresh) (hconfig : a.config size = .ok c) (htick : s.tick ≤ Numeral.maxI64) :
    parse (recoveryWords a s) = .ok (restored a s) := by
  have hsettings := settings_of_config hconfig
  have hfill : 0 ≤ a.fill := by
    rw [← hsettings.fill]
    exact (Simulation.checkNumbers_eq_ok_iff.mp h.numbers).1.1
  have htickMin : -((Numeral.maxI64 : Int) + 1) ≤ s.tick := by
    have hstart := h.tick
    rw [hsettings.startTick] at hstart
    exact Int.le_trans hrange.tick.1 hstart
  exact parse_recoveryWords_of_repeatable hrange hrepeatable hconfig hfill ⟨htickMin, htick⟩

/-! ## The restored simulation -/

/-- The simulation that is created from the restored arguments. -/
def restoredSimulation (a : Arguments) (c : Config) (fresh : Text) (s : Simulation) : Simulation :=
  (restoredConfig a c s).assemble fresh s.rule (s.post.map fun p => p.rule) s.board s.selection

theorem ofNumber_number (m : Flicker.Mode) : Flicker.Mode.ofNumber m.number = m := by
  cases m <;> rfl

theorem postTicks_restored (hconfig : a.config size = .ok c) {p : Simulation.PostProcess}
    (hp : s.post = some p) : (restoredConfig a c s).postTicks = c.postTicks := by
  rw [(settings_of_config hconfig).postTicks]
  simp [restoredConfig, restored, hp]

/-- The second rule is read back as it was, and if there was none there is none. -/
theorem readPostRule_restored {σ : Type} [Random.Source σ] (h : s.Under c fresh)
    (hconfig : a.config size = .ok c) (source : σ) :
    (restoredConfig a c s).readPostRule source =
      .ok (s.post.map fun p => p.rule, source) := by
  rw [Simulation.readPostRule_eq_ok_iff]
  cases hp : s.post with
  | none => exact .inr ⟨.inl (by simp [restoredConfig, hp]), rfl, rfl⟩
  | some p =>
      have hticks : 0 < (restoredConfig a c s).postTicks := by
        rw [postTicks_restored hconfig hp]
        exact (h.postTicks p hp).2
      refine .inl ⟨p.rule.render, p.rule, ?_, hticks, rfl, ?_⟩
      · simp [restoredConfig, hp]
      · exact (h.postRule p hp).1.parse_render source

theorem create_restored (h : s.Under c fresh) (hconfig : a.config size = .ok c)
    (fresh' : Text) :
    Simulation.create (restoredConfig a c s) fresh' =
      .ok (restoredSimulation a c fresh' s) := by
  obtain ⟨hfill, hevery, heveryMax, hlast⟩ := Simulation.checkNumbers_eq_ok_iff.mp h.numbers
  rw [(settings_of_config hconfig).fill] at hfill
  rw [Simulation.create_eq_ok_iff]
  refine ⟨?_, s.rule, _, s.post.map fun p => p.rule, _, s.board, s.selection,
    h.rule.parse_render _, readPostRule_restored h hconfig _, ?_, ?_, rfl⟩
  · exact Simulation.checkNumbers_eq_ok_iff.mpr ⟨fill_restored hfill s, hevery, heveryMax, hlast⟩
  · -- The board is given and keeps its size, so nothing is placed or drawn.
    simp [restoredConfig, Config.firstBoard, Config.place, Board.parse_render,
      Journal.Kept.outcome_bind]
  · exact h.selection

/-- The restored simulation shows the same from now on. -/
theorem matches_restored (h : s.Under c fresh) (hconfig : a.config size = .ok c)
    (fresh' : Text) : s.Matches (restoredSimulation a c fresh' s) where
  board := rfl
  tick := rfl
  rule := rfl
  mode := (ofNumber_number _).symm
  post := by
    cases hp : s.post with
    | none => simp [restoredSimulation, Config.assemble, hp]
    | some p =>
        have hticks : (restoredConfig a c s).postTicks = p.ticks :=
          (postTicks_restored hconfig hp).trans (h.postTicks p hp).1.symm
        simp only [restoredSimulation, Config.assemble, hp, hticks, Option.map_some]
        rw [← h.postBoard p hp]
  selection := rfl
  drawEvery := h.drawEvery
  lastTick := h.lastTick

/-! ## The recovery command of the restored run -/

/-- A value that is left out when it is the default is left out again when it has become so. -/
theorem sayIf_elided {α : Type} (wanted : α → Bool) (write : α → Text) {d : α}
    (hd : wanted d = false) (x : α) :
    sayIf (wanted (if wanted x then x else d)) (write (if wanted x then x else d)) =
      sayIf (wanted x) (write x) := by
  cases hx : wanted x with
  | true => simp [hx]
  | false => simp [hd, sayIf]

theorem recoveryValue_restored (h : s.Under c fresh) (hconfig : a.config size = .ok c)
    (hseed : bareSeed s.seed ≠ generatedSeed) (fresh' : Text) (o : Opt) :
    recoveryValue (restored a s) (restoredSimulation a c fresh' s) o = recoveryValue a s o := by
  cases o
  case flickerMode =>
    show some (Numeral.ofNat (Flicker.Mode.ofNumber s.flicker.mode.number).number) = _
    rw [ofNumber_number]
    rfl
  case seed =>
    -- The restored run is given its seed, so none is made up for it; the question mark that the
    -- given board adds is dropped again.
    have hchosen : ((restoredConfig a c s).chooseSeed fresh').1 = bareSeed s.seed := by
      have hset : (restoredConfig a c s).seed = some (bareSeed s.seed) :=
        congrArg some (seed_restored h hconfig)
      simp [Config.chooseSeed, hset, hseed]
    have hbare : bareSeed (restoredSimulation a c fresh' s).seed = bareSeed s.seed := by
      show bareSeed ((restoredConfig a c s).markedSeed fresh') = _
      rw [bareSeed_markedSeed, hchosen, bareSeed_bareSeed]
    have hwanted : ((restored a s).seed != defaults.seed ||
        (restoredSimulation a c fresh' s).seedGenerated) = true := by
      have hne : (restored a s).seed ≠ defaults.seed := by
        rw [seed_restored h hconfig]
        exact hseed
      simp [hne]
    show sayIf _ _ = sayIf _ _
    rw [hbare, hwanted, seed_wanted h hconfig]
  case fill =>
    exact sayIf_elided (fun x : Float => x != defaults.fill) Decimal.render (by decide +kernel)
      a.fill
  case imageDir =>
    exact sayIf_elided (fun x => Path.parts x != Path.parts defaults.imageDir) id (by simp)
      a.imageDir
  case postRules =>
    show (restoredSimulation a c fresh' s).post.map _ = s.post.map _
    rw [← (matches_restored h hconfig fresh').post]
  case postTicks =>
    show (restoredSimulation a c fresh' s).post.map _ = s.post.map _
    rw [← (matches_restored h hconfig fresh').post]
    cases hp : s.post with
    | none => rfl
    | some p => simp [restored, hp]
  all_goals rfl

theorem recoveryCommand_restored (h : s.Under c fresh) (hconfig : a.config size = .ok c)
    (hseed : bareSeed s.seed ≠ generatedSeed) (fresh' : Text) :
    recoveryCommand (restored a s) (restoredSimulation a c fresh' s) = recoveryCommand a s := by
  have hsettings : recoverySettings (restored a s) (restoredSimulation a c fresh' s) =
      recoverySettings a s := by
    rw [recoverySettings_eq, recoverySettings_eq]
    simp only [recoveryValue_restored h hconfig hseed]
  have hswitches : recoverySwitches (restored a s) = recoverySwitches a := rfl
  unfold recoveryCommand
  rw [hsettings, hswitches]

end Restored

/-- **The recovery command continues the run.** Whatever has been done to a simulation since it was
created, a shell reads from the recovery command arguments from which a simulation is created that
shows the same from now on, and whose recovery command is the same text. -/
theorem recoveryCommand_continues {a : Arguments} {size : TerminalSize} {c : Config}
    {fresh : Text} {s₀ : Simulation} (hrange : a.InRange) (hrecoverable : a.Recoverable)
    (hseed : bareSeed (if a.seed = generatedSeed then fresh else a.seed) ≠ generatedSeed)
    (hconfig : a.config size = .ok c) (hcreate : Simulation.create c fresh = .ok s₀)
    (ops : List Simulation.Operation)
    (htick : (ops.foldl Simulation.perform s₀).tick ≤ Numeral.maxI64) (fresh' : Text) :
    let s := ops.foldl Simulation.perform s₀
    ∃ argv a' c' s',
      Shell.words (recoveryCommand a s) = some (programName :: argv) ∧
      parse argv = .ok a' ∧
      a'.config size = .ok c' ∧
      Simulation.create c' fresh' = .ok s' ∧
      s.Matches s' ∧
      (∀ n, (Simulation.advance^[n] s).tick = (Simulation.advance^[n] s').tick ∧
        (Simulation.advance^[n] s).board = (Simulation.advance^[n] s').board ∧
        (Simulation.advance^[n] s).displayBoard = (Simulation.advance^[n] s').displayBoard ∧
        (Simulation.advance^[n] s).finished = (Simulation.advance^[n] s').finished ∧
        (Simulation.advance^[n] s).selected = (Simulation.advance^[n] s').selected) ∧
      recoveryCommand a' s' = recoveryCommand a s := by
  intro s
  have hunder : s.Under c fresh := (Simulation.under_of_create hcreate).performAll ops
  have hsettings := settings_of_config hconfig
  have hfill : 0 ≤ a.fill := by
    rw [← hsettings.fill]
    exact (Simulation.checkNumbers_eq_ok_iff.mp hunder.numbers).1.1
  have htickMin : -((Numeral.maxI64 : Int) + 1) ≤ s.tick := by
    have hstart := hunder.tick
    rw [hsettings.startTick] at hstart
    exact Int.le_trans hrange.tick.1 hstart
  have hbare : bareSeed s.seed ≠ generatedSeed := by
    rw [bareSeed_seed hunder hconfig]
    exact hseed
  have hmatches := matches_restored hunder hconfig fresh'
  refine ⟨recoveryWords a s, restored a s, restoredConfig a c s, restoredSimulation a c fresh' s,
    words_recoveryCommand a s, parse_recoveryWords hrange hrecoverable hconfig hfill
      ⟨htickMin, htick⟩, config_restored hconfig s, create_restored hunder hconfig fresh',
    hmatches, ?_, recoveryCommand_restored hunder hconfig hbare fresh'⟩
  intro n
  have hn := hmatches.advances n
  exact ⟨hn.tick, hn.board, hn.displayBoard, hn.finished, hn.selected⟩

/-- A run with a given board, a second rule and a file name that has to be quoted. -/
def blinking : Arguments where
  dimensions := "3x3".toList
  rules := "2x23/3,/2".toList
  seed := "S?".toList
  board := some "000.111.000".toList
  fill := 0.25
  postRules := some "012345678/".toList
  postTicks := 1
  renderImages := some "0:9".toList
  imageFormat := "it's %T.png".toList

theorem recoveryCommand_continues_blinking :
    ∃ c s₀, blinking.config ⟨80, 24⟩ = .ok c ∧ Simulation.create c [] = .ok s₀ ∧
      ∃ argv a' c' s',
        Shell.words (recoveryCommand blinking (s₀.perform .step)) =
          some (programName :: argv) ∧
        parse argv = .ok a' ∧ a'.config ⟨80, 24⟩ = .ok c' ∧
        Simulation.create c' [] = .ok s' ∧ (s₀.perform .step).Matches s' := by
  have hstarts : ((blinking.config ⟨80, 24⟩).toOption.bind fun c =>
      (Simulation.create c []).toOption).map (fun s => (s.perform .step).tick) = some 1 := by
    decide +kernel
  obtain ⟨s₀, hs₀, htick⟩ := Option.map_eq_some_iff.mp hstarts
  obtain ⟨c, hc, hcreate⟩ := Option.bind_eq_some_iff.mp hs₀
  have hc := toOption_eq_some_iff.mp hc
  have hcreate := toOption_eq_some_iff.mp hcreate
  have hrange : blinking.InRange := by
    constructor <;> decide
  have hrecoverable : blinking.Recoverable := by
    constructor <;> decide +kernel
  have htick : ([Simulation.Operation.step].foldl Simulation.perform s₀).tick ≤
      Numeral.maxI64 := by
    show (s₀.perform .step).tick ≤ Numeral.maxI64
    rw [htick]
    decide
  obtain ⟨argv, a', c', s', hwords, hparse, hconfig', hcreate', hmatches, _⟩ :=
    recoveryCommand_continues hrange hrecoverable (by decide +kernel) hc hcreate [.step] htick []
  exact ⟨c, s₀, hc, hcreate, argv, a', c', s', hwords, hparse, hconfig', hcreate', hmatches⟩

end TorusAutomaton.CommandLine

import TorusAutomaton.Proofs.Session.Frames
import TorusAutomaton.Proofs.Simulation.Samples

/-!
# What saved frames are compared with

A run without a terminal asks about inversion only when it saves a frame. So in the two modes that
compare populations the sample is the population of the frame that was saved before, however many
ticks ago, or that of the first board before any frame is saved. Mode `crowded` answers alike with
every sample. Mode `swing` does not: where ticks are left out between two frames it can answer
otherwise than it would by comparing with the tick before.
-/

namespace TorusAutomaton

/-- The policy whose sample is of this board. -/
def Flicker.sampling (mode : Mode) (b : Board) : Flicker where
  mode := mode
  previousAlive := b.population
  previousDead := b.total - b.population

namespace Simulation

/-- The board that a simulation comes to at a tick. -/
def boardAt (s : Simulation) (tick : Int) : Board := s.board.run s.rule s.tick (tick - s.tick).toNat

/-- A tick is the latest selected one before another tick, or the present one if none is selected in
between. -/
structure LatestBefore (s : Simulation) (tick latest : Int) : Prop where
  from_present : s.tick ≤ latest
  before : latest < tick ∨ latest = s.tick
  selected : s.Selects latest ∨ latest = s.tick
  none_between : ∀ t, latest < t → t < tick → ¬ s.Selects t

end Simulation

namespace Session

open TorusAutomaton

/-- A frame is inverted exactly if comparing its population with that of a sample says so: if the
change of the live cells is less than the second difference, which is one of dead cells in mode
`swing` and starts from live cells otherwise. -/
def Frame.ComparedWith (f : Frame) (sample : Board) : Prop :=
  let change : Int := sample.population - f.sim.alive
  let second : Int :=
    match f.sim.flicker.mode with
    | .swing => (sample.total - sample.population : Nat) - f.sim.dead
    | _ => sample.population - f.sim.dead
  f.inverted = true ↔ change < second

/-- The frames that were left in files, the first one first. -/
def filed (s : Session) : List Frame := s.acts.filterMap Act.filed?

/-- The tick of the last of some frames, or another tick if there are none. -/
def lastTickOf (frames : List Frame) (otherwise : Int) : Int :=
  (frames.getLast?.map fun f => f.sim.tick).getD otherwise

variable {s s' : Session} {k n : Nat}

/-! ## Frames left by a run -/

theorem filed_add (s : Session) (act : Act) : (s.add act).filed = s.filed ++ act.filed?.toList := by
  simp only [filed, acts, add, List.reverse_cons, List.filterMap_append]
  cases h : act.filed? <;> simp [h]

/-- Saving leaves the frame in a file, or fails without. -/
theorem filed_saveDue (hdirectory : s.sim.shouldSave = true → s.directory.isSome = true) :
    s.saveDue.1.filed = s.filed ++ (if s.sim.shouldSave then [s.dueFrame] else []) ∨
      s.saveDue.2.isSome = true ∧ s.saveDue.1.filed = s.filed := by
  unfold saveDue
  split
  · rename_i hdue
    have hasked : s.ask.1.filed = s.filed :=
      (filed_add _ _).trans (List.append_nil _)
    obtain ⟨s', failure, hsave⟩ : ∃ s' failure, s.ask.1.save s.ask.2 = (s', failure) :=
      ⟨_, _, rfl⟩
    have hresult : s.saveFrame = (s', s.ask.2, failure) := by
      show ((s.ask.1.save s.ask.2).1, s.ask.2, (s.ask.1.save s.ask.2).2) = _
      rw [hsave]
    have hsaves : s.ask.1.directory.isSome = true := hdirectory hdue
    rw [hresult, ← hasked]
    rcases save_cases hsaves hsave with ⟨files, path, rfl, rfl⟩ |
      ⟨files, fault, rfl, rfl⟩ | ⟨files, fault, rfl, rfl⟩
    · left
      show ((({ s.ask.1 with files } : Session).add (.saved s.dueFrame)).add
        (.noted (.frameWritten path))).filed = _
      rw [filed_add, filed_add]
      exact List.append_nil _
    · left
      exact filed_add { s.ask.1 with files } (.spoiled s.dueFrame)
    · right
      exact ⟨rfl, rfl⟩
  · left
    exact (List.append_nil _).symm

theorem isSome_directory_of_due (hs : s.Consistent) (h : After s k s')
    (hdue : s'.sim.shouldSave = true) : s'.directory.isSome = true := by
  obtain ⟨ticks, hticks, _⟩ := h.shouldSave_iff.mp hdue
  rw [h.directory]
  exact hs.directory (Option.isSome_of_mem hticks)

/-- A run that has come through some rounds leaves the frames that are due in these and in some more
rounds. -/
theorem filed_headlessFrom (hs : s.Consistent) (hunpaused : s.sim.paused = false) (steps : Nat)
    (hfiled : (round^[k] s).filed = s.filed ++ s.framesWithin k) :
    ∃ n, ((round^[k] s).headlessFrom steps).1.filed = s.filed ++ s.framesWithin n := by
  have hafter := after_rounds hs hunpaused k
  induction steps generalizing k with
  | zero =>
      have hend : ((round^[k] s).headlessFrom 0).1 = (round^[k] s).saveDue.1 := by
        rw [TerminalView.headlessFrom_eq]
        split
        · rfl
        · split <;> rfl
      rcases filed_saveDue (isSome_directory_of_due hs hafter) with hsaved | ⟨_, hsaved⟩
      · refine ⟨k + 1, ?_⟩
        rw [hend, hsaved, hfiled, framesWithin_succ, List.append_assoc]
      · exact ⟨k, by rw [hend, hsaved, hfiled]⟩
  | succ steps ih =>
      rcases filed_saveDue (isSome_directory_of_due hs hafter) with hsaved | ⟨hfailed, hsaved⟩
      · have hnext : (round^[k] s).saveDue.1.filed = s.filed ++ s.framesWithin (k + 1) := by
          rw [hsaved, hfiled, framesWithin_succ, List.append_assoc]
        rw [TerminalView.headlessFrom_eq]
        split
        · exact ⟨k + 1, hnext⟩
        · split
          · exact ⟨k + 1, hnext⟩
          · have hround : (round^[k] s).saveDue.1.perform .step = round^[k + 1] s :=
              (Function.iterate_succ_apply' round k s).symm
            show ∃ n, (((round^[k] s).saveDue.1.perform .step).headlessFrom steps).1.filed = _
            rw [hround]
            exact ih (hround ▸ hnext) (after_rounds hs hunpaused (k + 1))
      · obtain ⟨failure, hfailure⟩ := Option.isSome_iff_exists.mp hfailed
        rw [TerminalView.headlessFrom_eq, hfailure]
        exact ⟨k, hsaved.trans hfiled⟩

/-- The frames before one of those that are due in some rounds are due in the rounds before its
own. -/
theorem framesWithin_split {before after : List Frame} {f : Frame}
    (h : s.framesWithin n = before ++ f :: after) :
    ∃ k, before = s.framesWithin k ∧ (round^[k] s).sim.shouldSave = true ∧
      f = (round^[k] s).dueFrame := by
  induction n generalizing after with
  | zero => exact absurd h.symm (by simp [framesWithin])
  | succ n ih =>
      rw [framesWithin_succ] at h
      split at h
      · rename_i hdue
        rcases List.eq_nil_or_concat after with rfl | ⟨after, g, rfl⟩
        · obtain ⟨hbefore, hf⟩ := List.append_inj' h rfl
          exact ⟨n, hbefore.symm, hdue, (List.singleton_inj.mp hf).symm⟩
        · have hsplit : s.framesWithin n ++ [(round^[n] s).dueFrame] =
              (before ++ f :: after) ++ [g] := by simpa using h
          exact ih (List.append_inj' hsplit rfl).1
      · exact ih ((List.append_nil _).symm.trans h)

/-! ## Samples taken by a run -/

theorem lastTickOf_concat (frames : List Frame) (f : Frame) (otherwise : Int) :
    lastTickOf (frames ++ [f]) otherwise = f.sim.tick := by
  simp [lastTickOf]

theorem After.boardAt (h : After s k s') : s.sim.boardAt s'.sim.tick = s'.sim.board := by
  have hpassed : (s'.sim.tick - s.sim.tick).toNat = k := by
    rw [h.tick]
    omega
  rw [Simulation.boardAt, hpassed, h.board]

theorem flicker_saveDue (s : Session) :
    s.saveDue.1.sim.flicker =
      if s.sim.shouldSave then s.sim.asked.flicker else s.sim.flicker := by
  unfold saveDue
  split
  · obtain ⟨_, _, hsave⟩ := save_keeps s.ask.1 s.ask.2
    have hsim : (s.ask.1.save s.ask.2).1.sim = s.ask.1.sim := by rw [hsave]
    exact congrArg Simulation.flicker hsim
  · rfl

/-- What the policy remembers after some rounds is the board of the last frame, or the first
board. -/
theorem flicker_rounds (hs : s.Consistent) (hunpaused : s.sim.paused = false)
    {mode : Flicker.Mode} (hmode : mode.compares = true)
    (hfirst : s.sim.flicker = .sampling mode s.sim.board) (k : Nat) :
    (round^[k] s).sim.flicker =
      .sampling mode (s.sim.boardAt (lastTickOf (s.framesWithin k) s.sim.tick)) := by
  induction k with
  | zero =>
      have hstart : s.sim.boardAt s.sim.tick = s.sim.board := by
        rw [Simulation.boardAt, Int.sub_self]
        rfl
      exact hstart.symm ▸ hfirst
  | succ k ih =>
      have hafter := after_rounds hs hunpaused k
      have hround : (round^[k + 1] s).sim.flicker = (round^[k] s).saveDue.1.sim.flicker := by
        rw [Function.iterate_succ_apply']
        show (round^[k] s).saveDue.1.sim.step.flicker = _
        rw [TerminalView.step_unpaused hafter.saveDue.unpaused]
        rfl
      rw [hround, flicker_saveDue, framesWithin_succ]
      split
      · have hcompares : (round^[k] s).sim.flicker.mode.compares = true := by
          rw [ih]
          exact hmode
        have htick : lastTickOf (s.framesWithin k ++ [(round^[k] s).dueFrame]) s.sim.tick =
            (round^[k] s).sim.tick := lastTickOf_concat _ _ _
        rw [htick, hafter.boardAt, Simulation.asked, Flicker.record_of_compares hcompares, ih]
        rfl
      · rw [List.append_nil, ih]

theorem latestBefore_rounds (hs : s.Consistent) (hunpaused : s.sim.paused = false) (k : Nat) :
    s.sim.LatestBefore (s.sim.tick + k) (lastTickOf (s.framesWithin k) s.sim.tick) := by
  induction k with
  | zero =>
      constructor
      case from_present => exact Int.le_refl _
      case before => exact .inr rfl
      case selected => exact .inr rfl
      case none_between =>
        intro t hlow hhigh
        have hlow : s.sim.tick < t := hlow
        omega
  | succ k ih =>
      have hafter := after_rounds hs hunpaused k
      rw [framesWithin_succ]
      split
      · rename_i hdue
        have htick : (round^[k] s).dueFrame.sim.tick = s.sim.tick + k := hafter.ask.tick
        rw [lastTickOf_concat, htick]
        constructor
        case from_present => omega
        case before => omega
        case selected => exact .inl (hafter.shouldSave_iff.mp hdue)
        case none_between =>
          intro t hlow hhigh
          omega
      · rename_i hnot
        rw [List.append_nil]
        constructor
        case from_present => exact ih.from_present
        case before =>
          have := ih.before
          omega
        case selected => exact ih.selected
        case none_between =>
          intro t hlow hhigh hselects
          rcases Int.lt_or_le t (s.sim.tick + k) with hold | hnew
          · exact ih.none_between t hlow hold hselects
          · have hnow : t = s.sim.tick + k := by omega
            exact hnot (hafter.shouldSave_iff.mpr (hnow ▸ hselects))

/-! ## Comparing -/

/-- The policy inverts a frame by its sample. -/
theorem comparedWith_of_sampling {mode : Flicker.Mode} {sample : Board}
    (hmode : mode.compares = true) (h : s.sim.flicker = .sampling mode sample) :
    s.dueFrame.ComparedWith sample := by
  have hinverted : s.dueFrame.inverted = s.sim.inverted := rfl
  have hflicker : s.dueFrame.sim.flicker.mode = mode := by
    show s.sim.asked.flicker.mode = mode
    rw [Simulation.asked, Flicker.mode_record, h]
    rfl
  unfold Frame.ComparedWith
  rw [hinverted, hflicker, Simulation.inverted, h]
  cases mode with
  | off => cases hmode
  | strobe => cases hmode
  | crowded => exact decide_eq_true_iff
  | swing => exact decide_eq_true_iff

/-- In mode `crowded` every sample gives the same answer. -/
theorem Frame.ComparedWith.of_crowded {f : Frame} {sample : Board} (h : f.ComparedWith sample)
    (hmode : f.sim.flicker.mode = .crowded) (other : Board) : f.ComparedWith other := by
  unfold ComparedWith at h ⊢
  simp only [hmode] at h ⊢
  rw [h]
  omega

/-! ## Whole runs -/

/-- A session is started with nothing done, and its policy has sampled the first board. -/
theorem fresh_of_start {args : CommandLine.Arguments} {size : CommandLine.TerminalSize}
    {directory fresh : Text} {files : FileTree} {fonts : Fonts}
    (h : (Session.start args size directory files fresh fonts).outcome = .ok s) :
    s.filed = [] ∧ s.sim.flicker = .sampling s.sim.flicker.mode s.sim.board := by
  obtain ⟨config, sim, _, _, _, hcreate, _, rfl⟩ := parts_of_start h
  obtain ⟨_, _, _, _, _, _, _, _, _, _, _, rfl⟩ := Simulation.create_eq_ok_iff.mp hcreate
  exact ⟨rfl, rfl⟩

/-- The frames of a run without a terminal are those that are due in some number of rounds. -/
theorem filed_headless (hs : s.Consistent) (hnone : s.filed = []) :
    s.headless.1.filed = [] ∨
      s.sim.paused = false ∧ ∃ n, s.headless.1.filed = s.framesWithin n := by
  unfold headless
  split
  · exact .inl hnone
  · split
    · exact .inl hnone
    · rename_i hunpaused
      have hunpaused : s.sim.paused = false := eq_false_of_ne_true hunpaused
      have hstart : (round^[0] s).filed = s.filed ++ s.framesWithin 0 :=
        (List.append_nil _).symm
      obtain ⟨n, hn⟩ := filed_headlessFrom hs hunpaused s.ticksLeft hstart
      rw [hnone, List.nil_append] at hn
      exact .inr ⟨hunpaused, n, hn⟩

/-- **A saved frame is compared with the one saved before it.** In a run without a terminal in one
of the two modes that compare populations, every frame that is saved shows the board that the steps
up to its tick have made, and it is inverted by comparing that board with the board of the frame
saved before it, which is the board of the latest selected tick; the first frame is compared with
the first board. So a frame is compared with the tick before its own if that tick is selected or is
the first one, and in mode `crowded` the answer is the same in every case. It does not matter
whether all frames can be saved: a failure ends the run. -/
theorem compared_with_latest {args : CommandLine.Arguments} {size : CommandLine.TerminalSize}
    {directory fresh : Text} {files : FileTree} {fonts : Fonts}
    (hs : (Session.start args size directory files fresh fonts).outcome = .ok s)
    (hmode : s.sim.flicker.mode.compares = true) {before after : List Frame} {f : Frame}
    (hfiled : s.headless.1.filed = before ++ f :: after) :
    f.sim.flicker.mode = s.sim.flicker.mode ∧ f.sim.board = s.sim.boardAt f.sim.tick ∧
      s.sim.LatestBefore f.sim.tick (lastTickOf before s.sim.tick) ∧
      f.ComparedWith (s.sim.boardAt (lastTickOf before s.sim.tick)) ∧
      (s.sim.tick < f.sim.tick →
        s.sim.flicker.mode = .crowded ∨ s.sim.Selects (f.sim.tick - 1) ∨
          f.sim.tick - 1 = s.sim.tick →
        f.ComparedWith (s.sim.boardAt (f.sim.tick - 1))) := by
  have hconsistent := consistent_of_start hs
  obtain ⟨hnone, hfirst⟩ := fresh_of_start hs
  rcases filed_headless hconsistent hnone with hempty | ⟨hunpaused, n, hframes⟩
  · exact absurd (hempty.symm.trans hfiled) (by simp)
  obtain ⟨k, rfl, hdue, rfl⟩ := framesWithin_split (hframes.symm.trans hfiled)
  have hafter := (after_rounds hconsistent hunpaused k).ask
  have htick : (round^[k] s).dueFrame.sim.tick = s.sim.tick + k := hafter.tick
  have hflicker := flicker_rounds hconsistent hunpaused hmode hfirst k
  have hlatest := latestBefore_rounds hconsistent hunpaused k
  have hcompared := comparedWith_of_sampling hmode hflicker
  have hsame : (round^[k] s).dueFrame.sim.flicker.mode = s.sim.flicker.mode := by
    show (round^[k] s).sim.asked.flicker.mode = _
    rw [Simulation.asked, Flicker.mode_record, hflicker]
    rfl
  refine ⟨hsame, hafter.boardAt.symm, htick ▸ hlatest, hcompared, ?_⟩
  rintro hlater (hcrowded | hprevious)
  · exact hcompared.of_crowded (hsame.trans hcrowded) _
  · -- The tick before is the latest selected one, since nothing comes between.
    have hbefore : lastTickOf (s.framesWithin k) s.sim.tick =
        (round^[k] s).dueFrame.sim.tick - 1 := by
      have hlow := hlatest.before
      have hfrom := hlatest.from_present
      by_contra hne
      rcases hprevious with hselects | hpresent
      · exact hlatest.none_between _ (by omega) (by omega) hselects
      · omega
    exact hbefore ▸ hcompared

/-- A board that comes to life, stays alive for a tick and dies, of which some ticks are left
out. -/
def pulsing : Except StartError Session :=
  (Session.start
    { dimensions := "2x2".toList
      rules := "/012345678,/,012345678/".toList
      seed := "S".toList
      board := some "00.00".toList
      flickerMode := 2
      maxTicks := some 5
      renderImages := some "2,4,5".toList
      imageFormat := "%T.png".toList }
    ⟨80, 24⟩ "frames".toList { root := .empty, present := [] } []).outcome

theorem compared_with_latest_pulsing :
    ∃ s before f after, pulsing = .ok s ∧ s.headless.1.filed = before ++ f :: after ∧
      f.sim.tick = 4 ∧ lastTickOf before s.sim.tick = 2 ∧ f.ComparedWith (s.sim.boardAt 2) := by
  have hfacts : pulsing.toOption.any (fun s => decide (s.sim.flicker.mode.compares = true ∧
      s.headless.1.filed.map (fun f => f.sim.tick) = [2, 4, 5])) = true := by
    decide +kernel
  obtain ⟨s, hs, hfacts⟩ := (Option.any_eq_true _ _).mp hfacts
  obtain ⟨hmode, hticks⟩ := of_decide_eq_true hfacts
  have hs := Outcome.toOption_eq_some_iff.mp hs
  obtain ⟨first, later, hfiled, hfirst, hlater⟩ := List.map_eq_cons_iff.mp hticks
  obtain ⟨f, after, rfl, htick, _⟩ := List.map_eq_cons_iff.mp hlater
  have hfiled : s.headless.1.filed = [first] ++ f :: after := hfiled
  obtain ⟨_, _, _, hcompared, _⟩ := compared_with_latest hs hmode hfiled
  have hlast : lastTickOf [first] s.sim.tick = 2 := hfirst
  exact ⟨s, [first], f, after, hs, hfiled, htick, hlast, hlast ▸ hcompared⟩

/-- The first frame is inverted although all cells are alive at its tick and at the tick before,
since it is compared with the first board, in which none is. -/
theorem tick_before_left_out :
    ∃ s, pulsing = .ok s ∧ s.sim.flicker.mode = .swing ∧
      ∃ f ∈ s.headless.1.filed, s.sim.tick < f.sim.tick ∧ f.sim.board = s.sim.boardAt f.sim.tick ∧
        ¬ f.ComparedWith (s.sim.boardAt (f.sim.tick - 1)) := by
  have hfacts : pulsing.toOption.any (fun s => s.sim.flicker.mode == .swing &&
      s.headless.1.filed.any fun f => decide (s.sim.tick < f.sim.tick ∧
        f.sim.board = s.sim.boardAt f.sim.tick ∧ f.sim.flicker.mode = .swing ∧
        f.inverted = true ∧ f.sim.alive = 4 ∧ f.sim.dead = 0 ∧
        (s.sim.boardAt (f.sim.tick - 1)).population = 4 ∧
        (s.sim.boardAt (f.sim.tick - 1)).total = 4)) = true := by
    decide +kernel
  obtain ⟨s, hs, hfacts⟩ := (Option.any_eq_true _ _).mp hfacts
  obtain ⟨hmode, hfacts⟩ := Bool.and_eq_true_iff.mp hfacts
  obtain ⟨f, hf, hfacts⟩ := List.any_eq_true.mp hfacts
  obtain ⟨hlater, hboard, hswing, hinverted, halive, hdead, hpopulation, htotal⟩ :=
    of_decide_eq_true hfacts
  refine ⟨s, Outcome.toOption_eq_some_iff.mp hs, beq_iff_eq.mp hmode, f, hf, hlater, hboard, ?_⟩
  intro hcompared
  have hless := hcompared.mp hinverted
  simp only [hswing, halive, hdead, hpopulation, htotal] at hless
  omega

end Session

end TorusAutomaton

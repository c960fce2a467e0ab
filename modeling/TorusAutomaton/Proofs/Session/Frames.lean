import Mathlib.Logic.Function.Iterate
import TorusAutomaton.Proofs.Session.Agreement
import TorusAutomaton.Proofs.Simulation.Reached
import TorusAutomaton.Proofs.View.Captions

/-!
# The frames of a run without a terminal

A run without a terminal goes round by round: the frame of the present tick is saved if it is
selected, and then a step is made. What a session has come to after some rounds is said by an
invariant that every part of a round keeps. The rounds up to the last tick, and one saving more, are
the whole run, so its frames are those of the selected ticks on the way, each once and in order. The
image that is saved for a frame shows what the board has come to by its tick.
-/

namespace TorusAutomaton.Session

open TorusAutomaton Text

/-! ## Rounds -/

/-- A session as it is started: its settings agree, its last tick is a number of 64 bits, and what
it shows is what its board comes to. -/
structure Consistent (s : Session) : Prop extends Coherent s where
  fits : ∀ last ∈ s.sim.lastTick, last ≤ Numeral.maxI64
  shown : s.sim.displayBoard = s.sim.shownFor s.sim.board

theorem consistent_of_start {args : CommandLine.Arguments} {size : CommandLine.TerminalSize}
    {directory : Text} {files : FileTree} {fonts : Fonts} {fresh : Text} {s : Session}
    (h : (start args size directory files fresh fonts).outcome = .ok s) : s.Consistent := by
  obtain ⟨config, _, hcreate⟩ := create_of_start h
  have hunder := Simulation.under_of_create hcreate
  obtain ⟨_, _, _, hlast⟩ := Simulation.checkNumbers_eq_ok_iff.mp hunder.numbers
  exact ⟨coherent_of_start h, hunder.lastTick ▸ hlast, hunder.displayBoard⟩

/-- One round: the present frame is saved if it is selected, and a step is made. -/
def round (s : Session) : Session := s.saveDue.1.perform .step

/-- The frame of the present tick, if it is to be saved now. -/
def dueFrame (s : Session) : Frame := s.ask.1.frame s.ask.2

/-- What a session has come to when `k` ticks have passed. -/
structure After (s : Session) (k : Nat) (s' : Session) : Prop where
  args : s'.args = s.args
  caption : s'.caption = s.caption
  directory : s'.directory = s.directory
  unpaused : s'.sim.paused = false
  selection : s'.sim.selection = s.sim.selection
  lastTick : s'.sim.lastTick = s.sim.lastTick
  rule : s'.sim.rule = s.sim.rule
  tick : s'.sim.tick = s.sim.tick + k
  board : s'.sim.board = s.sim.board.run s.sim.rule s.sim.tick k
  shownFor : s'.sim.shownFor = s.sim.shownFor
  shown : s'.sim.displayBoard = s.sim.shownFor s'.sim.board

variable {s s' : Session} {k n : Nat} {d : Text}

theorem After.refl (hs : s.Consistent) (hunpaused : s.sim.paused = false) : After s 0 s where
  args := rfl
  caption := rfl
  directory := rfl
  unpaused := hunpaused
  selection := rfl
  lastTick := rfl
  rule := rfl
  tick := (Int.add_zero _).symm
  board := rfl
  shownFor := rfl
  shown := hs.shown

/-- Asking changes nothing but the flicker, which no part of the invariant looks at. -/
theorem After.ask (h : After s k s') : After s k s'.ask.1 := { h with }

theorem After.save (h : After s k s') (inverted : Bool) : After s k (s'.save inverted).1 := by
  obtain ⟨_, _, hsave⟩ := save_keeps s' inverted
  rw [hsave]
  exact { h with }

theorem After.saveDue (h : After s k s') : After s k s'.saveDue.1 := by
  unfold Session.saveDue
  split
  · exact h.ask.save _
  · exact h

theorem After.step (h : After s k s') : After s (k + 1) (s'.perform .step) := by
  have hsim : (s'.perform .step).sim = s'.sim.advance := TerminalView.step_unpaused h.unpaused
  constructor
  case args => exact h.args
  case caption => exact h.caption
  case directory => exact h.directory
  all_goals rw [hsim]
  case unpaused => exact h.unpaused
  case selection => exact h.selection
  case lastTick => exact h.lastTick
  case rule => exact h.rule
  case tick =>
    show s'.sim.tick + 1 = _
    rw [h.tick]
    omega
  case board =>
    show s'.sim.board.step s'.sim.rule s'.sim.tick = _
    rw [h.board, h.rule, h.tick, Board.run_add]
    rfl
  case shownFor => exact (Simulation.shownFor_advance _).trans h.shownFor
  case shown => rw [Simulation.displayBoard_advance, h.shownFor]

theorem after_rounds (hs : s.Consistent) (hunpaused : s.sim.paused = false) (k : Nat) :
    After s k (round^[k] s) := by
  induction k with
  | zero => exact .refl hs hunpaused
  | succ k ih =>
      rw [Function.iterate_succ_apply']
      exact ih.saveDue.step

theorem After.shouldSave_iff (h : After s k s') :
    s'.sim.shouldSave = true ↔ s.sim.Selects (s.sim.tick + k) := by
  unfold Simulation.shouldSave Simulation.selected Simulation.Selects
  rw [h.unpaused, h.selection, h.tick]
  cases s.sim.selection with
  | none => simp
  | some ticks => simp

/-! ## Frames -/

/-- What a frame that is saved adds to what was written. -/
def Frame.writing (f : Frame) (args : CommandLine.Arguments) (caption : Option View.Caption)
    (directory : Text) : Text × Option View.Image :=
  (f.path args directory, some (f.image args caption))

theorem written_save (hdirectory : s.directory = some d) {inverted : Bool}
    (h : (s.save inverted).2 = none) :
    (s.save inverted).1.written = s.written ++ [(s.frame inverted).writing s.args s.caption d] := by
  rw [save_eq hdirectory] at h ⊢
  split at h
  · rw [written_add, entry_noted, written_add, written_files]
    simp [entry, Act.file?, hdirectory, Frame.writing]
  · cases h
  · cases h
  · cases h

theorem written_saveDue (hdirectory : s.directory = some d) (h : s.saveDue.2 = none) :
    s.saveDue.1.written =
      s.written ++ if s.sim.shouldSave then [s.dueFrame.writing s.args s.caption d] else [] := by
  unfold saveDue at h ⊢
  split
  · rename_i hdue
    rw [if_pos hdue] at h
    have hasked : s.ask.1.directory = some d := hdirectory
    have hsave : (s.ask.1.save s.ask.2).2 = none := h
    have hwritten := written_save hasked hsave
    rwa [written_ask] at hwritten
  · exact (List.append_nil _).symm

/-- The frames that are due in the first `n` rounds. -/
def framesWithin (s : Session) (n : Nat) : List Frame :=
  (((List.range n).map fun k => round^[k] s).filter fun s' => s'.sim.shouldSave).map dueFrame

theorem framesWithin_succ (s : Session) (n : Nat) :
    s.framesWithin (n + 1) =
      s.framesWithin n ++
        if (round^[n] s).sim.shouldSave then [(round^[n] s).dueFrame] else [] := by
  simp only [framesWithin, List.range_succ, List.map_append, List.filter_append, List.map_cons,
    List.map_nil, List.filter_cons, List.filter_nil]
  split <;> rfl

theorem mem_framesWithin {f : Frame} :
    f ∈ s.framesWithin n ↔
      ∃ k < n, (round^[k] s).sim.shouldSave = true ∧ (round^[k] s).dueFrame = f := by
  simp only [framesWithin, List.mem_map, List.mem_filter, List.mem_range]
  constructor
  · rintro ⟨_, ⟨⟨k, hk, rfl⟩, hdue⟩, hf⟩
    exact ⟨k, hk, hdue, hf⟩
  · rintro ⟨k, hk, hdue, hf⟩
    exact ⟨_, ⟨⟨k, hk, rfl⟩, hdue⟩, hf⟩

/-- Rounds in which nothing fails write the frames that are due in them. -/
theorem written_rounds (hs : s.Consistent) (hunpaused : s.sim.paused = false)
    (hdirectory : s.directory = some d) (hwrites : ∀ k < n, (round^[k] s).saveDue.2 = none) :
    (round^[n] s).written =
      s.written ++ (s.framesWithin n).map fun f => f.writing s.args s.caption d := by
  induction n with
  | zero => exact (List.append_nil _).symm
  | succ n ih =>
      have hafter := after_rounds hs hunpaused n
      have ih := ih fun k hk => hwrites k (Nat.lt_succ_of_lt hk)
      have hstep : (round^[n + 1] s).written = (round^[n] s).saveDue.1.written := by
        rw [Function.iterate_succ_apply', written_eq, written_eq]
        rfl
      have hsaved := written_saveDue (hafter.directory.trans hdirectory)
        (hwrites n (Nat.lt_succ_self n))
      rw [hstep, hsaved, ih, hafter.args, hafter.caption, framesWithin_succ, List.map_append,
        List.append_assoc]
      split <;> rfl

/-- The sides of the image of a frame are numbers of 32 bits. -/
structure Frame.Fits (f : Frame) (args : CommandLine.Arguments) (caption : Option View.Caption) :
    Prop where
  width : f.sim.displayBoard.width * max args.zoom 1 ≤ Numeral.maxU32
  height : f.sim.displayBoard.height * max args.zoom 1 + View.band caption (f.subtitle args) ≤
    Numeral.maxU32

/-- The frames of the selected ticks from the present one to `last`. Each shows what the board has
come to by the steps of the ticks before it, and so does its image as far as its sides are of 32
bits. -/
structure FramesTo (s : Session) (last : Int) (frames : List Frame) : Prop where
  ticks : ∀ t, t ∈ frames.map (fun f => f.sim.tick) ↔
    s.sim.tick ≤ t ∧ t ≤ last ∧ s.sim.Selects t
  ascending : (frames.map fun f => f.sim.tick).Pairwise (· < ·)
  board : ∀ f ∈ frames,
    f.sim.board = s.sim.board.run s.sim.rule s.sim.tick (f.sim.tick - s.sim.tick).toNat
  shown : ∀ f ∈ frames, f.sim.displayBoard = s.sim.shownFor f.sim.board
  image : ∀ f ∈ frames, f.Fits s.args s.caption →
    (f.image s.args s.caption).Shows f.sim.displayBoard f.inverted (max s.args.zoom 1) s.caption
      (f.subtitle s.args)

theorem FramesTo.sides {last : Int} {frames : List Frame} (h : s.FramesTo last frames) {f : Frame}
    (hf : f ∈ frames) :
    f.sim.displayBoard.width = s.sim.board.width ∧
      f.sim.displayBoard.height = s.sim.board.height := by
  rw [h.shown f hf, Simulation.width_shownFor, Simulation.height_shownFor, h.board f hf,
    Board.width_run, Board.height_run]
  exact ⟨rfl, rfl⟩

theorem framesTo_framesWithin (hs : s.Consistent) (hunpaused : s.sim.paused = false) (n : Nat) :
    s.FramesTo (s.sim.tick + n) (s.framesWithin (n + 1)) := by
  have hafter := after_rounds hs hunpaused
  have hdue : ∀ k, After s k (round^[k] s).ask.1 := fun k => (hafter k).ask
  constructor
  case ticks =>
    intro t
    simp only [List.mem_map, mem_framesWithin]
    constructor
    · rintro ⟨_, ⟨k, hk, hsave, rfl⟩, rfl⟩
      have htick : (round^[k] s).dueFrame.sim.tick = s.sim.tick + k := (hdue k).tick
      rw [htick]
      exact ⟨by omega, by omega, (hafter k).shouldSave_iff.mp hsave⟩
    · rintro ⟨hlow, hhigh, hselects⟩
      obtain ⟨k, hk⟩ := Int.le.dest hlow
      refine ⟨_, ⟨k, by omega, ?_, rfl⟩, (hdue k).tick.trans hk⟩
      exact (hafter k).shouldSave_iff.mpr (hk ▸ hselects)
  case ascending =>
    -- Later rounds have later ticks, and leaving some out does not change the order.
    have hrounds : ((List.range (n + 1)).map fun k => round^[k] s).Pairwise
        fun s₁ s₂ => s₁.sim.tick < s₂.sim.tick := by
      refine List.pairwise_map.mpr (List.pairwise_lt_range.imp fun {i j} hij => ?_)
      rw [(hafter i).tick, (hafter j).tick]
      omega
    rw [framesWithin, List.map_map]
    exact List.pairwise_map.mpr (hrounds.filter _)
  case board =>
    intro f hf
    obtain ⟨k, _, _, rfl⟩ := mem_framesWithin.mp hf
    have htick : (round^[k] s).dueFrame.sim.tick = s.sim.tick + k := (hdue k).tick
    have hpassed : ((round^[k] s).dueFrame.sim.tick - s.sim.tick).toNat = k := by omega
    rw [hpassed]
    exact (hdue k).board
  case shown =>
    intro f hf
    obtain ⟨k, _, _, rfl⟩ := mem_framesWithin.mp hf
    exact (hdue k).shown
  case image => exact fun f _ _ => View.shows_ofFrame _ _ _ _ _

/-! ## Whole runs -/

theorem tick_add_ticksLeft {m : Nat} (h : s.sim.lastTick = some m) :
    s.sim.tick + s.ticksLeft = max s.sim.tick m := by
  simp only [ticksLeft, h]
  omega

theorem headless_eq {m : Nat} (hunpaused : s.sim.paused = false) (hmax : s.args.maxTicks = some m) :
    s.headless = s.headlessFrom s.ticksLeft := by
  simp only [headless, hmax, hunpaused, Option.isNone_some, Bool.false_eq_true, if_false]

/-- A run in which nothing fails is made of the rounds to its last tick and one saving more. -/
theorem headlessFrom_rounds (hruns : TerminalView.Runs s n)
    (hwrites : ∀ k ≤ n, (round^[k] s).saveDue.2 = none) {steps : Nat} (hsteps : n ≤ steps) :
    s.headlessFrom steps = ((round^[n] s).saveDue.1, .ok .done) := by
  induction n generalizing s steps with
  | zero =>
      have hfinished : s.saveDue.1.sim.finished = true := hruns.saveDue.finished_iff.mpr rfl
      have hnone : s.saveDue.2 = none := hwrites 0 (Nat.le_refl 0)
      rw [TerminalView.headlessFrom_eq, hnone, hfinished]
      rfl
  | succ n ih =>
      have hunfinished : s.saveDue.1.sim.finished = false :=
        eq_false_of_ne_true fun h => Nat.succ_ne_zero n (hruns.saveDue.finished_iff.mp h)
      have hnone : s.saveDue.2 = none := hwrites 0 (Nat.zero_le _)
      obtain ⟨steps, rfl⟩ := Nat.exists_eq_add_of_le' (Nat.le_trans (Nat.le_add_left 1 n) hsteps)
      rw [TerminalView.headlessFrom_eq, hnone, hunfinished]
      exact ih hruns.saveDue.step (fun k hk => hwrites (k + 1) (Nat.succ_le_succ hk))
        (Nat.le_of_succ_le_succ hsteps)

/-- **A run without a terminal writes exactly the selected frames.** A run that saves frames, is not
paused and knows its last tick comes to an end if no saving fails, and then it is done. It goes on
tick by tick to the last tick, never past it, and makes no step at all if it starts there or later;
so the tick is below the largest number of 64 bits whenever a step is made. On the way it writes one
frame for each selected tick, the first and the last tick included, in ascending order and none
besides; each shows what the second rule, if there is one, makes of the board that the steps of the
ticks before it have made of the first board. The image that is written for a frame has a square for
each cell, which is white where the frame has a live cell, or a dead one if it is inverted; only the
glyphs of its subtitle stand out from that, if it has a subtitle and a font. More steps would change
nothing, since the last tick ends the run. -/
theorem headless_frames {m : Nat} (hs : s.Consistent) (hunpaused : s.sim.paused = false)
    (hmax : s.args.maxTicks = some m) (hdirectory : s.directory = some d)
    (hwrites : ∀ k ≤ s.ticksLeft, (round^[k] s).saveDue.2 = none) :
    s.headless = ((round^[s.ticksLeft] s).saveDue.1, .ok .done) ∧
      (∀ steps, s.ticksLeft ≤ steps → s.headlessFrom steps = s.headless) ∧
      s.headless.1.sim.tick = max s.sim.tick m ∧ s.headless.1.sim.finished = true ∧
      (∀ k ≤ s.ticksLeft, (round^[k] s).sim.tick = s.sim.tick + k ∧
        (round^[k] s).sim.tick ≤ max s.sim.tick m) ∧
      (∀ k < s.ticksLeft, (round^[k] s).sim.tick < Numeral.maxI64) ∧
      ∃ frames, s.FramesTo (max s.sim.tick m) frames ∧
        s.headless.1.written = s.written ++ frames.map fun f => f.writing s.args s.caption d := by
  have hlast : s.sim.lastTick = some m := hs.lastTick.trans hmax
  have hruns : TerminalView.Runs s s.ticksLeft := ⟨hunpaused, by rw [hlast]; rfl, rfl⟩
  have hend := tick_add_ticksLeft hlast
  have hfrom : ∀ steps, s.ticksLeft ≤ steps →
      s.headlessFrom steps = ((round^[s.ticksLeft] s).saveDue.1, .ok .done) :=
    fun _ hsteps => headlessFrom_rounds hruns hwrites hsteps
  have hheadless : s.headless = ((round^[s.ticksLeft] s).saveDue.1, .ok .done) :=
    (headless_eq hunpaused hmax).trans (hfrom _ (Nat.le_refl _))
  have hafter := after_rounds hs hunpaused
  have hfinal : After s s.ticksLeft s.headless.1 := by
    rw [hheadless]
    exact (hafter s.ticksLeft).saveDue
  have htick : s.headless.1.sim.tick = max s.sim.tick m := hfinal.tick.trans hend
  refine ⟨hheadless, fun steps hsteps => (hfrom steps hsteps).trans hheadless.symm, htick, ?_, ?_,
    ?_, s.framesWithin (s.ticksLeft + 1), hend ▸ framesTo_framesWithin hs hunpaused s.ticksLeft, ?_⟩
  · have hlastTick : s.headless.1.sim.lastTick = some m := hfinal.lastTick.trans hlast
    simp only [Simulation.finished, hlastTick, htick, decide_eq_true_eq]
    exact Int.le_max_right _ _
  · intro k hk
    rw [(hafter k).tick, ← hend]
    exact ⟨rfl, by omega⟩
  · intro k hk
    have hfits : m ≤ Numeral.maxI64 := hs.fits m hlast
    rw [(hafter k).tick]
    omega
  · -- The last saving writes what a further round would write.
    have hround : s.headless.1.written = (round^[s.ticksLeft + 1] s).written := by
      rw [hheadless, Function.iterate_succ_apply', written_eq, written_eq]
      rfl
    rw [hround]
    exact written_rounds hs hunpaused hdirectory fun k hk => hwrites k (Nat.le_of_lt_succ hk)

/-- A session with a second rule, which starts before its first selected tick. Some selected ticks
come after its last tick, which is selected by counting back. Its frames are saved with
subtitles. -/
def glimpsed : Except StartError Session :=
  (Session.start
    { dimensions := "3x2".toList
      rules := "0145678/3,/2".toList
      seed := "S".toList
      board := some "110.000".toList
      postRules := some "1/1".toList
      postTicks := 2
      tick := -1
      maxTicks := some 3
      renderImages := some "0:8:2,-1".toList
      imageFormat := "%T.png".toList
      zoom := 2
      fontPath := some "dots.ttf".toList
      fontSize := 3
      subtitle := "%t".toList }
    ⟨80, 24⟩ "frames".toList
    { root := .directory [("dots.ttf".toList, .file none)], present := [] } []
    fun _ => some View.dots).outcome

theorem headless_frames_glimpsed :
    ∃ s frames, glimpsed = .ok s ∧ s.sim.tick = -1 ∧ s.headless.2 = .ok .done ∧
      s.headless.1.sim.tick = 3 ∧ s.FramesTo 3 frames ∧ frames.length = 3 ∧
      3 ∈ frames.map (fun f => f.sim.tick) ∧
      (∀ f ∈ frames, (f.image s.args s.caption).Shows f.sim.displayBoard f.inverted 2 s.caption
        (f.subtitle s.args)) ∧
      s.caption = some (.ofFont View.dots 3) ∧
      s.headless.1.written = frames.map fun f => f.writing s.args s.caption "frames".toList := by
  have hfacts : glimpsed.toOption.any (fun s => decide (s.sim.paused = false ∧
      s.args.maxTicks = some 3 ∧ s.directory = some "frames".toList ∧ s.sim.tick = -1 ∧
      (∀ k ≤ s.ticksLeft, (round^[k] s).saveDue.2 = none) ∧ s.written.length = 0 ∧
      s.headless.1.written.length = 3 ∧ s.sim.selection.any (·.contains 3) = true ∧
      s.sim.board.width = 3 ∧ s.sim.board.height = 2 ∧ max s.args.zoom 1 = 2)) = true := by
    decide +kernel
  obtain ⟨s, hs, hfacts⟩ := (Option.any_eq_true _ _).mp hfacts
  obtain ⟨hunpaused, hmax, hdirectory, htick, hwrites, hempty, hlength, hlast, hwidth, hheight,
    hzoom⟩ := of_decide_eq_true hfacts
  have hs := Outcome.toOption_eq_some_iff.mp hs
  have hcaption := (caption_of_start hs).mpr ⟨rfl, rfl, _, _, rfl, ⟨none, rfl⟩, rfl, rfl⟩
  obtain ⟨hheadless, _, hend, _, _, _, frames, hframes, hwritten⟩ :=
    headless_frames (consistent_of_start hs) hunpaused hmax hdirectory hwrites
  have hmax : max s.sim.tick ((3 : Nat) : Int) = 3 := by rw [htick]; decide
  rw [hmax] at hend hframes
  rw [List.length_eq_zero_iff.mp hempty, List.nil_append] at hwritten
  refine ⟨s, frames, hs, htick, by rw [hheadless], hend, hframes, ?_, ?_, ?_, hcaption, hwritten⟩
  · simpa [hwritten] using hlength
  · obtain ⟨ticks, hticks, hcontains⟩ := (Option.any_eq_true _ _).mp hlast
    exact (hframes.ticks 3).mpr ⟨by rw [htick]; decide, by decide, ticks, hticks, hcontains⟩
  · intro f hf
    have hband : View.band s.caption (f.subtitle s.args) ≤ 3 := by
      rw [hcaption]
      exact View.band_le _ _
    obtain ⟨hshownWidth, hshownHeight⟩ := hframes.sides hf
    have himage := hframes.image f hf
    rw [hzoom] at himage
    refine himage ⟨?_, ?_⟩
    · rw [hshownWidth, hwidth, hzoom]
      decide
    · rw [hshownHeight, hheight, hzoom]
      exact Nat.le_trans (Nat.add_le_add_left hband _) (by decide)

end TorusAutomaton.Session

import TorusAutomaton.Proofs.Board.Cells
import TorusAutomaton.Proofs.Flicker
import TorusAutomaton.Proofs.Simulation.Reached

/-!
# The course of a simulation

How many ticks a simulation has made is told by what was done to it, and the tick, the board and
what is shown follow from that number and the first board. Nothing else that was done, and nothing
that was shown on the way, has any part in them.
-/

namespace TorusAutomaton.Simulation

open TorusAutomaton

/-! ## What operations do -/

/-- The number of ticks that operations make on a simulation that is paused or not: one for each
advance, and one for each step that is made while not paused. -/
def moves : Bool → List Operation → Nat
  | _, [] => 0
  | paused, .advance :: rest => 1 + moves paused rest
  | paused, .step :: rest => (if paused then 0 else 1) + moves paused rest
  | paused, .togglePause :: rest => moves (!paused) rest
  | paused, .cycleFlicker :: rest => moves paused rest
  | paused, .ask :: rest => moves paused rest

/-- A simulation has come to another one by this many ticks and turns of the flicker mode. -/
structure Came (s : Simulation) (ticks turns : Nat) (t : Simulation) : Prop where
  tick : t.tick = s.tick + ticks
  rule : t.rule = s.rule
  board : t.board = s.board.run s.rule s.tick ticks
  mode : t.flicker.mode.number = (s.flicker.mode.number + turns) % 4
  second : t.post.map (fun p => (p.rule, p.ticks)) = s.post.map fun p => (p.rule, p.ticks)

variable {s t u : Simulation} {m n a b : Nat}

/-- A simulation that differs in its pause and its flicker only has come without a tick. -/
theorem came_of_same (htick : t.tick = s.tick) (hrule : t.rule = s.rule) (hboard : t.board = s.board)
    (hpost : t.post = s.post)
    (hmode : t.flicker.mode.number = (s.flicker.mode.number + a) % 4) : s.Came 0 a t where
  tick := by rw [htick, Int.natCast_zero, Int.add_zero]
  rule := hrule
  board := hboard
  mode := hmode
  second := by rw [hpost]

theorem came_refl (s : Simulation) : s.Came 0 0 s :=
  came_of_same rfl rfl rfl rfl (Nat.mod_eq_of_lt (Flicker.Mode.number_lt _)).symm

theorem came_advance (s : Simulation) : s.Came 1 0 s.advance where
  tick := rfl
  rule := rfl
  board := rfl
  mode := (Nat.mod_eq_of_lt (Flicker.Mode.number_lt _)).symm
  second := by simp [advance, Function.comp_def, PostProcess.refresh]

theorem Came.trans (h : s.Came m a t) (h' : t.Came n b u) : s.Came (m + n) (a + b) u where
  tick := by rw [h'.tick, h.tick, Int.natCast_add, Int.add_assoc]
  rule := h'.rule.trans h.rule
  board := by rw [h'.board, h.board, h.rule, h.tick, Board.run_add]
  mode := by rw [h'.mode, h.mode, Nat.mod_add_mod, Nat.add_assoc]
  second := h'.second.trans h.second

/-- One operation makes the ticks and turns that are counted for it. -/
theorem came_perform (s : Simulation) (op : Operation) :
    s.Came (moves s.paused [op]) ([op].count .cycleFlicker) (s.perform op) := by
  cases op with
  | advance => exact came_advance s
  | step =>
      show s.Came _ 0 s.step
      cases hpaused : s.paused with
      | true =>
          rw [step, if_pos hpaused]
          exact came_refl s
      | false =>
          rw [step, if_neg (by simp [hpaused])]
          exact came_advance s
  | togglePause => exact came_of_same rfl rfl rfl rfl (came_refl s).mode
  | cycleFlicker => exact came_of_same rfl rfl rfl rfl (Flicker.Mode.number_next _)
  | ask =>
      refine came_of_same rfl rfl rfl rfl ?_
      show (s.flicker.record _ _).mode.number = _
      rw [Flicker.mode_record]
      exact (came_refl s).mode

/-- Only a toggle decides whether the operations after it find the simulation paused. -/
theorem moves_cons (s : Simulation) (op : Operation) (ops : List Operation) :
    moves s.paused (op :: ops) = moves s.paused [op] + moves (s.perform op).paused ops := by
  cases op with
  | step =>
      have hpaused : s.step.paused = s.paused := by
        unfold step
        split <;> rfl
      show _ = _ + moves s.step.paused ops
      rw [hpaused]
      rfl
  | advance => rfl
  | togglePause => exact (Nat.zero_add _).symm
  | cycleFlicker => exact (Nat.zero_add _).symm
  | ask => exact (Nat.zero_add _).symm

theorem came_performAll (s : Simulation) (ops : List Operation) :
    s.Came (moves s.paused ops) (ops.count .cycleFlicker) (ops.foldl perform s) := by
  induction ops generalizing s with
  | nil => exact came_refl s
  | cons op rest ih =>
      have hcount : (op :: rest).count Operation.cycleFlicker =
          [op].count .cycleFlicker + rest.count .cycleFlicker :=
        @List.count_append _ _ _ [op] rest
      rw [moves_cons, hcount]
      exact (came_perform s op).trans (ih _)

/-! ## From the creation on -/

/-- Where a simulation that was created as `first` is after these operations. -/
structure OnCourse (c : Config) (first : Simulation) (ops : List Operation) (s : Simulation) :
    Prop where
  tick : s.tick = c.startTick + moves c.paused ops
  board : s.board = first.board.run first.rule c.startTick (moves c.paused ops)
  width : s.board.width = first.board.width ∧ 1 ≤ s.board.width
  height : s.board.height = first.board.height ∧ 1 ≤ s.board.height
  cells : s.board.cells.size = first.board.width * first.board.height
  shownCells : s.displayBoard.cells.size = first.board.width * first.board.height
  counts : s.alive + s.dead = s.total ∧ s.total = first.board.width * first.board.height
  mode : s.flicker.mode.number = (c.flickerMode + ops.count .cycleFlicker) % 4 ∧
    s.flicker.mode.number < 4
  second : s.post.map (·.rule) = first.post.map (·.rule) ∧
    (s.post.isSome ↔ c.postRule.isSome ∧ 0 < c.postTicks)
  shown : ∀ p ∈ s.post, s.displayBoard = s.board.run p.rule 0 c.postTicks
  shownPlain : s.post = none → s.displayBoard = s.board

theorem post_of_create {c : Config} {fresh : Text} (h : create c fresh = .ok s) :
    s.post.isSome ↔ c.postRule.isSome ∧ 0 < c.postTicks := by
  obtain ⟨_, rule, source, postRule, source', board, selection, _, hpost, _, _, rfl⟩ :=
    create_eq_ok_iff.mp h
  rw [Config.assemble, Option.isSome_map]
  rcases readPostRule_eq_ok_iff.mp hpost with ⟨t, r, ht, hticks, rfl, _⟩ | ⟨hnone | hzero, rfl, _⟩
  · simp [ht, hticks]
  · simp [hnone]
  · simp [hzero]

theorem start_of_create {c : Config} {fresh : Text} (h : create c fresh = .ok s) :
    s.tick = c.startTick ∧ s.paused = c.paused ∧ s.flicker.mode = .ofNumber c.flickerMode := by
  obtain ⟨_, _, _, _, _, _, _, _, _, _, _, rfl⟩ := create_eq_ok_iff.mp h
  exact ⟨rfl, rfl, rfl⟩

/-- What is shown has the size of the board it is derived from. -/
theorem size_shownFor (s : Simulation) (board : Board) :
    (s.shownFor board).cells.size = board.width * board.height := by
  rw [Board.size_eq]
  unfold shownFor
  split <;> simp only [Board.width_run, Board.height_run]

/-- **What operations make of a simulation.** Whatever is done to a simulation from its creation on,
in any order: the tick and the board are those after as many ticks as there were advances and steps
made while not paused; the sides of the board stay, its cells are as many as they enclose, and each
of them is alive or dead; the flicker mode is one of the four; and what is shown is the board, or
what the second rule makes of the present board from tick zero on. -/
theorem on_course_of_create {c : Config} {fresh : Text} {first : Simulation}
    (h : create c fresh = .ok first) (ops : List Operation) :
    OnCourse c first ops (ops.foldl perform first) := by
  obtain ⟨htick, hpaused, hmode⟩ := start_of_create h
  have hcame := came_performAll first ops
  have hunder := (under_of_create h).performAll ops
  generalize ops.foldl perform first = s at hcame hunder ⊢
  rw [hpaused] at hcame
  have hwidth : s.board.width = first.board.width := by rw [hcame.board, Board.width_run]
  have hheight : s.board.height = first.board.height := by rw [hcame.board, Board.height_run]
  have hcells : s.board.cells.size = first.board.width * first.board.height := by
    rw [Board.size_eq, hwidth, hheight]
  have hrules : s.post.map (·.rule) = first.post.map (·.rule) := by
    have := congrArg (Option.map Prod.fst) hcame.second
    simpa only [Option.map_map, Function.comp_def] using this
  constructor
  case tick => rw [hcame.tick, htick]
  case board => rw [hcame.board, htick]
  case width => exact ⟨hwidth, s.board.width_pos⟩
  case height => exact ⟨hheight, s.board.height_pos⟩
  case cells => exact hcells
  case shownCells => rw [hunder.displayBoard, size_shownFor, hwidth, hheight]
  case counts =>
    have hle : s.alive ≤ s.total := Array.count_le_size
    exact ⟨Nat.add_sub_cancel' hle, hcells⟩
  case mode =>
    refine ⟨?_, Flicker.Mode.number_lt _⟩
    rw [hcame.mode, hmode, Flicker.Mode.number_ofNumber, Nat.mod_add_mod]
  case second =>
    refine ⟨hrules, ?_⟩
    have hsome := congrArg Option.isSome hrules
    rw [Option.isSome_map, Option.isSome_map] at hsome
    rw [hsome]
    exact post_of_create h
  case shown =>
    intro p hp
    rw [hunder.displayBoard, ← (hunder.postTicks p hp).1]
    simp only [shownFor, Option.mem_def.mp hp]
  case shownPlain =>
    intro hnone
    simp only [hunder.displayBoard, shownFor, hnone]

/-- A blinker that is shown as its second rule leaves it after two ticks. -/
def blinking : Config where
  width := 5
  height := 4
  rule := "23/3".toList
  seed := some "S".toList
  flickerMode := 6
  startTick := -1
  board := some "00000.01110.00000.00000".toList
  randomFill := false
  fill := 0.5
  keepSize := false
  postRule := some "1/1,/2".toList
  postTicks := 2
  lastTick := none
  selection := none
  drawEvery := 1
  paused := true

theorem on_course_of_create_blinking :
    ∃ first, create blinking "fresh".toList = .ok first ∧
      OnCourse blinking first [.step, .advance, .cycleFlicker, .togglePause, .ask, .step]
        ([.step, .advance, .cycleFlicker, .togglePause, .ask, .step].foldl perform first) ∧
      moves blinking.paused [.step, .advance, .cycleFlicker, .togglePause, .ask, .step] = 2 := by
  have hcreated : (create blinking "fresh".toList).toOption.isSome = true := by decide +kernel
  obtain ⟨first, hfirst⟩ := Option.isSome_iff_exists.mp hcreated
  have hfirst := Outcome.toOption_eq_some_iff.mp hfirst
  exact ⟨first, hfirst, on_course_of_create hfirst _, by decide⟩

end TorusAutomaton.Simulation

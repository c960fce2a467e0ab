import Mathlib.Logic.Function.Iterate
import TorusAutomaton.Proofs.Board.Cells
import TorusAutomaton.Proofs.Rule.Canonical
import TorusAutomaton.Proofs.Simulation.Creation

/-!
# Simulations that are reached

What stays true of a simulation from its creation on, whatever is done to it, and when two
simulations take the same course from now on.
-/

namespace TorusAutomaton.Simulation

open TorusAutomaton Text Journal Outcome

/-! ## What a simulation keeps of its configuration -/

/-- A simulation that runs under a configuration: what was settled at its creation is as it was, and
what is shown is derived from the present board. -/
structure Under (c : Config) (fresh : Text) (s : Simulation) : Prop where
  numbers : c.checkNumbers = .ok ()
  rule : s.rule.Settled
  seed : s.seed = c.markedSeed fresh
  seedGenerated : s.seedGenerated = (c.chooseSeed fresh).2
  selection : c.readSelection.outcome = .ok s.selection
  drawEvery : s.drawEvery = c.drawEvery
  lastTick : s.lastTick = c.lastTick
  tick : c.startTick ≤ s.tick
  postRule : ∀ p ∈ s.post, p.rule.Settled ∧ c.postRule.isSome
  postTicks : ∀ p ∈ s.post, p.ticks = c.postTicks ∧ 0 < c.postTicks
  postBoard : ∀ p ∈ s.post, p.board = derive p.rule p.ticks s.board

variable {c : Config} {fresh : Text} {s : Simulation}

theorem under_of_create (h : create c fresh = .ok s) : s.Under c fresh := by
  obtain ⟨hnumbers, rule, source, postRule, source', board, selection, hrule, hpost, hboard,
    hselection, rfl⟩ := create_eq_ok_iff.mp h
  -- A second rule was read only for a positive number of ticks.
  have hsecond : ∀ r ∈ postRule, r.Settled ∧ c.postRule.isSome ∧ 0 < c.postTicks := by
    rintro r hr
    rcases readPostRule_eq_ok_iff.mp hpost with ⟨t, r', ht, hticks, rfl, hparse⟩ | ⟨_, rfl, _⟩
    · cases hr
      exact ⟨Rule.settled_of_parse hparse, by simp [ht], hticks⟩
    · cases hr
  constructor
  case numbers => exact hnumbers
  case rule => exact Rule.settled_of_parse hrule
  case selection => exact hselection
  case tick => exact Int.le_refl _
  case postRule =>
    intro p hp
    obtain ⟨r, hr, rfl⟩ := Option.map_eq_some_iff.mp hp
    exact ⟨(hsecond r hr).1, (hsecond r hr).2.1⟩
  case postTicks =>
    intro p hp
    obtain ⟨r, hr, rfl⟩ := Option.map_eq_some_iff.mp hp
    exact ⟨rfl, (hsecond r hr).2.2⟩
  case postBoard =>
    intro p hp
    obtain ⟨r, hr, rfl⟩ := Option.map_eq_some_iff.mp hp
    rfl
  all_goals rfl

theorem Under.advance (h : s.Under c fresh) : s.advance.Under c fresh where
  numbers := h.numbers
  rule := h.rule
  seed := h.seed
  seedGenerated := h.seedGenerated
  selection := h.selection
  drawEvery := h.drawEvery
  lastTick := h.lastTick
  tick := Int.le_trans h.tick (Int.le_add_of_nonneg_right (by decide))
  postRule := by
    intro p hp
    obtain ⟨q, hq, rfl⟩ := Option.map_eq_some_iff.mp hp
    exact h.postRule q hq
  postTicks := by
    intro p hp
    obtain ⟨q, hq, rfl⟩ := Option.map_eq_some_iff.mp hp
    exact h.postTicks q hq
  postBoard := by
    intro p hp
    obtain ⟨q, hq, rfl⟩ := Option.map_eq_some_iff.mp hp
    rfl

/-- No operation leaves the configuration. -/
theorem Under.perform (h : s.Under c fresh) (op : Operation) : (s.perform op).Under c fresh := by
  cases op with
  | step =>
      show s.step.Under c fresh
      unfold Simulation.step
      split
      · exact h
      · exact h.advance
  | advance => exact h.advance
  | togglePause => exact { h with }
  | cycleFlicker => exact { h with }
  | ask => exact { h with }

theorem Under.performAll (h : s.Under c fresh) (ops : List Operation) :
    (ops.foldl Simulation.perform s).Under c fresh := by
  induction ops generalizing s with
  | nil => exact h
  | cons op rest ih => exact ih (h.perform op)

/-! ## What is shown -/

/-- The board to show for a board: what the second rule, if there is one, makes of it from tick zero
on. -/
def shownFor (s : Simulation) (board : Board) : Board :=
  match s.post with
  | some p => board.run p.rule 0 p.ticks
  | none => board

/-- Whether the frame of a tick is among those to be saved. -/
def Selects (s : Simulation) (tick : Int) : Prop :=
  ∃ ticks ∈ s.selection, ticks.contains tick = true

theorem Under.displayBoard (h : s.Under c fresh) : s.displayBoard = s.shownFor s.board := by
  unfold Simulation.displayBoard shownFor
  cases hpost : s.post with
  | none => rfl
  | some p => exact h.postBoard p hpost

theorem shownFor_advance (s : Simulation) : s.advance.shownFor = s.shownFor := by
  funext board
  simp only [shownFor, Simulation.advance]
  cases s.post <;> rfl

theorem displayBoard_advance (s : Simulation) :
    s.advance.displayBoard = s.shownFor s.advance.board := by
  simp only [Simulation.displayBoard, shownFor, Simulation.advance]
  cases s.post <;> rfl

theorem width_shownFor (s : Simulation) (board : Board) :
    (s.shownFor board).width = board.width := by
  unfold shownFor
  split <;> simp only [Board.width_run]

theorem height_shownFor (s : Simulation) (board : Board) :
    (s.shownFor board).height = board.height := by
  unfold shownFor
  split <;> simp only [Board.height_run]

/-! ## Advancing again and again -/

/-- Nothing but the board, the tick and what is shown moves on. -/
theorem advances_eq (s : Simulation) (k : Nat) :
    ∃ board post, Simulation.advance^[k] s = { s with board, tick := s.tick + k, post } := by
  induction k with
  | zero => exact ⟨s.board, s.post, by simp⟩
  | succ k ih =>
      obtain ⟨board, post, hsame⟩ := ih
      refine ⟨(Simulation.advance^[k + 1] s).board, (Simulation.advance^[k + 1] s).post, ?_⟩
      rw [Function.iterate_succ_apply', hsame]
      simp only [Simulation.advance, Int.natCast_succ, Int.add_assoc]

theorem displayBoard_advances (h : s.displayBoard = s.shownFor s.board) (k : Nat) :
    (Simulation.advance^[k] s).displayBoard = s.shownFor (Simulation.advance^[k] s).board := by
  induction k generalizing s with
  | zero => exact h
  | succ k ih =>
      have hnext : s.advance.displayBoard = s.advance.shownFor s.advance.board := by
        rw [displayBoard_advance, shownFor_advance]
      rw [Function.iterate_succ_apply, ih hnext, shownFor_advance]

theorem height_advances (s : Simulation) (k : Nat) :
    (Simulation.advance^[k] s).board.height = s.board.height := by
  induction k generalizing s with
  | zero => rfl
  | succ k ih => rw [Function.iterate_succ_apply, ih, Simulation.advance, Board.height_step]

/-! ## Simulations on the same course -/

/-- Two simulations that cannot be told apart by what they show from now on. Whether they are paused
and which population the flicker has seen last may differ. -/
structure Matches (s t : Simulation) : Prop where
  board : s.board = t.board
  tick : s.tick = t.tick
  rule : s.rule = t.rule
  mode : s.flicker.mode = t.flicker.mode
  post : s.post = t.post
  selection : s.selection = t.selection
  drawEvery : s.drawEvery = t.drawEvery
  lastTick : s.lastTick = t.lastTick

namespace Matches

variable {t : Simulation}

theorem displayBoard (h : s.Matches t) : s.displayBoard = t.displayBoard := by
  simp only [Simulation.displayBoard, h.post, h.board]

theorem finished (h : s.Matches t) : s.finished = t.finished := by
  simp only [Simulation.finished, h.lastTick, h.tick]

theorem selected (h : s.Matches t) : s.selected = t.selected := by
  simp only [Simulation.selected, h.selection, h.tick]

theorem advance (h : s.Matches t) : s.advance.Matches t.advance where
  board := by simp only [Simulation.advance, h.board, h.rule, h.tick]
  tick := by simp only [Simulation.advance, h.tick]
  rule := h.rule
  mode := h.mode
  post := by simp only [Simulation.advance, h.board, h.rule, h.tick, h.post]
  selection := h.selection
  drawEvery := h.drawEvery
  lastTick := h.lastTick

theorem advances (h : s.Matches t) (n : Nat) :
    (Simulation.advance^[n] s).Matches (Simulation.advance^[n] t) := by
  induction n generalizing s t with
  | zero => exact h
  | succ n ih => exact ih h.advance

end Matches

end TorusAutomaton.Simulation

import TorusAutomaton.Proofs.Board.Placement
import TorusAutomaton.Proofs.Board.Layout
import TorusAutomaton.Proofs.Simulation.Creation

/-!
# Given states

A simulation that is created from a given state starts with the whole of it: with the state moved
into a board of the configured sides where there is room for it, and with the state as it is written
otherwise. Want of room is no failure, and no live cell is lost on either way.
-/

namespace TorusAutomaton.Simulation

open TorusAutomaton Journal Outcome

variable {c : Config} {state board : Board}

/-- A state is to be moved into the configured board, and is smaller than it both ways. -/
def Config.HasRoom (c : Config) (state : Board) : Prop :=
  c.keepSize = false ∧ state.width < c.width ∧ state.height < c.height

/-- What a configuration makes of a given state. -/
structure Config.Placed (c : Config) (state board : Board) : Prop where
  moved : c.HasRoom state → state.Expanded c.width c.height board
  kept : ¬ c.HasRoom state → board = state

theorem Config.Placed.population_eq (h : c.Placed state board) :
    board.population = state.population := by
  by_cases hroom : c.HasRoom state
  · exact (h.moved hroom).translated.population_eq
  · rw [h.kept hroom]

/-- A state is placed in every configuration. -/
theorem exists_placed (c : Config) (state : Board) :
    ∃ board, (c.place state).outcome = .ok board ∧ c.Placed state board := by
  unfold Config.place
  split
  · rename_i hkeep
    refine ⟨state, rfl, ?_, fun _ => rfl⟩
    intro hroom
    rw [hroom.1] at hkeep
    cases hkeep
  · rename_i hkeep
    split
    · rename_i board hboard
      have hexpanded := Board.expanded_of_expand hboard
      refine ⟨board, rfl, fun _ => hexpanded, ?_⟩
      intro hroom
      exact absurd ⟨Bool.eq_false_iff.mpr hkeep, (Board.translated_of_expand hboard).1⟩ hroom
    · rename_i mismatch hmismatch
      have hlarge := (Board.expand_eq_error_iff.mp hmismatch).1
      refine ⟨state, ?_, ?_, fun _ => rfl⟩
      · split <;> rfl
      · rintro ⟨_, hwidth, hheight⟩
        omega

theorem placed_of_create {fresh t : Text} {s : Simulation} (h : create c fresh = .ok s)
    (hgiven : c.board = some t) :
    ∃ state, Board.parse t = .ok state ∧ c.Placed state s.board := by
  obtain ⟨_, _, _, _, source, board, _, _, _, hboard, _, rfl⟩ := create_eq_ok_iff.mp h
  simp only [Config.firstBoard, hgiven, Kept.outcome_bind, Kept.outcome_lift, bind_eq_ok_iff,
    mapError_eq_ok_iff] at hboard
  obtain ⟨state, hstate, hplace⟩ := hboard
  obtain ⟨board', hboard', hplaced⟩ := exists_placed c state
  cases hplace.symm.trans hboard'
  exact ⟨state, hstate, hplaced⟩

/-- **A given state is placed as a whole.** Expanding a board fails exactly when it is not smaller
both ways; where it succeeds, copying cell by cell never subtracts below zero, stays inside the
arrays and leads to the same board, which is a translate of the given one that crosses no edge. The
margin is the difference of the halved sides, less one if the longer side is even, and it is
followed on the other side of the board by one that is up to two cells larger. So a simulation that
is created from a given state starts with its translate where it has room and with the state itself
otherwise, and there are as many live cells as the text of the state has ones. -/
theorem starts_with_given_state :
    (∀ (b : Board) (width height : Nat),
      (∀ e : Board.Error, b.expand width height = .error e ↔
        (width ≤ b.width ∨ height ≤ b.height) ∧ e = .mismatch b.width b.height width height) ∧
      (b.width < width ∧ b.height < height →
        ∃ out, b.expand width height = .ok out ∧ b.Expanded width height out)) ∧
    (∀ small large : Nat, small < large →
      (Board.margin small large : Int) =
        (large / 2 : Nat) - (small / 2 : Nat) - (if large % 2 = 0 then 1 else 0) ∧
      Board.margin small large + small + Board.farMargin small large = large ∧
      (Board.farMargin small large : Int) - Board.margin small large =
        (if small % 2 = 0 then 1 else 0) + if large % 2 = 0 then 1 else 0) ∧
    ∀ (c : Config) (fresh t : Text) (s : Simulation), create c fresh = .ok s → c.board = some t →
      ∃ state, Board.parse t = .ok state ∧ c.Placed state s.board ∧
        s.board.population = t.count '1' := by
  refine ⟨?expansion, ?margins, ?simulation⟩
  case expansion =>
    intro b width height
    exact ⟨fun e => Board.expand_eq_error_iff, Board.exists_expand_eq_ok⟩
  case margins =>
    intro small large h
    exact ⟨Board.margin_eq h, Board.margin_add_farMargin h, Board.farMargin_sub_margin h⟩
  case simulation =>
    intro c fresh t s hcreated hgiven
    obtain ⟨state, hstate, hplaced⟩ := placed_of_create hcreated hgiven
    refine ⟨state, hstate, hplaced, ?_⟩
    rw [hplaced.population_eq, ← Board.count_render, Board.render_of_parse hstate]

/-- A state one cell narrower than the board. -/
def tight : Config where
  width := 4
  height := 5
  rule := "23/3".toList
  seed := some "S".toList
  flickerMode := 0
  startTick := 0
  board := some "010.111".toList
  randomFill := false
  fill := 0.5
  keepSize := false
  postRule := none
  postTicks := 0
  lastTick := none
  selection := none
  drawEvery := 1
  paused := false

/-- There is no column in front of the state, and one behind it. -/
theorem starts_with_given_state_tight :
    ∃ s state, create tight "fresh".toList = .ok s ∧ tight.board = some "010.111".toList ∧
      Board.parse "010.111".toList = .ok state ∧ (state.width < 4 ∧ state.height < 5) ∧
      (∃ out, state.expand 4 5 = .ok out ∧ state.Expanded 4 5 out) ∧
      (Board.farMargin 3 4 : Int) - Board.margin 3 4 = 1 ∧
      tight.Placed state s.board ∧ s.board.population = "010.111".toList.count '1' ∧
      s.board.render = "0000.0100.1110.0000.0000".toList := by
  have hfacts : (create tight "fresh".toList).toOption.any (fun s => decide (
      s.board.render = "0000.0100.1110.0000.0000".toList)) = true := by
    decide +kernel
  have hsides : (Board.parse "010.111".toList).toOption.any (fun state => decide (
      state.width < 4 ∧ state.height < 5)) = true := by
    decide +kernel
  obtain ⟨s, hs, hrender⟩ := (Option.any_eq_true _ _).mp hfacts
  have hs := toOption_eq_some_iff.mp hs
  obtain ⟨hexpansion, hmargins, hsimulation⟩ := starts_with_given_state
  obtain ⟨state, hstate, hplaced, hpopulation⟩ := hsimulation tight _ _ s hs rfl
  rw [hstate] at hsides
  have hroom := of_decide_eq_true hsides
  exact ⟨s, state, hs, rfl, hstate, hroom, (hexpansion state 4 5).2 hroom,
    (hmargins 3 4 (by decide)).2.2, hplaced, hpopulation, of_decide_eq_true hrender⟩

end TorusAutomaton.Simulation

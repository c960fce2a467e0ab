import TorusAutomaton.Proofs.Board.Text
import TorusAutomaton.Proofs.Session.Frames
import TorusAutomaton.Proofs.Session.LastTick

/-!
# The transcript of a run without keys

What a run on a terminal sends out while nobody types is known in advance. Its first turn draws the
board whatever the tick is; from then on every turn draws its tick if that is due, and makes a step.
The turns are gone through one after another, with the frames they draw put end to end. What a frame
looks like is said apart from that, for any frame.
-/

namespace TorusAutomaton

open TorusAutomaton Text

/-! ## The layout of a frame -/

namespace View

/-- A row of cells, a tile for each. -/
def Tiles.row (tiles : Tiles) (cells : List Bool) : Text :=
  cells.map fun alive => if alive then tiles.alive else tiles.dead

namespace Screen

end Screen

end View

namespace Session

open View View.Screen

theorem acts_add (s : Session) (act : Act) : (s.add act).acts = s.acts ++ [act] :=
  List.reverse_cons

/-- A session has come to another one by this many ticks, and nothing else has been done to its
simulation than to ask about inversion. -/
structure Passed (s : Session) (k : Nat) (s' : Session) : Prop where
  args : s'.args = s.args
  tiles : s'.tiles = s.tiles
  sim : ∃ flicker, flicker.mode = s.sim.flicker.mode ∧
    s'.sim = { Simulation.advance^[k] s.sim with flicker }

/-- A frame of the simulation as it is when its tick has come. -/
def Depicts (s : Session) (f : Frame) : Prop :=
  ∃ flicker, flicker.mode = s.sim.flicker.mode ∧
    f.sim = { Simulation.advance^[(f.sim.tick - s.sim.tick).toNat] s.sim with flicker }

/-- Those of `n` ticks that are due to be drawn, the first of them being `k` ticks ahead. -/
def dueTicks (s : Session) (k n : Nat) : List Int :=
  ((List.range' k n).map fun j : Nat => s.sim.tick + j).filter fun t =>
    0 ≤ t ∧ (s.sim.drawEvery : Int) ∣ t

variable {s s' : Session} {k n m : Nat}

theorem dueTicks_succ (s : Session) (k n : Nat) :
    s.dueTicks k (n + 1) =
      (if 0 ≤ s.sim.tick + k ∧ (s.sim.drawEvery : Int) ∣ s.sim.tick + k then
        [s.sim.tick + (k : Int)] else []) ++ s.dueTicks (k + 1) n := by
  rw [dueTicks, List.range'_succ, List.map_cons, List.filter_cons]
  simp only [decide_eq_true_eq]
  split <;> rfl

namespace Passed

theorem refl (s : Session) : s.Passed 0 s := ⟨rfl, rfl, s.sim.flicker, rfl, rfl⟩

/-- Nothing but the board, the tick and what is shown and asked about has changed. -/
theorem sim_eq (h : s.Passed k s') : ∃ board flicker post,
    s'.sim = { s.sim with board, tick := s.sim.tick + k, flicker, post } := by
  obtain ⟨flicker, _, hsim⟩ := h.sim
  obtain ⟨board, post, hadvances⟩ := s.sim.advances_eq k
  exact ⟨board, flicker, post, by rw [hsim, hadvances]⟩

theorem tick (h : s.Passed k s') : s'.sim.tick = s.sim.tick + k := by
  obtain ⟨_, _, _, hsim⟩ := h.sim_eq
  rw [hsim]

theorem paused (h : s.Passed k s') : s'.sim.paused = s.sim.paused := by
  obtain ⟨_, _, _, hsim⟩ := h.sim_eq
  rw [hsim]

theorem lastTick (h : s.Passed k s') : s'.sim.lastTick = s.sim.lastTick := by
  obtain ⟨_, _, _, hsim⟩ := h.sim_eq
  rw [hsim]

theorem shouldDraw_iff (h : s.Passed k s') (hunpaused : s.sim.paused = false) :
    s'.sim.shouldDraw = true ↔
      0 ≤ s.sim.tick + k ∧ (s.sim.drawEvery : Int) ∣ s.sim.tick + k := by
  obtain ⟨_, _, _, hsim⟩ := h.sim_eq
  rw [hsim]
  simp only [Simulation.shouldDraw, hunpaused, Bool.not_false, Bool.true_and, Bool.and_eq_true,
    decide_eq_true_eq, beq_iff_eq, Int.dvd_iff_emod_eq_zero]

theorem present {v : TerminalView} (h : s.Passed k v.session) {v' : TerminalView}
    (hsame : v.Presents v') : s.Passed k v'.session where
  args := hsame.args.trans h.args
  tiles := hsame.tiles.trans h.tiles
  sim := by
    obtain ⟨_, hmode, hsim⟩ := h.sim
    obtain ⟨flicker, hsim'⟩ := hsame.sim
    have hmode' : flicker.mode = v.session.sim.flicker.mode := by
      rw [← hsame.mode, hsim']
    exact ⟨flicker, by rw [hmode', hsim, hmode], by rw [hsim', hsim]⟩

theorem step (h : s.Passed k s') (hunpaused : s.sim.paused = false) :
    s.Passed (k + 1) (s'.perform .step) where
  args := h.args
  tiles := h.tiles
  sim := by
    have hstep : (s'.perform .step).sim = s'.sim.advance :=
      TerminalView.step_unpaused (h.paused.trans hunpaused)
    obtain ⟨flicker, hmode, hsim⟩ := h.sim
    refine ⟨flicker, hmode, ?_⟩
    rw [hstep, hsim, Function.iterate_succ_apply']
    rfl

/-- The frame of the present tick. -/
theorem depicts (h : s.Passed k s') (inverted : Bool) : s.Depicts (s'.frame inverted) := by
  have hpassed : ((s'.frame inverted).sim.tick - s.sim.tick).toNat = k := by
    show (s'.sim.tick - s.sim.tick).toNat = k
    rw [h.tick]
    omega
  rw [Depicts, hpassed]
  exact h.sim

end Passed

/-- A frame of a session has the height of its board. -/
theorem Depicts.height {f : Frame} (h : s.Depicts f)
    (hshown : s.sim.displayBoard = s.sim.shownFor s.sim.board) :
    f.sim.displayBoard.height = s.sim.board.height := by
  obtain ⟨_, _, hsim⟩ := h
  have hboard : f.sim.displayBoard = _ := (congrArg Simulation.displayBoard hsim).trans
    (Simulation.displayBoard_advances hshown (f.sim.tick - s.sim.tick).toNat)
  rw [hboard, Simulation.height_shownFor, Simulation.height_advances]

namespace TerminalView

variable {v v' v'' : TerminalView}

/-- The frames that have been drawn, the first one first. -/
def drawn (v : TerminalView) : List Frame := v.session.acts.filterMap Act.drawn?

/-- From a view to a later one, frames of these ticks have been drawn. -/
def Draws (s : Session) (v v' : TerminalView) (ticks : List Int) : Prop :=
  ∃ frames, v'.drawn = v.drawn ++ frames ∧ frames.map (fun f => f.sim.tick) = ticks ∧
    ∀ f ∈ frames, s.Depicts f

theorem draws_none (h : v'.drawn = v.drawn) : Draws s v v' [] :=
  ⟨[], h.trans (List.append_nil _).symm, rfl, by simp⟩

theorem Draws.trans {ticks ticks' : List Int} (h : Draws s v v' ticks)
    (h' : Draws s v' v'' ticks') :
    Draws s v v'' (ticks ++ ticks') := by
  obtain ⟨frames, hdrawn, rfl, hframes⟩ := h
  obtain ⟨frames', hdrawn', rfl, hframes'⟩ := h'
  refine ⟨frames ++ frames', ?_, List.map_append, ?_⟩
  · rw [hdrawn', hdrawn, List.append_assoc]
  · intro f hf
    rcases List.mem_append.mp hf with hf | hf
    · exact hframes f hf
    · exact hframes' f hf

theorem drawn_askOnce (v : TerminalView) : v.askOnce.drawn = v.drawn := by
  unfold askOnce
  split
  · rfl
  · show ((Session.add _ _).acts).filterMap Act.drawn? = _
    rw [acts_add, List.filterMap_append]
    exact List.append_nil _

theorem drawn_draw (v : TerminalView) : v.draw.drawn = v.drawn ++ [v.session.frame v.inverted] := by
  show ((Session.add _ _).acts).filterMap Act.drawn? = _
  rw [acts_add, List.filterMap_append]
  rfl

theorem drawn_save (v : TerminalView) : v.save.1.drawn = v.drawn := by
  have hacts : (v.session.save v.inverted).1.acts.filterMap Act.drawn? = v.drawn := by
    refine save_induction (P := fun s => s.acts.filterMap Act.drawn? = v.drawn) (fun _ => rfl) ?_ ?_
    · rintro s' _ (rfl | rfl) h
      all_goals
        rw [acts_add, List.filterMap_append, h]
        exact List.append_nil _
    · intro s' path h
      rw [acts_add, List.filterMap_append, h]
      exact List.append_nil _
  rw [drawn, v.save_view.1]
  exact hacts

/-- The frame section draws the present tick if that is due. -/
theorem draws_present (h : s.Passed k v.session) :
    Draws s v v.present.1 (if v.drawDue then [s.sim.tick + (k : Int)] else []) := by
  have hasked := h.present (presents_askOnce v)
  have hdisplay : Draws s v v.display (if v.drawDue then [s.sim.tick + (k : Int)] else []) := by
    unfold display
    split
    · refine ⟨[_], (drawn_draw _).trans (by rw [drawn_askOnce]), ?_, ?_⟩
      · exact congrArg (fun t => [t]) hasked.tick
      · simpa using hasked.depicts v.askOnce.inverted
    · exact draws_none (drawn_askOnce v)
  rw [present_eq]
  split
  · split
    · have hsaved := hdisplay.trans (draws_none (drawn_save v.display))
      rwa [List.append_nil] at hsaved
    · exact hdisplay
  · rename_i hnothing
    simp only [Bool.or_eq_true, not_or, Bool.not_eq_true] at hnothing
    rw [if_neg (by simp [hnothing.1])]
    exact draws_none rfl

theorem drawDue_iff (h : s.Passed k v.session) (hunpaused : s.sim.paused = false)
    (hredraw : v.redraw = false) :
    v.drawDue = true ↔ 0 ≤ s.sim.tick + k ∧ (s.sim.drawEvery : Int) ∣ s.sim.tick + k := by
  rw [drawDue, hredraw, Bool.or_false]
  exact h.shouldDraw_iff hunpaused

/-! ## Turns without keys -/

/-- A turn draws its tick if that is due, and if the run goes on after it, it has come to the next
tick, unless the board had to be drawn whatever the time is. -/
theorem proceed_draws {outcome : Outcome} (hunpaused : s.sim.paused = false)
    (h : s.Passed k v.session) (hproceed : v.proceed = (v', outcome)) :
    Draws s v v' (if v.drawDue then [s.sim.tick + (k : Int)] else []) ∧
      (outcome = .running →
        v'.redraw = false ∧ s.Passed (if v.redraw then k else k + 1) v'.session) := by
  have hdraws := draws_present h
  rcases proceed_cases hproceed with ⟨failure, hpresent, rfl⟩ | ⟨hpresent, _, rfl⟩ |
    ⟨v₂, hpresent, _, rfl, hredraw, rfl⟩ | ⟨v₂, hpresent, _, rfl, hredraw, rfl⟩
  all_goals rw [hpresent] at hdraws
  · exact ⟨hdraws, fun hrunning => by cases hrunning⟩
  · exact ⟨hdraws, fun hrunning => by cases hrunning⟩
  · refine ⟨hdraws, fun _ => ⟨rfl, ?_⟩⟩
    rw [if_pos hredraw]
    exact { h.present (presents_of_present hpresent) with }
  · refine ⟨hdraws, fun _ => ⟨(presents_of_present hpresent).redraw.trans hredraw, ?_⟩⟩
    rw [hredraw]
    exact (h.present (presents_of_present hpresent)).step hunpaused

end TerminalView

end Session

end TorusAutomaton

import TorusAutomaton.Simulation.Basic

/-!
# What the flicker remembers

Only one of the four modes makes any use of the population that was seen last: all others answer in
the same way whatever has been asked before. That one mode answers by the live cells alone, since
the sample and the board have the same number of cells.
-/

namespace TorusAutomaton

namespace Flicker

/-! ## Modes and their numbers -/

theorem Mode.number_lt (mode : Mode) : mode.number < 4 := by
  cases mode <;> decide

theorem Mode.number_next (mode : Mode) : mode.next.number = (mode.number + 1) % 4 := by
  cases mode <;> rfl

theorem Mode.number_ofNumber (n : Nat) : (ofNumber n).number = n % 4 := by
  have hlt : n % 4 < 4 := Nat.mod_lt _ (by decide)
  unfold ofNumber
  generalize n % 4 = r at hlt ⊢
  match r, hlt with
  | 0, _ => rfl
  | 1, _ => rfl
  | 2, _ => rfl
  | 3, _ => rfl

/-! ## Modes that do not look back -/

/-- The sample drops out of the comparison of live cells. -/
theorem inverts_crowded {f : Flicker} (h : f.mode = .crowded) (alive dead : Nat) (tick : Int) :
    f.inverts alive dead tick = decide (dead < alive) := by
  simp only [inverts, h, gt_iff_lt, decide_eq_decide]
  omega

/-- Apart from the mode that compares dead cells, the answer is told by the mode. -/
theorem inverts_congr {f g : Flicker} (hmode : f.mode = g.mode) (hswing : g.mode ≠ .swing)
    (alive dead : Nat) (tick : Int) : f.inverts alive dead tick = g.inverts alive dead tick := by
  cases hg : g.mode with
  | off => simp only [inverts, hmode, hg]
  | crowded => rw [inverts_crowded (hmode.trans hg), inverts_crowded hg]
  | swing => exact absurd hg hswing
  | strobe => simp only [inverts, hmode, hg]

@[simp] theorem mode_record (f : Flicker) (alive dead : Nat) :
    (f.record alive dead).mode = f.mode := by
  cases h : f.mode <;> simp [record, h]

/-! ## Samples -/

/-- The modes that compare populations, which take a sample with every question. -/
def Mode.compares : Mode → Bool
  | .crowded | .swing => true
  | .off | .strobe => false

theorem record_of_compares {f : Flicker} (h : f.mode.compares = true) (alive dead : Nat) :
    f.record alive dead = { f with previousAlive := alive, previousDead := dead } := by
  cases hmode : f.mode <;> simp_all [record, Mode.compares]

theorem record_of_not_compares {f : Flicker} (h : f.mode.compares = false) (alive dead : Nat) :
    f.record alive dead = f := by
  cases hmode : f.mode <;> simp_all [record, Mode.compares]

/-- With as many cells in the sample as on the board, comparing the dead cells comes to comparing
the live ones. -/
theorem inverts_swing {f : Flicker} (h : f.mode = .swing) {alive dead : Nat}
    (hcells : f.previousAlive + f.previousDead = alive + dead) (tick : Int) :
    f.inverts alive dead tick = decide (f.previousAlive < alive) := by
  simp only [inverts, h, gt_iff_lt, decide_eq_decide]
  omega

end Flicker

/-- Two simulations that differ at most in the population that was seen last, in a mode that makes
no use of it. -/
structure Simulation.Alike (s t : Simulation) : Prop where
  same : ∃ flicker, s = { t with flicker }
  mode : s.flicker.mode = t.flicker.mode
  unswung : t.flicker.mode ≠ .swing

namespace Simulation.Alike

variable {s t : Simulation}

theorem refl (h : s.flicker.mode ≠ .swing) : s.Alike s where
  same := ⟨s.flicker, rfl⟩
  mode := rfl
  unswung := h

theorem inverted (h : s.Alike t) : s.inverted = t.inverted := by
  obtain ⟨flicker, rfl⟩ := h.same
  exact Flicker.inverts_congr h.mode h.unswung _ _ _

theorem bindings (h : s.Alike t) (inverted : Bool) :
    s.bindings inverted = t.bindings inverted := by
  obtain ⟨flicker, rfl⟩ := h.same
  have hmode : flicker.mode = t.flicker.mode := h.mode
  simp only [Simulation.bindings, hmode]
  rfl

theorem displayBoard (h : s.Alike t) : s.displayBoard = t.displayBoard := by
  obtain ⟨flicker, rfl⟩ := h.same
  rfl

theorem shouldSave (h : s.Alike t) : s.shouldSave = t.shouldSave := by
  obtain ⟨flicker, rfl⟩ := h.same
  rfl

theorem finished (h : s.Alike t) : s.finished = t.finished := by
  obtain ⟨flicker, rfl⟩ := h.same
  rfl

theorem tick (h : s.Alike t) : s.tick = t.tick := by
  obtain ⟨flicker, rfl⟩ := h.same
  rfl

theorem board (h : s.Alike t) : s.board = t.board := by
  obtain ⟨flicker, rfl⟩ := h.same
  rfl

theorem asked_left (h : s.Alike t) : s.asked.Alike t where
  same := by
    obtain ⟨flicker, rfl⟩ := h.same
    exact ⟨_, rfl⟩
  mode := (Flicker.mode_record _ _ _).trans h.mode
  unswung := h.unswung

theorem asked_right (h : s.Alike t) : s.Alike t.asked where
  same := by
    obtain ⟨flicker, rfl⟩ := h.same
    exact ⟨flicker, rfl⟩
  mode := h.mode.trans (Flicker.mode_record _ _ _).symm
  unswung := fun hswing => h.unswung ((Flicker.mode_record _ _ _).symm.trans hswing)

theorem step (h : s.Alike t) : s.step.Alike t.step where
  same := by
    obtain ⟨flicker, rfl⟩ := h.same
    refine ⟨flicker, ?_⟩
    by_cases hpaused : t.paused = true
    · simp [Simulation.step, hpaused]
    · simp [Simulation.step, hpaused, Simulation.advance]
  mode := by
    have hstep : ∀ u : Simulation, u.step.flicker = u.flicker := by
      intro u
      unfold Simulation.step
      split <;> rfl
    rw [hstep, hstep, h.mode]
  unswung := by
    unfold Simulation.step
    split <;> exact h.unswung

end Simulation.Alike

end TorusAutomaton

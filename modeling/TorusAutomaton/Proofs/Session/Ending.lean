import TorusAutomaton.Proofs.Session.Agreement

/-!
# Whether a run ends

A run on a terminal that knows its last tick and is not paused needs a turn for each tick to come,
one for the last tick itself, and one if the board is to be drawn again; with that many turns it
ends. All other runs go on while nobody types: one that is paused does nothing more at all, and one
that does not know its last tick can only be stopped by a frame that cannot be saved.
-/

namespace TorusAutomaton.Session.TerminalView

open TorusAutomaton

variable {v v' : TerminalView} {outcome : Outcome}

/-! ## Runs that end -/

/-- A turn after which the run goes on is one of those it needs. -/
theorem Runs.proceed {n : Nat} (h : Runs v.session n) (hproceed : v.proceed = (v', .running)) :
    ∃ k, Runs v'.session k ∧ k + v'.redraw.toNat + 1 = n + v.redraw.toNat := by
  have hafter : ∀ {v₂ : TerminalView}, v.present = (v₂, none) → Runs v₂.session n := by
    intro v₂ hpresent
    obtain ⟨_, hsim⟩ := (presents_of_present hpresent).sim
    exact h.of_sim hsim
  rcases proceed_cases hproceed with ⟨_, _, hfailed⟩ | ⟨_, _, hstopped⟩ |
    ⟨v₂, hpresent, _, _, hredraw, rfl⟩ | ⟨v₂, hpresent, hunfinished, _, hredraw, rfl⟩
  · cases hfailed
  · cases hstopped
  · have hruns := hafter hpresent
    refine ⟨n, hruns, ?_⟩
    rw [hredraw]
    rfl
  · have hruns := hafter hpresent
    have hsame : v₂.redraw = v.redraw := (presents_of_present hpresent).redraw
    cases n with
    | zero => exact absurd (hruns.finished_iff.mpr rfl) (by simp [hunfinished])
    | succ k =>
        refine ⟨k, hruns.step, ?_⟩
        show k + v₂.redraw.toNat + 1 = k + 1 + v.redraw.toNat
        rw [hsame]
        omega

/-- A run ends with a turn for each tick to come, one for the last tick, and one more if the board
is to be drawn again. -/
theorem Runs.idle_ends {n turns : Nat} (h : Runs v.session n)
    (hturns : n + v.redraw.toNat < turns) : (v.idle turns).2 ≠ .running := by
  induction turns generalizing v n with
  | zero => exact absurd hturns (Nat.not_lt_zero _)
  | succ turns ih =>
      rw [idle_succ]
      cases hproceed : v.proceed with
      | mk v' outcome =>
          cases outcome with
          | running =>
              obtain ⟨k, hruns, hleft⟩ := h.proceed hproceed
              exact ih hruns (by omega)
          | stopped exit => exact fun hrunning => by cases hrunning
          | failed failure => exact fun hrunning => by cases hrunning

/-! ## Runs that go on -/

/-- There is no last tick, or it is still to come and the simulation is paused. -/
def Endless (v : TerminalView) : Prop :=
  v.session.sim.lastTick = none ∨
    v.session.sim.paused = true ∧ v.session.sim.finished = false

theorem Endless.unfinished (h : v.Endless) : v.session.sim.finished = false := by
  rcases h with hlast | ⟨_, hunfinished⟩
  · simp [Simulation.finished, hlast]
  · exact hunfinished

theorem paused_step (sim : Simulation) : sim.step.paused = sim.paused := by
  unfold Simulation.step
  split <;> rfl

theorem Endless.step (h : v.Endless) :
    Endless { v with session := v.session.perform .step } := by
  rcases h with hlast | hpaused
  · left
    show v.session.sim.step.lastTick = none
    unfold Simulation.step
    split <;> exact hlast
  · right
    show v.session.sim.step.paused = true ∧ v.session.sim.step.finished = false
    rwa [Simulation.step, if_pos hpaused.1]

theorem unpaused_of_failure {failure : Failure} (h : v.present = (v', some failure)) :
    v.session.sim.paused = false := by
  rw [present_eq] at h
  split at h
  · split at h
    · rename_i hdue
      have hshould := shouldSave_of_saveDue hdue
      simp only [Simulation.shouldSave, Bool.and_eq_true, Bool.not_eq_true'] at hshould
      exact hshould.1
    · cases h
  · cases h

/-- A turn of such a run does not end it, unless a frame cannot be saved. -/
theorem Endless.proceed (h : v.Endless) (hproceed : v.proceed = (v', outcome)) :
    (outcome = .running ∧ v'.Endless ∧ v'.session.sim.paused = v.session.sim.paused) ∨
      ∃ failure, outcome = .failed failure ∧ v.session.sim.paused = false := by
  have hafter : ∀ {v₂ : TerminalView} {failure : Option Failure}, v.present = (v₂, failure) →
      v₂.Endless ∧ v₂.session.sim.paused = v.session.sim.paused := by
    intro v₂ failure hpresent
    obtain ⟨_, hsim⟩ := (presents_of_present hpresent).sim
    unfold Endless
    rw [hsim]
    exact ⟨h, rfl⟩
  rcases proceed_cases hproceed with ⟨failure, hpresent, rfl⟩ | ⟨hpresent, hfinished, rfl⟩ |
    ⟨v₂, hpresent, _, rfl, _, rfl⟩ | ⟨v₂, hpresent, _, rfl, _, rfl⟩
  · exact .inr ⟨failure, rfl, unpaused_of_failure hpresent⟩
  · exact absurd hfinished (by simp [(hafter hpresent).1.unfinished])
  · obtain ⟨hnext, hpaused⟩ := hafter hpresent
    exact .inl ⟨rfl, hnext, hpaused⟩
  · obtain ⟨hnext, hpaused⟩ := hafter hpresent
    exact .inl ⟨rfl, hnext.step, (paused_step _).trans hpaused⟩

theorem Endless.idle (h : v.Endless) (n : Nat) :
    ((v.idle n).2 = .running ∧ (v.idle n).1.Endless) ∨
      ∃ failure, (v.idle n).2 = .failed failure ∧ v.session.sim.paused = false := by
  induction n generalizing v with
  | zero => exact .inl ⟨rfl, h⟩
  | succ n ih =>
      rw [idle_succ]
      cases hproceed : v.proceed with
      | mk v' outcome =>
          rcases h.proceed hproceed with ⟨rfl, hnext, hpaused⟩ | ⟨failure, rfl, hpaused⟩
          · rw [← hpaused]
            exact ih hnext
          · exact .inr ⟨failure, rfl, hpaused⟩

/-- A run that goes on has not reached its last tick. -/
theorem unfinished_of_idle {n : Nat} (h : (v.idle (n + 1)).2 = .running) :
    v.session.sim.finished = false := by
  rw [idle_succ] at h
  cases hproceed : v.proceed with
  | mk v' outcome =>
      rw [hproceed] at h
      rcases proceed_cases hproceed with ⟨_, _, rfl⟩ | ⟨_, _, rfl⟩ |
        ⟨v₂, hpresent, hunfinished, _⟩ | ⟨v₂, hpresent, hunfinished, _⟩
      · cases h
      · cases h
      all_goals
        obtain ⟨_, hsim⟩ := (presents_of_present hpresent).sim
        rw [hsim] at hunfinished
        exact hunfinished

/-- A run that goes on after all keys and all ticks to come has no last tick or is paused. -/
theorem endless_of_run {keys : List Key} (h : v.run keys = (v', .running)) : v'.Endless := by
  unfold run at h
  split at h
  · rename_i v₁ _
    have hendless : v₁.Endless := by
      cases hlast : v₁.session.sim.lastTick with
      | none => exact .inl hlast
      | some m =>
          cases hpaused : v₁.session.sim.paused with
          | false =>
              have hruns : Runs v₁.session v₁.session.ticksLeft :=
                ⟨hpaused, by rw [hlast]; rfl, rfl⟩
              have hturns : v₁.session.ticksLeft + v₁.redraw.toNat < v₁.session.ticksLeft + 2 := by
                cases v₁.redraw <;> simp
              exact absurd (congrArg Prod.snd h) (hruns.idle_ends hturns)
          | true => exact .inr ⟨hpaused, unfinished_of_idle (congrArg Prod.snd h)⟩
    rcases hendless.idle (v₁.session.ticksLeft + 2) with ⟨_, hnext⟩ | ⟨failure, hfailed, _⟩
    · rw [h] at hnext
      exact hnext
    · rw [h] at hfailed
      cases hfailed
  · rename_i hended
    exact absurd h (hended _)

/-- **Nothing more comes of a run that goes on.** A run on a terminal that is still going on after
all keys have been taken and all ticks to come have passed has no last tick or is paused before it.
As long as nobody types, however often the time for a tick comes, it will not be done. If it is
paused, nothing ends it; otherwise nothing does but a frame that cannot be saved. -/
theorem run_goes_on {keys : List Key} (h : v.run keys = (v', .running)) :
    v'.Endless ∧ ∀ dues,
      (v'.waits dues).2 = .running ∨
        ∃ failure, (v'.waits dues).2 = .failed failure ∧ v'.session.sim.paused = false := by
  have hendless := endless_of_run h
  refine ⟨hendless, ?_⟩
  intro dues
  obtain ⟨n, hn, _⟩ := v'.waits_eq_idle dues
  rw [hn]
  exact (hendless.idle n).imp_left And.left

end TorusAutomaton.Session.TerminalView
